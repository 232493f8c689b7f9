import TextColumns.Proofs.Pattern.EmptyMatch
import TextColumns.Proofs.Regex.Matches
import TextColumns.Proofs.Regex.Order
import Mathlib.Data.List.NodupEquivFin

/-!
Every match has a start and a stop.  The first instruction of a compiled program records the place
at which its thread began, and the last one before it accepts records where the thread has come.
-/

namespace TextColumns

open Search (LeadsBetween Slots Visit explore moves recorded startVisit)
open Text (Cursor Extent)

variable {program : Program}

theorem Program.eq_of_accept (hcheck : program.check = .ok ()) {address other : Nat}
    (haddress : program.instructions[address]? = some .accept)
    (hother : program.instructions[other]? = some .accept) : address = other := by
  obtain ⟨-, -, -, hcount, -⟩ := Program.check_eq_ok_iff.mp hcheck
  have hcount : program.instructions.toList.count .accept = 1 := by
    rw [List.count, Array.countP_toList]
    exact hcount
  have honce {i j : Nat} (hi : program.instructions.toList[i]? = some .accept)
      (hj : program.instructions.toList[j]? = some .accept) : ¬ i < j := by
    intro hlt
    obtain ⟨hiSize, hiAccept⟩ := List.getElem?_eq_some_iff.mp hi
    obtain ⟨hjSize, hjAccept⟩ := List.getElem?_eq_some_iff.mp hj
    have htwice : List.Duplicate Instruction.accept program.instructions.toList :=
      List.duplicate_iff_exists_distinct_get.mpr
        ⟨⟨i, hiSize⟩, ⟨j, hjSize⟩, hlt, hiAccept.symm, hjAccept.symm⟩
    rw [List.duplicate_iff_two_le_count, hcount] at htwice
    exact absurd htwice (by decide)
  rw [← Array.getElem?_toList] at haddress hother
  exact Nat.le_antisymm (Nat.le_of_not_lt (honce hother haddress))
    (Nat.le_of_not_lt (honce haddress hother))

namespace Pattern

/-- Programs of which a thread accepts only behind the instruction at `stop`, which records the
stop of the match. -/
structure StopsAt (program : Program) (stop : Nat) : Prop where
  last : program.instructions[stop]? = some (.save 1)
  before : ∀ {cursor address instruction place}, address < stop →
    program.instructions[address]? = some instruction →
    place ∈ moves program cursor address instruction → place.1 ≤ stop
  accept : ∀ {address}, program.instructions[address]? = some .accept ↔ address = stop + 1

theorem stopsAt_of_compile {text : String} {flags : Flags}
    (hcompile : compile text flags = .ok program) : ∃ stop, StopsAt program stop := by
  have hstart := (startsOnce_of_compile hcompile).start
  obtain ⟨parsed, -, -, hcheck, exit, hfragment, haccept⟩ := compile_spec hcompile
  rw [hstart] at hfragment
  cases hfragment with
  | @capture _ _ _ stop hentry hbody hstop =>
      refine ⟨stop, hstop, ?_, ?_⟩
      · intro cursor address instruction place hlt hinstruction hplace
        obtain ⟨hle, hleads⟩ := hbody.leadsBetween cursor
        rcases Nat.eq_zero_or_pos address with rfl | hpos
        · obtain rfl := Option.some.inj (hentry.symm.trans hinstruction)
          rw [List.mem_singleton.mp hplace]
          exact hle
        · exact (hleads address instruction hpos hlt hinstruction place hplace).2
      · intro address
        constructor
        · exact fun h => Program.eq_of_accept hcheck h haccept
        · rintro rfl
          exact haccept

end Pattern

namespace Search

open Pattern (StartsOnce StopsAt)

structure Visit.Traces (program : Program) (stop : Nat) (place : Cursor) (visit : Visit) :
    Prop where
  size_eq : visit.slots.size = program.slots
  started : visit.address = 0 ∧ visit.cursor = place ∨
    visit.address ≠ 0 ∧ visit.slots[0]? = some (some place.offset)
  stopped : visit.address ≤ stop ∨
    visit.address = stop + 1 ∧ ∃ offset, visit.slots[1]? = some (some offset)

variable {stop : Nat} {place : Cursor} {visit next : Visit}

theorem size_recorded (cursor : Cursor) (slots : Slots) (instruction : Instruction) :
    (recorded cursor slots instruction).size = slots.size := by
  cases instruction with
  | save slot => exact Array.size_setIfInBounds
  | jump _ | split _ _ | assertion _ | char _ _ | any _ | oneOf _ _ | accept => rfl

theorem traces_startVisit (hstarts : StartsOnce program) (place : Cursor) :
    (startVisit program place).Traces program stop place where
  size_eq := Array.size_replicate
  started := .inl ⟨hstarts.start, rfl⟩
  stopped := .inl (by rw [startVisit, hstarts.start]; exact Nat.zero_le stop)

theorem getElem?_zero_of_mem_onward (hstarts : StartsOnce program) (hslots : 0 < program.slots)
    (hvisit : visit.Traces program stop place) (hnext : next ∈ visit.onward program) :
    next.address ≠ 0 ∧ next.slots[0]? = some (some place.offset) := by
  obtain ⟨hnonzero, ⟨haddress, -, hrecorded⟩ | ⟨haddress, instruction, hspares, hrecorded⟩⟩ :=
    Visit.onward_cases hstarts hnext
  · rcases hvisit.started with ⟨-, hcursor⟩ | ⟨hother, -⟩
    · refine ⟨hnonzero, ?_⟩
      rw [hrecorded, hcursor]
      exact Array.getElem?_setIfInBounds_self_of_lt (hvisit.size_eq ▸ hslots)
    · exact absurd haddress hother
  · rcases hvisit.started with ⟨hother, -⟩ | ⟨-, hzero⟩
    · exact absurd hother haddress
    · refine ⟨hnonzero, ?_⟩
      rw [hrecorded]
      cases instruction with
      | save slot => exact (Array.getElem?_setIfInBounds_ne hspares).trans hzero
      | jump _ | split _ _ | assertion _ | char _ _ | any _ | oneOf _ _ | accept => exact hzero

theorem moves_accept (program : Program) (cursor : Cursor) (address : Nat) :
    moves program cursor address .accept = [] := by
  dsimp only [moves]
  split
  · rfl
  · exact if_neg nofun

theorem stopped_of_mem_onward (hstops : StopsAt program stop) (hslots : 1 < program.slots)
    (hvisit : visit.Traces program stop place) (hnext : next ∈ visit.onward program) :
    next.address ≤ stop ∨
      next.address = stop + 1 ∧ ∃ offset, next.slots[1]? = some (some offset) := by
  obtain ⟨instruction, hinstruction, hplace, hrecorded⟩ := Visit.mem_onward.mp hnext
  rcases hvisit.stopped with hle | ⟨haddress, -⟩
  · rcases Nat.lt_or_eq_of_le hle with hlt | rfl
    · exact .inl (hstops.before hlt hinstruction hplace)
    · rw [hstops.last] at hinstruction
      obtain rfl := Option.some.inj hinstruction
      obtain ⟨hnextAddress, -⟩ := Prod.mk.inj (List.mem_singleton.mp hplace)
      refine .inr ⟨hnextAddress, visit.cursor.offset, ?_⟩
      rw [hrecorded]
      exact Array.getElem?_setIfInBounds_self_of_lt (hvisit.size_eq ▸ hslots)
  · -- A thread that accepts goes nowhere.
    rw [hstops.accept.mpr haddress] at hinstruction
    obtain rfl := Option.some.inj hinstruction
    rw [moves_accept] at hplace
    cases hplace

theorem Visit.Traces.onward (hstarts : StartsOnce program) (hstops : StopsAt program stop)
    (hslots : 2 ≤ program.slots) (hvisit : visit.Traces program stop place)
    (hnext : next ∈ visit.onward program) : next.Traces program stop place where
  size_eq := by
    obtain ⟨instruction, -, -, hrecorded⟩ := Visit.mem_onward.mp hnext
    rw [hrecorded, size_recorded, hvisit.size_eq]
  started := .inr (getElem?_zero_of_mem_onward hstarts (Nat.lt_of_succ_lt hslots) hvisit hnext)
  stopped := stopped_of_mem_onward hstops hslots hvisit hnext

end Search

namespace Pattern

theorem exists_extent_of_explore {text : String} {flags : Flags}
    (hcompile : compile text flags = .ok program) {fresh : Finset (Nat × Nat)}
    {places : List Cursor} {slots : Slots}
    (hfound : explore program fresh (places.map (startVisit program)) = some slots) :
    ∃ place ∈ places, ∃ stop, slots.group? 0 = some ⟨place.offset, stop⟩ := by
  have hstarts := startsOnce_of_compile hcompile
  obtain ⟨stop, hstops⟩ := stopsAt_of_compile hcompile
  obtain ⟨-, -, -, hcheck, -⟩ := compile_spec hcompile
  obtain ⟨-, hslots, -⟩ := Program.check_eq_ok_iff.mp hcheck
  obtain ⟨visit, ⟨place, hplace, htraces⟩, haccepts, rfl⟩ := Search.explore_induct
    (P := fun visit => ∃ place ∈ places, visit.Traces program stop place)
    (fun visit ⟨place, hplace, hvisit⟩ next hnext =>
      ⟨place, hplace, hvisit.onward hstarts hstops hslots hnext⟩)
    (List.forall_mem_map.mpr fun place hplace =>
      ⟨place, hplace, Search.traces_startVisit hstarts place⟩) hfound
  have haddress := hstops.accept.mp (eq_of_beq haccepts)
  refine ⟨place, hplace, ?_⟩
  rcases htraces.started with ⟨hzero, -⟩ | ⟨-, hstart⟩
  · exact absurd (haddress.symm.trans hzero) (Nat.succ_ne_zero stop)
  · rcases htraces.stopped with hle | ⟨-, offset, hstop⟩
    · omega
    · exact ⟨offset, by simp only [Slots.group?, Nat.mul_zero, Nat.zero_add, hstart, hstop]⟩

end Pattern

namespace Regex

open Pattern (Flags)
open Search (Matched Mode everywhere)

variable {pattern : String} {flags : Flags} {regex : Regex} {text : String} {cursor : Cursor}

theorem exists_extent_of_matchFrom? (hcompile : Regex.compile pattern flags = .ok regex)
    (hon : Cursor.On text cursor) {slots : Slots}
    (hmatch : regex.program.matchFrom? cursor = some slots) :
    ∃ extent, slots.group? 0 = some extent ∧ extent.Within text ∧
      cursor.offset ≤ extent.start ∧ extent.start ≤ extent.stop := by
  have hprogram := program_of_compile hcompile
  rw [Program.matchFrom?_eq (check_of_compile hcompile) hon] at hmatch
  have hmatched : Matched regex.program text cursor slots := ⟨hon, hmatch⟩
  obtain ⟨place, -, stop, hgroup⟩ := Pattern.exists_extent_of_explore hprogram hmatch
  exact ⟨_, hgroup, hmatched.within.group? hgroup,
    hmatched.ordered (Pattern.startsOnce_of_compile hprogram) hgroup⟩

theorem offset_lt_of_resume? {extent : Extent} {behind : Cursor} (hon : Cursor.On text cursor)
    (hwithin : extent.Within text) (hfrom : cursor.offset ≤ extent.start)
    (hordered : extent.start ≤ extent.stop)
    (hresume :
      Matcher.resume? (extent.start == extent.stop) (cursor.seek extent.stop) = some behind) :
    cursor.offset < behind.offset := by
  have hseek := hon.offset_seek hwithin.stop (Nat.le_trans hfrom hordered)
  cases hempty : extent.start == extent.stop with
  | true =>
      rw [hempty] at hresume
      obtain ⟨⟨c, place⟩, hnext, rfl⟩ := Option.map_eq_some_iff.mp hresume
      have hlt : extent.stop < place.offset := hseek ▸ Cursor.offset_lt_of_next? hnext
      show cursor.offset < place.offset
      omega
  | false =>
      rw [hempty] at hresume
      obtain rfl := Option.some.inj hresume
      have hproper : extent.start ≠ extent.stop := ne_of_beq_false hempty
      rw [hseek]
      omega

/-- Behind every match the search goes on further behind, so it leaves the text sooner or later. -/
theorem advances_of_compile (hcompile : Regex.compile pattern flags = .ok regex) :
    regex.program.Advances := by
  intro text cursor behind slots extent hon hmatch hgroup hresume
  obtain ⟨other, hother, hwithin, hfrom, hordered⟩ :=
    exists_extent_of_matchFrom? hcompile hon hmatch
  obtain rfl := Option.some.inj (hgroup.symm.trans hother)
  exact ⟨(Matcher.on_of_resume? (hon.seek extent.stop) hresume).1,
    offset_lt_of_resume? hon hwithin hfrom hordered hresume⟩

/-- Whatever has been sought before, all matches of a text are found, up to the limit. -/
theorem findAll_after (hcompile : Regex.compile pattern flags = .ok regex)
    (searches : List (Mode × Cursor)) (limit : Option Nat) (text : String) :
    ((regex.matcher.after searches).findAll limit text).1 =
      Text.upTo limit (regex.program.extentsIn text) := by
  have hcheck := check_of_compile hcompile
  exact ((Matcher.ready_ofProgram regex.program).after hcheck searches).findAll_eq hcheck
    (advances_of_compile hcompile) limit text

theorem find_of_matchFrom? (hcompile : Regex.compile pattern flags = .ok regex) {slots : Slots}
    (hmatch : regex.program.matchFrom? (.start text) = some slots) :
    ∃ extent, regex.find text = some extent ∧ slots.group? 0 = some extent ∧
      extent.Within text ∧ extent.start ≤ extent.stop := by
  obtain ⟨extent, hgroup, hwithin, -, hle⟩ :=
    exists_extent_of_matchFrom? hcompile (Cursor.on_start text) hmatch
  refine ⟨extent, ?_, hgroup, hwithin, hle⟩
  show (regex.program.matchFrom? (.start text)).bind (·.group? 0) = some extent
  rw [hmatch, Option.bind_some, hgroup]

theorem find_of_none (hmatch : regex.program.matchFrom? (.start text) = none) :
    regex.find text = none := by
  show (regex.program.matchFrom? (.start text)).bind (·.group? 0) = none
  rw [hmatch, Option.bind_none]

theorem within_find (hcompile : Regex.compile pattern flags = .ok regex) {extent : Extent}
    (hfind : regex.find text = some extent) : extent.Within text ∧ extent.start ≤ extent.stop := by
  cases hmatch : regex.program.matchFrom? (.start text) with
  | none => rw [find_of_none hmatch] at hfind; cases hfind
  | some slots =>
      obtain ⟨other, hother, -, hwithin⟩ := find_of_matchFrom? hcompile hmatch
      obtain rfl := Option.some.inj (hfind.symm.trans hother)
      exact hwithin

theorem isSome_find (hcompile : Regex.compile pattern flags = .ok regex) (text : String) :
    (regex.find text).isSome = (regex.program.matchFrom? (.start text)).isSome := by
  cases hmatch : regex.program.matchFrom? (.start text) with
  | none => rw [find_of_none hmatch]; rfl
  | some slots =>
      obtain ⟨extent, hfind, -⟩ := find_of_matchFrom? hcompile hmatch
      rw [hfind]
      rfl

theorem isSome_captures (hcompile : Regex.compile pattern flags = .ok regex) (text : String) :
    (regex.captures text).isSome = (regex.find text).isSome := by
  rw [isSome_find hcompile]
  exact Option.isSome_map

theorem head?_extentsIn (hcompile : Regex.compile pattern flags = .ok regex) (text : String) :
    (regex.program.extentsIn text).head? = regex.find text := by
  cases hmatch : regex.program.matchFrom? (.start text) with
  | none => rw [find_of_none hmatch, Program.extentsIn_of_none hmatch, List.head?_nil]
  | some slots =>
      obtain ⟨extent, hfind, hgroup, -⟩ := find_of_matchFrom? hcompile hmatch
      obtain ⟨others, hextents⟩ := Program.extentsIn_of_some hmatch hgroup
      rw [hfind, hextents, List.head?_cons]

theorem isMatch_eq (hcompile : Regex.compile pattern flags = .ok regex) (text : String) :
    (regex.matcher.isMatch text).1 = (regex.find text).isSome := by
  have hcheck := check_of_compile hcompile
  have hon := Cursor.on_start text
  rw [isSome_find hcompile, Program.matchFrom?_eq hcheck hon]
  exact ((Matcher.ready_ofProgram regex.program).run_eq hcheck hon ⟨false, true⟩).1

theorem exists_places_behind (hon : Cursor.On text cursor) :
    ∃ behind : List Cursor, cursor.places = cursor :: behind ∧
      ∀ place ∈ behind, cursor.offset < place.offset := by
  obtain ⟨offset, before, rest⟩ := cursor
  cases rest with
  | nil => exact ⟨[], rfl, List.forall_mem_nil _⟩
  | cons c rest =>
      refine ⟨_, rfl, fun place hplace => ?_⟩
      obtain ⟨-, hle⟩ := (Cursor.mem_placesFrom hon.behind).mp hplace
      exact Nat.lt_of_lt_of_le (Nat.lt_add_of_pos_right c.utf8Size_pos) hle

theorem isMatchAtStart_eq (hcompile : Regex.compile pattern flags = .ok regex) (text : String) :
    (regex.matcher.isMatchAtStart text).1 = (regex.find text).any (·.start == 0) := by
  have hprogram := program_of_compile hcompile
  have hcheck := check_of_compile hcompile
  have hon := Cursor.on_start text
  have hanchored : (regex.matcher.isMatchAtStart text).1 =
      (explore regex.program (everywhere regex.program text)
        ([Cursor.start text].map (startVisit regex.program))).isSome :=
    ((Matcher.ready_ofProgram regex.program).run_eq hcheck hon ⟨true, true⟩).1
  obtain ⟨behind, hplaces, hbehind⟩ := exists_places_behind hon
  obtain ⟨left, happend⟩ : ∃ left, regex.program.matchFrom? (.start text) =
      (explore regex.program (everywhere regex.program text)
        ([Cursor.start text].map (startVisit regex.program))).or
        (explore regex.program left (behind.map (startVisit regex.program))) := by
    rw [Program.matchFrom?_eq hcheck hon, hplaces]
    exact Search.explore_append _ [_] _
  -- A match that begins further on is found only if none begins at the start.
  rw [hanchored]
  cases hfound : explore regex.program (everywhere regex.program text)
      ([Cursor.start text].map (startVisit regex.program)) with
  | some slots =>
      rw [hfound, Option.some_or] at happend
      obtain ⟨place, hplace, stop, hstart⟩ := Pattern.exists_extent_of_explore hprogram hfound
      obtain ⟨extent, hfind, hgroup, -⟩ := find_of_matchFrom? hcompile happend
      obtain rfl := Option.some.inj (hgroup.symm.trans hstart)
      rw [hfind, List.mem_singleton.mp hplace]
      rfl
  | none =>
      rw [hfound, Option.none_or] at happend
      cases hlater : explore regex.program left (behind.map (startVisit regex.program)) with
      | none => rw [find_of_none (happend.trans hlater)]; rfl
      | some slots =>
          obtain ⟨place, hplace, stop, hstart⟩ := Pattern.exists_extent_of_explore hprogram hlater
          obtain ⟨extent, hfind, hgroup, -⟩ := find_of_matchFrom? hcompile (happend.trans hlater)
          obtain rfl := Option.some.inj (hgroup.symm.trans hstart)
          have hpositive : place.offset ≠ 0 := Nat.ne_of_gt (hbehind place hplace)
          rw [hfind, Option.any_some, beq_false_of_ne hpositive]
          rfl

end Regex

end TextColumns
