import TextColumns.Matching.Replacement
import TextColumns.Proofs.Regex.Groups

/-!
The groups of a match lie inside of it.  Whatever a thread has recorded lies between the place at
which it began and the one at which it stands, and these are the two ends of the match when it
accepts.
-/

namespace TextColumns

open Pattern (StartsOnce StopsAt)
open Text (Cursor Extent IsBoundary)

namespace Search

variable {program : Program} {text : String} {cursor place : Cursor} {slots : Slots} {stop : Nat}
  {visit next : Visit}

/-- A thread of a match that begins at a place, and what it has recorded. -/
structure Visit.Encloses (program : Program) (stop : Nat) (place : Cursor) (visit : Visit) :
    Prop where
  traces : visit.Traces program stop place
  began : place.offset ≤ visit.cursor.offset
  recorded : ∀ offset, some offset ∈ visit.slots →
    place.offset ≤ offset ∧ offset ≤ visit.cursor.offset
  stopped : visit.address = stop + 1 → visit.slots[1]? = some (some visit.cursor.offset)

theorem encloses_startVisit (hstarts : StartsOnce program) (stop : Nat) (place : Cursor) :
    (startVisit program place).Encloses program stop place where
  traces := traces_startVisit hstarts place
  began := Nat.le_refl _
  recorded := by
    intro offset hoffset
    cases (Array.mem_replicate.mp hoffset).2
  stopped := by
    intro haddress
    rw [startVisit, hstarts.start] at haddress
    cases haddress

theorem Visit.Encloses.recorded_onward (hvisit : visit.Encloses program stop place)
    (hnext : next ∈ visit.onward program) {offset : Nat} (hoffset : some offset ∈ next.slots) :
    place.offset ≤ offset ∧ offset ≤ next.cursor.offset := by
  have hle := Visit.offset_le_of_mem_onward hnext
  obtain ⟨instruction, -, -, hslots⟩ := Visit.mem_onward.mp hnext
  -- Only what stands at the place of the thread itself is ever put into a slot.
  have hkept : some offset ∈ visit.slots ∨ offset = visit.cursor.offset := by
    rw [hslots] at hoffset
    cases instruction with
    | save slot =>
        rcases Array.mem_or_eq_of_mem_setIfInBounds hoffset with hold | hnew
        · exact .inl hold
        · exact .inr (Option.some.inj hnew)
    | jump _ | split _ _ | assertion _ | char _ _ | any _ | oneOf _ _ | accept => exact .inl hoffset
  rcases hkept with hold | rfl
  · obtain ⟨hfirst, hhere⟩ := hvisit.recorded offset hold
    exact ⟨hfirst, Nat.le_trans hhere hle⟩
  · exact ⟨hvisit.began, hle⟩

/-- Only the instruction that records the stop leads to the one that accepts. -/
theorem Visit.Encloses.stopped_onward (hstops : StopsAt program stop) (hslots : 1 < program.slots)
    (hvisit : visit.Encloses program stop place) (hnext : next ∈ visit.onward program)
    (haddress : next.address = stop + 1) : next.slots[1]? = some (some next.cursor.offset) := by
  obtain ⟨instruction, hinstruction, hplace, hrecorded⟩ := Visit.mem_onward.mp hnext
  -- No instruction before the last leads behind it, and the one that accepts leads nowhere.
  have hlast : visit.address = stop := by
    rcases hvisit.traces.stopped with hle | ⟨haccept, -⟩
    · refine Nat.le_antisymm hle (Nat.le_of_not_lt fun hlt => ?_)
      have hbefore := hstops.before hlt hinstruction hplace
      rw [haddress] at hbefore
      exact Nat.not_succ_le_self stop hbefore
    · rw [hstops.accept.mpr haccept] at hinstruction
      obtain rfl := Option.some.inj hinstruction
      rw [moves_accept] at hplace
      cases hplace
  rw [hlast, hstops.last] at hinstruction
  obtain rfl := Option.some.inj hinstruction
  obtain ⟨-, hcursor⟩ := Prod.mk.inj (List.mem_singleton.mp hplace)
  rw [hrecorded, hcursor]
  exact Array.getElem?_setIfInBounds_self_of_lt (hvisit.traces.size_eq ▸ hslots)

theorem Visit.Encloses.onward (hstarts : StartsOnce program) (hstops : StopsAt program stop)
    (hslots : 2 ≤ program.slots) (hvisit : visit.Encloses program stop place)
    (hnext : next ∈ visit.onward program) : next.Encloses program stop place where
  traces := hvisit.traces.onward hstarts hstops hslots hnext
  began := Nat.le_trans hvisit.began (Visit.offset_le_of_mem_onward hnext)
  recorded _ hoffset := hvisit.recorded_onward hnext hoffset
  stopped := hvisit.stopped_onward hstops hslots hnext

/-- Whether slots have the extent of a match, and no slot lies outside of it. -/
structure Slots.Enclosed (slots : Slots) (whole : Extent) : Prop where
  start : slots[0]? = some (some whole.start)
  stop : slots[1]? = some (some whole.stop)
  inside : ∀ offset, some offset ∈ slots → whole.start ≤ offset ∧ offset ≤ whole.stop

theorem Visit.Encloses.enclosed (hstops : StopsAt program stop)
    (hvisit : visit.Encloses program stop place) (haccepts : visit.accepts program = true) :
    visit.slots.Enclosed ⟨place.offset, visit.cursor.offset⟩ where
  start := by
    have haddress := hstops.accept.mp (eq_of_beq haccepts)
    rcases hvisit.traces.started with ⟨hzero, -⟩ | ⟨-, hstart⟩
    · exact absurd (haddress.symm.trans hzero) (Nat.succ_ne_zero stop)
    · exact hstart
  stop := hvisit.stopped (hstops.accept.mp (eq_of_beq haccepts))
  inside := hvisit.recorded

theorem Matched.enclosed {pattern : String} {flags : Pattern.Flags}
    (hcompile : Pattern.compile pattern flags = .ok program)
    (hmatched : Matched program text cursor slots) :
    ∃ whole : Extent, slots.Enclosed whole ∧ cursor.offset ≤ whole.start := by
  have hstarts := Pattern.startsOnce_of_compile hcompile
  obtain ⟨stop, hstops⟩ := Pattern.stopsAt_of_compile hcompile
  obtain ⟨-, -, -, hcheck, -⟩ := Pattern.compile_spec hcompile
  obtain ⟨-, hslots, -⟩ := Program.check_eq_ok_iff.mp hcheck
  -- Threads of all starts are pending at once, so each has the place where it began.
  let P (visit : Visit) : Prop :=
    ∃ place, cursor.offset ≤ place.offset ∧ visit.Encloses program stop place
  have honward : ∀ visit, P visit → ∀ next ∈ visit.onward program, P next := by
    intro visit ⟨place, hle, hvisit⟩ next hnext
    exact ⟨place, hle, hvisit.onward hstarts hstops hslots hnext⟩
  have hbegins : ∀ visit ∈ starts program ⟨false, false⟩ true false cursor, P visit := by
    intro visit hvisit
    obtain ⟨place, ⟨-, hle⟩, rfl⟩ := on_of_mem_starts hmatched.on hvisit
    exact ⟨place, hle, encloses_startVisit hstarts stop place⟩
  obtain ⟨visit, ⟨place, hle, hvisit⟩, haccepts, rfl⟩ :=
    explore_induct honward hbegins hmatched.found
  exact ⟨_, hvisit.enclosed hstops haccepts, hle⟩

theorem getElem?_groups {k : Nat} (hk : 2 * k + 1 < slots.size) :
    slots.groups[k]? = some (slots.group? k) := by
  rw [Slots.groups, List.getElem?_map, List.getElem?_range (by omega), Option.map_some]

/-- A group that has one end has the other one as well, and the match around it. -/
theorem Slots.Enclosed.group_cases {whole : Extent} (henclosed : slots.Enclosed whole)
    (hwithin : slots.Within text) {here k : Nat} (hwhole : slots.Whole here k)
    (hk : 2 * k + 1 < slots.size) :
    (slots[2 * k]? = some none ∧ slots[2 * k + 1]? = some none ∧ slots.groups[k]? = some none) ∨
      ∃ group : Extent, slots[2 * k]? = some (some group.start) ∧
        slots[2 * k + 1]? = some (some group.stop) ∧ slots.groups[k]? = some (some group) ∧
        group.Within text ∧ whole.start ≤ group.start ∧ group.start ≤ group.stop ∧
        group.stop ≤ whole.stop := by
  have hgroups := getElem?_groups hk
  obtain ⟨start?, hstart⟩ : ∃ start?, slots[2 * k]? = some start? :=
    ⟨_, Array.getElem?_eq_getElem (Nat.lt_of_succ_lt hk)⟩
  obtain ⟨stop?, hstop⟩ : ∃ stop?, slots[2 * k + 1]? = some stop? :=
    ⟨_, Array.getElem?_eq_getElem hk⟩
  cases hwhole with
  | absent hnoStart hnoStop =>
      rw [hstart, Option.join_some] at hnoStart
      rw [hstop, Option.join_some] at hnoStop
      rw [Slots.group?, hstart, hstop, hnoStart] at hgroups
      exact .inl ⟨hnoStart ▸ hstart, hnoStop ▸ hstop, hgroups⟩
  | @extent group hgroup hle _ =>
      have hinside := hwithin.group? hgroup
      rw [hgroup] at hgroups
      rw [Slots.group?, hstart, hstop] at hgroup
      cases start? with
      | none => cases hgroup
      | some start =>
          cases stop? with
          | none => cases hgroup
          | some stop =>
              obtain rfl := Option.some.inj hgroup
              have hbegins := (henclosed.inside start (Array.mem_of_getElem? hstart)).1
              have hends := (henclosed.inside stop (Array.mem_of_getElem? hstop)).2
              exact .inr ⟨_, hstart, hstop, hgroups, hinside, hbegins, hle, hends⟩

end Search

namespace Regex

open Matching (captureRow groupsOfMatches)
open Pattern (Flags)
open Search (Matched Mode Slots)

variable {pattern : String} {flags : Flags} {regex : Regex}

theorem two_mul_groupCount (hcompile : Regex.compile pattern flags = .ok regex) :
    2 * (regex.groupCount + 1) = regex.program.slots := by
  obtain ⟨-, hslots, heven, -⟩ := Program.check_eq_ok_iff.mp (check_of_compile hcompile)
  rw [Regex.groupCount, Program.groupCount]
  omega

/-- The slots of a match have its extent, and every group either takes no part in the match or lies
inside of it, with its ends in their order.  So all that is cut out of a text as a group of a match
is a part of the text. -/
theorem captures_nested (hcompile : Regex.compile pattern flags = .ok regex)
    (searches : List (Mode × Cursor)) (text : String) :
    let matcher := regex.matcher.after searches
    (∀ start cursor slots, Cursor.at? text start = some cursor →
      (matcher.capturesFrom cursor).1 = some slots →
      slots.size = 2 * (regex.groupCount + 1) ∧
      ∃ whole : Extent, slots[0]? = some (some whole.start) ∧
        slots[1]? = some (some whole.stop) ∧ start ≤ whole.start ∧ whole.start ≤ whole.stop ∧
        whole.stop ≤ text.utf8ByteSize ∧
        ∀ k ≤ regex.groupCount,
          (slots[2 * k]? = some none ∧ slots[2 * k + 1]? = some none ∧
            slots.groups[k]? = some none) ∨
          ∃ group : Extent, slots[2 * k]? = some (some group.start) ∧
            slots[2 * k + 1]? = some (some group.stop) ∧ slots.groups[k]? = some (some group) ∧
            group.Within text ∧ whole.start ≤ group.start ∧ group.start ≤ group.stop ∧
            group.stop ≤ whole.stop) ∧
    (∀ groups, (captureRow matcher text).1 = some groups → ∀ group, some group ∈ groups →
      group.Within text ∧ group.start ≤ group.stop) ∧
    ∀ limit, ∀ groups ∈ (groupsOfMatches limit matcher text).1, ∀ group, some group ∈ groups →
      group.Within text ∧ group.start ≤ group.stop := by
  intro matcher
  have hcheck := check_of_compile hcompile
  have hready : matcher.Ready regex.program :=
    (Matcher.ready_ofProgram regex.program).after hcheck searches
  have hmatched {cursor : Cursor} {slots : Slots} (hon : Cursor.On text cursor)
      (hcaptures : (matcher.capturesFrom cursor).1 = some slots) :
      Matched regex.program text cursor slots :=
    (hready.capturesFrom hcheck hon rfl).2 slots hcaptures
  refine ⟨fun start cursor slots hcursor hcaptures => ?_, fun groups hrow group hgroup => ?_,
    fun limit groups hrow group hgroup => ?_⟩
  · obtain ⟨hon, rfl⟩ := Cursor.at?_eq_some_iff.mp hcursor
    have hmatched := hmatched hon hcaptures
    obtain ⟨hsize, here, hwhole⟩ := hmatched.whole (program_of_compile hcompile)
    obtain ⟨whole, henclosed, hstart⟩ := hmatched.enclosed (program_of_compile hcompile)
    have hstop := hmatched.within whole.stop (Array.mem_of_getElem? henclosed.stop)
    rw [← two_mul_groupCount hcompile] at hsize
    refine ⟨hsize, whole, henclosed.start, henclosed.stop, hstart, ?_, hstop.le, fun k hk => ?_⟩
    · exact (henclosed.inside whole.stop (Array.mem_of_getElem? henclosed.stop)).1
    · exact henclosed.group_cases hmatched.within (hwhole k) (by omega)
  · obtain ⟨slots, hcaptures, rfl⟩ := Option.map_eq_some_iff.mp hrow
    have hmatched := hmatched (Cursor.on_start text) hcaptures
    obtain ⟨-, here, hwhole⟩ := hmatched.whole (program_of_compile hcompile)
    obtain ⟨k, -, hgroup⟩ := List.mem_map.mp hgroup
    exact ⟨hmatched.within.group? hgroup, (hwhole k).le hgroup⟩
  · obtain ⟨slots, hslots, rfl⟩ : ∃ slots ∈ (matcher.matchesUpTo limit text).1.toList,
        slots.groups = groups := List.mem_map.mp hrow
    rw [hready.matchesUpTo_eq hcheck (advances_of_compile hcompile)] at hslots
    have hproper := proper_of_mem_matchesFrom hcompile (Text.mem_of_mem_upTo hslots)
    obtain ⟨k, -, hgroup⟩ := List.mem_map.mp hgroup
    exact ⟨hproper.within k group hgroup, hproper.ordered k group hgroup⟩

/-- The rounds of the outer loop may be empty, and its two groups take turns. -/
theorem captures_nested_emptyRounds :
    let program : Program :=
      ⟨#[.save 0, .split 2 6, .save 2, .char 'a' false, .save 3, .jump 11, .save 4, .split 8 10,
        .char 'b' false, .jump 7, .save 5, .split 1 12, .save 1, .accept], #[], 6, 0⟩
    let regex : Regex := ⟨"(?:(a)|(b*))+", Flags.none, program⟩
    let matcher := regex.matcher.after [(⟨false, true⟩, .start "ba")]
    let cursor : Cursor := ⟨1, some 'x', ['a', 'b', 'é']⟩
    let slots : Slots := #[some 1, some 3, some 1, some 2, some 2, some 3]
    Regex.compile "(?:(a)|(b*))+" Flags.none = .ok regex ∧ Cursor.at? "xabé" 1 = some cursor ∧
      (matcher.capturesFrom cursor).1 = some slots ∧
      ∃ whole : Extent, slots[0]? = some (some whole.start) ∧
        slots[1]? = some (some whole.stop) ∧ 1 ≤ whole.start ∧
        ∀ k ≤ 2, ∀ group, slots.groups[k]? = some (some group) →
          whole.start ≤ group.start ∧ group.start ≤ group.stop ∧ group.stop ≤ whole.stop := by
  intro program regex matcher cursor slots
  have hcompile : Regex.compile "(?:(a)|(b*))+" Flags.none = .ok regex := by decide +kernel
  have hcursor : Cursor.at? "xabé" 1 = some cursor := by decide +kernel
  have hcaptures : (matcher.capturesFrom cursor).1 = some slots := by decide +kernel
  obtain ⟨hnested, -, -⟩ := captures_nested hcompile [(⟨false, true⟩, .start "ba")] "xabé"
  obtain ⟨-, whole, hstart, hstop, hle, -, -, hgroups⟩ :=
    hnested 1 cursor slots hcursor hcaptures
  refine ⟨hcompile, hcursor, hcaptures, whole, hstart, hstop, hle, fun k hk group hgroup => ?_⟩
  have hcount : regex.groupCount = 2 := by decide +kernel
  rcases hgroups k (hcount ▸ hk) with ⟨-, -, hnone⟩ | ⟨other, -, -, hother, -, hinside⟩
  · rw [hnone] at hgroup
    cases hgroup
  · obtain rfl := Option.some.inj (Option.some.inj (hgroup.symm.trans hother))
    exact hinside

end Regex

end TextColumns
