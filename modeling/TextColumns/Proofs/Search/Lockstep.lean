import TextColumns.Proofs.Search.Closure

/-!
A search against the depth-first walk.  All threads of a search stand at the same place, and the
walk makes the visits of one place after those of the place before it; `explore_settle` is why
both find the same match.
-/

namespace TextColumns.Search

open Text (Cursor)

variable {program : Program} {cursor : Cursor} {fresh : Finset (Nat × Nat)}

theorem advance_cons_of_accepts {visit : Visit} {others : List Visit}
    (haccepts : visit.accepts program = true) :
    advance program (visit :: others) = ([], some visit.slots) := by
  rw [advance, if_pos haccepts]

theorem advance_cons {visit : Visit} {others : List Visit}
    (haccepts : visit.accepts program = false) :
    advance program (visit :: others) =
      (visit.onward program ++ (advance program others).1, (advance program others).2) := by
  rw [advance, haccepts]
  rfl

theorem cursor_of_mem_advance {visits : List Visit}
    (hvisits : ∀ visit ∈ visits, visit.cursor = cursor ∧ visit.rests program = true) :
    ∀ visit ∈ (advance program visits).1, ∃ c, cursor.next? = some (c, visit.cursor) := by
  induction visits with
  | nil => simp [advance]
  | cons visit others ih =>
      obtain ⟨⟨rfl, hrests⟩, hothers⟩ := List.forall_mem_cons.mp hvisits
      intro next hnext
      cases haccepts : visit.accepts program with
      | true => simp [advance_cons_of_accepts haccepts] at hnext
      | false =>
          rw [advance_cons haccepts] at hnext
          rcases List.mem_append.mp hnext with hnext | hnext
          · exact Visit.next?_of_mem_onward hnext hrests
          · exact ih hothers next hnext

namespace Threads

variable {threads : Threads} {address : Nat} {instruction : Instruction} {row : Slots}

theorem visit?_of_rests (hinstruction : program.instructions[address]? = some instruction)
    (hrests : rests instruction = true) (hrow : threads.rows[address]? = some row) :
    threads.visit? program cursor address = some ⟨address, cursor, row⟩ := by
  simp [visit?, hinstruction, hrests, hrow]

theorem visit?_of_not_rests (hinstruction : program.instructions[address]? = some instruction)
    (hrests : rests instruction = false) : threads.visit? program cursor address = none := by
  simp [visit?, hinstruction, hrests]

theorem mem_resting {visit : Visit} (hvisit : visit ∈ threads.resting program cursor) :
    visit.cursor = cursor ∧ visit.rests program = true := by
  obtain ⟨address, -, hvisit⟩ := List.mem_filterMap.mp hvisit
  unfold visit? at hvisit
  split at hvisit
  next hrests =>
    cases hvisit
    exact ⟨rfl, hrests⟩
  next => cases hvisit

end Threads

theorem accepts?_of_not_rests {instruction : Instruction} (hrests : rests instruction = false)
    (c : Char) : program.accepts? c instruction = some false := by
  cases instruction <;> simp_all [rests, Program.accepts?]

theorem address_succ_lt_of_accepts? (hcheck : program.check = .ok ()) {address : Nat}
    {instruction : Instruction} {c : Char}
    (hinstruction : program.instructions[address]? = some instruction)
    (haccepts : program.accepts? c instruction = some true) : address + 1 < program.size := by
  have hinside := Program.staysInside_of_check hcheck hinstruction
  cases instruction with
  | char _ _ | any _ | oneOf _ _ => simp_all [Program.staysInside]
  | _ => simp [Program.accepts?] at haccepts

theorem accepts?_ne_none (hcheck : program.check = .ok ()) {address : Nat}
    {instruction : Instruction}
    (hinstruction : program.instructions[address]? = some instruction) (c : Char) :
    program.accepts? c instruction ≠ none := by
  have hinside := Program.staysInside_of_check hcheck hinstruction
  cases instruction with
  | oneOf cls fold =>
      simp only [Program.staysInside, Bool.and_eq_true, decide_eq_true_eq] at hinside
      simp [Program.accepts?, Array.getElem?_eq_getElem hinside.1]
  | _ => simp [Program.accepts?]

theorem onward_of_rests {address : Nat} {instruction : Instruction} {slots : Slots}
    (hinstruction : program.instructions[address]? = some instruction)
    (hrests : rests instruction = true) {c : Char} {behind : Cursor}
    (hnext : cursor.next? = some (c, behind)) :
    (⟨address, cursor, slots⟩ : Visit).onward program =
      if program.accepts? c instruction = some true then [⟨address + 1, behind, slots⟩]
      else [] := by
  simp only [Visit.onward, hinstruction]
  cases instruction with
  | char _ _ | any _ | oneOf _ _ | accept =>
      simp only [moves, recorded, hnext]
      split <;> rfl
  | _ => simp [rests] at hrests

/-- Memory for a walk as it is between walks: whatever is in the slots, no work is left. -/
structure Scratch.Fits (scratch : Scratch) (program : Program) : Prop where
  stack : scratch.stack = []
  slots : scratch.slots.size = program.slots

theorem Scratch.fits_ofProgram (program : Program) : (Scratch.ofProgram program).Fits program :=
  ⟨rfl, Array.size_replicate⟩

namespace Scratch.Fits

variable {scratch : Scratch}

theorem blank_eq (hfits : scratch.Fits program) : scratch.blank = .ofProgram program := by
  obtain ⟨stack, slots⟩ := scratch
  obtain ⟨rfl, hslots⟩ := hfits
  rw [Scratch.blank, hslots, Scratch.ofProgram]

theorem load?_eq (hfits : scratch.Fits program) {row : Slots} (hrow : row.size = program.slots) :
    scratch.load? row = some ⟨[], row⟩ := by
  obtain ⟨stack, slots⟩ := scratch
  obtain ⟨rfl, hslots⟩ := hfits
  exact if_pos (hslots.trans hrow.symm)

/-- A walk leaves its memory as it was: the stack is empty again, and what has been saved on the way
is given back. -/
theorem enter_eq (hfits : scratch.Fits program) {address : Nat} {threads closed : Threads}
    (hclose : close program cursor [.explore address] threads scratch.slots =
      some (closed, scratch.slots)) :
    scratch.enter program cursor address threads = some (closed, scratch) := by
  obtain ⟨stack, slots⟩ := scratch
  obtain ⟨rfl, -⟩ := hfits
  rw [enter, hclose]

theorem exists_enter (hfits : scratch.Fits program) (hcheck : program.check = .ok ())
    {address : Nat} (haddress : address < program.size) {threads : Threads}
    {settled : Finset (Nat × Nat) × List Visit} (hholds : threads.Holds program cursor settled) :
    ∃ closed, scratch.enter program cursor address threads = some (closed, scratch) ∧
      closed.Holds program cursor
        ((settle program settled.1 [⟨address, cursor, scratch.slots⟩]).1,
          settled.2 ++ (settle program settled.1 [⟨address, cursor, scratch.slots⟩]).2) := by
  obtain ⟨closed, hclose, hclosed⟩ := close_address hcheck haddress hfits.slots hholds
  exact ⟨closed, hfits.enter_eq hclose, hclosed⟩

end Scratch.Fits

theorem step_of_accept {next? : Option (Char × Cursor)} {current next : Threads}
    {address : Nat} {others : List Nat} {row : Slots} {scratch : Scratch}
    (hinstruction : program.instructions[address]? = some .accept)
    (hrow : current.rows[address]? = some row) :
    step program next? current (address :: others) next scratch =
      some (next, scratch, some row) := by
  simp only [step, hinstruction, hrow]

theorem step_of_ne_accept {next? : Option (Char × Cursor)} {current next : Threads}
    {address : Nat} {others : List Nat} {instruction : Instruction} {row : Slots}
    {scratch : Scratch} (hinstruction : program.instructions[address]? = some instruction)
    (hrow : current.rows[address]? = some row) (haccept : instruction ≠ .accept) :
    step program next? current (address :: others) next scratch =
      match next? with
      | none => step program next? current others next scratch
      | some (c, cursor) =>
        match program.accepts? c instruction with
        | none => none
        | some false => step program next? current others next scratch
        | some true =>
          match scratch.load? row with
          | none => none
          | some loaded =>
            match loaded.enter program cursor (address + 1) next with
            | none => none
            | some (next, scratch) => step program next? current others next scratch := by
  rw [step, hinstruction, hrow]
  cases instruction with
  | accept => exact absurd rfl haccept
  | _ => rfl

theorem step_at_end (cursor : Cursor) {current : Threads} (hcurrent : current.Fits program)
    (next : Threads) (scratch : Scratch) {addresses : List Nat}
    (haddresses : ∀ address ∈ addresses, address < program.size) :
    step program none current addresses next scratch =
      some (next, scratch,
        (advance program (addresses.filterMap (current.visit? program cursor))).2) := by
  induction addresses with
  | nil => rfl
  | cons address others ih =>
      obtain ⟨haddress, hothers⟩ := List.forall_mem_cons.mp haddresses
      obtain ⟨instruction, row, hinstruction, hrow, -⟩ := hcurrent.lookup haddress
      by_cases haccept : instruction = .accept
      · subst haccept
        rw [step_of_accept hinstruction hrow, List.filterMap_cons,
          Threads.visit?_of_rests hinstruction rfl hrow]
        have hvisit : (⟨address, cursor, row⟩ : Visit).accepts program = true :=
          beq_iff_eq.mpr hinstruction
        simp only [advance_cons_of_accepts hvisit]
      rw [step_of_ne_accept hinstruction hrow haccept, ih hothers, List.filterMap_cons]
      cases hrests : rests instruction with
      | false => rw [Threads.visit?_of_not_rests hinstruction hrests]
      | true =>
          rw [Threads.visit?_of_rests hinstruction hrests hrow]
          have hvisit : (⟨address, cursor, row⟩ : Visit).accepts program = false := by
            simp [Visit.accepts, hinstruction, haccept]
          simp only [advance_cons hvisit]

/-- Threads that consume the next character are gathered behind it in their order. -/
theorem step_eq (hcheck : program.check = .ok ()) {current next : Threads}
    (hcurrent : current.Fits program) {c : Char} {behind : Cursor}
    (hnext : cursor.next? = some (c, behind)) {settled : Finset (Nat × Nat) × List Visit}
    (hholds : next.Holds program behind settled) {scratch : Scratch}
    (hscratch : scratch.Fits program) {addresses : List Nat}
    (haddresses : ∀ address ∈ addresses, address < program.size) :
    let advanced := advance program (addresses.filterMap (current.visit? program cursor))
    ∃ moved kept,
      step program (some (c, behind)) current addresses next scratch =
        some (moved, kept, advanced.2) ∧
      moved.Holds program behind
        ((settle program settled.1 advanced.1).1,
          settled.2 ++ (settle program settled.1 advanced.1).2) ∧
      kept.Fits program := by
  induction addresses generalizing next settled scratch with
  | nil => exact ⟨next, scratch, rfl, by simpa [advance] using hholds, hscratch⟩
  | cons address others ih =>
      obtain ⟨haddress, hothers⟩ := List.forall_mem_cons.mp haddresses
      obtain ⟨instruction, row, hinstruction, hrow, hsize⟩ := hcurrent.lookup haddress
      by_cases haccept : instruction = .accept
      · subst haccept
        rw [step_of_accept hinstruction hrow, List.filterMap_cons,
          Threads.visit?_of_rests hinstruction rfl hrow]
        have hvisit : (⟨address, cursor, row⟩ : Visit).accepts program = true :=
          beq_iff_eq.mpr hinstruction
        simp only [advance_cons_of_accepts hvisit]
        exact ⟨next, scratch, rfl, by simpa using hholds, hscratch⟩
      rw [step_of_ne_accept hinstruction hrow haccept, List.filterMap_cons]
      cases hrests : rests instruction with
      | false =>
          simp only [accepts?_of_not_rests hrests c,
            Threads.visit?_of_not_rests hinstruction hrests]
          exact ih hholds hscratch hothers
      | true =>
          have hvisit : (⟨address, cursor, row⟩ : Visit).accepts program = false := by
            simp [Visit.accepts, hinstruction, haccept]
          simp only [Threads.visit?_of_rests hinstruction hrests hrow, advance_cons hvisit,
            onward_of_rests hinstruction hrests hnext]
          cases haccepts : program.accepts? c instruction with
          | none => exact absurd haccepts (accepts?_ne_none hcheck hinstruction c)
          | some accepted =>
              cases accepted with
              | false => simpa using ih hholds hscratch hothers
              | true =>
                  have hinside := address_succ_lt_of_accepts? hcheck hinstruction haccepts
                  have hloaded : (⟨[], row⟩ : Scratch).Fits program := ⟨rfl, hsize⟩
                  obtain ⟨closed, henter, hclosed⟩ := hloaded.exists_enter hcheck hinside hholds
                  obtain ⟨moved, kept, hmoved, hholds, hkept⟩ := ih hclosed hloaded hothers
                  simp only [hscratch.load?_eq hsize, henter]
                  refine ⟨moved, kept, hmoved, ?_, hkept⟩
                  simpa only [if_true, settle_append, List.append_assoc] using hholds

def startVisit (program : Program) (cursor : Cursor) : Visit :=
  ⟨program.start, cursor, Array.replicate program.slots none⟩

/-- The threads with which a match may still begin, from a cursor on. -/
def starts (program : Program) (mode : Mode) (first matched : Bool) (cursor : Cursor) :
    List Visit :=
  if matched then []
  else if mode.anchored then if first then [startVisit program cursor] else []
  else cursor.places.map (startVisit program)

def laterStarts (program : Program) (mode : Mode) (matched : Bool) (cursor : Cursor) :
    List Visit :=
  match cursor.next? with
  | none => []
  | some (_, behind) => starts program mode false matched behind

theorem laterStarts_of_matched {mode : Mode} : laterStarts program mode true cursor = [] := by
  unfold laterStarts
  split <;> rfl

theorem starts_of_seeded {mode : Mode} {first matched : Bool}
    (hseeded : (!matched && (!mode.anchored || first)) = true) :
    starts program mode first matched cursor =
      startVisit program cursor :: laterStarts program mode matched cursor := by
  obtain ⟨offset, before, rest⟩ := cursor
  obtain ⟨anchored, earliest⟩ := mode
  cases matched <;> cases anchored <;> cases first <;> cases rest <;>
    simp_all [starts, laterStarts, Cursor.next?, Cursor.places, Cursor.placesFrom, Cursor.behind]

theorem starts_of_not_seeded {mode : Mode} {first matched : Bool}
    (hseeded : (!matched && (!mode.anchored || first)) = false) :
    starts program mode first matched cursor = [] ∧
      laterStarts program mode matched cursor = [] := by
  obtain ⟨anchored, earliest⟩ := mode
  unfold laterStarts
  cases matched <;> cases anchored <;> cases first <;> simp_all [starts] <;> split <;> rfl

theorem seed_eq (hcheck : program.check = .ok ()) (mode : Mode) (first matched : Bool)
    {current : Threads} {level : List Visit} (hlevel : ∀ visit ∈ level, visit.cursor = cursor)
    (hcurrent : current.Holds program cursor (settle program fresh level)) {scratch : Scratch}
    (hscratch : scratch.Fits program) :
    ∃ seeded kept more,
      seed program mode first matched cursor current scratch = some (seeded, kept) ∧
      (∀ visit ∈ level ++ more, visit.cursor = cursor) ∧
      seeded.Holds program cursor (settle program fresh (level ++ more)) ∧
      starts program mode first matched cursor =
        more ++ laterStarts program mode matched cursor ∧
      kept.Fits program := by
  unfold seed
  cases hseeded : !matched && (!mode.anchored || first) with
  | true =>
      have hblank := Scratch.fits_ofProgram program
      obtain ⟨seeded, henter, hholds⟩ :=
        hblank.exists_enter hcheck (Program.start_lt_of_check hcheck) hcurrent
      rw [if_pos rfl, hscratch.blank_eq, henter]
      refine ⟨seeded, _, [startVisit program cursor], rfl, ?_, ?_, starts_of_seeded hseeded, hblank⟩
      · exact List.forall_mem_append.mpr ⟨hlevel, List.forall_mem_singleton.mpr rfl⟩
      · rwa [settle_append]
  | false =>
      obtain ⟨hnow, hlater⟩ := @starts_of_not_seeded program cursor mode first matched hseeded
      refine ⟨current, scratch, [], rfl, by simpa using hlevel, by simpa using hcurrent, ?_,
        hscratch⟩
      rw [hnow, hlater, List.append_nil]

structure Cache.Fits (cache : Cache) (program : Program) : Prop where
  current : cache.current.Fits program
  next : cache.next.Fits program
  scratch : cache.scratch.Fits program

/-- Whether nothing has been visited behind a cursor. -/
def Untouched (program : Program) (cursor : Cursor) (fresh : Finset (Nat × Nat)) : Prop :=
  ∀ address, address < program.size → ∀ offset, cursor.offset < offset → offset ≤ cursor.stop →
    (address, offset) ∈ fresh

theorem Untouched.settle {level : List Visit} (huntouched : Untouched program cursor fresh)
    (hlevel : ∀ visit ∈ level, visit.cursor = cursor) :
    Untouched program cursor (settle program fresh level).1 := by
  intro address haddress offset hlt hle
  exact (mem_settle_of_offset_ne hlevel (Nat.ne_of_gt hlt)).mpr
    (huntouched address haddress offset hlt hle)

theorem Untouched.behind {c : Char} {behind : Cursor} (huntouched : Untouched program cursor fresh)
    (hnext : cursor.next? = some (c, behind)) : Untouched program behind fresh := by
  intro address haddress offset hlt hle
  rw [Cursor.stop_of_next? hnext] at hle
  exact huntouched address haddress offset (Nat.lt_trans (Cursor.offset_lt_of_next? hnext) hlt) hle

theorem Untouched.holds {c : Char} {behind : Cursor} (huntouched : Untouched program cursor fresh)
    (hnext : cursor.next? = some (c, behind)) {threads : Threads} (hfits : threads.Fits program)
    (hempty : threads.set.members = []) : threads.Holds program behind (fresh, []) where
  fits := hfits
  mem_fresh := fun address haddress => by
    have hle : behind.offset ≤ cursor.stop := by
      rw [← Cursor.stop_of_next? hnext]
      exact behind.offset_le_stop
    simp [hempty, huntouched address haddress _ (Cursor.offset_lt_of_next? hnext) hle]
  resting := by rw [Threads.resting, hempty, List.filterMap_nil]

theorem advance_at_end {visits : List Visit} (hnext : cursor.next? = none)
    (hvisits : ∀ visit ∈ visits, visit.cursor = cursor ∧ visit.rests program = true) :
    (advance program visits).1 = [] := by
  refine List.eq_nil_iff_forall_not_mem.mpr fun visit hvisit => ?_
  obtain ⟨c, hc⟩ := cursor_of_mem_advance hvisits visit hvisit
  rw [hnext] at hc
  cases hc

theorem cursor_of_advance {threads : Threads} {onward : List Visit} {found : Option Slots}
    {c : Char} {behind : Cursor} (hnext : cursor.next? = some (c, behind))
    (hadvance : advance program (threads.resting program cursor) = (onward, found)) :
    ∀ visit ∈ onward, visit.cursor = behind := by
  intro visit hvisit
  have hadvanced : visit ∈ (advance program (threads.resting program cursor)).1 := by
    rwa [hadvance]
  obtain ⟨d, hd⟩ := cursor_of_mem_advance (fun _ => Threads.mem_resting) visit hadvanced
  rw [hnext] at hd
  cases hd
  rfl

theorem explore_level {level behind : List Visit}
    (hlevel : ∀ visit ∈ level, visit.cursor = cursor) :
    explore program fresh (level ++ behind) =
      exploreFrom program [] behind (settle program fresh level) := by
  show explore program fresh ([] ++ (level ++ behind)) = _
  exact explore_settle (List.forall_mem_nil _) hlevel

theorem explore_of_isEmpty {mode : Mode} {first matched : Bool} {current : Threads}
    {level : List Visit} (hlevel : ∀ visit ∈ level, visit.cursor = cursor)
    (hcurrent : current.Holds program cursor (settle program fresh level))
    (hstop : (current.set.size == 0 && (matched || (mode.anchored && !first))) = true) :
    explore program fresh (level ++ starts program mode first matched cursor) = none := by
  simp only [Bool.and_eq_true, beq_iff_eq] at hstop
  have hstarts : starts program mode first matched cursor = [] := by
    obtain ⟨anchored, earliest⟩ := mode
    revert hstop
    cases matched <;> cases anchored <;> cases first <;> simp [starts]
  have hresting : (settle program fresh level).2 = [] := by
    rw [← hcurrent.resting, Threads.resting, hcurrent.fits.set.isEmpty_iff.mp hstop.1,
      List.filterMap_nil]
  rw [hstarts, explore_level hlevel, exploreFrom, hresting]
  simp [advance]

/-- A thread that accepts cuts off those that begin later, and is itself given up for what the
threads ahead of it find. -/
theorem exploreFrom_laterStarts {mode : Mode} {matched : Bool}
    {settled : Finset (Nat × Nat) × List Visit} :
    exploreFrom program [] (laterStarts program mode matched cursor) settled =
      (explore program settled.1 ((advance program settled.2).1 ++ laterStarts program mode
        (matched || (advance program settled.2).2.isSome) cursor)).or
          (advance program settled.2).2 := by
  unfold exploreFrom
  rcases advance program settled.2 with ⟨onward, _ | slots⟩
  · simp
  · simp [laterStarts_of_matched]

theorem explore_round {mode : Mode} {first matched : Bool} {seeded : Threads}
    {level more onward : List Visit} {found : Option Slots}
    (hall : ∀ visit ∈ level ++ more, visit.cursor = cursor)
    (hseeded : seeded.Holds program cursor (settle program fresh (level ++ more)))
    (hstarts : starts program mode first matched cursor =
      more ++ laterStarts program mode matched cursor)
    (hadvance : advance program (seeded.resting program cursor) = (onward, found)) :
    explore program fresh (level ++ starts program mode first matched cursor) =
      (explore program (settle program fresh (level ++ more)).1
        (onward ++ laterStarts program mode (matched || found.isSome) cursor)).or found := by
  rw [hstarts, ← List.append_assoc, explore_level hall, exploreFrom_laterStarts,
    ← hseeded.resting, hadvance]

/-- A search from a place on finds what the depth-first walk finds from the threads there, and
from those that begin further on. -/
theorem walk_eq (hcheck : program.check = .ok ()) {mode : Mode} {first matched : Bool}
    {slots : Slots} {offset : Nat} {before : Option Char} {rest : List Char}
    {current next : Threads} {level : List Visit} {explored : Option Slots}
    (hlevel : ∀ visit ∈ level, visit.cursor = ⟨offset, before, rest⟩)
    (hcurrent : current.Holds program ⟨offset, before, rest⟩ (settle program fresh level))
    (hfits : next.Fits program) (hempty : next.set.members = []) {scratch : Scratch}
    (hscratch : scratch.Fits program)
    (huntouched : Untouched program ⟨offset, before, rest⟩ fresh)
    (hexplored : explore program fresh
      (level ++ starts program mode first matched ⟨offset, before, rest⟩) = explored) :
    ∃ found cache,
      walk program mode first matched slots offset before rest current next scratch =
        some (matched || explored.isSome, found, cache) ∧
      (mode.earliest = false → found = explored.getD slots) ∧ cache.Fits program := by
  induction rest generalizing first matched slots offset before current next scratch fresh level
    explored with
  | nil =>
      rw [walk]
      split
      next hstop =>
        rw [explore_of_isEmpty hlevel hcurrent hstop] at hexplored
        subst hexplored
        exact ⟨slots, ⟨current, next, scratch⟩, by simp, fun _ => rfl, hcurrent.fits, hfits,
          hscratch⟩
      obtain ⟨seeded, kept, more, hseed, hall, hseeded, hstarts, hkept⟩ :=
        seed_eq hcheck mode first matched hlevel hcurrent hscratch
      have hend : Cursor.next? ⟨offset, before, []⟩ = none := rfl
      have hround := explore_round hall hseeded hstarts
        (Prod.ext (advance_at_end hend fun _ => Threads.mem_resting) rfl)
      have hstep := step_at_end ⟨offset, before, []⟩ hseeded.fits next kept
        fun _ => hseeded.fits.set.lt_of_mem
      rw [← Threads.resting] at hstep
      simp only [laterStarts, hend, List.append_nil, explore_nil, Option.none_or,
        hexplored] at hround
      simp only [hseed, hend, hstep, ← hround, ite_self]
      exact ⟨explored.getD slots, ⟨seeded, next, kept⟩, by simp, fun _ => rfl, hseeded.fits, hfits,
        hkept⟩
  | cons c rest ih =>
      rw [walk]
      split
      next hstop =>
        rw [explore_of_isEmpty hlevel hcurrent hstop] at hexplored
        subst hexplored
        exact ⟨slots, ⟨current, next, scratch⟩, by simp, fun _ => rfl, hcurrent.fits, hfits,
          hscratch⟩
      obtain ⟨seeded, kept, more, hseed, hall, hseeded, hstarts, hkept⟩ :=
        seed_eq hcheck mode first matched hlevel hcurrent hscratch
      have hnext : Cursor.next? ⟨offset, before, c :: rest⟩ =
        some (c, ⟨offset + c.utf8Size, some c, rest⟩) := rfl
      have huntouched := huntouched.settle hall
      obtain ⟨moved, left, hstep, hmoved, hleft⟩ := step_eq hcheck hseeded.fits hnext
        (huntouched.holds hnext hfits hempty) hkept fun _ => hseeded.fits.set.lt_of_mem
      rw [← Threads.resting] at hstep hmoved
      obtain ⟨onward, found, hadvance⟩ : ∃ onward found,
        advance program (seeded.resting program ⟨offset, before, c :: rest⟩) = (onward, found) :=
        ⟨_, _, rfl⟩
      have hround := explore_round hall hseeded hstarts hadvance
      rw [hadvance] at hstep hmoved
      simp only [hexplored, laterStarts, hnext] at hround
      simp only [hseed, hnext, hstep]
      -- What is found behind the next character is preferred, unless any match will do.
      cases hdone : mode.earliest && found.isSome with
      | true =>
          obtain ⟨hearliest, hsome⟩ := Bool.and_eq_true_iff.mp hdone
          exact ⟨found.getD slots, ⟨seeded, moved, left⟩, by simp [hround, hsome],
            by simp [hearliest], hseeded.fits, hmoved.fits, hleft⟩
      | false =>
          obtain ⟨better, cache, hwalk, hbetter, hcache⟩ := ih
            (cursor_of_advance hnext hadvance) hmoved hseeded.fits.clear
            (SparseSet.members_clear _) hleft (huntouched.behind hnext) rfl
          simp only [Bool.false_eq_true, if_false]
          refine ⟨better, cache, hwalk.trans ?_, fun hearliest => ?_, hcache⟩
          · rw [hround, Option.isSome_or, Bool.or_assoc, Bool.or_comm found.isSome]
          · rw [hbetter hearliest, hround, Option.getD_or]

theorem cache_fits_ofProgram (program : Program) : (Cache.ofProgram program).Fits program :=
  ⟨Threads.fits_ofProgram program, Threads.fits_ofProgram program, Scratch.fits_ofProgram program⟩

/-- A search finds what the depth-first walk finds from the places at which a match may begin, with
whatever memory it is given. -/
theorem search_eq_of_fresh (hcheck : program.check = .ok ())
    (hfresh : ∀ address, address < program.size → ∀ offset, cursor.offset ≤ offset →
      offset ≤ cursor.stop → (address, offset) ∈ fresh)
    (mode : Mode) {cache : Cache} (hcache : cache.Fits program) (slots : Slots)
    {explored : Option Slots}
    (hexplored : explore program fresh (starts program mode true false cursor) = explored) :
    ∃ found kept, search program mode cache cursor slots = some (explored.isSome, found, kept) ∧
      (mode.earliest = false → found = explored.getD slots) ∧ kept.Fits program := by
  have hcurrent : cache.current.clear.Holds program cursor (settle program fresh []) :=
    { fits := hcache.current.clear
      mem_fresh := fun address haddress => by
        have hmem := hfresh address haddress cursor.offset (Nat.le_refl _) cursor.offset_le_stop
        simp [Threads.clear, hmem]
      resting := by simp [Threads.resting, Threads.clear] }
  have huntouched : Untouched program cursor fresh := fun address haddress offset hlt =>
    hfresh address haddress offset (Nat.le_of_lt hlt)
  exact walk_eq hcheck (by simp) hcurrent hcache.next.clear (SparseSet.members_clear _)
    hcache.scratch huntouched hexplored

theorem search_eq (hcheck : program.check = .ok ()) {text : String} (hon : Cursor.On text cursor)
    (mode : Mode) {cache : Cache} (hcache : cache.Fits program) (slots : Slots)
    {explored : Option Slots}
    (hexplored : explore program (everywhere program text)
      (starts program mode true false cursor) = explored) :
    ∃ found kept, search program mode cache cursor slots = some (explored.isSome, found, kept) ∧
      (mode.earliest = false → found = explored.getD slots) ∧ kept.Fits program := by
  refine search_eq_of_fresh hcheck (fun address haddress offset _ hle => ?_) mode hcache slots
    hexplored
  rw [hon.stop_eq] at hle
  exact mem_everywhere.mpr ⟨haddress, hle⟩

theorem search_fits (hcheck : program.check = .ok ()) (mode : Mode) {cache : Cache}
    (hcache : cache.Fits program) (cursor : Cursor) (slots : Slots) :
    ∃ matched found kept, search program mode cache cursor slots = some (matched, found, kept) ∧
      kept.Fits program := by
  obtain ⟨found, kept, hsearch, -, hkept⟩ := search_eq_of_fresh hcheck
    (fun address haddress offset _ hle => Finset.mem_product.mpr
      ⟨Finset.mem_range.mpr haddress, Finset.mem_range.mpr (Nat.lt_succ_of_le hle)⟩)
    mode hcache slots rfl
  exact ⟨_, found, kept, hsearch, hkept⟩

/-- An anchored search for the preferred match is the depth-first walk from its place: it tells
whether the walk accepts and gives the slots of the thread that does; else the row it was given
is returned as it was. -/
theorem search_anchored_eq_explore (hcheck : program.check = .ok ()) {text : String}
    {start : Nat} (hcursor : Cursor.at? text start = some cursor) (slots : Slots) :
    let explored := explore program (everywhere program text)
      [⟨program.start, cursor, Array.replicate program.slots none⟩]
    ∃ kept, search program ⟨true, false⟩ (.ofProgram program) cursor slots =
      some (explored.isSome, explored.getD slots, kept) := by
  intro explored
  obtain ⟨hon, -⟩ := Cursor.at?_eq_some_iff.mp hcursor
  have hexplored : explore program (everywhere program text)
      (starts program ⟨true, false⟩ true false cursor) = explored := rfl
  obtain ⟨found, kept, hsearch, hfound, -⟩ :=
    search_eq hcheck hon ⟨true, false⟩ (cache_fits_ofProgram program) slots hexplored
  exact ⟨kept, by rw [hsearch, hfound rfl]⟩

theorem search_anchored_eq_explore_selfLoop :
    let program : Program := ⟨#[.split 0 1, .char 'b' true, .save 1, .accept], #[], 2, 0⟩
    let explored := explore program (everywhere program "aB")
      [⟨0, ⟨1, some 'a', ['B']⟩, #[none, none]⟩]
    program.check = .ok () ∧ Cursor.at? "aB" 1 = some ⟨1, some 'a', ['B']⟩ ∧
      ∃ kept, search program ⟨true, false⟩ (.ofProgram program) ⟨1, some 'a', ['B']⟩ #[some 7, none] =
        some (explored.isSome, explored.getD #[some 7, none], kept) := by
  intro program explored
  have hcheck : program.check = .ok () := by decide +kernel
  have hcursor : Cursor.at? "aB" 1 = some ⟨1, some 'a', ['B']⟩ := by decide +kernel
  exact ⟨hcheck, hcursor, search_anchored_eq_explore hcheck hcursor #[some 7, none]⟩

end TextColumns.Search
