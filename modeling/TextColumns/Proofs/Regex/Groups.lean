import TextColumns.Proofs.Pattern.Nesting
import TextColumns.Proofs.Regex.WholeMatch

/-!
The groups of a match.  A group either takes no part in a match, or it is known where it starts and
where it stops, which is not before.
-/

namespace TextColumns

open Pattern (Label Labelling)
open Text (Cursor Extent)

namespace Search

variable {program : Program} {text : String} {cursor : Cursor} {slots : Slots} {opened : List Nat}
  {here : Nat} {k : Nat}

/-- Whether a group has neither end, or has both of them up to an offset. -/
inductive Slots.Whole (slots : Slots) (here k : Nat) : Prop
  | absent (hstart : slots[2 * k]?.join = none) (hstop : slots[2 * k + 1]?.join = none)
  | extent {extent : Extent} (hgroup : slots.group? k = some extent)
      (hle : extent.start ≤ extent.stop) (hhere : extent.stop ≤ here)

/-- Whether groups that are open have begun up to an offset, and all others are whole. -/
structure Slots.Nested (opened : List Nat) (here : Nat) (slots : Slots) : Prop where
  begun : ∀ k ∈ opened, ∃ start, slots[2 * k]? = some (some start) ∧ start ≤ here
  whole : ∀ k, k ∉ opened → slots.Whole here k

theorem Slots.Whole.mono {further : Nat} (hwhole : slots.Whole here k) (hle : here ≤ further) :
    slots.Whole further k := by
  cases hwhole with
  | absent hstart hstop => exact .absent hstart hstop
  | extent hgroup hproper hhere => exact .extent hgroup hproper (Nat.le_trans hhere hle)

theorem Slots.Nested.mono {further : Nat} (hslots : slots.Nested opened here)
    (hle : here ≤ further) : slots.Nested opened further where
  begun k hk :=
    have ⟨start, hstart, hhere⟩ := hslots.begun k hk
    ⟨start, hstart, Nat.le_trans hhere hle⟩
  whole k hk := (hslots.whole k hk).mono hle

theorem Slots.Whole.le {extent : Extent} (hwhole : slots.Whole here k)
    (hgroup : slots.group? k = some extent) : extent.start ≤ extent.stop := by
  cases hwhole with
  | absent hstart _ =>
      rw [(Slots.exists_of_group? hgroup).1] at hstart
      cases hstart
  | extent hother hle _ =>
      obtain rfl := Option.some.inj (hgroup.symm.trans hother)
      exact hle

theorem Slots.Whole.setIfInBounds {slot offset : Nat} (hwhole : slots.Whole here k)
    (hslot : slot / 2 ≠ k) :
    Slots.Whole (slots.setIfInBounds slot (some offset)) here k := by
  have hstartNe : slot ≠ 2 * k := by omega
  have hstopNe : slot ≠ 2 * k + 1 := by omega
  cases hwhole with
  | absent hstart hstop =>
      refine .absent ?_ ?_
      · rwa [Array.getElem?_setIfInBounds_ne hstartNe]
      · rwa [Array.getElem?_setIfInBounds_ne hstopNe]
  | extent hgroup hle hhere =>
      refine .extent ?_ hle hhere
      rwa [Slots.group?, Array.getElem?_setIfInBounds_ne hstartNe,
        Array.getElem?_setIfInBounds_ne hstopNe]

theorem group?_setIfInBounds {start offset : Nat} (hsize : 2 * k + 1 < slots.size)
    (hstart : slots[2 * k]? = some (some start)) :
    Slots.group? (slots.setIfInBounds (2 * k + 1) (some offset)) k = some ⟨start, offset⟩ := by
  rw [Slots.group?, Array.getElem?_setIfInBounds_ne (by omega), hstart,
    Array.getElem?_setIfInBounds_self_of_lt hsize]

theorem Slots.Nested.recorded {instruction : Instruction} {after : List Nat}
    (hslots : slots.Nested opened cursor.offset) (hchanges : instruction.Changes opened after)
    (hsave : ∀ slot, instruction = .save slot → slot < slots.size) :
    (recorded cursor slots instruction).Nested after cursor.offset := by
  cases hchanges with
  | @opens k opened =>
      have hsize : 2 * k < slots.size := hsave _ rfl
      constructor
      · intro j hj
        by_cases hjk : j = k
        · rw [hjk]
          exact ⟨_, Array.getElem?_setIfInBounds_self_of_lt hsize, Nat.le_refl _⟩
        · have hj : j ∈ opened := (List.mem_cons.mp hj).resolve_left hjk
          obtain ⟨start, hstart, hle⟩ := hslots.begun j hj
          exact ⟨start, (Array.getElem?_setIfInBounds_ne (by omega)).trans hstart, hle⟩
      · intro j hj
        obtain ⟨hjk, hj⟩ := not_or.mp (List.mem_cons.not.mp hj)
        exact (hslots.whole j hj).setIfInBounds (by omega)
  | @closes k =>
      have hsize : 2 * k + 1 < slots.size := hsave _ rfl
      constructor
      · intro j hj
        obtain ⟨start, hstart, hle⟩ := hslots.begun j (.tail _ hj)
        exact ⟨start, (Array.getElem?_setIfInBounds_ne (by omega)).trans hstart, hle⟩
      · intro j hj
        by_cases hjk : j = k
        · obtain ⟨start, hstart, hle⟩ := hslots.begun k (.head _)
          rw [hjk]
          exact .extent (group?_setIfInBounds hsize hstart) hle (Nat.le_refl _)
        · exact (hslots.whole j (List.mem_cons.not.mpr (not_or.mpr ⟨hjk, hj⟩))).setIfInBounds (by omega)
  | keeps hnoSave _ =>
      cases instruction with
      | save slot => exact absurd rfl (hnoSave slot)
      | jump _ | split _ _ | assertion _ | char _ _ | any _ | oneOf _ _ | accept => exact hslots

/-- A thread at a label, which keeps whole what is not open there. -/
structure Visit.LabelledBy (program : Program) (labels : Set Label) (visit : Visit) : Prop where
  size_eq : visit.slots.size = program.slots
  nested : ∃ opened, (visit.address, opened) ∈ labels ∧
    visit.slots.Nested opened visit.cursor.offset

variable {exit : Nat} {labels : Set Label} {visit next : Visit}

theorem Visit.LabelledBy.onward (hcheck : program.check = .ok ())
    (haccept : program.instructions[exit]? = some .accept)
    (hlabels : ∀ label ∈ labels, label.LeadsTo program (insert (exit, []) labels))
    (hvisit : visit.LabelledBy program (insert (exit, []) labels))
    (hnext : next ∈ visit.onward program) :
    next.LabelledBy program (insert (exit, []) labels) := by
  have hoffset := Visit.offset_le_of_mem_onward hnext
  obtain ⟨instruction, hinstruction, hplace, hslots⟩ := Visit.mem_onward.mp hnext
  obtain ⟨opened, hlabel | hlabel, hnested⟩ := hvisit.nested
  · -- A thread that accepts goes nowhere.
    rw [(Prod.mk.inj hlabel).1, haccept] at hinstruction
    obtain rfl := Option.some.inj hinstruction
    rw [moves_accept] at hplace
    cases hplace
  · obtain ⟨other, after, hother, hchanges, hplaces⟩ := hlabels _ hlabel
    obtain rfl := Option.some.inj (hinstruction.symm.trans hother)
    refine ⟨?_, after, hplaces _ _ hplace, ?_⟩
    · rw [hslots, size_recorded, hvisit.size_eq]
    · rw [hslots]
      refine (hnested.recorded hchanges fun slot hsave => ?_).mono hoffset
      have hinside := Program.staysInside_of_check hcheck hinstruction
      rw [hsave] at hinside
      rw [hvisit.size_eq]
      exact of_decide_eq_true (Bool.and_eq_true_iff.mp hinside).1

theorem labelledBy_startVisit (hstart : (program.start, []) ∈ labels) (place : Cursor) :
    (startVisit program place).LabelledBy program labels where
  size_eq := Array.size_replicate
  nested := by
    have hunset (slot : Nat) : (Array.replicate program.slots (none : Option Nat))[slot]?.join =
        none := by
      rw [Array.getElem?_replicate]
      split <;> rfl
    exact ⟨[], hstart, nofun, fun k _ => .absent (hunset _) (hunset _)⟩

/-- A thread that accepts has no group open. -/
theorem Visit.LabelledBy.whole
    (hlabels : ∀ label ∈ labels, label.LeadsTo program (insert (exit, []) labels))
    (hvisit : visit.LabelledBy program (insert (exit, []) labels))
    (haccepts : visit.accepts program = true) (k : Nat) :
    visit.slots.Whole visit.cursor.offset k := by
  obtain ⟨opened, hlabel | hlabel, hnested⟩ := hvisit.nested
  · refine hnested.whole k ?_
    rw [(Prod.mk.inj hlabel).2]
    exact List.not_mem_nil
  · obtain ⟨instruction, after, hinstruction, hchanges, -⟩ := hlabels _ hlabel
    obtain rfl := Option.some.inj ((eq_of_beq haccepts).symm.trans hinstruction)
    cases hchanges with
    | keeps _ haccept => exact absurd rfl haccept

theorem Matched.whole {pattern : String} {flags : Pattern.Flags}
    (hcompile : Pattern.compile pattern flags = .ok program)
    (hmatched : Matched program text cursor slots) :
    slots.size = program.slots ∧ ∃ here, ∀ k, slots.Whole here k := by
  obtain ⟨-, -, -, hcheck, -⟩ := Pattern.compile_spec hcompile
  obtain ⟨exit, haccept, labels, hstart, hlabels⟩ := Pattern.nests_of_compile hcompile
  have hstarts : ∀ visit ∈ starts program ⟨false, false⟩ true false cursor,
      visit.LabelledBy program (insert (exit, []) labels) := by
    intro visit hvisit
    obtain ⟨place, -, rfl⟩ := on_of_mem_starts hmatched.on hvisit
    exact labelledBy_startVisit hstart place
  obtain ⟨visit, hvisit, haccepts, rfl⟩ := explore_induct
    (fun _ hvisit _ hnext => hvisit.onward hcheck haccept hlabels hnext) hstarts hmatched.found
  exact ⟨hvisit.size_eq, _, hvisit.whole hlabels haccepts⟩

end Search

namespace Regex

open Pattern (Flags)
open Search (Matched Slots)

variable {pattern : String} {flags : Flags} {regex : Regex} {text : String} {slots : Slots}

structure Proper (regex : Regex) (text : String) (slots : Slots) : Prop where
  size_eq : slots.size = regex.program.slots
  whole : ∃ extent, slots.group? 0 = some extent
  within : ∀ k extent, slots.group? k = some extent → extent.Within text
  ordered : ∀ k extent, slots.group? k = some extent → extent.start ≤ extent.stop

theorem proper_of_mem_matchesFrom (hcompile : Regex.compile pattern flags = .ok regex)
    (hslots : slots ∈ regex.program.matchesFrom (.start text) none) : regex.Proper text slots := by
  have hcheck := check_of_compile hcompile
  have hready := Matcher.ready_ofProgram regex.program
  obtain ⟨cursor, hmatched⟩ : ∃ cursor, Matched regex.program text cursor slots := by
    apply (hready.exists_matched hcheck none text).1
    rw [← Array.mem_toList_iff, hready.matchesUpTo_eq hcheck (advances_of_compile hcompile)]
    exact hslots
  obtain ⟨hsize, here, hwhole⟩ := hmatched.whole (program_of_compile hcompile)
  exact ⟨hsize, Program.exists_group_of_mem_matchesFrom hslots,
    fun k extent hgroup => hmatched.within.group? hgroup,
    fun k extent hgroup => (hwhole k).le hgroup⟩

end Regex

end TextColumns
