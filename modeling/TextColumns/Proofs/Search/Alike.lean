import Mathlib.Data.List.Forall2
import TextColumns.Proofs.Search.Lockstep

/-!
Programs of instructions that do the same on the characters of a text, address by address.  A walk
over the text cannot tell such programs apart.
-/

namespace TextColumns.Search

open Text (Cursor)

/-- Whether two instructions, each in its own program, do the same at every place of a text. -/
structure Agree (program other : Program) (text : String) (first second : Instruction) : Prop where
  accept : first = .accept ↔ second = .accept
  moves : ∀ cursor address, Cursor.On text cursor →
    moves program cursor address first = moves other cursor address second
  recorded : ∀ cursor slots, recorded cursor slots first = recorded cursor slots second

structure Alike (program other : Program) (text : String) : Prop where
  instructions : List.Forall₂ (Agree program other text) program.instructions.toList
    other.instructions.toList
  slots : program.slots = other.slots
  start : program.start = other.start

variable {program other : Program} {text : String} {instruction first second : Instruction}

theorem agree_self (hclass : ∀ cls fold, instruction ≠ .oneOf cls fold) :
    Agree program other text instruction instruction where
  accept := Iff.rfl
  moves cursor address _ := by
    cases instruction with
    | oneOf cls fold => exact absurd rfl (hclass cls fold)
    | _ => rfl
  recorded _ _ := rfl

def consumes : Instruction → Bool
  | .char .. | .any _ | .oneOf .. => true
  | _ => false

theorem moves_of_consumes (hconsumes : consumes instruction = true) (cursor : Cursor)
    (address : Nat) :
    moves program cursor address instruction =
      match cursor.next? with
      | none => []
      | some (c, behind) =>
        if program.accepts? c instruction = some true then [(address + 1, behind)] else [] := by
  cases instruction with
  | char | any | oneOf => rfl
  | _ => cases hconsumes

theorem recorded_of_consumes (hconsumes : consumes instruction = true) (cursor : Cursor)
    (slots : Slots) : recorded cursor slots instruction = slots := by
  cases instruction with
  | save => cases hconsumes
  | _ => rfl

theorem mem_of_next? {cursor behind : Cursor} {c : Char} (hon : Cursor.On text cursor)
    (hnext : cursor.next? = some (c, behind)) : c ∈ text.toList := by
  obtain ⟨passed, htext, -⟩ := hon
  obtain ⟨rest, hrest, -⟩ := Cursor.next?_eq_some hnext
  rw [htext, hrest]
  exact List.mem_append_right _ List.mem_cons_self

theorem agree_of_accepts? (hfirst : consumes first = true) (hsecond : consumes second = true)
    (haccepts : ∀ c ∈ text.toList, program.accepts? c first = other.accepts? c second) :
    Agree program other text first second where
  accept := by
    refine iff_of_false ?_ ?_
    · rintro rfl
      cases hfirst
    · rintro rfl
      cases hsecond
  moves cursor address hon := by
    rw [moves_of_consumes hfirst, moves_of_consumes hsecond]
    cases hnext : cursor.next? with
    | none => rfl
    | some next => simp only [haccepts _ (mem_of_next? hon hnext)]
  recorded cursor slots := by
    rw [recorded_of_consumes hfirst, recorded_of_consumes hsecond]

namespace Alike

variable (halike : Alike program other text)
include halike

theorem size_eq : program.size = other.size := halike.instructions.length_eq

theorem instruction_cases (address : Nat) :
    (program.instructions[address]? = none ∧ other.instructions[address]? = none) ∨
      ∃ first second, program.instructions[address]? = some first ∧
        other.instructions[address]? = some second ∧ Agree program other text first second := by
  have hsize := halike.size_eq
  rcases Nat.lt_or_ge address program.size with hlt | hge
  · have hlt' : address < other.size := hsize ▸ hlt
    exact .inr ⟨_, _, Array.getElem?_eq_getElem hlt, Array.getElem?_eq_getElem hlt',
      halike.instructions.get hlt hlt'⟩
  · have hge' : other.size ≤ address := hsize ▸ hge
    exact .inl ⟨Array.getElem?_eq_none hge, Array.getElem?_eq_none hge'⟩

theorem accepts_eq (visit : Visit) : visit.accepts program = visit.accepts other := by
  rw [Visit.accepts, Visit.accepts, Bool.eq_iff_iff, beq_iff_eq, beq_iff_eq]
  rcases halike.instruction_cases visit.address with
    ⟨hfirst, hsecond⟩ | ⟨first, second, hfirst, hsecond, hagree⟩
  · rw [hfirst, hsecond]
  · rw [hfirst, hsecond, Option.some_inj, Option.some_inj]
    exact hagree.accept

theorem onward_eq {visit : Visit} (hon : Cursor.On text visit.cursor) :
    visit.onward program = visit.onward other := by
  rw [Visit.onward, Visit.onward]
  rcases halike.instruction_cases visit.address with
    ⟨hfirst, hsecond⟩ | ⟨first, second, hfirst, hsecond, hagree⟩
  · rw [hfirst, hsecond]
  · rw [hfirst, hsecond]
    dsimp only
    rw [hagree.moves visit.cursor visit.address hon]
    exact List.map_congr_left fun place _ =>
      congrArg (Visit.mk _ _) (hagree.recorded visit.cursor visit.slots)

/-- The walk finds the same with either program. -/
theorem explore_eq {fresh : Finset (Nat × Nat)} {pending : List Visit}
    (hon : ∀ visit ∈ pending, Cursor.On text visit.cursor) :
    explore program fresh pending = explore other fresh pending := by
  fun_induction explore program fresh pending with
  | case1 => exact (explore_nil).symm
  | case2 fresh visit pending hkey haccepts =>
      rw [halike.accepts_eq] at haccepts
      rw [explore_of_accepts hkey haccepts]
  | case3 fresh visit pending hkey haccepts ih =>
      obtain ⟨hvisit, hpending⟩ := List.forall_mem_cons.mp hon
      rw [halike.accepts_eq, Bool.not_eq_true] at haccepts
      rw [explore_of_mem hkey haccepts, ← halike.onward_eq hvisit]
      exact ih (List.forall_mem_append.mpr
        ⟨fun next hnext => Visit.on_of_mem_onward hvisit hnext, hpending⟩)
  | case4 fresh visit pending hkey ih =>
      rw [explore_of_not_mem hkey]
      exact ih (List.forall_mem_cons.mp hon).2

theorem everywhere_eq : everywhere program text = everywhere other text := by
  rw [everywhere, everywhere, halike.size_eq]

theorem starts_eq (mode : Mode) (first matched : Bool) (cursor : Cursor) :
    starts program mode first matched cursor = starts other mode first matched cursor := by
  have hstart : startVisit program = startVisit other := by
    funext cursor
    rw [startVisit, startVisit, halike.start, halike.slots]
  rw [starts, starts, hstart]

end Alike

end TextColumns.Search
