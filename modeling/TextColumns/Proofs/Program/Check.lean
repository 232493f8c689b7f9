import TextColumns.Program.Basic

namespace TextColumns.Program

variable {program : Program}

theorem check_eq_ok_iff :
    program.check = .ok () ↔
      program.start < program.size ∧ 2 ≤ program.slots ∧ program.slots % 2 = 0 ∧
        program.acceptCount = 1 ∧
        ∀ address instruction, program.instructions[address]? = some instruction →
          program.staysInside address instruction = true := by
  have houtside : program.firstOutside? = none ↔
      ∀ address instruction, program.instructions[address]? = some instruction →
        program.staysInside address instruction = true := by
    simp only [firstOutside?, Array.find?_eq_none, Array.mem_mapIdx, Bool.not_eq_true,
      Bool.not_eq_false']
    constructor
    · intro h address instruction hinstruction
      obtain ⟨hlt, rfl⟩ := Array.getElem?_eq_some_iff.mp hinstruction
      exact h _ ⟨address, hlt, rfl⟩
    · rintro h _ ⟨address, hlt, rfl⟩
      exact h address _ (Array.getElem?_eq_getElem hlt)
  rw [← houtside]
  fun_cases check program with
  | case1 hstart => simp [Nat.not_lt.mpr hstart]
  | case2 hstart hslots =>
      simp only [Bool.or_eq_true, decide_eq_true_eq, bne_iff_ne, ne_eq] at hslots
      simp only [reduceCtorEq, false_iff, not_and]
      omega
  | case3 hstart hslots haccept =>
      simp only [bne_iff_ne, ne_eq] at haccept
      simp [haccept]
  | case4 hstart hslots haccept address instruction hfirst => simp [hfirst]
  | case5 hstart hslots haccept hfirst =>
      simp only [Bool.or_eq_true, decide_eq_true_eq, bne_iff_ne, ne_eq, not_or,
        Decidable.not_not, Nat.not_lt, Nat.not_le] at hstart hslots haccept
      simp [hfirst, hstart, hslots, haccept]

theorem start_lt_of_check (hcheck : program.check = .ok ()) : program.start < program.size :=
  (check_eq_ok_iff.mp hcheck).1

theorem staysInside_of_check (hcheck : program.check = .ok ()) {address : Nat}
    {instruction : Instruction}
    (hinstruction : program.instructions[address]? = some instruction) :
    program.staysInside address instruction = true :=
  (check_eq_ok_iff.mp hcheck).2.2.2.2 address instruction hinstruction

end TextColumns.Program
