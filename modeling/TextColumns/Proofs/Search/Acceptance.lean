import TextColumns.Proofs.Search.Explore

/-!
Whether a thread can come to accept.  The depth-first walk passes over places at which it has been;
`isSome_explore_iff` says that it misses nothing by that, since whatever accepts behind such a place
is reached in fewer steps from a thread that is still pending.
-/

namespace TextColumns.Search

open Text (Cursor)

/-- A thread comes to accept in a number of steps. -/
inductive Accepts (program : Program) : (steps address : Nat) → Cursor → Prop
  | accept {address : Nat} {cursor : Cursor}
      (haccept : program.instructions[address]? = some .accept) : Accepts program 0 address cursor
  | step {steps address : Nat} {cursor : Cursor} {instruction : Instruction} {place : Nat × Cursor}
      (hinstruction : program.instructions[address]? = some instruction)
      (hplace : place ∈ moves program cursor address instruction)
      (hlater : Accepts program steps place.1 place.2) : Accepts program (steps + 1) address cursor

variable {program : Program} {cursor : Cursor}

theorem accepts_iff {steps address : Nat} {instruction : Instruction}
    (hinstruction : program.instructions[address]? = some instruction)
    (haccept : instruction ≠ .accept) :
    Accepts program steps address cursor ↔
      ∃ earlier, steps = earlier + 1 ∧ ∃ place ∈ moves program cursor address instruction,
        Accepts program earlier place.1 place.2 := by
  constructor
  · intro haccepts
    cases haccepts with
    | accept h => exact absurd (Option.some.inj (hinstruction.symm.trans h)) haccept
    | step h hplace hlater =>
        obtain rfl := Option.some.inj (hinstruction.symm.trans h)
        exact ⟨_, rfl, _, hplace, hlater⟩
  · intro hlater
    obtain ⟨earlier, rfl, place, hplace, hlater⟩ := hlater
    exact .step hinstruction hplace hlater

namespace Visit

def AcceptsIn (visit : Visit) (program : Program) (steps : Nat) : Prop :=
  Accepts program steps visit.address visit.cursor

theorem acceptsIn_of_onward {visit next : Visit} {steps : Nat}
    (hnext : next ∈ visit.onward program) (haccepts : next.AcceptsIn program steps) :
    visit.AcceptsIn program (steps + 1) := by
  obtain ⟨instruction, hinstruction, hplace, -⟩ := mem_onward.mp hnext
  exact .step hinstruction hplace haccepts

theorem exists_onward_of_acceptsIn {visit : Visit} {steps : Nat}
    (hvisit : visit.accepts program = false) (haccepts : visit.AcceptsIn program steps) :
    ∃ earlier, earlier < steps ∧ ∃ next ∈ visit.onward program, next.AcceptsIn program earlier := by
  cases haccepts with
  | accept haccept => simp [accepts, haccept] at hvisit
  | step hinstruction hplace hlater =>
      exact ⟨_, Nat.lt_succ_self _, ⟨_, _, recorded visit.cursor visit.slots _⟩,
        mem_onward.mpr ⟨_, hinstruction, hplace, rfl⟩, hlater⟩

end Visit

/-- Whatever accepts from a place that has been visited accepts from a pending thread, in fewer
steps. -/
def Covered (program : Program) (text : String) (fresh : Finset (Nat × Nat))
    (pending : List Visit) : Prop :=
  ∀ visited : Visit, Cursor.On text visited.cursor → visited.key ∉ fresh →
    ∀ steps, visited.AcceptsIn program steps →
      ∃ visit ∈ pending, ∃ earlier, earlier < steps ∧ visit.AcceptsIn program earlier

theorem Covered.of_not_mem {text : String} {fresh : Finset (Nat × Nat)} {first : Visit}
    {pending : List Visit} (hcovered : Covered program text fresh (first :: pending))
    (hon : Cursor.On text first.cursor) (hkey : first.key ∉ fresh) {steps : Nat}
    (haccepts : first.AcceptsIn program steps) :
    ∃ visit ∈ pending, ∃ earlier, earlier < steps ∧ visit.AcceptsIn program earlier := by
  induction steps using Nat.strongRecOn with
  | ind steps ih =>
      obtain ⟨visit, hvisit, earlier, hlt, hearlier⟩ := hcovered first hon hkey steps haccepts
      rcases List.mem_cons.mp hvisit with rfl | hvisit
      · obtain ⟨visit, hvisit, earliest, hearliest, haccepts⟩ := ih earlier hlt hearlier
        exact ⟨visit, hvisit, earliest, Nat.lt_trans hearliest hlt, haccepts⟩
      · exact ⟨visit, hvisit, earlier, hlt, hearlier⟩

theorem Covered.drop {text : String} {fresh : Finset (Nat × Nat)} {first : Visit}
    {pending : List Visit} (hcovered : Covered program text fresh (first :: pending))
    (hon : Cursor.On text first.cursor) (hkey : first.key ∉ fresh) :
    Covered program text fresh pending := by
  intro visited honVisited hvisited steps haccepts
  obtain ⟨visit, hvisit, earlier, hlt, haccepts⟩ :=
    hcovered visited honVisited hvisited steps haccepts
  rcases List.mem_cons.mp hvisit with rfl | hvisit
  · obtain ⟨visit, hvisit, earliest, hearliest, haccepts⟩ := hcovered.of_not_mem hon hkey haccepts
    exact ⟨visit, hvisit, earliest, Nat.lt_trans hearliest hlt, haccepts⟩
  · exact ⟨visit, hvisit, earlier, hlt, haccepts⟩

theorem exists_acceptsIn_onward {first visit : Visit} {pending : List Visit}
    (hfirst : first.accepts program = false) (hvisit : visit ∈ first :: pending) {steps : Nat}
    (haccepts : visit.AcceptsIn program steps) :
    ∃ next ∈ first.onward program ++ pending, ∃ earlier, earlier ≤ steps ∧
      next.AcceptsIn program earlier := by
  rcases List.mem_cons.mp hvisit with rfl | hvisit
  · obtain ⟨earlier, hlt, next, hnext, haccepts⟩ :=
      Visit.exists_onward_of_acceptsIn hfirst haccepts
    exact ⟨next, List.mem_append_left _ hnext, earlier, Nat.le_of_lt hlt, haccepts⟩
  · exact ⟨visit, List.mem_append_right _ hvisit, steps, Nat.le_refl _, haccepts⟩

theorem Covered.visit {text : String} {fresh : Finset (Nat × Nat)} {first : Visit}
    {pending : List Visit} (hcovered : Covered program text fresh (first :: pending))
    (hon : Cursor.On text first.cursor) (hfirst : first.accepts program = false) :
    Covered program text (fresh.erase first.key) (first.onward program ++ pending) := by
  intro visited honVisited hkey steps haccepts
  by_cases hold : visited.key ∈ fresh
  · have hsame : visited.key = first.key := by
      by_contra hne
      exact hkey (Finset.mem_erase.mpr ⟨hne, hold⟩)
    have haddress : visited.address = first.address := congrArg Prod.fst hsame
    have hcursor : visited.cursor = first.cursor :=
      honVisited.eq_of_offset_eq hon (congrArg Prod.snd hsame)
    rw [Visit.AcceptsIn, haddress, hcursor] at haccepts
    obtain ⟨earlier, hlt, next, hnext, haccepts⟩ :=
      Visit.exists_onward_of_acceptsIn hfirst haccepts
    exact ⟨next, List.mem_append_left _ hnext, earlier, hlt, haccepts⟩
  · obtain ⟨visit, hvisit, earlier, hlt, haccepts⟩ :=
      hcovered visited honVisited hold steps haccepts
    obtain ⟨next, hnext, earliest, hle, haccepts⟩ :=
      exists_acceptsIn_onward hfirst hvisit haccepts
    exact ⟨next, hnext, earliest, Nat.lt_of_le_of_lt hle hlt, haccepts⟩

theorem isSome_explore {text : String} {fresh : Finset (Nat × Nat)} {pending : List Visit}
    (hon : ∀ visit ∈ pending, Cursor.On text visit.cursor)
    (hcovered : Covered program text fresh pending) {visit : Visit} (hvisit : visit ∈ pending)
    {steps : Nat} (haccepts : visit.AcceptsIn program steps) :
    (explore program fresh pending).isSome = true := by
  fun_induction explore program fresh pending generalizing visit steps with
  | case1 => simp at hvisit
  | case2 => rfl
  | case3 fresh first pending hfresh hfirst ih =>
      have hfirst : first.accepts program = false := by simpa using hfirst
      obtain ⟨honFirst, honPending⟩ := List.forall_mem_cons.mp hon
      obtain ⟨next, hnext, earlier, -, haccepts⟩ := exists_acceptsIn_onward hfirst hvisit haccepts
      exact ih
        (List.forall_mem_append.mpr ⟨fun _ => Visit.on_of_mem_onward honFirst, honPending⟩)
        (hcovered.visit honFirst hfirst) hnext haccepts
  | case4 fresh first pending hfresh ih =>
      obtain ⟨honFirst, honPending⟩ := List.forall_mem_cons.mp hon
      have hdropped := hcovered.drop honFirst hfresh
      rcases List.mem_cons.mp hvisit with rfl | hvisit
      · obtain ⟨next, hnext, earlier, -, haccepts⟩ :=
          hcovered.of_not_mem honFirst hfresh haccepts
        exact ih honPending hdropped hnext haccepts
      · exact ih honPending hdropped hvisit haccepts

/-- The depth-first walk finds a match if and only if a thread can come to accept. -/
theorem isSome_explore_iff {text : String} {pending : List Visit}
    (hon : ∀ visit ∈ pending, Cursor.On text visit.cursor) :
    (explore program (everywhere program text) pending).isSome = true ↔
      ∃ visit ∈ pending, ∃ steps, visit.AcceptsIn program steps := by
  constructor
  · intro hsome
    obtain ⟨slots, hfound⟩ := Option.isSome_iff_exists.mp hsome
    obtain ⟨visit, hvisit, haccepts, -⟩ := explore_induct
      (P := fun visit => (∃ steps, visit.AcceptsIn program steps) →
        ∃ visit ∈ pending, ∃ steps, visit.AcceptsIn program steps)
      (fun visit hvisit next hnext ⟨steps, haccepts⟩ =>
        hvisit ⟨steps + 1, Visit.acceptsIn_of_onward hnext haccepts⟩)
      (fun visit hvisit haccepts => ⟨visit, hvisit, haccepts⟩) hfound
    exact hvisit ⟨0, .accept (eq_of_beq haccepts)⟩
  · intro haccepts
    obtain ⟨visit, hvisit, steps, haccepts⟩ := haccepts
    refine isSome_explore hon ?_ hvisit haccepts
    intro visited honVisited hkey steps haccepts
    have haddress : ¬ visited.address < program.size := fun hlt =>
      hkey (mem_everywhere.mpr ⟨hlt, honVisited.offset_le⟩)
    have hnone : program.instructions[visited.address]? = none :=
      Array.getElem?_eq_none (Nat.le_of_not_lt haddress)
    cases haccepts with
    | accept haccept => simp [hnone] at haccept
    | step hinstruction _ _ => simp [hnone] at hinstruction

end TextColumns.Search
