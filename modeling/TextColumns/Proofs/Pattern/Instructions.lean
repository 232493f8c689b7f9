import TextColumns.Proofs.Pattern.Fragment

/-!
What holds of every instruction of code.  Code is put together from its parts by splits and jumps,
none of which leads to the first address, so a property of such splits and jumps carries over from
the parts to the whole.  In this way the start of the whole match is recorded once, by the first
instruction of the program: no other one writes the first slot, and none leads back to it.
-/

namespace TextColumns

/-- Whether the splits and jumps that do not lead to the first address are so. -/
structure Instruction.Links (P : Instruction → Prop) : Prop where
  split : ∀ {primary secondary : Nat}, 0 < primary → 0 < secondary → P (.split primary secondary)
  jump : ∀ {target : Nat}, 0 < target → P (.jump target)

namespace Pattern

/-- Whether all instructions of code are so, wherever it stands behind the first address. -/
def Code.Each (P : Instruction → Prop) (code : Code) : Prop :=
  ∀ address firstClass, 0 < address → ∀ instruction ∈ code address firstClass, P instruction

section Repetitions

variable {P : Instruction → Prop} {size classes : Nat} {code : Code} {greedy : Bool}

theorem each_of_singleton (hcode : ∀ address firstClass, ∃ instruction,
    code address firstClass = [instruction] ∧ P instruction) : code.Each P := by
  intro address firstClass _ instruction hmem
  obtain ⟨only, honly, hholds⟩ := hcode address firstClass
  rw [honly] at hmem
  exact List.mem_singleton.mp hmem ▸ hholds

theorem each_copies (hcode : code.Each P) (rounds : Nat) :
    (Code.copies size classes code rounds).Each P := by
  induction rounds with
  | zero => exact fun _ _ _ _ hmem => nomatch hmem
  | succ rounds ih =>
      intro address firstClass haddress instruction hmem
      rcases List.mem_append.mp hmem with hmem | hmem
      · exact hcode _ _ haddress instruction hmem
      · exact ih _ _ (Nat.lt_of_lt_of_le haddress (Nat.le_add_right _ _)) instruction hmem

variable (hlinks : Instruction.Links P)
include hlinks

theorem links_fork {body exit : Nat} (hbody : 0 < body) (hexit : 0 < exit) :
    P (fork greedy body exit) := by
  cases greedy
  · exact hlinks.split hexit hbody
  · exact hlinks.split hbody hexit

theorem each_optionalCopies (hcode : code.Each P) {exit : Nat} (hexit : 0 < exit)
    (rounds : Nat) : (Code.optionalCopies size classes code greedy exit rounds).Each P := by
  induction rounds with
  | zero => exact fun _ _ _ _ hmem => nomatch hmem
  | succ rounds ih =>
      intro address firstClass haddress instruction hmem
      rcases List.mem_cons.mp hmem with rfl | hmem
      · exact links_fork hlinks (Nat.succ_pos address) hexit
      · rcases List.mem_append.mp hmem with hmem | hmem
        · exact hcode _ _ (Nat.succ_pos address) instruction hmem
        · exact ih _ _ (Nat.lt_of_lt_of_le (Nat.succ_pos address) (Nat.le_add_right _ _))
            instruction hmem

theorem each_star (hcode : code.Each P) : (Code.star size code greedy).Each P := by
  intro address firstClass haddress instruction hmem
  rcases List.mem_cons.mp hmem with rfl | hmem
  · exact links_fork hlinks (Nat.succ_pos _) (Nat.succ_pos _)
  · rcases List.mem_append.mp hmem with hmem | hmem
    · exact hcode _ _ (Nat.succ_pos address) instruction hmem
    · rw [List.mem_singleton.mp hmem]
      exact hlinks.jump haddress

theorem each_plus (hcode : code.Each P) : (Code.plus size code greedy).Each P := by
  intro address firstClass haddress instruction hmem
  rcases List.mem_append.mp hmem with hmem | hmem
  · exact hcode _ _ haddress instruction hmem
  · rw [List.mem_singleton.mp hmem]
    exact links_fork hlinks haddress (Nat.succ_pos _)

theorem each_repetition (hcode : code.Each P) (min : Nat) (max : Option Nat) :
    (Code.repetition size classes code min max greedy).Each P := by
  intro address firstClass haddress instruction hmem
  have hpos : ∀ n, 0 < address + n := fun n => Nat.lt_of_lt_of_le haddress (Nat.le_add_right _ _)
  unfold Code.repetition at hmem
  split at hmem
  · exact each_star hlinks hcode _ _ haddress instruction hmem
  · rcases List.mem_append.mp hmem with hmem | hmem
    · exact each_copies hcode _ _ _ haddress instruction hmem
    · exact each_plus hlinks hcode _ _ (hpos _) instruction hmem
  · rcases List.mem_append.mp hmem with hmem | hmem
    · exact each_copies hcode _ _ _ haddress instruction hmem
    · refine each_optionalCopies hlinks hcode ?_ _ _ _ (hpos _) instruction hmem
      exact Nat.lt_of_lt_of_le (hpos _) (Nat.le_add_right _ _)

end Repetitions

section Nodes

variable {P : Instruction → Prop} {flags : Flags}

theorem each_concatCode {items : List Node} (hitems : ∀ item ∈ items, (item.code flags).Each P) :
    (concatCode flags items).Each P := by
  induction items with
  | nil => exact fun _ _ _ _ hmem => nomatch hmem
  | cons item rest ih =>
      obtain ⟨hitem, hrest⟩ := List.forall_mem_cons.mp hitems
      intro address firstClass haddress instruction hmem
      rw [concatCode] at hmem
      rcases List.mem_append.mp hmem with hmem | hmem
      · exact hitem _ _ haddress instruction hmem
      · exact ih hrest _ _ (Nat.lt_of_lt_of_le haddress (Nat.le_add_right _ _)) instruction hmem

theorem each_alternate (hlinks : Instruction.Links P) {branches : List Node}
    (hbranches : ∀ branch ∈ branches, (branch.code flags).Each P) :
    ((Node.alternate branches).code flags).Each P := by
  have hall {exit : Nat} (hexit : 0 < exit) : (alternateCode flags exit branches).Each P := by
    induction branches with
    | nil => exact fun _ _ _ _ hmem => nomatch hmem
    | cons branch rest ih =>
        obtain ⟨hbranch, hrest⟩ := List.forall_mem_cons.mp hbranches
        cases rest with
        | nil => exact hbranch
        | cons other others =>
            intro address firstClass haddress instruction hmem
            rw [alternateCode_cons] at hmem
            rcases List.mem_cons.mp hmem with rfl | hmem
            · exact hlinks.split (Nat.succ_pos _) (Nat.succ_pos _)
            rcases List.mem_append.mp hmem with hmem | hmem
            · exact hbranch _ _ (Nat.succ_pos _) instruction hmem
            rcases List.mem_cons.mp hmem with rfl | hmem
            · exact hlinks.jump hexit
            · exact ih hrest _ _ (Nat.succ_pos _) instruction hmem
  intro address firstClass haddress instruction hmem
  rw [Node.code] at hmem
  refine hall ?_ _ _ haddress instruction hmem
  omega

theorem each_group {index : Option Nat} {body : Node}
    (hsave : ∀ k ∈ index, P (.save (2 * k)) ∧ P (.save (2 * k + 1)))
    (hbody : (body.code flags).Each P) : ((Node.group index body).code flags).Each P := by
  cases index with
  | none => exact hbody
  | some k =>
      obtain ⟨hstart, hstop⟩ := hsave k rfl
      intro address firstClass _ instruction hmem
      rw [Node.code] at hmem
      rcases List.mem_cons.mp hmem with rfl | hmem
      · exact hstart
      rcases List.mem_append.mp hmem with hmem | hmem
      · exact hbody _ _ (Nat.succ_pos address) instruction hmem
      · exact List.mem_singleton.mp hmem ▸ hstop

end Nodes

end Pattern

def Instruction.SparesFirst : Instruction → Prop
  | .save slot => slot ≠ 0
  | .jump target => target ≠ 0
  | .split primary secondary => primary ≠ 0 ∧ secondary ≠ 0
  | _ => True

namespace Pattern

def Code.SparesFirst (code : Code) : Prop :=
  ∀ address firstClass, 0 < address →
    ∀ instruction ∈ code address firstClass, instruction.SparesFirst

theorem links_sparesFirst : Instruction.Links Instruction.SparesFirst where
  split hprimary hsecondary := ⟨Nat.ne_of_gt hprimary, Nat.ne_of_gt hsecondary⟩
  jump := Nat.ne_of_gt

variable {flags : Flags}

theorem sparesFirst_group {index : Option Nat} {body : Node} (hindex : ∀ k ∈ index, 0 < k)
    (hbody : (body.code flags).SparesFirst) : ((Node.group index body).code flags).SparesFirst :=
  each_group (fun k hk => ⟨Nat.ne_of_gt (Nat.mul_pos Nat.two_pos (hindex k hk)),
    Nat.succ_ne_zero _⟩) hbody

theorem sparesFirst_of_readAtom {c : Char} {position : Nat} {input after : Input} {node : Node}
    (hread : readAtom c position input = .ok (node, after)) : (node.code flags).SparesFirst := by
  have hliteral (c : Char) : ((Node.literal c).code flags).SparesFirst :=
    each_of_singleton fun _ _ => ⟨_, rfl, trivial⟩
  have honeOf (set : CodeSet) : ((Node.oneOf set).code flags).SparesFirst :=
    each_of_singleton fun _ _ => ⟨_, rfl, trivial⟩
  have hassertion (a : Assertion) : ((Node.assertion a).code flags).SparesFirst :=
    each_of_singleton fun _ _ => ⟨_, rfl, trivial⟩
  unfold readAtom at hread
  split at hread
  · split at hread
    · cases hread
    · cases hread
      exact honeOf _
  · split at hread
    · cases hread
    · cases hread
      exact hliteral _
    · cases hread
      exact honeOf _
    · cases hread
      exact hassertion _
  · cases hread
    exact each_of_singleton fun _ _ => ⟨_, rfl, trivial⟩
  · cases hread
    exact hassertion _
  · cases hread
    exact hassertion _
  · cases hread
    exact hliteral _

theorem sparesFirst_of_parse {text : String} {parsed : Parsed} (hparse : parse text = .ok parsed)
    (flags : Flags) : (parsed.node.code flags).SparesFirst :=
  @parse_induct (fun node => (node.code flags).SparesFirst) _
    (fun _ _ _ _ hmem => nomatch hmem) (fun _ => sparesFirst_of_readAtom)
    (fun _ _ => sparesFirst_group) (fun _ => each_concatCode)
    (fun _ _ => each_alternate links_sparesFirst)
    (fun _ min max _ _ hbody => each_repetition links_sparesFirst hbody min max) _ _
    (List.suffix_refl _) hparse

/-- Programs that record the start of the match with their first instruction, and never again. -/
structure StartsOnce (program : Program) : Prop where
  start : program.start = 0
  first : program.instructions[0]? = some (.save 0)
  others : ∀ {address instruction}, program.instructions[address + 1]? = some instruction →
    instruction.SparesFirst

theorem startsOnce_of_compile {text : String} {program : Program}
    (hcompile : compile text flags = .ok program) : StartsOnce program := by
  obtain ⟨parsed, hparse, rfl, -⟩ := compile_spec hcompile
  refine ⟨rfl, rfl, ?_⟩
  intro address instruction hinstruction
  have hmem : instruction ∈
      parsed.node.code (flags.union parsed.flags) 1 0 ++ [.save 1, .accept] := by
    rw [Parsed.program, List.getElem?_toArray, List.getElem?_cons_succ] at hinstruction
    exact List.mem_of_getElem? hinstruction
  rcases List.mem_append.mp hmem with hmem | hmem
  · exact sparesFirst_of_parse hparse _ _ _ Nat.one_pos instruction hmem
  · cases hmem with
    | head => exact Nat.one_ne_zero
    | tail _ hmem => exact List.mem_singleton.mp hmem ▸ trivial

end Pattern

end TextColumns
