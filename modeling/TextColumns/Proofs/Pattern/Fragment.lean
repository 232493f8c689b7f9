import TextColumns.Regex.Basic
import TextColumns.Proofs.Pattern.Parse

/-!
Where the code of a pattern stands in its program.  `Fragment` says of two addresses that the code
of a node leads from the first to the second; lists and repetitions are taken apart by one member
or round at a time.
-/

namespace TextColumns.Pattern

/-- The code of a node from `entry` up to `exit`, in a program with its own class table. -/
inductive Fragment (program : Program) (flags : Flags) : Node → (entry exit : Nat) → Prop
  | empty {entry : Nat} : Fragment program flags .empty entry entry
  | literal {c : Char} {entry : Nat}
      (hentry : program.instructions[entry]? = some (.char c flags.ignoreCase)) :
      Fragment program flags (.literal c) entry (entry + 1)
  | any {entry : Nat}
      (hentry : program.instructions[entry]? = some (.any flags.dotAll)) :
      Fragment program flags .any entry (entry + 1)
  | oneOf {set : CodeSet} {cls entry : Nat}
      (hentry : program.instructions[entry]? = some (.oneOf cls flags.ignoreCase))
      (hclass : program.classes[cls]? = some (CharClass.ofSet set)) :
      Fragment program flags (.oneOf set) entry (entry + 1)
  | assertion {a : Assertion} {entry : Nat}
      (hentry : program.instructions[entry]? =
        some (.assertion (a.resolve flags.multiline))) :
      Fragment program flags (.assertion a) entry (entry + 1)
  | capture {k : Nat} {body : Node} {entry stop : Nat}
      (hentry : program.instructions[entry]? = some (.save (2 * k)))
      (hbody : Fragment program flags body (entry + 1) stop)
      (hstop : program.instructions[stop]? = some (.save (2 * k + 1))) :
      Fragment program flags (.group (some k) body) entry (stop + 1)
  | group {body : Node} {entry exit : Nat} (hbody : Fragment program flags body entry exit) :
      Fragment program flags (.group none body) entry exit
  | concatNil {entry : Nat} : Fragment program flags (.concat []) entry entry
  | concatCons {item : Node} {items : List Node} {entry next exit : Nat}
      (hitem : Fragment program flags item entry next)
      (hitems : Fragment program flags (.concat items) next exit) :
      Fragment program flags (.concat (item :: items)) entry exit
  | lastBranch {branch : Node} {entry exit : Nat}
      (hbranch : Fragment program flags branch entry exit) :
      Fragment program flags (.alternate [branch]) entry exit
  | branch {branch other : Node} {others : List Node} {entry stop exit : Nat}
      (hentry : program.instructions[entry]? = some (.split (entry + 1) (stop + 1)))
      (hbranch : Fragment program flags branch (entry + 1) stop)
      (hstop : program.instructions[stop]? = some (.jump exit))
      (hothers : Fragment program flags (.alternate (other :: others)) (stop + 1) exit) :
      Fragment program flags (.alternate (branch :: other :: others)) entry exit
  | noRound {body : Node} {greedy : Bool} {entry : Nat} :
      Fragment program flags (.repetition body 0 (some 0) greedy) entry entry
  | round {body : Node} {min : Nat} {max : Option Nat} {greedy : Bool} {entry next exit : Nat}
      (hbody : Fragment program flags body entry next)
      (hothers : Fragment program flags (.repetition body min max greedy) next exit) :
      Fragment program flags (.repetition body (min + 1) (max.map (· + 1)) greedy) entry exit
  | optionalRound {body : Node} {max : Nat} {greedy : Bool} {entry next exit : Nat}
      (hentry : program.instructions[entry]? = some (fork greedy (entry + 1) exit))
      (hbody : Fragment program flags body (entry + 1) next)
      (hothers : Fragment program flags (.repetition body 0 (some max) greedy) next exit) :
      Fragment program flags (.repetition body 0 (some (max + 1)) greedy) entry exit
  | star {body : Node} {greedy : Bool} {entry stop : Nat}
      (hentry : program.instructions[entry]? = some (fork greedy (entry + 1) (stop + 1)))
      (hbody : Fragment program flags body (entry + 1) stop)
      (hstop : program.instructions[stop]? = some (.jump entry)) :
      Fragment program flags (.repetition body 0 none greedy) entry (stop + 1)
  | plus {body : Node} {greedy : Bool} {entry stop : Nat}
      (hbody : Fragment program flags body entry stop)
      (hstop : program.instructions[stop]? = some (fork greedy entry (stop + 1))) :
      Fragment program flags (.repetition body 1 none greedy) entry (stop + 1)

def StandsAt (entries : Array α) (place : Nat) (part : List α) : Prop :=
  ∀ i x, part[i]? = some x → entries[place + i]? = some x

section StandsAt

variable {entries : Array α} {place : Nat} {x : α} {part other : List α}

theorem standsAt_append :
    StandsAt entries place (part ++ other) ↔
      StandsAt entries place part ∧ StandsAt entries (place + part.length) other := by
  constructor
  · intro hstands
    refine ⟨fun i x hx => hstands i x ?_, fun i x hx => ?_⟩
    · obtain ⟨hlt, -⟩ := List.getElem?_eq_some_iff.mp hx
      rwa [List.getElem?_append_left hlt]
    · rw [Nat.add_assoc]
      refine hstands (part.length + i) x ?_
      rwa [List.getElem?_append_right (Nat.le_add_right _ _), Nat.add_sub_cancel_left]
  · rintro ⟨hpart, hother⟩ i x hx
    by_cases hlt : i < part.length
    · rw [List.getElem?_append_left hlt] at hx
      exact hpart i x hx
    · rw [List.getElem?_append_right (Nat.le_of_not_lt hlt)] at hx
      have := hother (i - part.length) x hx
      rwa [Nat.add_assoc, Nat.add_sub_cancel' (Nat.le_of_not_lt hlt)] at this

theorem standsAt_cons :
    StandsAt entries place (x :: part) ↔
      entries[place]? = some x ∧ StandsAt entries (place + 1) part := by
  rw [← List.singleton_append, standsAt_append]
  refine and_congr_left fun _ => ⟨fun h => h 0 x rfl, fun h i y hy => ?_⟩
  cases i with
  | zero => simpa using hy ▸ h
  | succ i => simp at hy

theorem standsAt_toList (entries : Array α) : StandsAt entries 0 entries.toList := by
  intro i x hx
  simpa using hx

theorem standsAt_replicate_add {a b : Nat} :
    StandsAt entries place (List.replicate (a + b) part).flatten ↔
      StandsAt entries place (List.replicate a part).flatten ∧
        StandsAt entries (place + a * part.length) (List.replicate b part).flatten := by
  rw [← List.replicate_append_replicate, List.flatten_append, standsAt_append,
    List.length_flatten, List.map_replicate, List.sum_replicate_nat]

end StandsAt

namespace Code

variable {size classes : Nat} {code : Code} {greedy : Bool}

theorem length_copies (hcode : ∀ address firstClass, (code address firstClass).length = size)
    (rounds address firstClass : Nat) :
    (copies size classes code rounds address firstClass).length = rounds * size := by
  induction rounds generalizing address firstClass with
  | zero => simp [copies]
  | succ rounds ih => rw [copies, List.length_append, hcode, ih, Nat.succ_mul, Nat.add_comm]

theorem copies_laidOut (hcode : ∀ address firstClass, (code address firstClass).length = size)
    (rounds address firstClass : Nat) :
    copies size classes code (laidOut size rounds) address firstClass =
      copies size classes code rounds address firstClass := by
  by_cases hsize : size = 0
  · rw [laidOut, if_pos hsize]
    have hnone : (copies size classes code rounds address firstClass).length = 0 := by
      rw [length_copies hcode, hsize, Nat.mul_zero]
    exact (List.eq_nil_of_length_eq_zero hnone).symm
  · rw [laidOut, if_neg hsize]

theorem length_optionalCopies
    (hcode : ∀ address firstClass, (code address firstClass).length = size)
    (exit rounds address firstClass : Nat) :
    (optionalCopies size classes code greedy exit rounds address firstClass).length =
      rounds * (size + 1) := by
  induction rounds generalizing address firstClass with
  | zero => simp [optionalCopies]
  | succ rounds ih =>
      rw [optionalCopies, List.length_cons, List.length_append, hcode, ih, Nat.succ_mul]
      omega

theorem length_repetition
    (hcode : ∀ address firstClass, (code address firstClass).length = size) {min : Nat}
    {max : Option Nat} (hbounds : ∀ bound ∈ max, min ≤ bound) (address firstClass : Nat) :
    (repetition size classes code min max greedy address firstClass).length =
      writtenRounds min max * size + repetitionCost min max := by
  fun_cases repetition size classes code min max greedy address firstClass with
  | case1 => simp [star, hcode, writtenRounds, repetitionCost]
  | case2 rounds =>
      simp only [copies_laidOut hcode, List.length_append, length_copies hcode, plus, hcode,
        List.length_singleton, writtenRounds, repetitionCost, Nat.succ_ne_zero, if_false,
        Nat.succ_mul]
      omega
  | case3 max =>
      have hle : min ≤ max := hbounds max rfl
      simp only [copies_laidOut hcode, List.length_append, length_copies hcode,
        length_optionalCopies hcode, writtenRounds, repetitionCost, Nat.mul_add, Nat.mul_one]
      rw [← Nat.add_assoc, ← Nat.add_mul, Nat.add_sub_cancel' hle]

end Code

theorem length_concatCode {flags : Flags} {items : List Node}
    (hitems : ∀ item ∈ items, ∀ address firstClass,
      (item.code flags address firstClass).length = item.codeSize) (address firstClass : Nat) :
    (concatCode flags items address firstClass).length = codeSizes items := by
  induction items generalizing address firstClass with
  | nil => rfl
  | cons item items ih =>
      obtain ⟨hitem, hitems⟩ := List.forall_mem_cons.mp hitems
      rw [concatCode, List.length_append, hitem, ih hitems, codeSizes]

theorem alternateCode_cons (flags : Flags) (exit : Nat) (branch other : Node)
    (others : List Node) (address firstClass : Nat) :
    alternateCode flags exit (branch :: other :: others) address firstClass =
      .split (address + 1) (address + branch.codeSize + 2) ::
        (branch.code flags (address + 1) firstClass ++
          .jump exit :: alternateCode flags exit (other :: others)
            (address + branch.codeSize + 2) (firstClass + branch.classCount)) := by
  rw [alternateCode]
  simp

theorem length_alternateCode {flags : Flags} {branches : List Node}
    (hbranches : ∀ branch ∈ branches, ∀ address firstClass,
      (branch.code flags address firstClass).length = branch.codeSize)
    (exit address firstClass : Nat) :
    (alternateCode flags exit branches address firstClass).length =
      codeSizes branches + 2 * (branches.length - 1) := by
  induction branches generalizing address firstClass with
  | nil => rfl
  | cons branch others ih =>
      obtain ⟨hbranch, hothers⟩ := List.forall_mem_cons.mp hbranches
      cases others with
      | nil => simp [alternateCode, codeSizes, hbranch]
      | cons other others =>
          rw [alternateCode_cons, List.length_cons, List.length_append, hbranch,
            List.length_cons, ih hothers]
          simp only [List.length_cons, codeSizes]
          omega

theorem length_code {flags : Flags} {node : Node} (hnode : node.WellFormed)
    (address firstClass : Nat) :
    (node.code flags address firstClass).length = node.codeSize := by
  induction hnode generalizing address firstClass with
  | empty | literal | any | oneOf | assertion => rfl
  | group index _ ih => cases index <;> simp [Node.code, Node.codeSize, ih]
  | concat _ ih => exact length_concatCode ih address firstClass
  | alternate _ _ ih => exact length_alternateCode ih _ address firstClass
  | repetition greedy hbounds _ ih => exact Code.length_repetition ih hbounds address firstClass

theorem length_classesOf {nodes : List Node}
    (hnodes : ∀ node ∈ nodes, node.classes.length = node.classCount) :
    (classesOf nodes).length = classCounts nodes := by
  induction nodes with
  | nil => rfl
  | cons node nodes ih =>
      obtain ⟨hnode, hnodes⟩ := List.forall_mem_cons.mp hnodes
      rw [classesOf, List.length_append, hnode, ih hnodes, classCounts]

theorem length_classes (node : Node) : node.classes.length = node.classCount := by
  induction node with
  | empty | literal | any | oneOf | assertion => rfl
  | group index body ih => exact ih
  | concat items ih => exact length_classesOf ih
  | alternate branches ih => exact length_classesOf ih
  | repetition body min max greedy ih =>
      simp [Node.classes, Node.classCount, List.length_flatten, ih]

section Fragments

variable {program : Program} {flags : Flags}

/-- Whether the code of a node makes a fragment wherever it stands. -/
def Node.Compiles (program : Program) (flags : Flags) (node : Node) : Prop :=
  ∀ address firstClass, StandsAt program.instructions address (node.code flags address firstClass) →
    StandsAt program.classes firstClass node.classes →
    Fragment program flags node address (address + node.codeSize)

theorem fragment_concat {items : List Node} (hitems : ∀ item ∈ items, item.WellFormed)
    (hcompiles : ∀ item ∈ items, item.Compiles program flags) :
    (Node.concat items).Compiles program flags := by
  induction items with
  | nil => exact fun _ _ _ _ => .concatNil
  | cons item items ih =>
      obtain ⟨hitem, hitems⟩ := List.forall_mem_cons.mp hitems
      obtain ⟨hcompile, hcompiles⟩ := List.forall_mem_cons.mp hcompiles
      intro address firstClass hcode hclasses
      rw [Node.code, concatCode, standsAt_append, length_code hitem] at hcode
      rw [Node.classes, classesOf, standsAt_append, length_classes] at hclasses
      rw [Node.codeSize, codeSizes, ← Nat.add_assoc]
      exact .concatCons (hcompile address firstClass hcode.1 hclasses.1)
        (ih hitems hcompiles _ _ hcode.2 hclasses.2)

theorem fragment_alternate {branches : List Node} (hnonempty : branches ≠ [])
    (hbranches : ∀ branch ∈ branches, branch.WellFormed)
    (hcompiles : ∀ branch ∈ branches, branch.Compiles program flags)
    {exit address firstClass : Nat}
    (hcode : StandsAt program.instructions address
      (alternateCode flags exit branches address firstClass))
    (hclasses : StandsAt program.classes firstClass (classesOf branches))
    (hexit : exit = address + codeSizes branches + 2 * (branches.length - 1)) :
    Fragment program flags (.alternate branches) address exit := by
  induction branches generalizing address firstClass with
  | nil => exact absurd rfl hnonempty
  | cons branch others ih =>
      obtain ⟨hbranch, hothers⟩ := List.forall_mem_cons.mp hbranches
      obtain ⟨hcompile, hcompiles⟩ := List.forall_mem_cons.mp hcompiles
      rw [classesOf, standsAt_append, length_classes] at hclasses
      cases others with
      | nil =>
          obtain rfl : exit = address + branch.codeSize := by simpa [codeSizes] using hexit
          exact .lastBranch (hcompile address firstClass hcode hclasses.1)
      | cons other others =>
          simp only [alternateCode_cons, standsAt_cons, standsAt_append, length_code hbranch] at hcode
          obtain ⟨hentry, hbody, hstop, hrest⟩ := hcode
          have hnext : address + branch.codeSize + 2 = address + 1 + branch.codeSize + 1 := by
            omega
          rw [hnext] at hentry hrest
          refine .branch hentry (hcompile _ _ hbody hclasses.1) hstop
            (ih (by simp) hothers hcompiles hrest hclasses.2 ?_)
          simp only [codeSizes, List.length_cons] at hexit ⊢
          omega

theorem fragment_copies {body : Node} (hbody : body.WellFormed)
    (hcompiles : body.Compiles program flags) {rounds min : Nat} {max : Option Nat}
    {greedy : Bool} {address firstClass exit : Nat}
    (hcode : StandsAt program.instructions address
      (Code.copies body.codeSize body.classCount (body.code flags) rounds address firstClass))
    (hclasses : StandsAt program.classes firstClass (List.replicate rounds body.classes).flatten)
    (hothers : Fragment program flags (.repetition body min max greedy)
      (address + rounds * body.codeSize) exit) :
    Fragment program flags (.repetition body (min + rounds) (max.map (· + rounds)) greedy)
      address exit := by
  induction rounds generalizing address firstClass with
  | zero => simpa using hothers
  | succ rounds ih =>
      rw [Code.copies, standsAt_append, length_code hbody] at hcode
      rw [List.replicate_succ, List.flatten_cons, standsAt_append, length_classes] at hclasses
      have hnext : address + (rounds + 1) * body.codeSize =
          address + body.codeSize + rounds * body.codeSize := by
        rw [Nat.succ_mul]
        omega
      rw [hnext] at hothers
      have hround := Fragment.round (hcompiles _ _ hcode.1 hclasses.1)
        (ih hcode.2 hclasses.2 hothers)
      simpa [Option.map_map, Function.comp_def, Nat.add_assoc] using hround

theorem fragment_optionalCopies {body : Node} (hbody : body.WellFormed)
    (hcompiles : body.Compiles program flags) {rounds : Nat} {greedy : Bool}
    {address firstClass exit : Nat}
    (hcode : StandsAt program.instructions address
      (Code.optionalCopies body.codeSize body.classCount (body.code flags) greedy exit rounds
        address firstClass))
    (hclasses : StandsAt program.classes firstClass (List.replicate rounds body.classes).flatten)
    (hexit : exit = address + rounds * (body.codeSize + 1)) :
    Fragment program flags (.repetition body 0 (some rounds) greedy) address exit := by
  induction rounds generalizing address firstClass with
  | zero =>
      obtain rfl : exit = address := by simpa using hexit
      exact .noRound
  | succ rounds ih =>
      simp only [Code.optionalCopies, standsAt_cons, standsAt_append, length_code hbody] at hcode
      rw [List.replicate_succ, List.flatten_cons, standsAt_append, length_classes] at hclasses
      obtain ⟨hentry, hround, hrest⟩ := hcode
      refine .optionalRound hentry (hcompiles _ _ hround hclasses.1)
        (ih hrest hclasses.2 ?_)
      rw [hexit, Nat.succ_mul]
      omega

theorem fragment_star {body : Node} (hbody : body.WellFormed)
    (hcompiles : body.Compiles program flags) {greedy : Bool} {address firstClass : Nat}
    (hcode : StandsAt program.instructions address
      (Code.star body.codeSize (body.code flags) greedy address firstClass))
    (hclasses : StandsAt program.classes firstClass body.classes) :
    Fragment program flags (.repetition body 0 none greedy) address
      (address + body.codeSize + 2) := by
  simp only [Code.star, standsAt_cons, standsAt_append, length_code hbody] at hcode
  obtain ⟨hentry, hround, hstop, -⟩ := hcode
  have hexit : address + body.codeSize + 2 = address + 1 + body.codeSize + 1 := by omega
  rw [hexit] at hentry ⊢
  exact .star hentry (hcompiles _ _ hround hclasses) hstop

theorem fragment_plus {body : Node} (hbody : body.WellFormed)
    (hcompiles : body.Compiles program flags) {greedy : Bool} {address firstClass : Nat}
    (hcode : StandsAt program.instructions address
      (Code.plus body.codeSize (body.code flags) greedy address firstClass))
    (hclasses : StandsAt program.classes firstClass body.classes) :
    Fragment program flags (.repetition body 1 none greedy) address
      (address + body.codeSize + 1) := by
  simp only [Code.plus, standsAt_cons, standsAt_append, length_code hbody] at hcode
  exact .plus (hcompiles _ _ hcode.1 hclasses) hcode.2.1

theorem fragment_repetition {body : Node} (hbody : body.WellFormed)
    (hcompiles : body.Compiles program flags) {min : Nat} {max : Option Nat}
    (hbounds : ∀ bound ∈ max, min ≤ bound) (greedy : Bool) :
    (Node.repetition body min max greedy).Compiles program flags := by
  have hlength := @length_code flags body hbody
  intro address firstClass hcode hclasses
  rw [Node.classes] at hclasses
  rw [Node.codeSize]
  match max, min with
  | none, 0 =>
      have hstar := fragment_star hbody hcompiles hcode (by simpa [writtenRounds] using hclasses)
      simpa [writtenRounds, repetitionCost, Nat.add_assoc] using hstar
  | none, rounds + 1 =>
      have hrounds : writtenRounds (rounds + 1) none = rounds + 1 := rfl
      simp only [Node.code, Code.repetition, Code.copies_laidOut hlength, standsAt_append,
        Code.length_copies hlength] at hcode
      rw [hrounds, standsAt_replicate_add, length_classes] at hclasses
      have hplus := fragment_plus hbody hcompiles hcode.2 (by simpa using hclasses.2)
      have hexit : address + rounds * body.codeSize + body.codeSize + 1 =
          address + (writtenRounds (rounds + 1) none * body.codeSize +
            repetitionCost (rounds + 1) none) := by
        simp only [hrounds, repetitionCost, Nat.succ_ne_zero, if_false, Nat.succ_mul]
        omega
      rw [hexit] at hplus
      simpa [Nat.add_comm 1 rounds] using fragment_copies hbody hcompiles hcode.1 hclasses.1 hplus
  | some max, min =>
      have hle : min ≤ max := hbounds max rfl
      have hrounds : writtenRounds min (some max) = min + (max - min) :=
        (Nat.add_sub_cancel' hle).symm
      simp only [Node.code, Code.repetition, Code.copies_laidOut hlength, standsAt_append,
        Code.length_copies hlength] at hcode
      rw [hrounds, standsAt_replicate_add, length_classes] at hclasses
      have hoptional := fragment_optionalCopies hbody hcompiles hcode.2 hclasses.2 rfl
      have hexit : address + min * body.codeSize + (max - min) * (body.codeSize + 1) =
          address + (writtenRounds min (some max) * body.codeSize +
            repetitionCost min (some max)) := by
        rw [hrounds, repetitionCost, Nat.add_mul, Nat.mul_add]
        omega
      rw [hexit] at hoptional
      simpa [Nat.sub_add_cancel hle] using
        fragment_copies hbody hcompiles hcode.1 hclasses.1 hoptional

theorem fragment_group {body : Node} (hbody : body.WellFormed)
    (hcompiles : body.Compiles program flags) (index : Option Nat) :
    (Node.group index body).Compiles program flags := by
  intro address firstClass hcode hclasses
  cases index with
  | none => exact .group (hcompiles address firstClass hcode hclasses)
  | some k =>
      simp only [Node.code, standsAt_cons, standsAt_append, length_code hbody] at hcode
      obtain ⟨hentry, hcode, hstop, -⟩ := hcode
      have hexit : address + (body.codeSize + 2) = address + 1 + body.codeSize + 1 := by omega
      rw [Node.codeSize, hexit]
      exact .capture hentry (hcompiles _ _ hcode hclasses) hstop

theorem compiles_of_wellFormed {node : Node} (hnode : node.WellFormed) :
    node.Compiles program flags := by
  induction hnode with
  | empty => exact fun _ _ _ _ => .empty
  | literal c => exact fun _ _ hcode _ => .literal (standsAt_cons.mp hcode).1
  | any => exact fun _ _ hcode _ => .any (standsAt_cons.mp hcode).1
  | oneOf set =>
      exact fun _ _ hcode hclasses =>
        .oneOf (standsAt_cons.mp hcode).1 (standsAt_cons.mp hclasses).1
  | assertion a => exact fun _ _ hcode _ => .assertion (standsAt_cons.mp hcode).1
  | group index hbody ih => exact fragment_group hbody ih index
  | concat hitems ih => exact fragment_concat hitems ih
  | alternate hnonempty hbranches ih =>
      intro address firstClass hcode hclasses
      rw [Node.codeSize, ← Nat.add_assoc]
      exact fragment_alternate hnonempty hbranches ih hcode hclasses rfl
  | repetition greedy hbounds hbody ih => exact fragment_repetition hbody ih hbounds greedy

end Fragments

theorem exists_parsed_of_compile {text : String} {flags : Flags} {program : Program}
    (hcompile : compile text flags = .ok program) :
    ∃ parsed, parse text = .ok parsed ∧ parsed.program (flags.union parsed.flags) = program ∧
      program.check = .ok () := by
  revert hcompile
  fun_cases compile text flags with
  | case1 | case2 | case3 => intro hcompile; cases hcompile
  | case4 parsed hparse hfits assembled hcheck =>
      intro hcompile
      obtain rfl := Except.ok.inj hcompile
      exact ⟨parsed, hparse, rfl, hcheck⟩

/-- What is known of the program of a pattern: it stays inside of itself, and it is the code of the
tree as the group of the whole match, with an instruction behind it that accepts. -/
theorem compile_spec {text : String} {flags : Flags} {program : Program}
    (hcompile : compile text flags = .ok program) :
    ∃ parsed, parse text = .ok parsed ∧ program = parsed.program (flags.union parsed.flags) ∧
      program.check = .ok () ∧
      ∃ exit, Fragment program (flags.union parsed.flags) (.group (some 0) parsed.node)
          program.start exit ∧
        program.instructions[exit]? = some .accept := by
  obtain ⟨parsed, hparse, rfl, hcheck⟩ := exists_parsed_of_compile hcompile
  have hnode := wellFormed_of_parse hparse
  have hcode : StandsAt (parsed.program (flags.union parsed.flags)).instructions 0
      ((Node.group (some 0) parsed.node).code (flags.union parsed.flags) 0 0 ++ [.accept]) := by
    have hwhole := standsAt_toList (parsed.program (flags.union parsed.flags)).instructions
    simpa [Parsed.program, Node.code] using hwhole
  have hclasses : StandsAt (parsed.program (flags.union parsed.flags)).classes 0
      (Node.group (some 0) parsed.node).classes := by
    have hwhole := standsAt_toList (parsed.program (flags.union parsed.flags)).classes
    simpa [Parsed.program, Node.classes] using hwhole
  rw [standsAt_append, standsAt_cons, length_code (.group _ hnode)] at hcode
  exact ⟨parsed, hparse, rfl, hcheck, _,
    compiles_of_wellFormed (.group _ hnode) 0 0 hcode.1 hclasses, hcode.2.1⟩

end TextColumns.Pattern
