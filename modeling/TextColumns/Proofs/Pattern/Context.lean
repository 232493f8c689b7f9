import TextColumns.Proofs.Pattern.Fragment
import TextColumns.Proofs.Search.Alike

/-!
Trees with a place that is left open.  Two nodes whose code does the same on the characters of a
text may stand for each other at any place of any tree: the programs that come out agree at every
address, however their class tables are laid out.
-/

namespace TextColumns.Pattern

open Search (Agree Alike)

/-- A tree with one place left open. -/
inductive Context where
  | here
  | group (index : Option Nat) (body : Context)
  | concat (before : List Node) (item : Context) (behind : List Node)
  | alternate (before : List Node) (branch : Context) (behind : List Node)
  | repetition (body : Context) (min : Nat) (max : Option Nat) (greedy : Bool)

def Context.fill (node : Node) : Context → Node
  | .here => node
  | .group index body => .group index (body.fill node)
  | .concat before item behind => .concat (before ++ item.fill node :: behind)
  | .alternate before branch behind => .alternate (before ++ branch.fill node :: behind)
  | .repetition body min max greedy => .repetition (body.fill node) min max greedy

section

variable (program other : Program) (text : String)

/-- Whether code agrees with other code, wherever they stand and wherever the classes that they use
stand in the tables of their programs. -/
def Code.Agrees (classes otherClasses : List CharClass) (code otherCode : Code) : Prop :=
  ∀ address firstClass otherFirst, StandsAt program.classes firstClass classes →
    StandsAt other.classes otherFirst otherClasses →
    List.Forall₂ (Agree program other text) (code address firstClass) (otherCode address otherFirst)

structure Node.Agrees (flags : Flags) (node otherNode : Node) : Prop where
  size_eq : node.codeSize = otherNode.codeSize
  code : Code.Agrees program other text node.classes otherNode.classes (node.code flags)
    (otherNode.code flags)

end

variable {program other : Program} {text : String}

theorem agree_fork (greedy : Bool) (body exit : Nat) :
    Agree program other text (fork greedy body exit) (fork greedy body exit) := by
  refine Search.agree_self fun cls fold => ?_
  cases greedy <;> exact nofun

theorem agree_jump (target : Nat) : Agree program other text (.jump target) (.jump target) :=
  Search.agree_self nofun

theorem agree_split (primary secondary : Nat) :
    Agree program other text (.split primary secondary) (.split primary secondary) :=
  Search.agree_self nofun

theorem agree_save (slot : Nat) : Agree program other text (.save slot) (.save slot) :=
  Search.agree_self nofun

namespace Code.Agrees

variable {classes otherClasses : List CharClass} {code otherCode : Code}

theorem copies (hcode : Code.Agrees program other text classes otherClasses code otherCode)
    (size rounds : Nat) :
    Code.Agrees program other text (List.replicate rounds classes).flatten
      (List.replicate rounds otherClasses).flatten
      (Code.copies size classes.length code rounds)
      (Code.copies size otherClasses.length otherCode rounds) := by
  induction rounds with
  | zero => exact fun _ _ _ _ _ => .nil
  | succ rounds ih =>
      intro address firstClass otherFirst hclasses hothers
      rw [List.replicate_succ, List.flatten_cons, standsAt_append] at hclasses hothers
      exact List.rel_append (hcode _ _ _ hclasses.1 hothers.1) (ih _ _ _ hclasses.2 hothers.2)

theorem optionalCopies (hcode : Code.Agrees program other text classes otherClasses code otherCode)
    (size : Nat) (greedy : Bool) (exit rounds : Nat) :
    Code.Agrees program other text (List.replicate rounds classes).flatten
      (List.replicate rounds otherClasses).flatten
      (Code.optionalCopies size classes.length code greedy exit rounds)
      (Code.optionalCopies size otherClasses.length otherCode greedy exit rounds) := by
  induction rounds with
  | zero => exact fun _ _ _ _ _ => .nil
  | succ rounds ih =>
      intro address firstClass otherFirst hclasses hothers
      rw [List.replicate_succ, List.flatten_cons, standsAt_append] at hclasses hothers
      exact .cons (agree_fork greedy _ exit) (List.rel_append (hcode _ _ _ hclasses.1 hothers.1)
        (ih _ _ _ hclasses.2 hothers.2))

theorem star (hcode : Code.Agrees program other text classes otherClasses code otherCode)
    (size : Nat) (greedy : Bool) :
    Code.Agrees program other text classes otherClasses (Code.star size code greedy)
      (Code.star size otherCode greedy) := by
  intro address firstClass otherFirst hclasses hothers
  exact .cons (agree_fork greedy _ _)
    (List.rel_append (hcode _ _ _ hclasses hothers) (.cons (agree_jump address) .nil))

theorem plus (hcode : Code.Agrees program other text classes otherClasses code otherCode)
    (size : Nat) (greedy : Bool) :
    Code.Agrees program other text classes otherClasses (Code.plus size code greedy)
      (Code.plus size otherCode greedy) := by
  intro address firstClass otherFirst hclasses hothers
  exact List.rel_append (hcode _ _ _ hclasses hothers) (.cons (agree_fork greedy _ _) .nil)

theorem laidOut (hcode : Code.Agrees program other text classes otherClasses code otherCode)
    (size rounds : Nat) :
    Code.Agrees program other text (List.replicate rounds classes).flatten
      (List.replicate rounds otherClasses).flatten
      (Code.copies size classes.length code (Code.laidOut size rounds))
      (Code.copies size otherClasses.length otherCode (Code.laidOut size rounds)) := by
  rw [Code.laidOut]
  split
  · exact fun _ _ _ _ _ => .nil
  · exact hcode.copies size rounds

theorem repetition (hcode : Code.Agrees program other text classes otherClasses code otherCode)
    (size : Nat) {min : Nat} {max : Option Nat} (hbounds : ∀ bound ∈ max, min ≤ bound)
    (greedy : Bool) :
    Code.Agrees program other text (List.replicate (writtenRounds min max) classes).flatten
      (List.replicate (writtenRounds min max) otherClasses).flatten
      (Code.repetition size classes.length code min max greedy)
      (Code.repetition size otherClasses.length otherCode min max greedy) := by
  intro address firstClass otherFirst hclasses hothers
  match max, min with
  | none, 0 =>
      have hone (classes : List CharClass) :
          (List.replicate (writtenRounds 0 none) classes).flatten = classes := by
        simp [writtenRounds]
      rw [hone] at hclasses hothers
      exact hcode.star size greedy _ _ _ hclasses hothers
  | none, rounds + 1 =>
      have hrounds : writtenRounds (rounds + 1) none = rounds + 1 := rfl
      have hlast (classes : List CharClass) :
          (List.replicate 1 classes).flatten = classes := by simp
      rw [hrounds, standsAt_replicate_add, hlast] at hclasses hothers
      exact List.rel_append (hcode.laidOut size rounds _ _ _ hclasses.1 hothers.1)
        (hcode.plus size greedy _ _ _ hclasses.2 hothers.2)
  | some max, min =>
      have hrounds : writtenRounds min (some max) = min + (max - min) :=
        (Nat.add_sub_cancel' (hbounds max rfl)).symm
      rw [hrounds, standsAt_replicate_add] at hclasses hothers
      exact List.rel_append (hcode.laidOut size min _ _ _ hclasses.1 hothers.1)
        (hcode.optionalCopies size greedy _ _ _ _ _ hclasses.2 hothers.2)

end Code.Agrees

section Nodes

variable {flags : Flags} {node otherNode : Node} {nodes others : List Node}

theorem codeSizes_eq (hnodes : List.Forall₂ (Node.Agrees program other text flags) nodes others) :
    codeSizes nodes = codeSizes others := by
  induction hnodes with
  | nil => rfl
  | cons hnode _ ih => rw [codeSizes, codeSizes, hnode.size_eq, ih]

namespace Node.Agrees

theorem group (hbody : Node.Agrees program other text flags node otherNode) (index : Option Nat) :
    Node.Agrees program other text flags (.group index node) (.group index otherNode) := by
  obtain ⟨hsize, hcode⟩ := hbody
  cases index with
  | none => exact ⟨hsize, hcode⟩
  | some k =>
      refine ⟨congrArg (· + 2) hsize, fun address firstClass otherFirst hclasses hothers => ?_⟩
      exact .cons (agree_save _) (List.rel_append (hcode _ _ _ hclasses hothers)
        (.cons (agree_save _) .nil))

theorem concat (hitems : List.Forall₂ (Node.Agrees program other text flags) nodes others) :
    Node.Agrees program other text flags (.concat nodes) (.concat others) := by
  refine ⟨codeSizes_eq hitems, ?_⟩
  induction hitems with
  | nil => exact fun _ _ _ _ _ => .nil
  | cons hitem _ ih =>
      intro address firstClass otherFirst hclasses hothers
      rw [Node.classes, classesOf, standsAt_append, length_classes] at hclasses hothers
      rw [Node.code, Node.code, concatCode, concatCode, ← hitem.size_eq]
      exact List.rel_append (hitem.code _ _ _ hclasses.1 hothers.1)
        (ih _ _ _ hclasses.2 hothers.2)

theorem alternateCode (hbranches : List.Forall₂ (Node.Agrees program other text flags) nodes others)
    (exit : Nat) :
    Code.Agrees program other text (classesOf nodes) (classesOf others)
      (alternateCode flags exit nodes) (alternateCode flags exit others) := by
  induction hbranches with
  | nil => exact fun _ _ _ _ _ => .nil
  | cons hbranch hrest ih =>
      intro address firstClass otherFirst hclasses hothers
      rw [classesOf, standsAt_append, length_classes] at hclasses hothers
      cases hrest with
      | nil => exact hbranch.code _ _ _ hclasses.1 hothers.1
      | cons hnext hlater =>
          rw [alternateCode_cons, alternateCode_cons, ← hbranch.size_eq]
          exact .cons (agree_split _ _)
            (List.rel_append (hbranch.code _ _ _ hclasses.1 hothers.1)
              (.cons (agree_jump exit) (ih _ _ _ hclasses.2 hothers.2)))

theorem alternate (hbranches : List.Forall₂ (Node.Agrees program other text flags) nodes others) :
    Node.Agrees program other text flags (.alternate nodes) (.alternate others) := by
  have hsizes := codeSizes_eq hbranches
  have hlength := hbranches.length_eq
  refine ⟨?_, fun address firstClass otherFirst hclasses hothers => ?_⟩
  · rw [codeSize, codeSize, hsizes, hlength]
  · rw [Node.code, Node.code, ← hsizes, ← hlength]
    exact alternateCode hbranches _ _ _ _ hclasses hothers

theorem repetition (hbody : Node.Agrees program other text flags node otherNode) {min : Nat}
    {max : Option Nat} (hbounds : ∀ bound ∈ max, min ≤ bound) (greedy : Bool) :
    Node.Agrees program other text flags (.repetition node min max greedy)
      (.repetition otherNode min max greedy) := by
  obtain ⟨hsize, hcode⟩ := hbody
  refine ⟨?_, fun address firstClass otherFirst hclasses hothers => ?_⟩
  · rw [codeSize, codeSize, hsize]
  · have hrepetition := hcode.repetition node.codeSize hbounds greedy
    rw [length_classes, length_classes] at hrepetition
    rw [Node.code, Node.code, ← hsize]
    exact hrepetition _ _ _ hclasses hothers

theorem self (hnode : node.WellFormed) : Node.Agrees program other text flags node node := by
  induction hnode with
  | empty => exact ⟨rfl, fun _ _ _ _ _ => .nil⟩
  | literal | any | assertion =>
      exact ⟨rfl, fun _ _ _ _ _ => .cons (Search.agree_self nofun) .nil⟩
  | oneOf set =>
      refine ⟨rfl, fun address firstClass otherFirst hclasses hothers => .cons ?_ .nil⟩
      refine Search.agree_of_accepts? rfl rfl fun c _ => ?_
      rw [Program.accepts?, Program.accepts?, (standsAt_cons.mp hclasses).1,
        (standsAt_cons.mp hothers).1]
  | group index _ ih => exact ih.group index
  | concat _ ih => exact concat (List.forall₂_same.mpr ih)
  | alternate _ _ ih => exact alternate (List.forall₂_same.mpr ih)
  | repetition greedy hbounds _ ih => exact ih.repetition hbounds greedy

theorem inTurn {before behind : List Node}
    (hnode : Node.Agrees program other text flags node otherNode)
    (hnodes : ∀ item ∈ before ++ node :: behind, item.WellFormed) :
    List.Forall₂ (Node.Agrees program other text flags) (before ++ node :: behind)
      (before ++ otherNode :: behind) := by
  obtain ⟨hbefore, hrest⟩ := List.forall_mem_append.mp hnodes
  obtain ⟨-, hbehind⟩ := List.forall_mem_cons.mp hrest
  exact List.rel_append (List.forall₂_same.mpr fun item hitem => self (hbefore item hitem))
    (.cons hnode (List.forall₂_same.mpr fun item hitem => self (hbehind item hitem)))

/-- Nodes that agree may stand for each other in any tree. -/
theorem fill (hnode : Node.Agrees program other text flags node otherNode) {context : Context}
    (hfill : (context.fill node).WellFormed) :
    Node.Agrees program other text flags (context.fill node) (context.fill otherNode) := by
  induction context with
  | here => exact hnode
  | group index body ih =>
      cases hfill with
      | group _ hbody => exact (ih hbody).group index
  | concat before item behind ih =>
      cases hfill with
      | concat hitems =>
          have hitem := hitems (item.fill node) (by simp)
          exact concat ((ih hitem).inTurn hitems)
  | alternate before branch behind ih =>
      cases hfill with
      | alternate _ hbranches =>
          have hbranch := hbranches (branch.fill node) (by simp)
          exact alternate ((ih hbranch).inTurn hbranches)
  | repetition body min max greedy ih =>
      cases hfill with
      | repetition _ hbounds hbody => exact (ih hbody).repetition hbounds greedy

end Node.Agrees

theorem alike_program (parsed : Parsed)
    (hnode : Node.Agrees (parsed.program flags)
      (Parsed.program { parsed with node := otherNode } flags) text flags parsed.node otherNode) :
    Alike (parsed.program flags) (Parsed.program { parsed with node := otherNode } flags) text where
  instructions := .cons (agree_save 0) (List.rel_append
    (hnode.code 1 0 0 (standsAt_toList _) (standsAt_toList _))
    (.cons (agree_save 1) (.cons (Search.agree_self nofun) .nil)))
  slots := rfl
  start := rfl

end Nodes

end TextColumns.Pattern
