import TextColumns.Pattern.CodeSet

/-!
Patterns as trees.  A pattern is an alternation of branches, a branch a concatenation of items,
and an item an atom or a repeated atom; groups hold patterns again.
-/

namespace TextColumns.Pattern

structure Flags where
  /-- Letters match in either case. -/
  ignoreCase : Bool
  /-- The caret and the dollar also match at the ends of lines. -/
  multiline : Bool
  /-- The dot also matches a line feed. -/
  dotAll : Bool
  deriving DecidableEq, Repr, Inhabited

namespace Flags

def none : Flags :=
  ⟨false, false, false⟩

def union (a b : Flags) : Flags :=
  ⟨a.ignoreCase || b.ignoreCase, a.multiline || b.multiline, a.dotAll || b.dotAll⟩

end Flags

inductive Assertion where
  | caret
  | dollar
  | startText
  | endText
  | startLine
  | endLine
  | wordBoundary
  | notWordBoundary
  deriving DecidableEq, Repr, Inhabited

inductive Node where
  | empty
  | literal (c : Char)
  | any
  | oneOf (set : CodeSet)
  | assertion (a : Assertion)
  /-- A group; with an index it captures what it matches. -/
  | group (index : Option Nat) (body : Node)
  | concat (items : List Node)
  | alternate (branches : List Node)
  /-- At least `min` and at most `max` rounds of the body, as many as possible when greedy. -/
  | repetition (body : Node) (min : Nat) (max : Option Nat) (greedy : Bool)
  deriving Repr, Inhabited

structure Parsed where
  node : Node
  /-- The number of groups that capture. -/
  groups : Nat
  /-- The flags that the pattern itself sets. -/
  flags : Flags
  deriving Repr, Inhabited

end TextColumns.Pattern
