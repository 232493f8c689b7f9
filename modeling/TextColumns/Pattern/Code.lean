import TextColumns.Pattern.Syntax
import TextColumns.Program.Basic

/-!
The code of a pattern.  Code is laid out for the address at which it will stand; a bounded
repetition becomes copies of its body, and an unbounded one a loop.  Each use of a class takes the
next index of the class table.
-/

namespace TextColumns.Pattern

/-- Code that depends on its address and on the index that its first class will have. -/
abbrev Code := (address firstClass : Nat) → List Instruction

def fork (greedy : Bool) (body exit : Nat) : Instruction :=
  if greedy then .split body exit else .split exit body

namespace Code

def copies (size classes : Nat) (code : Code) : Nat → Code
  | 0, _, _ => []
  | n + 1, address, firstClass =>
    code address firstClass ++
      copies size classes code n (address + size) (firstClass + classes)

/-- Copies each of which may be left out together with those after it. -/
def optionalCopies (size classes : Nat) (code : Code) (greedy : Bool) (exit : Nat) : Nat → Code
  | 0, _, _ => []
  | n + 1, address, firstClass =>
    fork greedy (address + 1) exit ::
      (code (address + 1) firstClass ++
        optionalCopies size classes code greedy exit n (address + 1 + size)
          (firstClass + classes))

/-- Any number of rounds: the choice stands in front of the body. -/
def star (size : Nat) (code : Code) (greedy : Bool) : Code :=
  fun address firstClass =>
    fork greedy (address + 1) (address + size + 2) ::
      (code (address + 1) firstClass ++ [.jump address])

/-- At least one round: the choice stands behind the body. -/
def plus (size : Nat) (code : Code) (greedy : Bool) : Code :=
  fun address firstClass =>
    code address firstClass ++ [fork greedy address (address + size + 1)]

/-- The rounds of a body that are laid out one by one: a body without instructions has none. -/
def laidOut (size rounds : Nat) : Nat :=
  if size = 0 then 0 else rounds

/-- A repetition; one without a highest count ends in a loop. -/
def repetition (size classes : Nat) (code : Code) (min : Nat) (max : Option Nat)
    (greedy : Bool) : Code :=
  fun address firstClass =>
    match max, min with
    | none, 0 => star size code greedy address firstClass
    | none, n + 1 =>
      copies size classes code (laidOut size n) address firstClass ++
        plus size code greedy (address + n * size) (firstClass + n * classes)
    | some max, min =>
      let optional := address + min * size
      let exit := optional + (max - min) * (size + 1)
      copies size classes code (laidOut size min) address firstClass ++
        optionalCopies size classes code greedy exit (max - min) optional
          (firstClass + min * classes)

end Code

def writtenRounds (min : Nat) (max : Option Nat) : Nat :=
  match max with
  | some max => max
  | none => if min = 0 then 1 else min

def repetitionCost (min : Nat) (max : Option Nat) : Nat :=
  match max with
  | some max => max - min
  | none => if min = 0 then 2 else 1

/-- The assertion that the caret and the dollar stand for. -/
def Assertion.resolve (multiline : Bool) : Assertion → Assertion
  | .caret => if multiline then .startLine else .startText
  | .dollar => if multiline then .endLine else .endText
  | a => a

mutual

def Node.codeSize : Node → Nat
  | .empty => 0
  | .literal _ | .any | .oneOf _ | .assertion _ => 1
  | .group (some _) body => body.codeSize + 2
  | .group none body => body.codeSize
  | .concat items => codeSizes items
  | .alternate branches => codeSizes branches + 2 * (branches.length - 1)
  | .repetition body min max _ =>
    writtenRounds min max * body.codeSize + repetitionCost min max

def codeSizes : List Node → Nat
  | [] => 0
  | node :: rest => node.codeSize + codeSizes rest

end

mutual

def Node.classCount : Node → Nat
  | .oneOf _ => 1
  | .empty | .literal _ | .any | .assertion _ => 0
  | .group _ body => body.classCount
  | .concat items => classCounts items
  | .alternate branches => classCounts branches
  | .repetition body min max _ => writtenRounds min max * body.classCount

def classCounts : List Node → Nat
  | [] => 0
  | node :: rest => node.classCount + classCounts rest

end

mutual

/-- The class table entries of a node, in the order of its code. -/
def Node.classes : Node → List CharClass
  | .oneOf set => [CharClass.ofSet set]
  | .empty | .literal _ | .any | .assertion _ => []
  | .group _ body => body.classes
  | .concat items => classesOf items
  | .alternate branches => classesOf branches
  | .repetition body min max _ => (List.replicate (writtenRounds min max) body.classes).flatten

def classesOf : List Node → List CharClass
  | [] => []
  | node :: rest => node.classes ++ classesOf rest

end

mutual

def Node.code (flags : Flags) : Node → Code
  | .empty, _, _ => []
  | .literal c, _, _ => [.char c flags.ignoreCase]
  | .any, _, _ => [.any flags.dotAll]
  | .oneOf _, _, firstClass => [.oneOf firstClass flags.ignoreCase]
  | .assertion a, _, _ => [.assertion (a.resolve flags.multiline)]
  | .group (some k) body, address, firstClass =>
    .save (2 * k) :: (body.code flags (address + 1) firstClass ++ [.save (2 * k + 1)])
  | .group none body, address, firstClass => body.code flags address firstClass
  | .concat items, address, firstClass => concatCode flags items address firstClass
  | .alternate branches, address, firstClass =>
    let exit := address + codeSizes branches + 2 * (branches.length - 1)
    alternateCode flags exit branches address firstClass
  | .repetition body min max greedy, address, firstClass =>
    Code.repetition body.codeSize body.classCount (body.code flags) min max greedy
      address firstClass

def concatCode (flags : Flags) : List Node → Code
  | [], _, _ => []
  | node :: rest, address, firstClass =>
    node.code flags address firstClass ++
      concatCode flags rest (address + node.codeSize) (firstClass + node.classCount)

/-- The code of branches that all lead to `exit`.  Each but the last stands behind a split to the
next one. -/
def alternateCode (flags : Flags) (exit : Nat) : List Node → Code
  | [], _, _ => []
  | [branch], address, firstClass => branch.code flags address firstClass
  | branch :: rest, address, firstClass =>
    let next := address + branch.codeSize + 2
    .split (address + 1) next ::
      (branch.code flags (address + 1) firstClass ++
        .jump exit :: alternateCode flags exit rest next (firstClass + branch.classCount))

end

/-- The program of a pattern: its code between the two ends of the whole match. -/
def Parsed.program (parsed : Parsed) (flags : Flags) : Program where
  instructions :=
    (.save 0 :: (parsed.node.code flags 1 0 ++ [.save 1, .accept])).toArray
  classes := parsed.node.classes.toArray
  slots := 2 * (parsed.groups + 1)
  start := 0

end TextColumns.Pattern
