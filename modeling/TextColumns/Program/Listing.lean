import TextColumns.Program.Basic
import TextColumns.Text.Quoted

namespace TextColumns

open Pattern (Assertion CodeRange)
open Text (quotedSingle)

def recordText (name : String) (fields : List (String × String)) : String :=
  name ++ " \x7b " ++
    ", ".intercalate (fields.map fun (label, value) => label ++ ": " ++ value) ++ " \x7d"

def boolText (b : Bool) : String :=
  if b then "true" else "false"

def listText (items : List String) : String :=
  "[" ++ ", ".intercalate items ++ "]"

def Pattern.Assertion.name : Assertion → String
  | .caret => "Caret"
  | .dollar => "Dollar"
  | .startText => "StartText"
  | .endText => "EndText"
  | .startLine => "StartLine"
  | .endLine => "EndLine"
  | .wordBoundary => "WordBoundary"
  | .notWordBoundary => "NotWordBoundary"

def Instruction.listing : Instruction → String
  | .char c fold => recordText "Char" [("ch", quotedSingle c), ("fold", boolText fold)]
  | .any newline => recordText "Any" [("newline", boolText newline)]
  | .oneOf cls fold => recordText "Class" [("class", toString cls), ("fold", boolText fold)]
  | .assertion a => "Assert(" ++ a.name ++ ")"
  | .split primary secondary =>
    recordText "Split" [("primary", toString primary), ("secondary", toString secondary)]
  | .jump target => "Jump(" ++ toString target ++ ")"
  | .save slot => "Save(" ++ toString slot ++ ")"
  | .accept => "Match"

def Pattern.CodeRange.listing (range : CodeRange) : String :=
  "(" ++ toString range.low ++ ", " ++ toString range.high ++ ")"

def CharClass.listing (cls : CharClass) : String :=
  recordText "CharClass"
    [("ranges", listText (cls.ranges.toList.map CodeRange.listing)),
      ("negated", boolText cls.negated),
      ("ascii", listText [toString cls.lowBits.toNat, toString cls.highBits.toNat])]

def ProgramFault.message : ProgramFault → String
  | .startOutside start size =>
    "start " ++ toString start ++ " outside program of " ++ toString size ++ " instructions"
  | .badSlotCount slots => "invalid capture slot count " ++ toString slots
  | .badAcceptCount found => "expected one match instruction, found " ++ toString found
  | .badTarget address instruction =>
    "instruction " ++ toString address ++ " (" ++ instruction.listing ++
      ") has an invalid target"

end TextColumns
