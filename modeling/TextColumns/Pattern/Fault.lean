import TextColumns.Program.Listing

/-! The bounds on patterns, what can be wrong with a pattern text, and the words for it. -/

namespace TextColumns.Pattern

def maxRepeat : Nat := 1000

def maxGroups : Nat := 255

def maxNesting : Nat := 250

def maxProgramSize : Nat := 65536

inductive Fault where
  | unsupportedFlags
  | unclosedGroup
  | unbalancedParenthesis
  | nothingToRepeat
  | invalidBounds
  | reversedBounds
  | boundOverflow
  | boundTooLarge (bound : Nat)
  | nestedTooDeeply
  | unsupportedGroup
  | tooManyGroups
  | danglingBackslash
  | invalidHexEscape
  | assertionInClass
  | invalidEscape (c : Char)
  | unterminatedClass
  | invalidClassRange
  | reversedClassRange
  | programTooLong
  | invalidProgram (fault : ProgramFault)
  deriving DecidableEq, Repr

def Fault.reason : Fault → String
  | .unsupportedFlags => "unsupported inline flag group"
  | .unclosedGroup => "unclosed group"
  | .unbalancedParenthesis => "unbalanced parenthesis"
  | .nothingToRepeat => "nothing to repeat"
  | .invalidBounds => "invalid repetition bounds"
  | .reversedBounds => "invalid repetition bounds: min > max"
  | .boundOverflow => "repetition bound overflows"
  | .boundTooLarge bound =>
    "repetition bound " ++ toString bound ++ " exceeds " ++ toString maxRepeat
  | .nestedTooDeeply => "groups nested too deeply"
  | .unsupportedGroup => "unsupported group syntax"
  | .tooManyGroups => "more than " ++ toString maxGroups ++ " capture groups"
  | .danglingBackslash => "dangling backslash"
  | .invalidHexEscape => "invalid hex escape"
  | .assertionInClass => "assertion inside character class"
  | .invalidEscape c => "invalid escape \\" ++ c.toString
  | .unterminatedClass => "unterminated character class"
  | .invalidClassRange => "invalid character class range"
  | .reversedClassRange => "reversed character class range"
  | .programTooLong =>
    "compiled program exceeds " ++ toString maxProgramSize ++ " instructions"
  | .invalidProgram fault => fault.message

/-- A fault and the byte of the pattern where it shows. -/
structure Malformed where
  position : Nat
  fault : Fault
  deriving DecidableEq, Repr

end TextColumns.Pattern
