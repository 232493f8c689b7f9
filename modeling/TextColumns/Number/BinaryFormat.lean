import TextColumns.Number.Positional

/-!
Binary floating point formats.  A finite number is `m * 2 ^ q` for a significand of at most
`precision` bits and an exponent that is never below the least one.
-/

namespace TextColumns.Number

structure BinaryFormat where
  /-- The bits of a significand, the leading one counted. -/
  precision : Nat
  exponentBits : Nat
  deriving DecidableEq, Repr

structure Magnitude where
  significand : Nat
  exponent : Int
  deriving DecidableEq, Repr

namespace BinaryFormat

def single : BinaryFormat :=
  ⟨24, 8⟩

def double : BinaryFormat :=
  ⟨53, 11⟩

def bias (format : BinaryFormat) : Nat :=
  twoTo (format.exponentBits - 1) - 1

def leastExponent (format : BinaryFormat) : Int :=
  1 - (format.bias : Int) - ((format.precision : Int) - 1)

def fractionWeight (format : BinaryFormat) : Nat :=
  twoTo (format.precision - 1)

def signWeight (format : BinaryFormat) : Nat :=
  format.fractionWeight * twoTo format.exponentBits

def infinity (format : BinaryFormat) : Nat :=
  (twoTo format.exponentBits - 1) * format.fractionWeight

def notANumber (format : BinaryFormat) : Nat :=
  format.infinity + format.fractionWeight / 2

def isNegative (format : BinaryFormat) (word : Nat) : Bool :=
  word / format.signWeight % 2 == 1

def unsigned (format : BinaryFormat) (word : Nat) : Nat :=
  word % format.signWeight

def isNaN (format : BinaryFormat) (word : Nat) : Bool :=
  format.infinity < format.unsigned word

def isFinite (format : BinaryFormat) (word : Nat) : Bool :=
  format.unsigned word < format.infinity

def withSign (format : BinaryFormat) (negative : Bool) (word : Nat) : Nat :=
  if negative then format.signWeight + word else word

def magnitude (format : BinaryFormat) (word : Nat) : Magnitude :=
  let fraction := word % format.fractionWeight
  let field := format.unsigned word / format.fractionWeight
  if field = 0 then ⟨fraction, format.leastExponent⟩
  else ⟨format.fractionWeight + fraction, format.leastExponent + (field - 1 : Nat)⟩

/-- The word of a number of the given size, infinity when there is none so large.  A significand
of one bit too many counts as half of it under the next exponent. -/
def encode (format : BinaryFormat) (size : Magnitude) : Nat :=
  let word :=
    if size.significand < format.fractionWeight then size.significand
    else
      (size.exponent - format.leastExponent).toNat * format.fractionWeight + size.significand
  min word format.infinity

end BinaryFormat

end TextColumns.Number
