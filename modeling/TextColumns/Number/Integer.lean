import TextColumns.Number.Positional
import TextColumns.Text.Position

/-!
Integers as texts.  A text is a sign and digits of some radix; it has no value when it is outside
the range of the kind of integer that is asked for.
-/

namespace TextColumns.Number

structure IntegerKind where
  signed : Bool
  bits : Nat
  deriving DecidableEq, Repr

namespace IntegerKind

def least (kind : IntegerKind) : Int :=
  if kind.signed then -(twoTo (kind.bits - 1) : Nat) else 0

def greatest (kind : IntegerKind) : Int :=
  if kind.signed then (twoTo (kind.bits - 1) : Nat) - 1 else (twoTo kind.bits : Nat) - 1

def holds (kind : IntegerKind) (n : Int) : Bool :=
  kind.least ≤ n && n ≤ kind.greatest

def int64 : IntegerKind :=
  ⟨true, 64⟩

end IntegerKind

/-- The blanks of ASCII, the vertical tab left out. -/
def isAsciiBlank (c : Char) : Bool :=
  c == ' ' || c == '\t' || c == '\n' || c == '\x0c' || c == '\r'

def trimBlanks (chars : List Char) : List Char :=
  ((chars.dropWhile isAsciiBlank).reverse.dropWhile isAsciiBlank).reverse

/-- The value of a digit or letter; letters of either case stand for ten and above. -/
def digit? (radix : Nat) (c : Char) : Option Nat :=
  let value :=
    if c.isDigit then c.toNat - '0'.toNat
    else if c.isLower then c.toNat - 'a'.toNat + 10
    else if c.isUpper then c.toNat - 'A'.toNat + 10
    else radix
  if value < radix then some value else none

/-- The value of digits behind those that make `value`, if it is not above the bound. -/
def digitsFrom (radix bound value : Nat) : List Char → Option Nat
  | [] => some value
  | c :: rest =>
    match digit? radix c with
    | none => none
    | some digit =>
      let value := radix * value + digit
      if bound < value then none else digitsFrom radix bound value rest

/-- The value of one or more digits, if it is not above the bound. -/
def digits? (radix bound : Nat) (chars : List Char) : Option Nat :=
  if chars.isEmpty then none else digitsFrom radix bound 0 chars

/-- A number that is not below any integer of a kind, the sign of that left out. -/
def IntegerKind.bound (kind : IntegerKind) : Nat :=
  twoTo kind.bits

/-- The value of a sign and digits, as far as the bound of a kind; a minus is a sign only where
negative values are possible. -/
def signedDigits? (kind : IntegerKind) (radix : Nat) (chars : List Char) : Option Int :=
  match chars with
  | '+' :: rest => (digits? radix kind.bound rest).map Int.ofNat
  | '-' :: rest =>
    if kind.signed then (digits? radix kind.bound rest).map fun n => -Int.ofNat n else none
  | chars => (digits? radix kind.bound chars).map Int.ofNat

/-- Reads an integer of a kind, with ASCII blanks around it. -/
def readInteger (kind : IntegerKind) (radix : Nat) (text : String) : Option Int :=
  (signedDigits? kind radix (trimBlanks text.toList)).filter kind.holds

def decimalDigits (n : Nat) : List Char :=
  Nat.toDigits 10 n

def writeInteger (n : Int) : String :=
  if n < 0 then String.ofList ('-' :: decimalDigits n.natAbs)
  else String.ofList (decimalDigits n.natAbs)

end TextColumns.Number
