import TextColumns.Pattern.CodeSet
import TextColumns.Unicode.CaseMapping

/-!
Sets of characters prepared for matching.  Membership of an ASCII character is one bit of two
words; any other character is looked up in the ranges by halving.
-/

namespace TextColumns

open Pattern (CodeRange CodeSet)

structure CharClass where
  ranges : Array CodeRange
  negated : Bool
  /-- One bit for each of the code points 0 to 63. -/
  lowBits : UInt64
  /-- One bit for each of the code points 64 to 127. -/
  highBits : UInt64
  deriving DecidableEq, Repr, Inhabited

namespace CharClass

/-- The bits of the 64 code points from `base` on that lie in some range. -/
def bitsFrom (base : Nat) (ranges : List CodeRange) : UInt64 :=
  (List.range 64).foldl (fun bits i =>
    if ranges.any fun range => range.contains (base + i) then bits ||| (1 <<< UInt64.ofNat i)
    else bits) 0

def ofSet (set : CodeSet) : CharClass where
  ranges := set.ranges.toArray
  negated := set.negated
  lowBits := bitsFrom 0 set.ranges
  highBits := bitsFrom 64 set.ranges

def hasBit (bits : UInt64) (i : Nat) : Bool :=
  (bits >>> UInt64.ofNat i) &&& 1 == 1

def inRanges (ranges : Array CodeRange) (code : Nat) : Bool :=
  let reaches (i : Nat) : Bool :=
    match ranges[i]? with
    | some range => code ≤ range.high
    | none => true
  match ranges[bisect reaches 0 ranges.size]? with
  | some range => range.low ≤ code
  | none => false

def contains (cls : CharClass) (c : Char) : Bool :=
  let code := c.toNat
  if code < 64 then hasBit cls.lowBits code
  else if code < 128 then hasBit cls.highBits (code - 64)
  else inRanges cls.ranges code

/-- Whether a simple case mapping of the character, other than itself, is a member. -/
def containsMapped (cls : CharClass) (c : Char) : Bool :=
  let lower := Unicode.simpleLower c
  let upper := Unicode.simpleUpper c
  (lower != c && cls.contains lower) || (upper != c && cls.contains upper)

/-- Whether the class accepts a character.  With `fold` the character also counts as a member when
a case mapping of it is one; the negation comes last. -/
def accepts (cls : CharClass) (c : Char) (fold : Bool) : Bool :=
  (cls.contains c || (fold && cls.containsMapped c)) != cls.negated

end CharClass

/-- Equality of characters; with `fold` also of either simple case mapping of the two. -/
def sameChar (a b : Char) (fold : Bool) : Bool :=
  a == b ||
    (fold &&
      (Unicode.simpleLower a == Unicode.simpleLower b ||
        Unicode.simpleUpper a == Unicode.simpleUpper b))

/-- Letters, digits and the underscore of ASCII. -/
def isWordChar (c : Char) : Bool :=
  c.isAlphanum || c == '_'

end TextColumns
