import TextColumns.Unicode.Stretch

/-!
Sets of code points.  A set is a list of ranges, rising, disjoint and never adjacent, together
with a mark that turns it into its complement.
-/

namespace TextColumns.Pattern

def lastCode : Nat := 0x10FFFF

/-- The code points from `low` to `high`, both included. -/
structure CodeRange where
  low : Nat
  high : Nat
  deriving DecidableEq, Repr, Inhabited

namespace CodeRange

def contains (range : CodeRange) (code : Nat) : Bool :=
  range.low ≤ code && code ≤ range.high

def single (c : Char) : CodeRange :=
  ⟨c.toNat, c.toNat⟩

def between (low high : Char) : CodeRange :=
  ⟨low.toNat, high.toNat⟩

/-- The order of ranges by their low ends, and then by their high ends. -/
def le (a b : CodeRange) : Bool :=
  a.low < b.low || (a.low == b.low && a.high ≤ b.high)

/-- Joins to `current` the ranges of a rising list that overlap it or follow it at once. -/
def join (current : CodeRange) : List CodeRange → List CodeRange
  | [] => [current]
  | next :: rest =>
    if next.low ≤ current.high + 1 then
      join ⟨current.low, max current.high next.high⟩ rest
    else
      current :: join next rest

/-- The same code points as rising ranges that neither overlap nor touch. -/
def normalize (ranges : List CodeRange) : List CodeRange :=
  match ranges.mergeSort le with
  | [] => []
  | first :: rest => join first rest

/-- What the ranges leave out of the code points from `next` on. -/
def gaps (next : Nat) : List CodeRange → List CodeRange
  | [] => if next ≤ lastCode then [⟨next, lastCode⟩] else []
  | range :: rest =>
    if next < range.low then
      ⟨next, range.low - 1⟩ :: gaps (range.high + 1) rest
    else
      gaps (range.high + 1) rest

end CodeRange

/-- A set of code points; when `negated`, the complement of its ranges. -/
structure CodeSet where
  ranges : List CodeRange
  negated : Bool
  deriving DecidableEq, Repr, Inhabited

namespace CodeSet

def ofRanges (ranges : List CodeRange) (negated : Bool) : CodeSet :=
  ⟨CodeRange.normalize ranges, negated⟩

def positiveRanges (set : CodeSet) : List CodeRange :=
  if set.negated then CodeRange.gaps 0 set.ranges else set.ranges

def digits : List CodeRange :=
  [.between '0' '9']

def wordChars : List CodeRange :=
  [.between '0' '9', .between 'A' 'Z', .single '_', .between 'a' 'z']

def blanks : List CodeRange :=
  Unicode.blankTable.toList.map fun stretch => ⟨stretch.first, stretch.last⟩

end CodeSet

end TextColumns.Pattern
