import TextColumns.Basic

/-!
Tables of code points.  A table is an array of stretches in rising order that do not meet, so a
code point is looked up by halving.  The table of the blank characters is a short one.
-/

namespace TextColumns.Unicode

/-- The code points `first`, `first + step` and so on, up to `last`. -/
structure Stretch where
  first : Nat
  last : Nat
  step : Nat

namespace Stretch

def contains (stretch : Stretch) (code : Nat) : Bool :=
  stretch.first ≤ code && code ≤ stretch.last && (code - stretch.first) % stretch.step == 0

def find? (domain : α → Stretch) (table : Array α) (code : Nat) : Option α :=
  let reaches (i : Nat) : Bool :=
    match table[i]? with
    | some entry => code ≤ (domain entry).last
    | none => true
  table[bisect reaches 0 table.size]?.filter fun entry => (domain entry).contains code

def covers (table : Array Stretch) (code : Nat) : Bool :=
  (find? id table code).isSome

end Stretch

/-- Code points with the property White_Space. -/
def blankTable : Array Stretch := #[
  ⟨0x9, 0xD, 1⟩, ⟨0x20, 0x20, 1⟩, ⟨0x85, 0x85, 1⟩, ⟨0xA0, 0xA0, 1⟩, ⟨0x1680, 0x1680, 1⟩,
  ⟨0x2000, 0x200A, 1⟩, ⟨0x2028, 0x2029, 1⟩, ⟨0x202F, 0x202F, 1⟩, ⟨0x205F, 0x205F, 1⟩,
  ⟨0x3000, 0x3000, 1⟩]

def isBlank (c : Char) : Bool :=
  Stretch.covers blankTable c.toNat

end TextColumns.Unicode
