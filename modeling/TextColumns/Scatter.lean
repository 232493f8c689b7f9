/-!
Writing values into chosen slots, and cutting a buffer into ranges.  The first write to a slot
claims it; later writes to the same slot, and writes beyond the slots, are dropped.
-/

namespace TextColumns

/-- Slots while they are written, with a mark for each that has been claimed. -/
structure Slotted (α : Type) where
  values : Array α
  claimed : Array Bool
  /-- The number of writes that had no effect. -/
  dropped : Nat

namespace Slotted

def ofValues (values : Array α) : Slotted α :=
  ⟨values, Array.replicate values.size false, 0⟩

def write (slotted : Slotted α) (slotWrite : Option (Nat × α)) : Slotted α :=
  match slotWrite with
  | none => slotted
  | some (slot, value) =>
    match slotted with
    | ⟨values, claimed, dropped⟩ =>
      if claimed[slot]? == some false then
        ⟨values.setIfInBounds slot value, claimed.setIfInBounds slot true, dropped⟩
      else
        ⟨values, claimed, dropped + 1⟩

end Slotted

def scatter (values : Array α) (writes : List (Option (Nat × α))) : Slotted α :=
  writes.foldl Slotted.write (Slotted.ofValues values)

def consecutiveRanges (buffer : List α) : (sizes : List Nat) → List (List α)
  | [] => []
  | size :: rest => buffer.take size :: consecutiveRanges (buffer.drop size) rest

end TextColumns
