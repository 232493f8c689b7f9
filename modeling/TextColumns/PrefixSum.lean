import TextColumns.Error
import TextColumns.Basic

/-!
Exclusive prefix sums of sizes, which fail when a sum does not fit a machine word.  The sums are
formed one after the other, or in blocks: the total of each block, the sums of those totals, and
then each block from its base on.
-/

namespace TextColumns.PrefixSum

/-- Addition that fails beyond the greatest sum. -/
def add? (a b : Nat) : Option Nat :=
  if a + b ≤ Word.greatest then some (a + b) else none

/-- Starts and total of the sizes when `total` comes before them. -/
def scanFrom (total : Nat) : List Nat → Option (List Nat × Nat)
  | [] => some ([], total)
  | size :: rest =>
    match add? total size with
    | none => none
    | some next =>
      match scanFrom next rest with
      | none => none
      | some (starts, final) => some (total :: starts, final)

def totalFrom (total : Nat) : List Nat → Option Nat
  | [] => some total
  | size :: rest =>
    match add? total size with
    | none => none
    | some next => totalFrom next rest

def basesFrom (total : Nat) : List (Option Nat) → Option (List Nat × Nat)
  | [] => some ([], total)
  | block :: rest =>
    match block with
    | none => none
    | some size =>
      match add? total size with
      | none => none
      | some next =>
        match basesFrom next rest with
        | none => none
        | some (bases, final) => some (total :: bases, final)

/-- The starts in a block whose base is known; machine addition, which wraps. -/
def fillFrom (base : Nat) : List Nat → List Nat
  | [] => []
  | size :: rest => base :: fillFrom (Word.wrap (base + size)) rest

/-- Cuts a list into blocks of the given length, the last one perhaps shorter. -/
def blocks (length : Nat) (sizes : List Nat) : List (List Nat) :=
  match sizes with
  | [] => []
  | size :: rest =>
    (size :: rest.take (length - 1)) :: blocks length (rest.drop (length - 1))
termination_by sizes.length
decreasing_by simp only [List.length_drop, List.length_cons]; omega

def scanBlocks (length : Nat) (sizes : List Nat) : Option (List Nat × Nat) :=
  let parts := blocks length sizes
  match basesFrom 0 (parts.map (totalFrom 0)) with
  | none => none
  | some (bases, total) => some ((bases.zipWith fillFrom parts).flatten, total)

/-- Fewer sizes than this are summed one after the other. -/
def blockThreshold : Nat := 1024

def minBlock : Nat := 256

/-- The length of blocks, four for every worker unless they would be too short. -/
def blockLength (workers count : Nat) : Nat :=
  let blocks := max 1 (workers * 4)
  max minBlock ((count + blocks - 1) / blocks)

def workers : Nat := 4

/-- The start of every size and the total, as a number of workers finds them. -/
def exclusive (workers : Nat) (sizes : Array Nat) : Result (Array Nat × Nat) :=
  let found :=
    if blockThreshold ≤ sizes.size then
      scanBlocks (blockLength workers sizes.size) sizes.toList
    else
      scanFrom 0 sizes.toList
  match found with
  | some (starts, total) => .ok (starts.toArray, total)
  | none => .error (.prefixSum sizes.size)

end TextColumns.PrefixSum
