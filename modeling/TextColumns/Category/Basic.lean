import TextColumns.Order
import TextColumns.Scatter

/-!
Category tables.  A table holds the distinct texts of a column, in rising order, and for every row
the place of its text among them.
-/

namespace TextColumns

structure CategoryTable where
  /-- The keys: texts in strictly rising order, none of them missing. -/
  keys : Store
  /-- For every row the place of its key, or `missing`. -/
  codes : Array Int32
  deriving Inhabited

namespace CategoryTable

def missing : Int32 := -1

def maxKeys : Nat := maxInt32

def size (table : CategoryTable) : Nat :=
  table.codes.size

def keyCount (table : CategoryTable) : Nat :=
  table.keys.size

def code? (table : CategoryTable) (row : Nat) : Option Nat :=
  (table.codes[row]?.filter (· ≠ missing)).map Int32.toNatClampNeg

def codesByRow (table : CategoryTable) : List (Option Nat) :=
  (List.range table.size).map table.code?

def nullCount (table : CategoryTable) : Nat :=
  table.codes.countP (· == missing)

/-- Marks the rows in sorted order whose text differs from that of the row before. -/
def changes (previous : Option String) : List (Option String) → List Bool
  | [] => []
  | text :: rest => (text != previous) :: changes text rest

def markSize (mark : Bool) : Nat :=
  if mark then 1 else 0

/-- The rows with a text in sorted order, each with a mark if it opens a new key and the number of
keys in front of it, and the number of all keys. -/
def entries (store : Store) : Result (List (Nat × Bool × Nat) × Nat) :=
  let texts := store.texts
  let rows := (sortedRows store .ascending).drop store.nullCount
  let marks := changes none (rows.map fun row => texts[row]?.getD none)
  match PrefixSum.exclusive PrefixSum.workers (marks.map markSize).toArray with
  | .error e => .error e
  | .ok (ranks, keyCount) => .ok (rows.zip (marks.zip ranks.toList), keyCount)

def codeWrites (entries : List (Nat × Bool × Nat)) : List (Option (Nat × Int32)) :=
  entries.map fun (row, mark, rank) => some (row, Int32.ofNat (rank + markSize mark - 1))

def openingWrites (entries : List (Nat × Bool × Nat)) : List (Option (Nat × Nat)) :=
  entries.map fun (row, mark, rank) => if mark then some (rank, row) else none

/-- The table of a store with so many keys, by the writes of the codes and of the opening rows. -/
def encodedBy (store : Store) (keyCount : Nat) (codeWrites : List (Option (Nat × Int32)))
    (openingWrites : List (Option (Nat × Nat))) : Result CategoryTable :=
  let codes := scatter (Array.replicate store.size missing) codeWrites
  let openings := scatter (Array.replicate keyCount 0) openingWrites
  match store.gather openings.values.toList with
  | .error e => .error e
  | .ok keys => .ok ⟨keys, codes.values⟩

/-- The table of a store.  Its keys are the texts of the rows at which the text changes in sorted
order, and every row has the place of the last key that is open there. -/
def ofStore (store : Store) : Result CategoryTable :=
  match entries store with
  | .error e => .error e
  | .ok (entries, keyCount) =>
    if maxKeys < keyCount then .error (.tooManyKeys keyCount)
    else encodedBy store keyCount (codeWrites entries) (openingWrites entries)

def firstUnsorted? (previous : Option String) (k : Nat) : List (Option String) → Option Nat
  | [] => none
  | key :: rest =>
    if Text.compareOptional previous key == .lt then firstUnsorted? key (k + 1) rest else some k

def firstOutside? (keyCount : Nat) (codes : Array Int32) : Option (Int32 × Nat) :=
  codes.toList.zipIdx.find? fun (code, _) =>
    code ≠ missing && (code < 0 || (keyCount : Int) ≤ code.toInt)

/-- Refuses a table whose keys are not strictly rising, or whose codes have no keys. -/
def check (table : CategoryTable) : Except TableFault Unit :=
  if 0 < table.keys.nullCount then .error .nullKey
  else
    match firstUnsorted? none 0 table.keys.texts.toList with
    | some k => .error (.keysNotIncreasing k)
    | none =>
      match firstOutside? table.keyCount table.codes with
      | some (code, row) => .error (.codeOutside code.toInt row table.keyCount)
      | none => .ok ()

def ofParts (keys : Store) (codes : Array Int32) : Result CategoryTable :=
  let table : CategoryTable := ⟨keys, codes⟩
  match table.check with
  | .error e => .error (.table e)
  | .ok () => .ok table

def toStore (table : CategoryTable) : Result Store :=
  table.keys.gatherOptional table.codesByRow

def keyBytes (keys : Store) (k : Nat) : ByteArray :=
  (keys.bytes? k).getD ByteArray.empty

/-- The place of a key in a rising store by halving, or the place where it would stand.  The keys
before `low` are smaller, those from `high` on are greater. -/
def searchKeys (keys : Store) (needle : ByteArray) (low high : Nat) : Except Nat Nat :=
  if low < high then
    let middle := low + (high - low) / 2
    match Text.compareBytes (keyBytes keys middle) needle with
    | .lt => searchKeys keys needle (middle + 1) high
    | .gt => searchKeys keys needle low middle
    | .eq => .ok middle
  else
    .error low
termination_by high - low

def indexOf? (keys : Store) (needle : String) : Option Nat :=
  match searchKeys keys needle.toByteArray 0 keys.size with
  | .ok k => some k
  | .error _ => none

def keyIndex? (table : CategoryTable) (key : String) : Option Nat :=
  indexOf? table.keys key

def rowsOfKey (table : CategoryTable) (key : String) : List Nat :=
  match table.keyIndex? key with
  | none => []
  | some k => (List.range table.size).filter fun row => table.codes[row]? == some (Int32.ofNat k)

def sameTable (a b : CategoryTable) : Bool :=
  a.keys.sameTexts b.keys && a.codes == b.codes

end CategoryTable

end TextColumns
