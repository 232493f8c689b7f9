import TextColumns.Basic
import TextColumns.Store.Build

/-! Stores made of elements of other stores, and stores put together from their parts. -/

namespace TextColumns.Store

def elementDraft (store : Store) (row : Nat) : Option Draft :=
  (store.bytes? row).map Draft.ofBytes

def checkIndices (store : Store) (indices : List Nat) : Result Unit :=
  match indices.find? fun index => store.size ≤ index with
  | some index => .error (.gatherOutside index store.size)
  | none => .ok ()

def gather (store : Store) (indices : List Nat) : Result Store :=
  match store.checkIndices indices with
  | .error e => .error e
  | .ok () => build (indices.map store.elementDraft)

/-- The elements at the given indices; where there is no index the element is missing. -/
def gatherOptional (store : Store) (indices : List (Option Nat)) : Result Store :=
  match store.checkIndices (indices.filterMap id) with
  | .error e => .error e
  | .ok () => build (indices.map fun index => index.bind store.elementDraft)

/-- The `count` elements from `start` on, over the same buffer. -/
def slice (store : Store) (start count : Nat) : Result Store :=
  if Word.greatest < start + count ∨ store.size < start + count then
    .error (.sliceOutside start (Word.saturate (start + count)) store.size)
  else
    .ok (ofCells store.buffer (store.cells.extract start (start + count)))

def elementDrafts (store : Store) : List (Option Draft) :=
  store.cells.toList.map fun cell => (store.cellBytes cell).map Draft.ofBytes

/-- The number of rows before each store, when `before` come before all of them. -/
def basesFrom (before : Nat) : List Store → List Nat
  | [] => []
  | store :: rest => before :: basesFrom (before + store.size) rest

/-- A row of joined stores, in the last one that starts at or before it. -/
def locate (stores : Array Store) (bases : Array Nat) (row : Nat) : Option Draft :=
  let part := bisect (fun k => row < bases[k]?.getD 0) 0 bases.size - 1
  (stores[part]?.getD default).elementDraft (row - bases[part]?.getD 0)

def concat (stores : List Store) : Result Store :=
  let bases := (basesFrom 0 stores).toArray
  build ((List.range (total (stores.map size))).map (locate stores.toArray bases))

/-- The same elements in a buffer that holds nothing else. -/
def compact (store : Store) : Result Store :=
  build store.elementDrafts

/-- The length that stands for a missing element. -/
def nullLength : Int := -1

/-- Checks the entries of an offset and length table against a buffer, in order, and counts those
of missing elements.  `previous` is the offset before, and `row` counts the entries before. -/
def checkEntries (bytes : ByteArray) (previous : Int) (row nullCount : Nat) :
    List (Int × Int) → Except PartsFault (List Cell × Nat)
  | [] => .ok ([], nullCount)
  | (offset, length) :: rest =>
    if offset < previous then .error (.decreasingOffset offset row)
    else if length = nullLength then
      match checkEntries bytes offset (row + 1) (nullCount + 1) rest with
      | .error e => .error e
      | .ok (cells, nullCount) => .ok (⟨offset.toNat, none⟩ :: cells, nullCount)
    else if length < 0 then .error (.negativeLength length row)
    else
      let start := offset.toNat
      let stop := (offset + length).toNat
      if bytes.size < stop then .error (.beyondBuffer row stop bytes.size)
      else
        match Text.utf8Fault? (bytes.extract start stop) with
        | some fault => .error (.notUtf8 row fault)
        | none =>
          match checkEntries bytes offset (row + 1) nullCount rest with
          | .error e => .error e
          | .ok (cells, nullCount) => .ok (⟨start, some length.toNat⟩ :: cells, nullCount)

/-- A store over given bytes, with the offset and the length of each element. -/
def ofParts (bytes : ByteArray) (offsets lengths : List Int) : Result Store :=
  if offsets.length ≠ lengths.length then
    .error (.parts (.tableSizes offsets.length lengths.length))
  else
    match checkEntries bytes 0 0 0 (offsets.zip lengths) with
    | .error e => .error (.parts e)
    | .ok (cells, nullCount) => .ok ⟨⟨bytes, none⟩, cells.toArray, nullCount⟩

end TextColumns.Store
