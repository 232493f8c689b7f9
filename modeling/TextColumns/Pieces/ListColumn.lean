import TextColumns.PrefixSum
import TextColumns.Store.Basic
import TextColumns.Text.Cursor

/-!
Columns with a list of texts in every row.  The texts of all rows are one store, and the rows are
consecutive parts of it.
-/

namespace TextColumns

open Text (Extent)

structure ListColumn where
  values : Store
  /-- Where each row starts among the values, and at the end the number of values. -/
  offsets : Array Nat
  validity : Validity

namespace ListColumn

def size (column : ListColumn) : Nat :=
  column.offsets.size - 1

def rowStart (column : ListColumn) (row : Nat) : Nat :=
  column.offsets[row]?.getD 0

def rowLength (column : ListColumn) (row : Nat) : Nat :=
  column.rowStart (row + 1) - column.rowStart row

/-- The texts of a row; none when the row is missing. -/
def row? (column : ListColumn) (row : Nat) : Option (List String) :=
  if Validity.isValid column.validity row then
    some <| (List.range (column.rowLength row)).map fun k =>
      (column.values.text? (column.rowStart row + k)).getD ""
  else
    none

def rows (column : ListColumn) : List (Option (List String)) :=
  (List.range column.size).map column.row?

def nullCount (column : ListColumn) : Nat :=
  Validity.nullCount column.validity

def spansFrom (row : Nat) : List (Option (List Extent)) → List (Option Span)
  | [] => []
  | none :: rest => spansFrom (row + 1) rest
  | some extents :: rest =>
    extents.map (fun extent => some ⟨row, extent.start, extent.stop⟩) ++
      spansFrom (row + 1) rest

def ofExtents (store : Store) (rows : List (Option (List Extent))) : Result ListColumn :=
  let counts := (rows.map fun row => (row.map List.length).getD 0).toArray
  match PrefixSum.exclusive PrefixSum.workers counts with
  | .error e => .error e
  | .ok (starts, total) =>
    .ok
      { values := store.share (spansFrom 0 rows)
        offsets := starts.push total
        validity := Validity.ofMarks (rows.map (·.isSome)).toArray }

def width (column : ListColumn) : Nat :=
  ((List.range column.size).map column.rowLength).foldl max 0

/-- The `k`-th value of every row, missing where a row is shorter. -/
def nth (column : ListColumn) (k : Nat) : Store :=
  column.values.share <| (List.range column.size).map fun row =>
    if k < column.rowLength row then
      let value := column.rowStart row + k
      some ⟨value, 0, ((column.values.bytes? value).map ByteArray.size).getD 0⟩
    else
      none

def transpose (column : ListColumn) : List Store :=
  (List.range column.width).map column.nth

end ListColumn

end TextColumns
