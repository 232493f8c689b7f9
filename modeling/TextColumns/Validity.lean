/-!
Which rows of a column hold a value.  A column without missing values carries no map.
-/

namespace TextColumns

/-- A mark for every row, true where the row holds a value; no map when all rows do. -/
abbrev Validity := Option (Array Bool)

namespace Validity

def ofMarks (marks : Array Bool) : Validity :=
  if marks.all id then none else some marks

def nullCount (validity : Validity) : Nat :=
  match validity with
  | some marks => marks.countP (· == false)
  | none => 0

def isValid (validity : Validity) (row : Nat) : Bool :=
  match validity with
  | some marks => marks[row]?.getD false
  | none => true

def merge (a b : Validity) : Validity :=
  match a, b with
  | none, none => none
  | none, some marks | some marks, none => ofMarks marks
  | some left, some right => ofMarks (left.zipWith (· && ·) right)

end Validity

/-- Values of one kind by row.  A row without a value holds a default one under its mark. -/
structure Column (α : Type) where
  values : Array α
  validity : Validity
  deriving DecidableEq, Repr

namespace Column

def ofOptions [Inhabited α] (rows : Array (Option α)) : Column α where
  values := rows.map (·.getD default)
  validity := Validity.ofMarks (rows.map (·.isSome))

def size (column : Column α) : Nat :=
  column.values.size

def get? (column : Column α) (row : Nat) : Option α :=
  if Validity.isValid column.validity row then column.values[row]? else none

def toOptions (column : Column α) : Array (Option α) :=
  column.values.mapIdx fun row value =>
    if Validity.isValid column.validity row then some value else none

def nullCount (column : Column α) : Nat :=
  Validity.nullCount column.validity

def trueCount (column : Column Bool) : Nat :=
  column.toOptions.countP (· == some true)

end Column

def maxInt32 : Nat := 2147483647

/-- A count as a 32-bit integer; the greatest one stands for all that do not fit. -/
def toInt32 (n : Nat) : Int :=
  min n maxInt32

end TextColumns
