import TextColumns.Measure.Kind
import TextColumns.Store.Select
import Std.Data.HashSet.Lemmas

namespace TextColumns

inductive Comparison where
  | equal
  | notEqual
  | less
  | lessOrEqual
  | greater
  | greaterOrEqual
  | isNull
  | isNotNull
  deriving DecidableEq, Repr

namespace Comparison

def holds (comparison : Comparison) (order : Ordering) : Bool :=
  match comparison with
  | .equal => order == .eq
  | .notEqual => order != .eq
  | .less => order == .lt
  | .lessOrEqual => order != .gt
  | .greater => order == .gt
  | .greaterOrEqual => order != .lt
  | .isNull | .isNotNull => false

/-- For the comparisons that only ask whether there is a text: the answer for a missing one. -/
def asksForNull? : Comparison → Option Bool
  | .isNull => some true
  | .isNotNull => some false
  | _ => none

end Comparison

def nullAnswers (store : Store) (whenNull : Bool) : Column Bool where
  values := store.cells.map fun cell => cell.length.isNone == whenNull
  validity := none

def compareText (store : Store) (comparison : Comparison) (text : String) : Column Bool :=
  match comparison.asksForNull? with
  | some whenNull => nullAnswers store whenNull
  | none =>
    let bytes := text.toByteArray
    Measure.answers store fun element =>
      comparison.holds (Text.compareBytes element.toByteArray bytes)

def bothHold (comparison : Comparison) (left right : Option String) : Bool :=
  match left, right with
  | some left, some right => comparison.holds (Text.compare left right)
  | _, _ => false

def compareRows (left right : Store) (comparison : Comparison) : Result (Column Bool) :=
  if left.size ≠ right.size then .error (.rowCounts .compare left.size right.size)
  else
    match comparison.asksForNull? with
    | some whenNull => .ok (nullAnswers left whenNull)
    | none =>
      .ok
        { values := left.texts.zipWith (bothHold comparison) right.texts
          validity := Validity.merge left.validity right.validity }

def Store.members (store : Store) : Std.HashSet String :=
  .ofList (store.texts.toList.filterMap id)

theorem Store.contains_members (store : Store) (text : String) :
    store.members.contains text = true ↔ some text ∈ store.texts := by
  simp [Store.members, Std.HashSet.contains_ofList, List.mem_filterMap]

def isIn (store set : Store) : Column Bool :=
  let members := set.members
  Measure.answers store members.contains

structure SortOrder where
  descending : Bool
  nullsLast : Bool
  deriving DecidableEq, Repr

namespace SortOrder

def ascending : SortOrder :=
  ⟨false, false⟩

/-- The order of elements.  The place of missing ones does not depend on the direction. -/
def compare (order : SortOrder) (a b : Option String) : Ordering :=
  match a, b with
  | none, none => .eq
  | none, some _ => if order.nullsLast then .gt else .lt
  | some _, none => if order.nullsLast then .lt else .gt
  | some a, some b => if order.descending then Text.compare b a else Text.compare a b

end SortOrder

/-- The rows of a store in sorted order; rows with equal elements stay in their order. -/
def sortedRows (store : Store) (order : SortOrder) : List Nat :=
  let texts := store.texts
  (List.range store.size).mergeSort fun i j =>
    order.compare (texts[i]?.getD none) (texts[j]?.getD none) != .gt

def sorted (store : Store) (order : SortOrder) : Result Store :=
  store.gather (sortedRows store order)

end TextColumns
