/-!
Sets of small numbers that keep the order of insertion and are cleared at once.  The first `size`
entries of `dense` are the members, and `sparse` has the place of each of them there; all other
entries of either array mean nothing.
-/

namespace TextColumns.Search

structure SparseSet where
  dense : Array Nat
  sparse : Array Nat
  size : Nat
  deriving DecidableEq, Repr, Inhabited

namespace SparseSet

def ofCapacity (capacity : Nat) : SparseSet :=
  ⟨Array.replicate capacity 0, Array.replicate capacity 0, 0⟩

def clear (set : SparseSet) : SparseSet :=
  { set with size := 0 }

def members (set : SparseSet) : List Nat :=
  (set.dense.extract 0 set.size).toList

def room (set : SparseSet) : Nat :=
  set.dense.size - set.size

/-- Whether `x` is a member; no answer for a number beyond the capacity. -/
@[inline] def contains? (set : SparseSet) (x : Nat) : Option Bool :=
  match set.sparse[x]? with
  | none => none
  | some place =>
    if place < set.size then
      match set.dense[place]? with
      | none => none
      | some member => some (member == x)
    else
      some false

/-- Adds a number that is no member; fails when there is no room for it. -/
@[inline] def add? (set : SparseSet) (x : Nat) : Option SparseSet :=
  match set with
  | ⟨dense, sparse, size⟩ =>
    if h : size < dense.size ∧ x < sparse.size then
      some ⟨dense.set size x h.1, sparse.set x size h.2, size + 1⟩
    else
      none

theorem room_add? {set added : SparseSet} {x : Nat} (h : set.add? x = some added) :
    added.room + 1 = set.room := by
  obtain ⟨dense, sparse, size⟩ := set
  revert h
  fun_cases add? ⟨dense, sparse, size⟩ x with
  | case1 hroom =>
      intro h
      cases h
      simp only [room, Array.size_set]
      omega
  | case2 => intro h; cases h

end SparseSet

end TextColumns.Search
