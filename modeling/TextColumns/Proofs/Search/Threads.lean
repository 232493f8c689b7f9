import TextColumns.Search.Threads
import Mathlib.Data.List.Nodup
import Mathlib.Data.List.Perm.Subperm

namespace TextColumns.Search

namespace SparseSet

/-- A set of numbers below a capacity.  Nothing is said about entries of no member. -/
structure Fits (set : SparseSet) (capacity : Nat) : Prop where
  dense_size : set.dense.size = capacity
  sparse_size : set.sparse.size = capacity
  size_le : set.size ≤ capacity
  /-- Every member is found where its entry points. -/
  points_back : ∀ place, place < set.size →
    ∃ x, set.dense[place]? = some x ∧ set.sparse[x]? = some place

theorem fits_ofCapacity (capacity : Nat) : (ofCapacity capacity).Fits capacity where
  dense_size := Array.size_replicate
  sparse_size := Array.size_replicate
  size_le := Nat.zero_le _
  points_back := fun place hplace => absurd hplace (Nat.not_lt_zero place)

variable {set : SparseSet} {capacity x : Nat}

theorem Fits.clear (hfits : set.Fits capacity) : set.clear.Fits capacity :=
  { hfits with
    size_le := Nat.zero_le _
    points_back := fun place hplace => absurd hplace (Nat.not_lt_zero place) }

@[simp] theorem members_clear (set : SparseSet) : set.clear.members = [] := by
  simp [members, clear]

theorem mem_members : x ∈ set.members ↔ ∃ place, place < set.size ∧ set.dense[place]? = some x := by
  simp only [members, Array.mem_toList_iff, Array.mem_extract_iff_getElem, Nat.sub_zero,
    Nat.zero_add]
  constructor
  · intro hplace
    obtain ⟨place, hplace, rfl⟩ := hplace
    exact ⟨place, by omega, Array.getElem?_eq_getElem (by omega)⟩
  · intro hx
    obtain ⟨place, hplace, hx⟩ := hx
    obtain ⟨hlt, rfl⟩ := Array.getElem?_eq_some_iff.mp hx
    exact ⟨place, by omega, rfl⟩

theorem Fits.lt_of_mem (hfits : set.Fits capacity) (hx : x ∈ set.members) : x < capacity := by
  obtain ⟨place, hplace, hdense⟩ := mem_members.mp hx
  obtain ⟨y, hy, hsparse⟩ := hfits.points_back place hplace
  obtain rfl : y = x := Option.some.inj (hy.symm.trans hdense)
  rw [← hfits.sparse_size]
  exact (Array.getElem?_eq_some_iff.mp hsparse).1

theorem Fits.length_members (hfits : set.Fits capacity) : set.members.length = set.size := by
  have := hfits.size_le
  have := hfits.dense_size
  simp only [members, Array.length_toList, Array.size_extract]
  omega

theorem Fits.isEmpty_iff (hfits : set.Fits capacity) : set.size = 0 ↔ set.members = [] := by
  rw [← hfits.length_members, List.length_eq_zero_iff]

theorem Fits.nodup_members (hfits : set.Fits capacity) : set.members.Nodup := by
  rw [List.nodup_iff_injective_getElem]
  rintro ⟨i, hi⟩ ⟨j, hj⟩ heq
  have hmember (k : Nat) (hk : k < set.members.length) :
      set.sparse[set.members[k]]? = some k := by
    obtain ⟨y, hy, hsparse⟩ := hfits.points_back k (by rwa [← hfits.length_members])
    obtain ⟨_, rfl⟩ := Array.getElem?_eq_some_iff.mp hy
    simpa [members] using hsparse
  have hi' := hmember i hi
  rw [show set.members[i] = set.members[j] from heq, hmember j hj] at hi'
  exact Fin.ext (Option.some.inj hi').symm

theorem Fits.contains?_eq (hfits : set.Fits capacity) (hx : x < capacity) :
    set.contains? x = some (decide (x ∈ set.members)) := by
  obtain ⟨place, hsparse⟩ : ∃ place, set.sparse[x]? = some place :=
    ⟨_, Array.getElem?_eq_getElem (by rwa [hfits.sparse_size])⟩
  have hmember (hmem : x ∈ set.members) : place < set.size ∧ set.dense[place]? = some x := by
    obtain ⟨place', hplace', hdense⟩ := mem_members.mp hmem
    obtain ⟨y, hy, hback⟩ := hfits.points_back place' hplace'
    obtain rfl : y = x := Option.some.inj (hy.symm.trans hdense)
    obtain rfl : place' = place := Option.some.inj (hback.symm.trans hsparse)
    exact ⟨hplace', hdense⟩
  simp only [contains?, hsparse]
  by_cases hplace : place < set.size
  · rw [if_pos hplace]
    obtain ⟨y, hdense, -⟩ := hfits.points_back place hplace
    simp only [hdense, Option.some.injEq, Bool.beq_eq_decide_eq]
    refine decide_eq_decide.mpr ⟨?_, fun hmem => ?_⟩
    · intro heq
      subst heq
      exact mem_members.mpr ⟨place, hplace, hdense⟩
    · exact Option.some.inj (hdense.symm.trans (hmember hmem).2)
  · rw [if_neg hplace]
    simp only [Option.some.injEq, Bool.false_eq, decide_eq_false_iff_not]
    exact fun hmem => hplace (hmember hmem).1

theorem Fits.lt_of_contains? (hfits : set.Fits capacity) {found : Bool}
    (hcontains : set.contains? x = some found) : x < capacity := by
  rw [← hfits.sparse_size]
  refine Nat.lt_of_not_le fun hle => ?_
  rw [contains?, Array.getElem?_eq_none hle] at hcontains
  cases hcontains

theorem Fits.mem_of_contains? (hfits : set.Fits capacity) {found : Bool}
    (hcontains : set.contains? x = some found) : found = true ↔ x ∈ set.members := by
  rw [hfits.contains?_eq (hfits.lt_of_contains? hcontains)] at hcontains
  rw [← Option.some.inj hcontains, decide_eq_true_iff]

theorem Fits.size_lt (hfits : set.Fits capacity) (hx : x < capacity) (hnew : x ∉ set.members) :
    set.size < capacity := by
  have hnodup : (x :: set.members).Nodup :=
    List.nodup_cons.mpr ⟨hnew, hfits.nodup_members⟩
  have hsubset : x :: set.members ⊆ List.range capacity := by
    intro y hy
    rcases List.mem_cons.mp hy with rfl | hy
    · exact List.mem_range.mpr hx
    · exact List.mem_range.mpr (hfits.lt_of_mem hy)
  have hlength := (hnodup.subperm hsubset).length_le
  rw [List.length_cons, List.length_range, hfits.length_members] at hlength
  exact hlength

theorem Fits.add?_eq (hfits : set.Fits capacity) (hx : x < capacity) (hnew : x ∉ set.members) :
    ∃ added, set.add? x = some added ∧ added.Fits capacity ∧
      added.members = set.members ++ [x] := by
  have hsize := hfits.size_lt hx hnew
  have hdense := hfits.dense_size
  have hsparse := hfits.sparse_size
  have hmembers : ∀ place, place < set.size → set.dense[place]? ≠ some x :=
    fun place hplace heq => hnew (mem_members.mpr ⟨place, hplace, heq⟩)
  have hback := hfits.points_back
  obtain ⟨dense, sparse, size⟩ := set
  simp only at hsize hdense hsparse hmembers hback
  have hroom : size < dense.size ∧ x < sparse.size := by omega
  refine ⟨⟨dense.set size x hroom.1, sparse.set x size hroom.2, size + 1⟩,
    by rw [add?, dif_pos hroom], ⟨?_, ?_, hsize, ?_⟩, ?_⟩
  · rw [Array.size_set, hdense]
  · rw [Array.size_set, hsparse]
  · intro place hplace
    rcases Nat.lt_succ_iff_lt_or_eq.mp hplace with hlt | rfl
    · obtain ⟨y, hy, hsparse⟩ := hback place hlt
      have hne : x ≠ y := by
        intro heq
        subst heq
        exact hmembers place hlt hy
      exact ⟨y, by rw [Array.getElem?_set_ne _ (Nat.ne_of_gt hlt), hy],
        by rw [Array.getElem?_set_ne _ hne, hsparse]⟩
    · exact ⟨x, Array.getElem?_set_self hroom.1, Array.getElem?_set_self hroom.2⟩
  · have hlast : (dense.set size x hroom.1)[size]? = some x := Array.getElem?_set_self _
    simp only [members, Array.toList_extract, List.extract_eq_take_drop, Nat.sub_zero,
      List.drop_zero]
    rw [List.take_add_one, Array.getElem?_toList, hlast, Array.toList_set,
      List.take_set_of_le (Nat.le_refl size)]
    rfl

end SparseSet

namespace Threads

structure Fits (threads : Threads) (program : Program) : Prop where
  set : threads.set.Fits program.size
  rows_size : threads.rows.size = program.size
  row_size : ∀ row ∈ threads.rows, row.size = program.slots

theorem fits_ofProgram (program : Program) : (ofProgram program).Fits program where
  set := SparseSet.fits_ofCapacity _
  rows_size := Array.size_replicate
  row_size := by
    intro row hrow
    rw [(Array.mem_replicate.mp hrow).2, Array.size_replicate]

variable {threads : Threads} {program : Program} {address : Nat}

theorem Fits.clear (hfits : threads.Fits program) : threads.clear.Fits program :=
  { hfits with set := hfits.set.clear }

theorem Fits.lookup (hfits : threads.Fits program) (haddress : address < program.size) :
    ∃ instruction row, program.instructions[address]? = some instruction ∧
      threads.rows[address]? = some row ∧ row.size = program.slots := by
  have hrow : address < threads.rows.size := by rwa [hfits.rows_size]
  exact ⟨_, _, Array.getElem?_eq_getElem haddress, Array.getElem?_eq_getElem hrow,
    hfits.row_size _ (Array.getElem_mem hrow)⟩

theorem Fits.add?_eq (hfits : threads.Fits program) (haddress : address < program.size)
    (hnew : address ∉ threads.set.members) :
    ∃ added, threads.add? address = some added ∧ added.Fits program ∧
      added.set.members = threads.set.members ++ [address] ∧ added.rows = threads.rows := by
  obtain ⟨set, hadd, hset, hmembers⟩ := hfits.set.add?_eq haddress hnew
  obtain ⟨oldSet, rows⟩ := threads
  exact ⟨⟨set, rows⟩, by rw [add?, hadd], { hfits with set := hset }, hmembers, rfl⟩

theorem Fits.entered (hfits : threads.Fits program) {added : Threads}
    (hcontains : threads.set.contains? address = some false)
    (hadd : threads.add? address = some added) :
    address < program.size ∧ address ∉ threads.set.members ∧ added.Fits program ∧
      added.set.members = threads.set.members ++ [address] ∧ added.rows = threads.rows := by
  have haddress := hfits.set.lt_of_contains? hcontains
  have hnew : address ∉ threads.set.members := fun hmember =>
    Bool.false_ne_true ((hfits.set.mem_of_contains? hcontains).mpr hmember)
  obtain ⟨other, hother, hadded⟩ := hfits.add?_eq haddress hnew
  obtain rfl := Option.some.inj (hother.symm.trans hadd)
  exact ⟨haddress, hnew, hadded⟩

theorem Fits.record?_eq (hfits : threads.Fits program) (haddress : address < program.size)
    {slots : Slots} (hslots : slots.size = program.slots) :
    ∃ recorded, threads.record? address slots = some recorded ∧ recorded.Fits program ∧
      recorded.set = threads.set ∧
      ∀ other, recorded.rows[other]? =
        if other = address then some slots else threads.rows[other]? := by
  have hrows := hfits.rows_size
  obtain ⟨set, rows⟩ := threads
  have hlt : address < rows.size := by rwa [hrows]
  refine ⟨⟨set, rows.set address slots hlt⟩, by rw [record?, dif_pos hlt],
    ⟨hfits.set, by rwa [Array.size_set], ?_⟩, rfl, ?_⟩
  · intro row hrow
    rcases Array.mem_or_eq_of_mem_set (w := hlt) hrow with hrow | rfl
    · exact hfits.row_size row hrow
    · exact hslots
  · intro other
    rw [Array.getElem?_set]
    by_cases heq : address = other
    · rw [if_pos heq, if_pos heq.symm]
    · rw [if_neg heq, if_neg (Ne.symm heq)]

end Threads

end TextColumns.Search
