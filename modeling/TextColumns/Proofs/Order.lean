import TextColumns.Order
import TextColumns.Proofs.Store.Contents
import TextColumns.Proofs.Text.Order

/-!
Sorting a store gives every row once, and the elements in order.  In rising order the rows without
a text come first, as many as there are missing elements.
-/

namespace TextColumns

open Std (LawfulEqCmp OrientedCmp ReflCmp TransCmp)

section

variable {α : Type}

/-- What keeps holding once it holds, holds of a last part of the list and of nothing before. -/
theorem eq_filter_append_filter {p : α → Bool} {items : List α} :
    items = (items.filter fun a => !p a) ++ items.filter p ↔
      items.Pairwise fun a b => p a = true → p b = true := by
  constructor
  · intro heq
    have hpairs : ((items.filter fun a => !p a) ++ items.filter p).Pairwise
        fun a b => p a = true → p b = true := by
      rw [List.pairwise_append]
      refine ⟨?_, ?_, fun a _ b hb _ => (List.mem_filter.mp hb).2⟩
      · apply List.pairwise_of_forall_mem_list
        intro a ha b _ hp
        simp [hp] at ha
      · apply List.pairwise_of_forall_mem_list
        intro a _ b hb _
        exact (List.mem_filter.mp hb).2
    rwa [← heq] at hpairs
  · intro hkept
    induction hkept with
    | nil => rfl
    | @cons first rest hfirst _ ih =>
        by_cases hp : p first = true
        · have hall : ∀ a ∈ rest, p a = true := fun a ha => hfirst a ha hp
          have hnone : rest.filter (fun a => !p a) = [] := by simpa using hall
          simp [hp, hnone, List.filter_eq_self.mpr hall]
        · simpa [hp] using ih

theorem drop_countP_eq_filter {p : α → Bool} {items : List α}
    (hkept : items.Pairwise fun a b => p a = true → p b = true) :
    items.drop (items.countP fun a => !p a) = items.filter p := by
  have hparts := congrArg (List.drop (items.countP fun a => !p a))
    (eq_filter_append_filter.mpr hkept)
  rw [hparts, List.countP_eq_length_filter, List.drop_left]

/-- What a stable sort gives: the items in order, and those that are equal as they were. -/
structure StablySorted (compare : α → α → Ordering) (items sorted : List α) : Prop where
  perm : sorted.Perm items
  ordered : sorted.Pairwise fun a b => (compare a b).isLE
  stable : ∀ a, (sorted.filter fun b => compare a b == .eq) =
    items.filter fun b => compare a b == .eq

theorem stablySorted_mergeSort {compare : α → α → Ordering} [TransCmp compare] (items : List α) :
    StablySorted compare items (items.mergeSort fun a b => (compare a b).isLE) := by
  have htrans : ∀ a b c, (compare a b).isLE → (compare b c).isLE → (compare a c).isLE :=
    fun _ _ _ => TransCmp.isLE_trans
  have htotal : ∀ a b, (compare a b).isLE || (compare b a).isLE := by
    intro a b
    rw [@OrientedCmp.eq_swap _ compare _ a]
    cases compare b a <;> rfl
  have hperm := List.mergeSort_perm items fun a b => (compare a b).isLE
  refine ⟨hperm, List.pairwise_mergeSort htrans htotal items, fun a => ?_⟩
  have hequal : (items.filter fun b => compare a b == .eq).Pairwise
      fun b c => (compare b c).isLE := by
    apply List.pairwise_of_forall_mem_list
    intro b hb c hc
    have hb := OrientedCmp.eq_symm (beq_iff_eq.mp (List.mem_filter.mp hb).2)
    have hc := beq_iff_eq.mp (List.mem_filter.mp hc).2
    exact Ordering.isLE_of_eq_eq (TransCmp.eq_trans hb hc)
  have hkept := (List.sublist_mergeSort htrans htotal hequal List.filter_sublist).filter
    fun b => compare a b == .eq
  rw [List.filter_filter] at hkept
  simp only [Bool.and_self] at hkept
  exact (hkept.eq_of_length (hperm.filter _).length_eq.symm).symm

end

namespace SortOrder

variable {order : SortOrder}

instance : TransCmp order.compare where
  eq_swap := by
    intro a b
    match a, b with
    | none, none => rfl
    | none, some _ => rw [compare, compare]; cases order.nullsLast <;> rfl
    | some _, none => rw [compare, compare]; cases order.nullsLast <;> rfl
    | some a, some b =>
        rw [compare, compare]
        cases order.descending <;> exact @OrientedCmp.eq_swap _ Text.compare _ _ _
  isLE_trans := by
    intro a b c hab hbc
    obtain ⟨descending, nullsLast⟩ := order
    match a, b, c with
    | none, _, none => rfl
    | none, none, some _ => exact hbc
    | none, some _, some _ => exact hab
    | some _, none, none => exact hab
    | some _, some _, none => exact hbc
    | some _, none, some _ =>
        -- A missing element cannot stand on both sides of the others.
        cases nullsLast with
        | false => cases hab
        | true => cases hbc
    | some a, some b, some c =>
        cases descending with
        | false => exact @TransCmp.isLE_trans _ Text.compare _ a b c hab hbc
        | true => exact @TransCmp.isLE_trans _ Text.compare _ c b a hbc hab

instance : LawfulEqCmp order.compare where
  compare_self := by
    intro a
    match a with
    | none => rfl
    | some a => rw [compare, ite_self]; exact @ReflCmp.compare_self _ Text.compare _ a
  eq_of_compare := by
    obtain ⟨descending, nullsLast⟩ := order
    intro a b heq
    match a, b with
    | none, none => rfl
    | none, some _ => cases nullsLast <;> cases heq
    | some _, none => cases nullsLast <;> cases heq
    | some a, some b =>
        cases descending with
        | false => exact congrArg some (@LawfulEqCmp.eq_of_compare _ Text.compare _ a b heq)
        | true => exact congrArg some (@LawfulEqCmp.eq_of_compare _ Text.compare _ b a heq).symm

def onRows (order : SortOrder) (store : Store) (i j : Nat) : Ordering :=
  order.compare (store.text? i) (store.text? j)

instance (store : Store) : TransCmp (order.onRows store) where
  eq_swap := fun {_ _} => @OrientedCmp.eq_swap _ order.compare _ _ _
  isLE_trans := fun {_ _ _} => @TransCmp.isLE_trans _ order.compare _ _ _ _

theorem onRows_eq_eq {store : Store} {i j : Nat} :
    order.onRows store i j = .eq ↔ store.text? i = store.text? j :=
  @LawfulEqCmp.compare_eq_iff_eq _ order.compare _ _ _

theorem compare_ascending (a b : Option String) :
    ascending.compare a b = Text.compareOptional a b := by
  cases a <;> cases b <;> rfl

end SortOrder

theorem stablySorted_sortedRows (store : Store) (order : SortOrder) :
    StablySorted (order.onRows store) (List.range store.size) (sortedRows store order) := by
  have hle : ∀ o : Ordering, (o != .gt) = o.isLE := by
    intro o
    cases o <;> rfl
  have hrows : sortedRows store order =
      (List.range store.size).mergeSort fun i j => (order.onRows store i j).isLE := by
    rw [sortedRows]
    simp only [Store.text?_eq, hle]
    rfl
  rw [hrows]
  exact stablySorted_mergeSort _

theorem sortedRows_perm (store : Store) (order : SortOrder) :
    (sortedRows store order).Perm (List.range store.size) :=
  (stablySorted_sortedRows store order).perm

theorem mem_sortedRows {store : Store} {order : SortOrder} {row : Nat} :
    row ∈ sortedRows store order ↔ row < store.size := by
  rw [(sortedRows_perm store order).mem_iff, List.mem_range]

theorem nodup_sortedRows (store : Store) (order : SortOrder) : (sortedRows store order).Nodup :=
  (sortedRows_perm store order).nodup_iff.mpr List.nodup_range

theorem pairwise_sortedRows (store : Store) (order : SortOrder) :
    (sortedRows store order).Pairwise fun i j =>
      (order.compare (store.text? i) (store.text? j)).isLE :=
  (stablySorted_sortedRows store order).ordered

/-- The rows of a store that have a text, in rising order of their texts. -/
def filledRows (store : Store) : List Nat :=
  (sortedRows store .ascending).filter fun row => (store.text? row).isSome

theorem Store.Valid.drop_sortedRows {store : Store} (hvalid : store.Valid) :
    (sortedRows store .ascending).drop store.nullCount = filledRows store := by
  have hkept : (sortedRows store .ascending).Pairwise fun i j =>
      (store.text? i).isSome = true → (store.text? j).isSome = true := by
    refine (pairwise_sortedRows store .ascending).imp fun {i j} hle hsome => ?_
    rw [SortOrder.compare_ascending] at hle
    cases hj : store.text? j with
    | some _ => rfl
    | none =>
        obtain ⟨text, hi⟩ := Option.isSome_iff_exists.mp hsome
        rw [hi, hj] at hle
        cases hle
  have hcount : store.nullCount =
      (sortedRows store .ascending).countP fun row => !(store.text? row).isSome := by
    rw [hvalid.nullCount_eq_countP, toList_texts, List.countP_map,
      (sortedRows_perm store .ascending).countP_eq]
    exact List.countP_congr fun row _ => by simp
  rw [hcount, drop_countP_eq_filter hkept, filledRows]

theorem mem_filledRows {store : Store} {row : Nat} :
    row ∈ filledRows store ↔ ∃ text, store.text? row = some text := by
  rw [filledRows, List.mem_filter, mem_sortedRows, Option.isSome_iff_exists]
  exact and_iff_right_of_imp fun ⟨text, htext⟩ => Store.lt_size_of_text? htext

theorem nodup_filledRows (store : Store) : (filledRows store).Nodup :=
  (nodup_sortedRows store .ascending).filter _

theorem pairwise_filledRows (store : Store) :
    (filledRows store).Pairwise fun i j =>
      (Text.compareOptional (store.text? i) (store.text? j)).isLE := by
  refine ((pairwise_sortedRows store .ascending).filter _).imp fun {i j} hle => ?_
  rwa [SortOrder.compare_ascending] at hle

end TextColumns
