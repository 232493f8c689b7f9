import TextColumns.Proofs.Order
import TextColumns.Proofs.Store.Reading

/-!
Which rows a sort gives.  Every stable sort by the order of a store gives the same ones: the rows
without a text in one block, the others by their bytes, and equal ones as they stood.  A store that
is sorted is not changed by sorting it again.
-/

namespace TextColumns

open Std (OrientedCmp ReflCmp TransCmp)

variable {store result : Store} {order : SortOrder} {rows others : List Nat} {i j : Nat}

def missingRows (store : Store) : List Nat :=
  (List.range store.size).filter fun row => (store.text? row).isNone

namespace SortOrder

def Keeps (order : SortOrder) (first second : String) : Prop :=
  if order.descending then second.toByteArray.data.toList ≤ first.toByteArray.data.toList
  else first.toByteArray.data.toList ≤ second.toByteArray.data.toList

/-- Whether a row is in the last of the two blocks, the rows with a text and those without. -/
def inLastBlock (order : SortOrder) (store : Store) (row : Nat) : Bool :=
  (store.text? row).isNone == order.nullsLast

theorem isLE_compare_some {a b : String} :
    (order.compare (some a) (some b)).isLE ↔ order.Keeps a b := by
  rw [compare, Keeps]
  split <;> exact Text.isLE_compare

theorem isLE_onRows :
    (order.onRows store i j).isLE ↔
      (order.inLastBlock store i = true → order.inLastBlock store j = true) ∧
        ∀ a b, store.text? i = some a → store.text? j = some b → order.Keeps a b := by
  rw [onRows, inLastBlock, inLastBlock]
  cases hi : store.text? i with
  | none => cases hj : store.text? j <;> cases hnulls : order.nullsLast <;> simp [compare, hnulls]
  | some a =>
      cases hj : store.text? j with
      | none => cases hnulls : order.nullsLast <;> simp [compare, hnulls]
      | some b => simp [isLE_compare_some]

end SortOrder

/-- What the rows of a sorted store are: all of them, those without a text in one block and in their
order, the others in the order of their bytes, and those with the same text as they stood. -/
structure Sorts (store : Store) (order : SortOrder) (rows : List Nat) : Prop where
  perm : rows.Perm (List.range store.size)
  block : rows =
    if order.nullsLast then (rows.filter fun row => (store.text? row).isSome) ++ missingRows store
    else missingRows store ++ rows.filter fun row => (store.text? row).isSome
  ordered : rows.Pairwise fun i j => ∀ a b,
    store.text? i = some a → store.text? j = some b → order.Keeps a b
  stable : rows.Pairwise fun i j => store.text? i = store.text? j → i < j

/-- Whether a row comes before another one in every stable sort. -/
structure Precedes (store : Store) (order : SortOrder) (i j : Nat) : Prop where
  le : (order.onRows store i j).isLE
  lt : store.text? i = store.text? j → i < j

theorem Precedes.asymm (hprecedes : Precedes store order i j) : ¬ Precedes store order j i := by
  intro hfollows
  have htexts := SortOrder.onRows_eq_eq.mp (OrientedCmp.isLE_antisymm hprecedes.le hfollows.le)
  exact Nat.lt_asymm (hprecedes.lt htexts) (hfollows.lt htexts.symm)

theorem eq_of_pairwise_precedes (hperm : rows.Perm others)
    (hrows : rows.Pairwise (Precedes store order))
    (hothers : others.Pairwise (Precedes store order)) : rows = others := by
  apply hperm.eq_of_pairwise _ hrows hothers
  intro i j _ _ hprecedes hfollows
  exact absurd hfollows hprecedes.asymm

theorem StablySorted.precedes
    (hsorted : StablySorted (order.onRows store) (List.range store.size) rows) :
    rows.Pairwise (Precedes store order) := by
  have hstable : rows.Pairwise fun i j => store.text? i = store.text? j → i < j := by
    rw [List.pairwise_iff_forall_sublist]
    intro i j hpair htexts
    -- Equal rows pass the same filter, which leaves them as they stand in the range.
    have hkept := hpair.filter fun row => order.onRows store i row == .eq
    have hboth : ([i, j].filter fun row => order.onRows store i row == .eq) = [i, j] := by
      simp [SortOrder.onRows_eq_eq, htexts]
    rw [hboth, hsorted.stable i] at hkept
    exact List.pairwise_iff_forall_sublist.mp List.pairwise_lt_range
      (hkept.trans List.filter_sublist)
  exact hsorted.ordered.imp₂ (fun i j hle hlt => ⟨hle, hlt⟩) hstable

theorem stablySorted_iff :
    StablySorted (order.onRows store) (List.range store.size) rows ↔
      rows = sortedRows store order := by
  have hsorted := stablySorted_sortedRows store order
  constructor
  · intro hrows
    exact eq_of_pairwise_precedes (hrows.perm.trans hsorted.perm.symm) hrows.precedes
      hsorted.precedes
  · rintro rfl
    exact hsorted

theorem filter_isNone_eq_missingRows (hperm : rows.Perm (List.range store.size))
    (hstable : rows.Pairwise fun i j => store.text? i = store.text? j → i < j) :
    (rows.filter fun row => (store.text? row).isNone) = missingRows store := by
  have hrising : (rows.filter fun row => (store.text? row).isNone).Pairwise (· < ·) := by
    apply (hstable.filter _).imp_of_mem
    intro i j hi hj hlt
    have hi := (List.mem_filter.mp hi).2
    have hj := (List.mem_filter.mp hj).2
    rw [Option.isNone_iff_eq_none] at hi hj
    exact hlt (hi.trans hj.symm)
  apply (hperm.filter _).eq_of_pairwise _ hrising (List.pairwise_lt_range.filter _)
  intro i j _ _ hlt hgt
  exact absurd hgt (Nat.lt_asymm hlt)

theorem block_iff
    (hmissing : (rows.filter fun row => (store.text? row).isNone) = missingRows store) :
    (rows = if order.nullsLast then
        (rows.filter fun row => (store.text? row).isSome) ++ missingRows store
      else missingRows store ++ rows.filter fun row => (store.text? row).isSome) ↔
      rows.Pairwise fun i j => order.inLastBlock store i = true →
        order.inLastBlock store j = true := by
  rw [← eq_filter_append_filter, ← hmissing]
  cases hnulls : order.nullsLast with
  | false =>
      have hlast : order.inLastBlock store = fun row => (store.text? row).isSome := by
        funext row
        simp [SortOrder.inLastBlock, hnulls]
      simp [hlast]
  | true =>
      have hlast : order.inLastBlock store = fun row => (store.text? row).isNone := by
        funext row
        simp [SortOrder.inLastBlock, hnulls]
      simp [hlast]

theorem sorts_iff_precedes :
    Sorts store order rows ↔
      rows.Perm (List.range store.size) ∧ rows.Pairwise (Precedes store order) := by
  constructor
  · intro hsorts
    -- The block says what the order of two rows is when only one of them has a text.
    have hmissing := filter_isNone_eq_missingRows hsorts.perm hsorts.stable
    have hblocks := (block_iff hmissing).mp hsorts.block
    refine ⟨hsorts.perm, ((hblocks.and hsorts.ordered).and hsorts.stable).imp ?_⟩
    exact fun {i j} hpair => ⟨SortOrder.isLE_onRows.mpr hpair.1, hpair.2⟩
  · rintro ⟨hperm, hpairs⟩
    have hstable := hpairs.imp fun {i j} hprecedes => hprecedes.lt
    have hle := hpairs.imp fun {i j} hprecedes => SortOrder.isLE_onRows.mp hprecedes.le
    obtain ⟨hblocks, hordered⟩ := List.pairwise_and_iff.mp hle
    exact ⟨hperm, (block_iff (filter_isNone_eq_missingRows hperm hstable)).mpr hblocks, hordered,
      hstable⟩

theorem sorts_sortedRows (store : Store) (order : SortOrder) :
    Sorts store order (sortedRows store order) :=
  have hsorted := stablySorted_sortedRows store order
  sorts_iff_precedes.mpr ⟨hsorted.perm, hsorted.precedes⟩

theorem sorts_iff : Sorts store order rows ↔ rows = sortedRows store order := by
  constructor
  · intro hsorts
    obtain ⟨hperm, hprecedes⟩ := sorts_iff_precedes.mp hsorts
    have hsorted := stablySorted_sortedRows store order
    exact eq_of_pairwise_precedes (hperm.trans hsorted.perm.symm) hprecedes hsorted.precedes
  · rintro rfl
    exact sorts_sortedRows store order

namespace Store

theorem Valid.length_missingRows (hvalid : store.Valid) :
    (missingRows store).length = store.nullCount := by
  rw [hvalid.nullCount_eq_countP, toList_texts, List.countP_map, List.countP_eq_length_filter]
  rfl

theorem Valid.take_sortedRows (hvalid : store.Valid) :
    (sortedRows store .ascending).take store.nullCount = missingRows store := by
  have hblock := (sorts_sortedRows store .ascending).block
  rw [if_neg (by decide)] at hblock
  rw [hblock, ← hvalid.length_missingRows, List.take_left]

theorem Valid.sorted_eq (hvalid : store.Valid) (order : SortOrder) :
    sorted store order = ofTexts ((sortedRows store order).map store.text?) :=
  hvalid.gather_eq fun _ => mem_sortedRows.mp

theorem sortedTexts_perm (store : Store) (order : SortOrder) :
    ((sortedRows store order).map store.text?).Perm store.texts.toList := by
  rw [toList_texts]
  exact (sortedRows_perm store order).map _

theorem sortedRows_eq_range
    (hordered : store.texts.toList.Pairwise fun a b => (order.compare a b).isLE) :
    sortedRows store order = List.range store.size := by
  rw [toList_texts, List.pairwise_map] at hordered
  have hprecedes : (List.range store.size).Pairwise (Precedes store order) :=
    hordered.imp₂ (fun i j hle hlt => ⟨hle, fun _ => hlt⟩) List.pairwise_lt_range
  exact (sorts_iff.mp (sorts_iff_precedes.mpr ⟨.refl _, hprecedes⟩)).symm

theorem Valid.sorted_sorted (hvalid : store.Valid) (order : SortOrder) :
    (do sorted (← sorted store order) order) = sorted store order := by
  cases hsorted : sorted store order with
  | error failure => rfl
  | ok once =>
      rw [hvalid.sorted_eq] at hsorted
      have htexts := texts_ofTexts hsorted
      have hordered : once.texts.toList.Pairwise fun a b => (order.compare a b).isLE := by
        rw [htexts, List.pairwise_map]
        exact pairwise_sortedRows store order
      have honce : once.Valid := valid_of_build hsorted
      change sorted once order = .ok once
      rw [honce.sorted_eq, sortedRows_eq_range hordered, ← toList_texts, htexts, hsorted]

end Store

/-- The order of elements is total, whichever it is, and all stable sorts by it give the same rows,
which are those that `Sorts` describes.  A store can be sorted if its texts fit into one, and a
second time it stays as it is. -/
theorem sorts_stably (hvalid : store.Valid) (order : SortOrder) :
    (∀ a b c, order.compare a a = .eq ∧ order.compare b a = (order.compare a b).swap ∧
      ((order.compare a b).isLE ∨ (order.compare b a).isLE) ∧
      ((order.compare a b).isLE → (order.compare b c).isLE → (order.compare a c).isLE)) ∧
    (∀ rows, StablySorted (order.onRows store) (List.range store.size) rows ↔
      rows = sortedRows store order) ∧
    (∀ rows, Sorts store order rows ↔ rows = sortedRows store order) ∧
    (sortedRows store .ascending).take store.nullCount = missingRows store ∧
    ((∃ result, sorted store order = .ok result) ↔ FitsLimits store.texts.toList) ∧
    Store.Builds ((sortedRows store order).map store.text?) (sorted store order) ∧
    (do sorted (← sorted store order) order) = sorted store order := by
  refine ⟨?_, fun rows => stablySorted_iff, fun rows => sorts_iff, hvalid.take_sortedRows, ?_, ?_,
    hvalid.sorted_sorted order⟩
  · intro a b c
    refine ⟨ReflCmp.compare_self, OrientedCmp.eq_swap, ?_, TransCmp.isLE_trans⟩
    rw [@OrientedCmp.eq_swap _ order.compare _ b a]
    cases order.compare a b <;> decide
  · rw [hvalid.sorted_eq, Store.ofTexts_ok_iff, fitsLimits_perm (store.sortedTexts_perm order)]
  · rw [hvalid.sorted_eq]
    exact Store.builds_ofTexts _

/-- In falling order, with equal texts and with missing ones in front. -/
theorem sorts_stably_descending :
    ∃ store, Store.ofTexts [some "b", none, some "a", some "b", none] = .ok store ∧
      sortedRows store ⟨true, false⟩ = [1, 4, 0, 3, 2] ∧
      ∃ result, sorted store ⟨true, false⟩ = .ok result ∧
        result.texts.toList = [none, none, some "b", some "b", some "a"] := by
  obtain ⟨store, hstore⟩ := Store.ofTexts_ok_iff.mpr
    (@fitsLimits_of_total [some "b", none, some "a", some "b", none] (by decide))
  have htexts := Store.texts_ofTexts hstore
  have hsize : store.size = 5 := by
    rw [← store.length_toList_texts, htexts]
    rfl
  have htext : ∀ row, store.text? row =
      [some "b", none, some "a", some "b", none][row]?.getD none := by
    intro row
    rw [store.text?_eq_getD, htexts]
  obtain ⟨-, -, hrows, -, -, hbuilds, -⟩ :=
    sorts_stably (Store.valid_of_build hstore) ⟨true, false⟩
  have hsorted : sortedRows store ⟨true, false⟩ = [1, 4, 0, 3, 2] := by
    refine ((hrows _).mp ⟨?_, ?_, ?_, ?_⟩).symm
    · rw [hsize]
      decide
    · simp only [missingRows, hsize, htext]
      decide
    · have hle : "a".toByteArray.data.toList ≤ "b".toByteArray.data.toList := by decide
      simpa [htext, SortOrder.Keeps] using hle
    · simp only [htext]
      decide
  rw [hsorted] at hbuilds
  simp only [List.map_cons, List.map_nil, htext] at hbuilds
  exact ⟨store, hstore, hsorted, hbuilds.stored (fitsLimits_of_total (by decide))⟩

end TextColumns
