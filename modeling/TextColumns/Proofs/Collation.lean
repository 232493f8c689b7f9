import TextColumns.Proofs.Propagation
import TextColumns.Proofs.Sorting
import TextColumns.Proofs.Text.Scalars

/-!
Comparing, sorting and keeping keys by scalar values.  Each of them looks at bytes only, and orders
texts lexicographically by their characters all the same.
-/

namespace TextColumns

open Text (scalars)

variable {store : Store} {a b : String}

namespace Text

/-- Whether an order of texts is the lexicographic order of their scalar values. -/
structure OrdersScalars (order : String → String → Ordering) : Prop where
  eq_lt : ∀ a b, order a b = .lt ↔ scalars a < scalars b
  eq_eq : ∀ a b, order a b = .eq ↔ scalars a = scalars b
  eq_gt : ∀ a b, order a b = .gt ↔ scalars b < scalars a

theorem ordersScalars_compare : OrdersScalars compare where
  eq_lt := fun a b => by rw [compare_eq_scalars, compare_toList_eq_lt]
  eq_eq := fun a b => by rw [compare_eq_scalars, Std.LawfulEqOrd.compare_eq_iff_eq]
  eq_gt := fun a b => by
    rw [compare_eq_scalars, Std.OrientedOrd.eq_swap, Ordering.swap_eq_gt, compare_toList_eq_lt]

end Text

namespace Comparison

def Relates (comparison : Comparison) (a b : List Nat) : Prop :=
  match comparison with
  | .equal => a = b
  | .notEqual => a ≠ b
  | .less => a < b
  | .lessOrEqual => a < b ∨ a = b
  | .greater => b < a
  | .greaterOrEqual => b < a ∨ a = b
  | .isNull | .isNotNull => False

instance (comparison : Comparison) (a b : List Nat) : Decidable (comparison.Relates a b) := by
  unfold Relates
  cases comparison <;> infer_instance

theorem holds_iff {comparison : Comparison} :
    comparison.holds (Text.compare a b) = true ↔ comparison.Relates (scalars a) (scalars b) := by
  have horders := Text.ordersScalars_compare
  have hnotGreater : ∀ order : Ordering, order ≠ .gt ↔ order = .lt ∨ order = .eq := by decide
  have hnotLess : ∀ order : Ordering, order ≠ .lt ↔ order = .gt ∨ order = .eq := by decide
  cases comparison with
  | equal => rw [holds, beq_iff_eq]; exact horders.eq_eq a b
  | notEqual => rw [holds, bne_iff_ne]; exact (horders.eq_eq a b).not
  | less => rw [holds, beq_iff_eq]; exact horders.eq_lt a b
  | lessOrEqual => rw [holds, bne_iff_ne, hnotGreater, horders.eq_lt, horders.eq_eq]; rfl
  | greater => rw [holds, beq_iff_eq]; exact horders.eq_gt a b
  | greaterOrEqual => rw [holds, bne_iff_ne, hnotLess, horders.eq_gt, horders.eq_eq]; rfl
  | isNull => exact iff_of_false nofun id
  | isNotNull => exact iff_of_false nofun id

end Comparison

theorem get?_compareText (hvalid : store.Valid) {comparison : Comparison}
    (hasks : comparison.asksForNull? = none) (text : String) (row : Nat) :
    (compareText store comparison text).get? row = (store.text? row).map fun element =>
      decide (comparison.Relates (scalars element) (scalars text)) := by
  rw [compareText, hasks]
  refine (Measure.get?_answers hvalid _ row).trans (Option.map_congr fun element _ => ?_)
  rw [Bool.eq_iff_iff, decide_eq_true_iff]
  exact Comparison.holds_iff

theorem bothHold_eq (comparison : Comparison) (left right : Option String) :
    bothHold comparison left right = (left.any fun a => right.any fun b =>
      decide (comparison.Relates (scalars a) (scalars b))) := by
  cases left with
  | none => rfl
  | some a =>
      cases right with
      | none => rfl
      | some b =>
          rw [Bool.eq_iff_iff, Option.any_some, Option.any_some, decide_eq_true_iff]
          exact Comparison.holds_iff

theorem getElem?_zipWith_texts {left right : Store} (hsize : left.size = right.size) {row : Nat}
    (hrow : row < left.size) (f : Option String → Option String → α) :
    (left.texts.zipWith f right.texts)[row]? = some (f (left.text? row) (right.text? row)) := by
  rw [← Array.getElem?_toList, Array.toList_zipWith, List.getElem?_zipWith,
    left.getElem?_toList_texts hrow, right.getElem?_toList_texts (hsize ▸ hrow)]

theorem compareRows_eq {left right : Store} (hleft : left.Valid) (hright : right.Valid)
    (hsize : left.size = right.size) {comparison : Comparison}
    (hasks : comparison.asksForNull? = none) :
    ∃ column, compareRows left right comparison = .ok column ∧ ∀ row,
      column.get? row = (left.text? row).bind fun a => (right.text? row).map fun b =>
        decide (comparison.Relates (scalars a) (scalars b)) := by
  rw [compareRows, if_neg (not_not.mpr hsize), hasks]
  refine ⟨_, rfl, fun row => ?_⟩
  have hmarks : (left.texts.map (·.isSome)).size = (right.texts.map (·.isSome)).size := by
    rw [Array.size_map, Array.size_map, Store.size_texts, Store.size_texts, hsize]
  rw [hleft.validity_eq, hright.validity_eq, Validity.merge_ofMarks hmarks, Array.zipWith_map,
    Column.get?]
  rcases Nat.lt_or_ge row left.size with hrow | hrow
  · rw [Validity.isValid_ofMarks (getElem?_zipWith_texts hsize hrow _),
      getElem?_zipWith_texts hsize hrow, bothHold_eq]
    cases left.text? row with
    | none => rfl
    | some a => cases right.text? row <;> rfl
  · rw [Array.getElem?_eq_none (by rw [Array.size_zipWith, Store.size_texts]; omega), ite_self,
      Store.text?_eq_none_of_size_le hrow, Option.bind_none]

namespace SortOrder

theorem ordersScalars (order : SortOrder) :
    if order.descending then Text.OrdersScalars fun a b => order.compare (some b) (some a)
    else Text.OrdersScalars fun a b => order.compare (some a) (some b) := by
  simp only [compare]
  split <;> exact Text.ordersScalars_compare

end SortOrder

theorem sortedRows_scalars (store : Store) (order : SortOrder) :
    (sortedRows store order).Pairwise fun i j => ∀ a b,
      store.text? i = some a → store.text? j = some b →
        if order.descending then ¬ scalars a < scalars b else ¬ scalars b < scalars a := by
  refine (pairwise_sortedRows store order).imp fun {i j} hle a b ha hb => ?_
  have hcompare := Ordering.isLE_iff_ne_gt.mp hle
  have horders := Text.ordersScalars_compare
  rw [ha, hb, SortOrder.compare] at hcompare
  by_cases hdescending : order.descending = true
  · rw [if_pos hdescending] at hcompare ⊢
    exact (horders.eq_gt b a).not.mp hcompare
  · rw [if_neg hdescending] at hcompare ⊢
    exact (horders.eq_gt a b).not.mp hcompare

namespace CategoryTable

def RiseByScalars (keys : List (Option String)) : Prop :=
  ∃ texts : List String, keys = texts.map some ∧ (texts.map scalars).Pairwise (· < ·)

theorem riseByScalars_iff {keys : List (Option String)} :
    RiseByScalars keys ↔ Rising keys ∧ none ∉ keys := by
  have hrising (texts : List String) :
      Rising (texts.map some) ↔ (texts.map scalars).Pairwise (· < ·) := by
    rw [Rising, List.pairwise_map, List.pairwise_map]
    exact List.Pairwise.iff Text.ordersScalars_compare.eq_lt
  constructor
  · rintro ⟨texts, rfl, htexts⟩
    exact ⟨(hrising texts).mpr htexts, by simp⟩
  · rintro ⟨hkeys, hnone⟩
    have htexts : (keys.filterMap id).map some = keys := by
      rw [List.map_filterMap]
      refine (List.filterMap_congr fun key hkey => ?_).trans List.filterMap_some
      cases key with
      | none => exact absurd hkey hnone
      | some text => rfl
    exact ⟨_, htexts.symm, (hrising _).mp (by rwa [htexts])⟩

theorem check_iff_scalars {table : CategoryTable} (hvalid : table.keys.Valid) :
    table.check = .ok () ↔ RiseByScalars table.keys.texts.toList ∧
      ∀ code ∈ table.codes, CodeInside table.keyCount code := by
  rw [check_eq_ok_iff hvalid, riseByScalars_iff, Array.mem_toList_iff]
  constructor
  · intro hchecked
    exact ⟨⟨hchecked.keys.rising, hchecked.keys.ne_none⟩, hchecked.code_inside⟩
  · rintro ⟨⟨hrising, hnone⟩, hinside⟩
    exact ⟨⟨hvalid, hrising, hnone⟩, hinside⟩

theorem Encodes.riseByScalars {table : CategoryTable} (hencodes : table.Encodes store) :
    RiseByScalars table.keys.texts.toList := by
  rw [riseByScalars_iff, Array.mem_toList_iff]
  exact ⟨hencodes.rising, hencodes.sortedKeys.ne_none⟩

end CategoryTable

/-- All that compares texts by their bytes has them in the lexicographic order of their scalar
values, and texts are equal in it only if they have the same ones.  It is a total order with a
missing text below all others; comparisons answer by it, sorted rows and the keys of tables stand in
it. -/
theorem ordered_by_scalars (hvalid : store.Valid) :
    (∀ a b, scalars a = scalars b ↔ a = b) ∧
    (∀ a b, Text.compare a b = Ord.compare (scalars a) (scalars b)) ∧
    Text.OrdersScalars Text.compare ∧
    (Std.TransCmp Text.compareOptional ∧ Std.LawfulEqCmp Text.compareOptional ∧
      (∀ a b, (Text.compareOptional a b).isLE ∨ (Text.compareOptional b a).isLE) ∧
      (∀ text, Text.compareOptional none (some text) = .lt) ∧
      Text.OrdersScalars fun a b => Text.compareOptional (some a) (some b)) ∧
    (∀ comparison : Comparison, comparison.asksForNull? = none →
      (∀ text row, (compareText store comparison text).get? row =
        (store.text? row).map fun element =>
          decide (comparison.Relates (scalars element) (scalars text))) ∧
      ∀ right : Store, right.Valid → store.size = right.size →
        ∃ column, compareRows store right comparison = .ok column ∧ ∀ row,
          column.get? row = (store.text? row).bind fun a => (right.text? row).map fun b =>
            decide (comparison.Relates (scalars a) (scalars b))) ∧
    (∀ order : SortOrder,
      (if order.descending then Text.OrdersScalars fun a b => order.compare (some b) (some a)
        else Text.OrdersScalars fun a b => order.compare (some a) (some b)) ∧
      (sortedRows store order).Perm (List.range store.size) ∧
      (sortedRows store order).Pairwise fun i j => ∀ a b,
        store.text? i = some a → store.text? j = some b →
          if order.descending then ¬ scalars a < scalars b else ¬ scalars b < scalars a) ∧
    (∀ codes, (CategoryTable.mk store codes).check = .ok () ↔
      CategoryTable.RiseByScalars store.texts.toList ∧
        ∀ code ∈ codes, CategoryTable.CodeInside store.size code) ∧
    ∀ table, CategoryTable.ofStore store = .ok table →
      CategoryTable.RiseByScalars table.keys.texts.toList ∧
        ∀ key, key ∈ table.keys.texts ↔ key ∈ store.texts ∧ key ≠ none := by
  refine ⟨fun _ _ => Text.scalars_inj, Text.compare_eq_scalars, Text.ordersScalars_compare,
    ⟨inferInstance, inferInstance, ?_, fun _ => rfl, Text.ordersScalars_compare⟩, ?_, ?_, ?_, ?_⟩
  · intro a b
    rw [@Std.OrientedCmp.eq_swap _ Text.compareOptional _ b a]
    cases Text.compareOptional a b <;> decide
  · intro comparison hasks
    exact ⟨get?_compareText hvalid hasks,
      fun right hright hsize => compareRows_eq hvalid hright hsize hasks⟩
  · intro order
    exact ⟨order.ordersScalars, sortedRows_perm store order, sortedRows_scalars store order⟩
  · intro codes
    exact @CategoryTable.check_iff_scalars ⟨store, codes⟩ hvalid
  · intro table htable
    have hencodes := CategoryTable.encodes_of_ofStore hvalid htable
    exact ⟨hencodes.riseByScalars, hencodes.mem_keys⟩

/-- Characters whose encodings take one to four bytes, in the order of their numbers. -/
theorem ordered_by_scalars_widths :
    ∃ store, Store.ofTexts [some "z", some "é", some "\uffff", some "😀"] = .ok store ∧
      store.Valid ∧ Text.compare "\uffff" "😀" = .lt ∧ Text.compare "z" "zz" = .lt ∧
      (compareText store .less "\uffff").get? 1 = some true ∧
      (compareText store .less "\uffff").get? 3 = some false ∧
      (CategoryTable.mk store #[3, -1, 0]).check = .ok () := by
  obtain ⟨store, hstore, hvalid, htexts⟩ :=
    @Store.exists_of_total [some "z", some "é", some "\uffff", some "😀"] (by decide)
  have htext : ∀ row, store.text? row =
      [some "z", some "é", some "\uffff", some "😀"][row]?.getD none := by
    intro row
    rw [store.text?_eq_getD, htexts]
  obtain ⟨-, hcompare, -, -, hcomparison, -, hcheck, -⟩ := ordered_by_scalars hvalid
  obtain ⟨hless, -⟩ := hcomparison .less rfl
  refine ⟨store, hstore, hvalid, ?_, ?_, ?_, ?_, ?_⟩
  · rw [hcompare]
    decide
  · rw [hcompare]
    decide
  · rw [hless, htext]
    decide
  · rw [hless, htext]
    decide
  · have hsize : store.size = 4 := by
      rw [← store.length_toList_texts, htexts]
      rfl
    rw [hcheck, htexts, hsize]
    exact ⟨⟨["z", "é", "\uffff", "😀"], rfl, by decide⟩,
      CategoryTable.firstOutside?_eq_none.mp (by decide)⟩

end TextColumns
