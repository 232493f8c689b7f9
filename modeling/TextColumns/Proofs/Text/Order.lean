import TextColumns.Text.Position

/-!
The order of texts.  Bytes are compared like lists of numbers, so texts are in a total order in
which only equal texts are equal; missing texts stand below all others.
-/

namespace TextColumns.Text

open Std (LawfulEqCmp OrientedCmp ReflCmp TransCmp)

theorem drop_eq_getElem_cons {bytes : ByteArray} {i : Nat} (hi : i < bytes.size) :
    bytes.data.toList.drop i = bytes[i] :: bytes.data.toList.drop (i + 1) :=
  List.drop_eq_getElem_cons (Array.length_toList ▸ hi)

theorem drop_eq_nil {bytes : ByteArray} {i : Nat} (hi : ¬ i < bytes.size) :
    bytes.data.toList.drop i = [] :=
  List.drop_eq_nil_of_le (Nat.le_of_not_lt hi)

theorem compareFrom_eq (a b : ByteArray) (i : Nat) :
    compareFrom a b i = Ord.compare (a.data.toList.drop i) (b.data.toList.drop i) := by
  fun_induction compareFrom a b i with
  | case1 i ha hb hlt =>
      rw [drop_eq_getElem_cons ha, drop_eq_getElem_cons hb, List.compare_cons_cons,
        Std.compare_eq_lt.mpr hlt]
      rfl
  | case2 i ha hb _ hgt =>
      rw [drop_eq_getElem_cons ha, drop_eq_getElem_cons hb, List.compare_cons_cons,
        Std.compare_eq_gt.mpr hgt]
      rfl
  | case3 i ha hb hlt hgt ih =>
      have heq : a[i] = b[i] := UInt8.le_antisymm (UInt8.not_lt.mp hgt) (UInt8.not_lt.mp hlt)
      rw [drop_eq_getElem_cons ha, drop_eq_getElem_cons hb, List.compare_cons_cons, heq,
        Std.ReflOrd.compare_self, ih]
      rfl
  | case4 i ha hb => rw [drop_eq_getElem_cons ha, drop_eq_nil hb, List.compare_cons_nil]
  | case5 i ha hb => rw [drop_eq_nil ha, drop_eq_getElem_cons hb, List.compare_nil_cons]
  | case6 i ha hb => rw [drop_eq_nil ha, drop_eq_nil hb, Std.ReflOrd.compare_self]

theorem compareBytes_eq (a b : ByteArray) :
    compareBytes a b = Ord.compare a.data.toList b.data.toList :=
  compareFrom_eq a b 0

theorem compare_eq (a b : String) :
    compare a b = Ord.compare a.toByteArray.data.toList b.toByteArray.data.toList :=
  compareBytes_eq a.toByteArray b.toByteArray

theorem compare_toList_eq_lt [Ord α] [LT α] [LE α] [Std.LawfulOrderOrd α] [Std.LawfulOrderLT α]
    [Std.LawfulEqOrd α] {a b : List α} : Ord.compare a b = .lt ↔ a < b := by
  induction a generalizing b with
  | nil => cases b <;> simp
  | cons x a ih =>
      cases b with
      | nil => simp
      | cons y b =>
          rw [List.compare_cons_cons, Ordering.then_eq_lt, Std.compare_eq_lt,
            Std.LawfulEqOrd.compare_eq_iff_eq, ih, List.cons_lt_cons_iff]

theorem compareBytes_eq_lt {a b : ByteArray} :
    compareBytes a b = .lt ↔ a.data.toList < b.data.toList := by
  rw [compareBytes_eq, compare_toList_eq_lt]

instance : TransCmp compareBytes where
  eq_swap := by
    intro a b
    rw [compareBytes_eq, compareBytes_eq]
    exact OrientedCmp.eq_swap
  isLE_trans := by
    intro a b c hab hbc
    rw [compareBytes_eq] at hab hbc ⊢
    exact TransCmp.isLE_trans hab hbc

instance : LawfulEqCmp compareBytes where
  compare_self := by
    intro a
    rw [compareBytes_eq]
    exact ReflCmp.compare_self
  eq_of_compare := by
    intro a b heq
    rw [compareBytes_eq] at heq
    exact ByteArray.ext (Array.toList_inj.mp (LawfulEqCmp.eq_of_compare heq))

instance : TransCmp compare where
  eq_swap := fun {_ _} => @OrientedCmp.eq_swap _ compareBytes _ _ _
  isLE_trans := fun {_ _ _} => @TransCmp.isLE_trans _ compareBytes _ _ _ _

instance : LawfulEqCmp compare where
  compare_self := fun {_} => @ReflCmp.compare_self _ compareBytes _ _
  eq_of_compare := fun heq => String.toByteArray_inj.mp (LawfulEqCmp.eq_of_compare heq)

theorem isLE_compare {a b : String} :
    (compare a b).isLE ↔ a.toByteArray.data.toList ≤ b.toByteArray.data.toList := by
  rw [← List.not_lt, ← compareBytes_eq_lt, ← compare, @OrientedCmp.eq_swap _ compare _ a]
  cases compare b a <;> decide

instance : OrientedCmp compareOptional where
  eq_swap := by
    intro a b
    match a, b with
    | none, none => rfl
    | none, some _ => rfl
    | some _, none => rfl
    | some a, some b => exact @OrientedCmp.eq_swap _ compare _ a b

instance : TransCmp compareOptional where
  isLE_trans := by
    intro a b c hab hbc
    match a, b, c with
    | none, _, none => rfl
    | none, _, some _ => rfl
    | some _, none, _ => cases hab
    | some _, some _, none => cases hbc
    | some a, some b, some c => exact @TransCmp.isLE_trans _ compare _ a b c hab hbc

instance : LawfulEqCmp compareOptional where
  compare_self := by
    intro a
    match a with
    | none => rfl
    | some a => exact @ReflCmp.compare_self _ compare _ a
  eq_of_compare := by
    intro a b heq
    match a, b with
    | none, none => rfl
    | none, some _ => cases heq
    | some _, none => cases heq
    | some a, some b => exact congrArg some (@LawfulEqCmp.eq_of_compare _ compare _ a b heq)

end TextColumns.Text
