import TextColumns.PrefixSum
import TextColumns.Basic

/-!
Prefix sums come out the same whether they are formed one after the other or in blocks, and by
however many workers.
-/

namespace TextColumns.PrefixSum

/-- The sum before each size, when `base` comes before all of them. -/
def startsFrom (base : Nat) : List Nat → List Nat
  | [] => []
  | size :: rest => base :: startsFrom (base + size) rest

@[simp] theorem length_startsFrom (base : Nat) (sizes : List Nat) :
    (startsFrom base sizes).length = sizes.length := by
  induction sizes generalizing base with
  | nil => rfl
  | cons size rest ih => simp only [startsFrom, List.length_cons, ih]

theorem startsFrom_append (base : Nat) (first second : List Nat) :
    startsFrom base (first ++ second) =
      startsFrom base first ++ startsFrom (base + total first) second := by
  induction first generalizing base with
  | nil => simp [startsFrom]
  | cons size rest ih => simp only [List.cons_append, startsFrom, ih, total_cons, Nat.add_assoc]

/-- A size starts behind the sum of those in front of it, and the end behind the sum of all. -/
theorem getElem?_startsFrom (base : Nat) {sizes : List Nat} {i : Nat}
    (hi : i ≤ sizes.length) :
    (startsFrom base sizes ++ [base + total sizes])[i]? = some (base + total (sizes.take i)) := by
  induction sizes generalizing base i with
  | nil =>
      obtain rfl := Nat.le_zero.mp hi
      rfl
  | cons size rest ih =>
      cases i with
      | zero => rfl
      | succ i =>
          rw [total_cons, ← Nat.add_assoc, List.take_succ_cons, total_cons, ← Nat.add_assoc]
          exact ih (base + size) (Nat.le_of_succ_le_succ hi)

theorem base_le_of_mem_startsFrom {base start : Nat} {sizes : List Nat}
    (hstart : start ∈ startsFrom base sizes) : base ≤ start := by
  induction sizes generalizing base with
  | nil => cases hstart
  | cons size rest ih =>
      cases hstart with
      | head => exact Nat.le_refl _
      | tail _ hrest => exact Nat.le_trans (Nat.le_add_right _ _) (ih hrest)

theorem le_of_mem_startsFrom {base start : Nat} {sizes : List Nat}
    (hstart : start ∈ startsFrom base sizes) : start ≤ base + total sizes := by
  induction sizes generalizing base with
  | nil => cases hstart
  | cons size rest ih =>
      rw [total_cons]
      cases hstart with
      | head => exact Nat.le_add_right _ _
      | tail _ hrest =>
          have hle := ih hrest
          omega

theorem pairwise_startsFrom (base : Nat) (sizes : List Nat) :
    (startsFrom base sizes ++ [base + total sizes]).Pairwise (· ≤ ·) := by
  induction sizes generalizing base with
  | nil => exact List.pairwise_singleton _ _
  | cons size rest ih =>
      rw [startsFrom, List.cons_append, total_cons, ← Nat.add_assoc]
      refine List.pairwise_cons.mpr ⟨fun start hstart => ?_, ih (base + size)⟩
      rcases List.mem_append.mp hstart with hstart | hstart
      · exact Nat.le_trans (Nat.le_add_right _ _) (base_le_of_mem_startsFrom hstart)
      · rw [List.mem_singleton.mp hstart]
        omega

theorem add?_eq_none {a b : Nat} (hsum : Word.greatest < a + b) : add? a b = none :=
  if_neg (Nat.not_le.mpr hsum)

theorem add?_eq_some {a b : Nat} (hsum : a + b ≤ Word.greatest) : add? a b = some (a + b) :=
  if_pos hsum

theorem scanFrom_eq {base : Nat} {sizes : List Nat} (hbase : base ≤ Word.greatest) :
    scanFrom base sizes =
      if base + total sizes ≤ Word.greatest then
        some (startsFrom base sizes, base + total sizes)
      else none := by
  induction sizes generalizing base with
  | nil => simp [scanFrom, startsFrom, hbase]
  | cons size rest ih =>
      rw [scanFrom, total_cons, ← Nat.add_assoc]
      by_cases hnext : base + size ≤ Word.greatest
      · rw [add?_eq_some hnext]
        by_cases htotal : base + size + total rest ≤ Word.greatest
        · simp only [ih hnext, if_pos htotal, startsFrom]
        · simp only [ih hnext, if_neg htotal]
      · rw [add?_eq_none (Nat.not_le.mp hnext), if_neg (by omega)]

theorem totalFrom_eq {base : Nat} {sizes : List Nat} (hbase : base ≤ Word.greatest) :
    totalFrom base sizes =
      if base + total sizes ≤ Word.greatest then some (base + total sizes) else none := by
  induction sizes generalizing base with
  | nil => simp [totalFrom, hbase]
  | cons size rest ih =>
      rw [totalFrom, total_cons, ← Nat.add_assoc]
      by_cases hnext : base + size ≤ Word.greatest
      · simp only [add?_eq_some hnext, ih hnext]
      · rw [add?_eq_none (Nat.not_le.mp hnext), if_neg (by omega)]

theorem basesFrom_eq {base : Nat} {parts : List (List Nat)} (hbase : base ≤ Word.greatest) :
    basesFrom base (parts.map (totalFrom 0)) =
      if base + total parts.flatten ≤ Word.greatest then
        some (startsFrom base (parts.map total), base + total parts.flatten)
      else none := by
  induction parts generalizing base with
  | nil => simp [basesFrom, startsFrom, hbase]
  | cons part rest ih =>
      have hpart := @totalFrom_eq 0 part (Nat.zero_le _)
      rw [Nat.zero_add] at hpart
      rw [List.flatten_cons, total_append, ← Nat.add_assoc]
      by_cases hfits : total part ≤ Word.greatest
      · rw [if_pos hfits] at hpart
        by_cases hnext : base + total part ≤ Word.greatest
        · by_cases htotal : base + total part + total rest.flatten ≤ Word.greatest
          · simp only [List.map_cons, basesFrom, hpart, add?_eq_some hnext, ih hnext,
              if_pos htotal, startsFrom]
          · simp only [List.map_cons, basesFrom, hpart, add?_eq_some hnext, ih hnext,
              if_neg htotal]
        · rw [if_neg (by omega)]
          simp only [List.map_cons, basesFrom, hpart, add?_eq_none (Nat.not_le.mp hnext)]
      · rw [if_neg hfits] at hpart
        rw [if_neg (by omega)]
        simp only [List.map_cons, basesFrom, hpart]

theorem wrap_eq_self {n : Nat} (hn : n ≤ Word.greatest) : Word.wrap n = n :=
  Nat.mod_eq_of_lt (Nat.lt_succ_of_le hn)

/-- Within a sum that fits a word machine addition does not wrap. -/
theorem fillFrom_eq {base : Nat} {sizes : List Nat} (hsum : base + total sizes ≤ Word.greatest) :
    fillFrom base sizes = startsFrom base sizes := by
  induction sizes generalizing base with
  | nil => rfl
  | cons size rest ih =>
      rw [total_cons, ← Nat.add_assoc] at hsum
      have hwrap : Word.wrap (base + size) = base + size :=
        wrap_eq_self (Nat.le_trans (Nat.le_add_right _ _) hsum)
      rw [fillFrom, hwrap, startsFrom, ih hsum]

theorem flatten_zipWith_fillFrom {base : Nat} {parts : List (List Nat)}
    (hsum : base + total parts.flatten ≤ Word.greatest) :
    ((startsFrom base (parts.map total)).zipWith fillFrom parts).flatten =
      startsFrom base parts.flatten := by
  induction parts generalizing base with
  | nil => rfl
  | cons part rest ih =>
      rw [List.flatten_cons, total_append, ← Nat.add_assoc] at hsum
      rw [List.map_cons, startsFrom, List.zipWith_cons_cons, List.flatten_cons,
        List.flatten_cons, fillFrom_eq (by omega), ih hsum, startsFrom_append]

theorem flatten_blocks (length : Nat) (sizes : List Nat) :
    (blocks length sizes).flatten = sizes := by
  fun_induction blocks length sizes with
  | case1 => rfl
  | case2 size rest ih =>
      rw [List.flatten_cons, ih, List.cons_append, List.take_append_drop]

theorem scanBlocks_eq (length : Nat) (sizes : List Nat) :
    scanBlocks length sizes =
      if total sizes ≤ Word.greatest then some (startsFrom 0 sizes, total sizes) else none := by
  rw [scanBlocks, basesFrom_eq (Nat.zero_le _), flatten_blocks, Nat.zero_add]
  by_cases hsum : total sizes ≤ Word.greatest
  · have hfill := @flatten_zipWith_fillFrom 0 (blocks length sizes)
    rw [flatten_blocks, Nat.zero_add] at hfill
    simp only [if_pos hsum, hfill hsum]
  · rw [if_neg hsum, if_neg hsum]

theorem exclusive_eq (workers : Nat) (sizes : Array Nat) :
    exclusive workers sizes =
      if total sizes.toList ≤ Word.greatest then
        .ok ((startsFrom 0 sizes.toList).toArray, total sizes.toList)
      else .error (.prefixSum sizes.size) := by
  have hscan := @scanFrom_eq 0 sizes.toList (Nat.zero_le _)
  rw [Nat.zero_add] at hscan
  rw [exclusive, scanBlocks_eq, hscan, ite_self]
  by_cases hsum : total sizes.toList ≤ Word.greatest
  · simp only [if_pos hsum]
  · simp only [if_neg hsum]

end TextColumns.PrefixSum
