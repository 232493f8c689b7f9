import TextColumns.Proofs.Bisect
import TextColumns.Proofs.PrefixSum
import TextColumns.Store.Select
import Mathlib.Data.List.Basic

/-!
The rows of joined stores.  The place where a row of the result comes from is found by halving among
the rows before each store; several stores have the same number of rows before them when some of
them are empty.
-/

namespace TextColumns.Store

theorem basesFrom_eq (before : Nat) (stores : List Store) :
    basesFrom before stores = PrefixSum.startsFrom before (stores.map size) := by
  induction stores generalizing before with
  | nil => rfl
  | cons store rest ih => exact congrArg (List.cons before) (ih _)

theorem basesFrom_append (front : List Store) (store : Store) (back : List Store) :
    basesFrom 0 (front ++ store :: back) =
      basesFrom 0 front ++ total (front.map size) ::
        basesFrom (total (front.map size) + store.size) back := by
  rw [basesFrom_eq, List.map_append, PrefixSum.startsFrom_append, Nat.zero_add, basesFrom_eq,
    basesFrom_eq]
  rfl

theorem length_basesFrom (before : Nat) (stores : List Store) :
    (basesFrom before stores).length = stores.length := by
  rw [basesFrom_eq, PrefixSum.length_startsFrom, List.length_map]

theorem startsBehind_iff {bases : List Nat} {row k : Nat} (hk : k < bases.length) :
    decide (row < bases.toArray[k]?.getD 0) = true ↔ row < bases[k] := by
  rw [List.getElem?_toArray, List.getElem?_eq_getElem hk, Option.getD_some, decide_eq_true_iff]

theorem keeps_startsBehind {bases : List Nat} (hsorted : bases.Pairwise (· ≤ ·)) (row : Nat) :
    Keeps (fun k => row < bases.toArray[k]?.getD 0) 0 bases.length := by
  intro i j _ hij hj hi
  have hi := (startsBehind_iff (Nat.lt_of_le_of_lt hij hj)).mp hi
  refine (startsBehind_iff hj).mpr ?_
  rcases Nat.lt_or_eq_of_le hij with hlt | rfl
  · exact Nat.lt_of_lt_of_le hi (List.pairwise_iff_getElem.mp hsorted i j _ hj hlt)
  · exact hi

/-- Halving finds the place behind the last base that is no greater than the row. -/
theorem bisect_append {front back : List Nat} {base : Nat} (row : Nat)
    (hsorted : (front ++ base :: back).Pairwise (· ≤ ·)) (hbase : base ≤ row)
    (hback : ∀ other ∈ back, row < other) :
    bisect (fun k => row < (front ++ base :: back).toArray[k]?.getD 0) 0
      (front ++ base :: back).toArray.size = front.length + 1 := by
  have hkeeps := keeps_startsBehind hsorted row
  have hsize : (front ++ base :: back).length = front.length + (back.length + 1) :=
    List.length_append
  have hhigh : bisect (fun k => row < (front ++ base :: back).toArray[k]?.getD 0) 0
      (front ++ base :: back).length ≤ (front ++ base :: back).length :=
    (bisect_mem (Nat.zero_le _)).2
  have hpast : front.length < bisect (fun k =>
      row < (front ++ base :: back).toArray[k]?.getD 0) 0 (front ++ base :: back).length := by
    have hfront : front.length < (front ++ base :: back).length := by omega
    refine Nat.not_le.mp fun hle => Nat.not_lt.mpr hbase ?_
    have hbehind := (startsBehind_iff hfront).mp
      ((bisect_le_iff hkeeps (Nat.zero_le _) hfront).mp hle)
    simpa [List.getElem_append_right] using hbehind
  rw [List.size_toArray]
  cases back with
  | nil =>
      rw [List.length_nil] at hsize
      omega
  | cons next rest =>
      rw [List.length_cons] at hsize
      have hnext : front.length + 1 < (front ++ base :: next :: rest).length := by omega
      have hle : bisect (fun k => row < (front ++ base :: next :: rest).toArray[k]?.getD 0) 0
          (front ++ base :: next :: rest).length ≤ front.length + 1 := by
        refine (bisect_le_iff hkeeps (Nat.zero_le _) hnext).mpr
          ((startsBehind_iff hnext).mpr ?_)
        have hbehind := hback next (.head _)
        simpa [List.getElem_append_right] using hbehind
      omega

theorem locate_append (front : List Store) (store : Store) (back : List Store) {row : Nat}
    (hrow : row < store.size) :
    locate (front ++ store :: back).toArray (basesFrom 0 (front ++ store :: back)).toArray
      (total (front.map size) + row) = store.elementDraft row := by
  have hsorted := (List.pairwise_append.mp
    (PrefixSum.pairwise_startsFrom 0 ((front ++ store :: back).map size))).1
  rw [← basesFrom_eq, basesFrom_append] at hsorted
  have hpart := bisect_append (total (front.map size) + row) hsorted (Nat.le_add_right _ _) (by
      intro base hbase
      rw [basesFrom_eq] at hbase
      have hle := PrefixSum.base_le_of_mem_startsFrom hbase
      omega)
  rw [locate, basesFrom_append, hpart, length_basesFrom, Nat.add_sub_cancel,
    List.getElem?_toArray, List.getElem?_toArray, List.getElem?_append_right (Nat.le_refl _),
    Nat.sub_self, List.getElem?_cons_zero, ← length_basesFrom 0 front,
    List.getElem?_append_right (Nat.le_refl _), Nat.sub_self, List.getElem?_cons_zero,
    Option.getD_some, Option.getD_some, Nat.add_sub_cancel_left]

theorem elementDrafts_eq_map (store : Store) :
    store.elementDrafts = (List.range store.size).map store.elementDraft := by
  refine List.ext_getElem? fun row => ?_
  rw [elementDrafts, List.getElem?_map, List.getElem?_map, Array.getElem?_toList]
  by_cases hrow : row < store.size
  · rw [List.getElem?_range hrow, Array.getElem?_eq_getElem hrow, Option.map_some,
      Option.map_some, elementDraft, bytes?, Array.getElem?_eq_getElem hrow, Option.bind_some]
  · have hle := Nat.le_of_not_lt hrow
    rw [Array.getElem?_eq_none hle, List.getElem?_eq_none (by simpa using hle)]
    rfl

theorem map_locate (front back : List Store) :
    (List.range' (total (front.map size)) (total (back.map size))).map
      (locate (front ++ back).toArray (basesFrom 0 (front ++ back)).toArray) =
      back.flatMap elementDrafts := by
  induction back generalizing front with
  | nil => rfl
  | cons store rest ih =>
      have hrest := ih (front ++ [store])
      rw [List.append_assoc, List.singleton_append, List.map_append, total_append,
        List.map_singleton, total_cons, total_nil, Nat.add_zero] at hrest
      rw [List.map_cons, total_cons, ← List.range'_append_1, List.map_append, hrest,
        List.flatMap_cons, elementDrafts_eq_map]
      congr 1
      rw [List.range'_eq_map_range, List.map_map]
      refine List.map_congr_left fun row hrow => ?_
      exact locate_append front store rest (List.mem_range.mp hrow)

theorem concat_eq_build (stores : List Store) :
    concat stores = build (stores.flatMap elementDrafts) := by
  rw [concat, ← map_locate [] stores, List.range_eq_range']
  rfl

end TextColumns.Store
