import TextColumns.Proofs.PrefixSum
import TextColumns.Proofs.Store.Contents

/-!
Prefix sums in blocks of any length.  They are those that come of summing one after the other, they
fail exactly when the sum of all sizes is beyond the greatest word, and where they do not, the
workers that fill the blocks make no sum that wraps.
-/

namespace TextColumns.PrefixSum

variable {length base : Nat} {sizes part : List Nat} {parts : List (List Nat)}

structure CutInto (length : Nat) (sizes : List Nat) (parts : List (List Nat)) : Prop where
  flatten_eq : parts.flatten = sizes
  ne_nil : ∀ part ∈ parts, part ≠ []
  length_le : ∀ part ∈ parts, part.length ≤ length
  length_eq : ∀ part ∈ parts.dropLast, part.length = length

theorem cutInto_blocks (hlength : 0 < length) (sizes : List Nat) :
    CutInto length sizes (blocks length sizes) where
  flatten_eq := flatten_blocks length sizes
  ne_nil := by
    fun_induction blocks length sizes with
    | case1 => exact List.forall_mem_nil _
    | case2 size rest ih => exact List.forall_mem_cons.mpr ⟨List.cons_ne_nil _ _, ih⟩
  length_le := by
    fun_induction blocks length sizes with
    | case1 => exact List.forall_mem_nil _
    | case2 size rest ih =>
        refine List.forall_mem_cons.mpr ⟨?_, ih⟩
        rw [List.length_cons, List.length_take]
        omega
  length_eq := by
    fun_induction blocks length sizes with
    | case1 => exact List.forall_mem_nil _
    | case2 size rest ih =>
        cases hlater : blocks length (rest.drop (length - 1)) with
        | nil => exact List.forall_mem_nil _
        | cons next later =>
            -- There is a block behind this one, so there were sizes enough for this one.
            have hlong : length - 1 < rest.length := by
              rw [← Nat.not_le, ← List.drop_eq_nil_iff]
              intro hnone
              rw [hnone, blocks] at hlater
              cases hlater
            rw [hlater] at ih
            rw [List.dropLast_cons_cons]
            refine List.forall_mem_cons.mpr ⟨?_, ih⟩
            rw [List.length_cons, List.length_take]
            omega

/-- What a worker adds in its block: the sum so far, which is a word, and the next size. -/
def additions (base : Nat) : List Nat → List (Nat × Nat)
  | [] => []
  | size :: rest => (base, size) :: additions (Word.wrap (base + size)) rest

theorem fillFrom_eq_additions (base : Nat) (sizes : List Nat) :
    fillFrom base sizes = (additions base sizes).map Prod.fst := by
  induction sizes generalizing base with
  | nil => rfl
  | cons size rest ih => rw [fillFrom, additions, List.map_cons, ih]

theorem wrap_additions (hsum : base + total sizes ≤ Word.greatest) :
    ∀ addition ∈ additions base sizes,
      Word.wrap (addition.1 + addition.2) = addition.1 + addition.2 := by
  induction sizes generalizing base with
  | nil => exact List.forall_mem_nil _
  | cons size rest ih =>
      rw [total_cons, ← Nat.add_assoc] at hsum
      have hwrap : Word.wrap (base + size) = base + size :=
        wrap_eq_self (Nat.le_trans (Nat.le_add_right _ _) hsum)
      refine List.forall_mem_cons.mpr ⟨hwrap, ?_⟩
      rw [hwrap]
      exact ih hsum

theorem le_of_mem_zip_startsFrom {start : Nat}
    (hpart : (start, part) ∈ (startsFrom base (parts.map total)).zip parts) :
    start + total part ≤ base + total parts.flatten := by
  induction parts generalizing base with
  | nil => cases hpart
  | cons first rest ih =>
      rw [List.flatten_cons, total_append, ← Nat.add_assoc]
      cases hpart with
      | head => exact Nat.le_add_right _ _
      | tail _ hrest => exact ih hrest

theorem wrap_additions_blocks {bases : List Nat} {sum : Nat}
    (hbases : basesFrom 0 ((blocks length sizes).map (totalFrom 0)) = some (bases, sum))
    (hpart : (base, part) ∈ bases.zip (blocks length sizes)) :
    ∀ addition ∈ additions base part,
      Word.wrap (addition.1 + addition.2) = addition.1 + addition.2 := by
  rw [basesFrom_eq (Nat.zero_le _), flatten_blocks] at hbases
  by_cases hfits : 0 + total sizes ≤ Word.greatest
  · rw [if_pos hfits] at hbases
    obtain ⟨rfl, -⟩ := Prod.mk.inj (Option.some.inj hbases)
    have hle := le_of_mem_zip_startsFrom hpart
    rw [flatten_blocks] at hle
    exact wrap_additions (Nat.le_trans hle hfits)
  · rw [if_neg hfits] at hbases
    cases hbases

theorem scanFrom_zero (sizes : List Nat) :
    scanFrom 0 sizes =
      if sizes.sum ≤ Word.greatest then some (startsFrom 0 sizes, sizes.sum) else none := by
  rw [scanFrom_eq (Nat.zero_le _), Nat.zero_add, total_eq_sum]

theorem getElem?_startsFrom_zero {i : Nat} (hi : i < sizes.length) :
    (startsFrom 0 sizes)[i]? = some (sizes.take i).sum := by
  have hstart := getElem?_startsFrom 0 (Nat.le_of_lt hi)
  rwa [List.getElem?_append_left (by rwa [length_startsFrom]), Nat.zero_add, total_eq_sum] at hstart

/-- In blocks of any length the sums are those that are formed one after the other, and so they are
with any number of workers: every size starts at the sum of those before it.  They overflow just if
the sum of all sizes is beyond the greatest word, and otherwise no worker makes a sum that wraps. -/
theorem scans_agree (sizes : List Nat) :
    (∀ length, scanBlocks length sizes = scanFrom 0 sizes) ∧
    (∀ workers, exclusive workers sizes.toArray =
      match scanFrom 0 sizes with
      | some (starts, sum) => .ok (starts.toArray, sum)
      | none => .error (.prefixSum sizes.length)) ∧
    (Failure.prefixSum sizes.length).kind = .overflow ∧
    (scanFrom 0 sizes = none ↔ Word.greatest < sizes.sum) ∧
    (∀ starts sum, scanFrom 0 sizes = some (starts, sum) →
      sum = sizes.sum ∧ starts.length = sizes.length ∧
        ∀ i < sizes.length, starts[i]? = some (sizes.take i).sum) ∧
    ∀ length, 0 < length → CutInto length sizes (blocks length sizes) ∧
      ∀ bases sum, basesFrom 0 ((blocks length sizes).map (totalFrom 0)) = some (bases, sum) →
        ∀ base part, (base, part) ∈ bases.zip (blocks length sizes) →
          fillFrom base part = (additions base part).map Prod.fst ∧
            ∀ addition ∈ additions base part,
              Word.wrap (addition.1 + addition.2) = addition.1 + addition.2 := by
  have hscan := scanFrom_zero sizes
  refine ⟨fun length => ?_, fun workers => ?_, rfl, ?_, ?_, fun length hlength => ⟨?_, ?_⟩⟩
  · rw [scanBlocks_eq, hscan, total_eq_sum]
  · rw [exclusive_eq, hscan, total_eq_sum]
    split <;> rfl
  · rw [hscan]
    by_cases hfits : sizes.sum ≤ Word.greatest
    · rw [if_pos hfits]
      exact iff_of_false nofun (Nat.not_lt.mpr hfits)
    · rw [if_neg hfits]
      exact iff_of_true rfl (Nat.not_le.mp hfits)
  · intro starts sum hstarts
    rw [hscan] at hstarts
    split at hstarts
    · obtain ⟨rfl, rfl⟩ := Prod.mk.inj (Option.some.inj hstarts)
      exact ⟨rfl, length_startsFrom 0 sizes, fun i hi => getElem?_startsFrom_zero hi⟩
    · cases hstarts
  · exact cutInto_blocks hlength sizes
  · intro bases sum hbases base part hpart
    exact ⟨fillFrom_eq_additions base part, wrap_additions_blocks hbases hpart⟩

/-- The greatest sum there is, reached at the end of the first of two blocks, and a sum that goes
beyond it only when the last block is added. -/
theorem scans_agree_greatest :
    scanBlocks 2 [9223372036854775808, 9223372036854775807, 0] =
        some ([0, 9223372036854775808, 18446744073709551615], 18446744073709551615) ∧
      blocks 2 [9223372036854775808, 9223372036854775807, 0] =
        [[9223372036854775808, 9223372036854775807], [0]] ∧
      CutInto 2 [9223372036854775808, 9223372036854775807, 0]
        (blocks 2 [9223372036854775808, 9223372036854775807, 0]) ∧
      scanBlocks 2 [9223372036854775808, 0, 9223372036854775808] = none := by
  obtain ⟨hfits, -, -, -, -, hblocks⟩ :=
    scans_agree [9223372036854775808, 9223372036854775807, 0]
  obtain ⟨hlarge, -⟩ := scans_agree [9223372036854775808, 0, 9223372036854775808]
  exact ⟨(hfits 2).trans (by decide), by simp [blocks], (hblocks 2 (by decide)).1,
    (hlarge 2).trans (by decide)⟩

end TextColumns.PrefixSum
