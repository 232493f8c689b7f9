import TextColumns.Proofs.Pattern.CodeSet

/-!
Membership in sets of code points.  Sorting and joining ranges keep the code points that lie in some
range, and the gaps between rising ranges hold the others.
-/

namespace TextColumns.Pattern

namespace CodeRange

def covered (ranges : List CodeRange) (code : Nat) : Bool :=
  ranges.any (·.contains code)

variable {current range : CodeRange} {ranges : List CodeRange} {code : Nat}

theorem covered_cons :
    covered (range :: ranges) code = (range.contains code || covered ranges code) :=
  rfl

theorem covered_iff : covered ranges code = true ↔
    ∃ range ∈ ranges, range.low ≤ code ∧ code ≤ range.high := by
  simp only [covered, contains, List.any_eq_true, Bool.and_eq_true, decide_eq_true_eq]

theorem contains_joined {next : CodeRange} (hrising : current.low ≤ next.low)
    (htouches : next.low ≤ current.high + 1) :
    contains ⟨current.low, max current.high next.high⟩ code =
      (current.contains code || next.contains code) := by
  rw [Bool.eq_iff_iff]
  simp only [contains, Bool.or_eq_true, Bool.and_eq_true, decide_eq_true_eq]
  omega

theorem covered_join (hrising : (current :: ranges).Pairwise (·.low ≤ ·.low)) :
    covered (join current ranges) code = covered (current :: ranges) code := by
  fun_induction join current ranges with
  | case1 current => rfl
  | case2 current next rest htouches ih =>
      obtain ⟨hcurrent, hrest⟩ := List.pairwise_cons.mp hrising
      obtain ⟨hnext, hothers⟩ := List.forall_mem_cons.mp hcurrent
      rw [ih (List.pairwise_cons.mpr ⟨hothers, (List.pairwise_cons.mp hrest).2⟩), covered_cons,
        contains_joined hnext htouches, Bool.or_assoc]
      rfl
  | case3 current next rest _ ih =>
      rw [covered_cons, ih (List.pairwise_cons.mp hrising).2]
      rfl

theorem covered_normalize (ranges : List CodeRange) (code : Nat) :
    covered (normalize ranges) code = covered ranges code := by
  have hsorted : (ranges.mergeSort le).Pairwise (·.low ≤ ·.low) :=
    (pairwise_le_mergeSort ranges).imp low_le_of_le
  have hsame : covered (ranges.mergeSort le) code = covered ranges code :=
    (List.mergeSort_perm ranges le).any_eq
  rw [← hsame, normalize]
  cases hranges : ranges.mergeSort le with
  | nil => rfl
  | cons first rest =>
      rw [hranges] at hsorted
      exact covered_join hsorted

theorem covered_gaps_cons (next : Nat) (range : CodeRange) (ranges : List CodeRange) (code : Nat) :
    covered (gaps next (range :: ranges)) code =
      (decide (next ≤ code ∧ code < range.low) || covered (gaps (range.high + 1) ranges) code) := by
  rw [gaps]
  by_cases hgap : next < range.low
  · rw [if_pos hgap, covered_cons, contains, ← Bool.decide_and]
    congr 2
    rw [eq_iff_iff]
    dsimp only
    omega
  · rw [if_neg hgap, decide_eq_false (by omega), Bool.false_or]

theorem covered_gaps {next : Nat} (hordered : ∀ range ∈ ranges, range.low ≤ range.high)
    (hapart : ranges.Pairwise Apart) (hnext : ∀ range ∈ ranges, next ≤ range.low)
    (hlast : code ≤ lastCode) :
    covered (gaps next ranges) code = (decide (next ≤ code) && !covered ranges code) := by
  induction ranges generalizing next with
  | nil =>
      rw [gaps]
      by_cases hbeyond : next ≤ lastCode
      · rw [if_pos hbeyond]
        simp [covered, contains, hlast]
      · rw [if_neg hbeyond]
        have hbefore : ¬ next ≤ code := fun hle => hbeyond (Nat.le_trans hle hlast)
        simp [covered, hbefore]
  | cons range rest ih =>
      obtain ⟨hrange, hothers⟩ := List.forall_mem_cons.mp hordered
      obtain ⟨hbehind, hrest⟩ := List.pairwise_cons.mp hapart
      have hlow : next ≤ range.low := hnext range List.mem_cons_self
      rw [covered_gaps_cons, covered_cons, contains,
        ih hothers hrest fun other hother => Nat.le_of_lt (hbehind other hother)]
      rcases Nat.lt_or_ge range.high code with hbeyond | hle
      · have hnot : ¬ code ≤ range.high := Nat.not_le_of_lt hbeyond
        have hnot' : ¬ code < range.low := by omega
        have hstart : next ≤ code := by omega
        simp only [hnot, hnot', hstart, Nat.succ_le_of_lt hbeyond, and_false, decide_false,
          decide_true, Bool.false_or, Bool.true_and, Bool.and_false]
      · -- No later range reaches back to this one.
        have hnone : covered rest code = false := by
          rw [Bool.eq_false_iff, ne_eq, covered_iff]
          rintro ⟨other, hother, hstart, -⟩
          have hgap : range.high + 1 < other.low := hbehind other hother
          omega
        have hnot : ¬ range.high + 1 ≤ code := Nat.not_lt_of_le hle
        rcases Nat.lt_or_ge code range.low with hfront | hin
        · have hout : ¬ range.low ≤ code := Nat.not_le_of_lt hfront
          simp only [hnone, hnot, hfront, hout, hle, and_true, decide_false, decide_true,
            Bool.or_false, Bool.not_false, Bool.and_true]
        · have hout : ¬ code < range.low := Nat.not_lt_of_le hin
          simp only [hnone, hnot, hout, hin, hle, and_false, decide_false, decide_true,
            Bool.false_and, Bool.or_false, Bool.true_and, Bool.not_true, Bool.and_false]

end CodeRange

namespace CodeSet

open CodeRange (covered)

theorem covered_positiveRanges {set : CodeSet} (hset : set.Canonical) {code : Nat}
    (hlast : code ≤ lastCode) :
    covered set.positiveRanges code = (covered set.ranges code != set.negated) := by
  rw [positiveRanges]
  cases set.negated with
  | false => exact (Bool.bne_false _).symm
  | true =>
      have hordered : ∀ range ∈ set.ranges, range.low ≤ range.high := fun range hrange =>
        (hset.proper range hrange).ordered
      rw [if_pos rfl, CodeRange.covered_gaps hordered hset.apart (fun _ _ => Nat.zero_le _) hlast]
      simp

end CodeSet

end TextColumns.Pattern
