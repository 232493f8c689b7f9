import TextColumns.Pattern.CodeSet

/-!
Normal forms of sets of code points.  Whatever ranges a set is made of, its ranges rise and leave a
gap between each two; ranges that do so already are kept, in whichever order they come.
-/

namespace TextColumns.Pattern

namespace CodeRange

/-- Ranges that hold a code point and begin and end with a character. -/
structure Proper (range : CodeRange) : Prop where
  ordered : range.low ≤ range.high
  low : range.low.isValidChar
  high : range.high.isValidChar

instance (range : CodeRange) : Decidable range.Proper :=
  decidable_of_iff (range.low ≤ range.high ∧ range.low.isValidChar ∧ range.high.isValidChar)
    ⟨fun h => ⟨h.1, h.2.1, h.2.2⟩, fun h => ⟨h.ordered, h.low, h.high⟩⟩

/-- Whether a code point lies between the end of one range and the start of another. -/
def Apart (a b : CodeRange) : Prop :=
  a.high + 1 < b.low

instance (a b : CodeRange) : Decidable (a.Apart b) :=
  inferInstanceAs (Decidable (a.high + 1 < b.low))

theorem proper_single (c : Char) : (single c).Proper :=
  ⟨Nat.le_refl _, c.valid, c.valid⟩

theorem proper_between {low high : Char} (hle : low ≤ high) : (between low high).Proper :=
  ⟨hle, low.valid, high.valid⟩

theorem low_le_of_le {a b : CodeRange} (hle : a.le b = true) : a.low ≤ b.low := by
  simp only [le, Bool.or_eq_true, Bool.and_eq_true, decide_eq_true_eq, beq_iff_eq] at hle
  omega

theorem le_total (a b : CodeRange) : (a.le b || b.le a) = true := by
  simp only [le, Bool.or_eq_true, Bool.and_eq_true, decide_eq_true_eq, beq_iff_eq]
  omega

theorem le_trans (a b c : CodeRange) (hab : a.le b = true) (hbc : b.le c = true) :
    a.le c = true := by
  simp only [le, Bool.or_eq_true, Bool.and_eq_true, decide_eq_true_eq, beq_iff_eq] at hab hbc ⊢
  omega

theorem le_antisymm {a b : CodeRange} (hab : a.le b = true) (hba : b.le a = true) : a = b := by
  obtain ⟨low, high⟩ := a
  obtain ⟨otherLow, otherHigh⟩ := b
  simp only [le, Bool.or_eq_true, Bool.and_eq_true, decide_eq_true_eq, beq_iff_eq] at hab hba
  obtain rfl : low = otherLow := by omega
  obtain rfl : high = otherHigh := by omega
  rfl

theorem le_of_apart {a b : CodeRange} (hproper : a.Proper) (hapart : a.Apart b) :
    a.le b = true := by
  have hordered := hproper.ordered
  simp only [Apart] at hapart
  simp only [le, Bool.or_eq_true, decide_eq_true_eq]
  omega

variable {current : CodeRange} {ranges : List CodeRange}

theorem proper_of_mem_join (hproper : ∀ range ∈ current :: ranges, range.Proper) :
    ∀ range ∈ join current ranges, range.Proper := by
  fun_induction join current ranges with
  | case1 current => exact hproper
  | case2 current next rest hjoin ih =>
      obtain ⟨hcurrent, hnext, hrest⟩ :
          current.Proper ∧ next.Proper ∧ ∀ range ∈ rest, range.Proper := by
        simpa only [List.forall_mem_cons] using hproper
      refine ih (List.forall_mem_cons.mpr ⟨⟨?_, hcurrent.low, ?_⟩, hrest⟩)
      · exact Nat.le_trans hcurrent.ordered (Nat.le_max_left _ _)
      · rcases Nat.le_total current.high next.high with hle | hle
        · exact (Nat.max_eq_right hle).symm ▸ hnext.high
        · exact (Nat.max_eq_left hle).symm ▸ hcurrent.high
  | case3 current next rest _ ih =>
      obtain ⟨hcurrent, hothers⟩ := List.forall_mem_cons.mp hproper
      exact List.forall_mem_cons.mpr ⟨hcurrent, ih hothers⟩

theorem low_le_of_mem_join (hrising : (current :: ranges).Pairwise (·.low ≤ ·.low)) :
    ∀ range ∈ join current ranges, current.low ≤ range.low := by
  fun_induction join current ranges with
  | case1 current => simp
  | case2 current next rest _ ih =>
      obtain ⟨hcurrent, hrest⟩ := List.pairwise_cons.mp hrising
      exact ih (List.pairwise_cons.mpr
        ⟨(List.forall_mem_cons.mp hcurrent).2, (List.pairwise_cons.mp hrest).2⟩)
  | case3 current next rest _ ih =>
      obtain ⟨hcurrent, hrest⟩ := List.pairwise_cons.mp hrising
      have hnext := hcurrent next List.mem_cons_self
      exact List.forall_mem_cons.mpr
        ⟨Nat.le_refl _, fun range hmem => Nat.le_trans hnext (ih hrest range hmem)⟩

theorem pairwise_apart_join (hrising : (current :: ranges).Pairwise (·.low ≤ ·.low)) :
    (join current ranges).Pairwise Apart := by
  fun_induction join current ranges with
  | case1 current => exact List.pairwise_singleton _ _
  | case2 current next rest _ ih =>
      obtain ⟨hcurrent, hrest⟩ := List.pairwise_cons.mp hrising
      exact ih (List.pairwise_cons.mpr
        ⟨(List.forall_mem_cons.mp hcurrent).2, (List.pairwise_cons.mp hrest).2⟩)
  | case3 current next rest hgap ih =>
      obtain ⟨-, hrest⟩ := List.pairwise_cons.mp hrising
      refine List.pairwise_cons.mpr ⟨fun range hmem => ?_, ih hrest⟩
      exact Nat.lt_of_lt_of_le (Nat.lt_of_not_le hgap) (low_le_of_mem_join hrest range hmem)

theorem join_ne_nil (current : CodeRange) (ranges : List CodeRange) : join current ranges ≠ [] := by
  fun_induction join current ranges with
  | case1 | case3 => exact List.cons_ne_nil _ _
  | case2 _ _ _ _ ih => exact ih

theorem join_of_apart (hapart : (current :: ranges).Pairwise Apart) :
    join current ranges = current :: ranges := by
  induction ranges generalizing current with
  | nil => rfl
  | cons next rest ih =>
      obtain ⟨hcurrent, hrest⟩ := List.pairwise_cons.mp hapart
      rw [join, if_neg (Nat.not_le_of_lt (hcurrent next List.mem_cons_self)), ih hrest]

theorem pairwise_le_mergeSort (ranges : List CodeRange) :
    (ranges.mergeSort le).Pairwise (·.le · = true) :=
  List.pairwise_mergeSort le_trans le_total ranges

theorem normalize_eq_self (hproper : ∀ range ∈ ranges, range.Proper)
    (hapart : ranges.Pairwise Apart) {others : List CodeRange} (hperm : others.Perm ranges) :
    normalize others = ranges := by
  have hrising : ranges.Pairwise (·.le · = true) :=
    hapart.imp_of_mem fun ha _ => le_of_apart (hproper _ ha)
  have hsorted : others.mergeSort le = ranges :=
    ((List.mergeSort_perm _ _).trans hperm).eq_of_pairwise
      (fun _ _ _ _ => le_antisymm) (pairwise_le_mergeSort others) hrising
  rw [normalize, hsorted]
  cases ranges with
  | nil => rfl
  | cons first rest => exact join_of_apart hapart

end CodeRange

namespace CodeSet

open CodeRange (Proper Apart)

/-- Sets in normal form, and not of no ranges. -/
structure Canonical (set : CodeSet) : Prop where
  nonempty : set.ranges ≠ []
  proper : ∀ range ∈ set.ranges, range.Proper
  apart : set.ranges.Pairwise Apart

instance (set : CodeSet) : Decidable set.Canonical :=
  decidable_of_iff
    (set.ranges ≠ [] ∧ (∀ range ∈ set.ranges, range.Proper) ∧ set.ranges.Pairwise Apart)
    ⟨fun h => ⟨h.1, h.2.1, h.2.2⟩, fun h => ⟨h.nonempty, h.proper, h.apart⟩⟩

theorem canonical_ofRanges {ranges : List CodeRange} (hnonempty : ranges ≠ [])
    (hproper : ∀ range ∈ ranges, range.Proper) (negated : Bool) :
    (ofRanges ranges negated).Canonical := by
  have hsorted := CodeRange.pairwise_le_mergeSort ranges
  have hperm := List.mergeSort_perm ranges CodeRange.le
  cases hranges : ranges.mergeSort CodeRange.le with
  | nil =>
      rw [hranges] at hperm
      exact absurd (List.nil_perm.mp hperm) hnonempty
  | cons first rest =>
      rw [hranges] at hsorted hperm
      have hnormal : (ofRanges ranges negated).ranges = CodeRange.join first rest := by
        rw [ofRanges, CodeRange.normalize, hranges]
      have hproper : ∀ range ∈ first :: rest, range.Proper := fun range hmem =>
        hproper range (hperm.mem_iff.mp hmem)
      have hrising : (first :: rest).Pairwise (·.low ≤ ·.low) :=
        hsorted.imp CodeRange.low_le_of_le
      refine ⟨?_, ?_, ?_⟩
      · rw [hnormal]
        exact CodeRange.join_ne_nil first rest
      · rw [hnormal]
        exact CodeRange.proper_of_mem_join hproper
      · rw [hnormal]
        exact CodeRange.pairwise_apart_join hrising

/-- The ranges of a set in normal form make the set again, in whichever order. -/
theorem ofRanges_ranges {set : CodeSet} (hset : set.Canonical) {ranges : List CodeRange}
    (hperm : ranges.Perm set.ranges) : ofRanges ranges set.negated = set := by
  rw [ofRanges, CodeRange.normalize_eq_self hset.proper hset.apart hperm]

end CodeSet

end TextColumns.Pattern
