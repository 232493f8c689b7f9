import Mathlib.Data.Nat.Bitwise
import TextColumns.Proofs.Bisect
import TextColumns.Proofs.Pattern.Membership
import TextColumns.Proofs.Unicode.CaseMapping
import TextColumns.Program.CharClass

/-!
Membership in prepared sets.  The bits of the two words and the search by halving answer alike
whether a code point lies in some range.
-/

namespace TextColumns.CharClass

open Pattern (CodeRange CodeSet)
open Pattern.CodeRange (Apart covered covered_iff)

variable {ranges : List CodeRange} {code : Nat}

theorem toNat_bit {i : Nat} (hi : i < 64) : ((1 : UInt64) <<< UInt64.ofNat i).toNat = 2 ^ i := by
  have hpow : 2 ^ i < 2 ^ 64 := Nat.pow_lt_pow_right (by decide) hi
  have hindex : (UInt64.ofNat i).toNat = i := UInt64.toNat_ofNat_of_lt' (by
    rw [UInt64.size]
    omega)
  rw [UInt64.toNat_shiftLeft, hindex, Nat.mod_eq_of_lt hi, UInt64.toNat_one, Nat.one_shiftLeft,
    Nat.mod_eq_of_lt hpow]

theorem hasBit_eq (bits : UInt64) {i : Nat} (hi : i < 64) :
    hasBit bits i = bits.toNat.testBit i := by
  have hindex : (UInt64.ofNat i).toNat = i := UInt64.toNat_ofNat_of_lt' (by
    rw [UInt64.size]
    omega)
  rw [hasBit, Bool.eq_iff_iff, beq_iff_eq, ← UInt64.toNat_inj, UInt64.toNat_and,
    UInt64.toNat_shiftRight, hindex, Nat.mod_eq_of_lt hi, UInt64.toNat_one,
    Nat.testBit_eq_decide_div_mod_eq, decide_eq_true_eq, Nat.and_one_is_mod,
    Nat.shiftRight_eq_div_pow]

theorem testBit_setBit (bits : UInt64) (member : Bool) {i j : Nat} (hj : j < 64) :
    (if member then bits ||| ((1 : UInt64) <<< UInt64.ofNat j) else bits).toNat.testBit i =
      (bits.toNat.testBit i || (member && decide (j = i))) := by
  cases member with
  | false => exact (Bool.or_false _).symm
  | true =>
      rw [if_pos rfl, UInt64.toNat_or, toNat_bit hj, Nat.testBit_or, Nat.testBit_two_pow,
        Bool.true_and]

theorem testBit_foldl (base : Nat) (ranges : List CodeRange) {count : Nat} (hcount : count ≤ 64)
    (i : Nat) :
    ((List.range count).foldl (fun bits j =>
      if ranges.any fun range => range.contains (base + j) then
        bits ||| ((1 : UInt64) <<< UInt64.ofNat j)
      else bits) 0).toNat.testBit i =
      (decide (i < count) && covered ranges (base + i)) := by
  induction count with
  | zero => exact Nat.zero_testBit i
  | succ count ih =>
      rw [List.range_succ, List.foldl_append, List.foldl_cons, List.foldl_nil,
        testBit_setBit _ _ (Nat.lt_of_succ_le hcount), ih (Nat.le_of_succ_le hcount)]
      rcases Nat.lt_trichotomy i count with hlt | rfl | hgt
      · simp [hlt, Nat.lt_succ_of_lt hlt, Nat.ne_of_gt hlt]
      · simp [covered]
      · simp [Nat.not_lt_of_gt hgt, Nat.not_lt_of_le (Nat.succ_le_of_lt hgt), Nat.ne_of_lt hgt]

theorem hasBit_bitsFrom (base : Nat) (ranges : List CodeRange) {i : Nat} (hi : i < 64) :
    hasBit (bitsFrom base ranges) i = covered ranges (base + i) := by
  rw [hasBit_eq _ hi, bitsFrom]
  have hbit := testBit_foldl base ranges (Nat.le_refl 64) i
  rwa [decide_eq_true hi, Bool.true_and] at hbit

/-- Halving finds the first range that reaches up to a code point; no other one can hold it. -/
theorem inRanges_eq (hordered : ∀ range ∈ ranges, range.low ≤ range.high)
    (hapart : ranges.Pairwise Apart) (code : Nat) :
    inRanges ranges.toArray code = covered ranges code := by
  have hrising : ranges.Pairwise fun a b => a.high < b.low ∧ b.low ≤ b.high :=
    hapart.imp_of_mem fun _ hb hgap => ⟨Nat.lt_of_succ_lt hgap, hordered _ hb⟩
  have hlast : ranges.Pairwise fun a b =>
      decide (code ≤ a.high) = true → decide (code ≤ b.high) = true := by
    refine hrising.imp fun hgap hle => ?_
    simp only [decide_eq_true_eq] at hle ⊢
    omega
  have hfirst : ranges.Pairwise fun a b =>
      decide (code ≤ a.high) = true → decide (b.low ≤ code) = false := by
    refine hrising.imp fun hgap hle => ?_
    simp only [decide_eq_true_eq, decide_eq_false_iff_not] at hle ⊢
    omega
  unfold inRanges
  dsimp only
  rw [getElem?_bisect (p := fun range => decide (code ≤ range.high)) _ hlast]
  · have hany := any_find? hfirst
    have hcontains : (fun range : CodeRange =>
        decide (code ≤ range.high) && decide (range.low ≤ code)) = (·.contains code) :=
      funext fun range => Bool.and_comm _ _
    rw [hcontains] at hany
    rw [covered, ← hany]
    cases ranges.find? fun range => decide (code ≤ range.high) <;> rfl
  · intro i range hrange
    rw [hrange]

theorem contains_ofSet {set : CodeSet} (hset : set.Canonical) (c : Char) :
    (ofSet set).contains c = covered set.ranges c.toNat := by
  have hordered := fun range hrange => (hset.proper range hrange).ordered
  simp only [contains, ofSet]
  by_cases hlow : c.toNat < 64
  · rw [if_pos hlow, hasBit_bitsFrom 0 _ hlow, Nat.zero_add]
  by_cases hhigh : c.toNat < 128
  · rw [if_neg hlow, if_pos hhigh, hasBit_bitsFrom 64 _ (by omega),
      Nat.add_sub_cancel' (Nat.le_of_not_lt hlow)]
  · rw [if_neg hlow, if_neg hhigh]
    exact inRanges_eq hordered hset.apart _

theorem contains_or_mapped (cls : CharClass) (c : Char) :
    (cls.contains c || cls.containsMapped c) =
      (cls.contains c || cls.contains (Unicode.simpleLower c) ||
        cls.contains (Unicode.simpleUpper c)) := by
  have hsame (other : Char) : (cls.contains c || (other != c && cls.contains other)) =
      (cls.contains c || cls.contains other) := by
    by_cases heq : other = c
    · rw [heq, bne_self_eq_false, Bool.false_and, Bool.or_false, Bool.or_self]
    · rw [bne_iff_ne.mpr heq, Bool.true_and]
  rw [containsMapped, ← Bool.or_assoc, hsame, Bool.or_assoc, Bool.or_left_comm, hsame,
    Bool.or_left_comm, ← Bool.or_assoc]

theorem accepts_ofSet {set : CodeSet} (hset : set.Canonical) (c : Char) (fold : Bool) :
    (ofSet set).accepts c fold =
      ((covered set.ranges c.toNat ||
        (fold && (covered set.ranges (Unicode.simpleLower c).toNat ||
          covered set.ranges (Unicode.simpleUpper c).toNat))) != set.negated) := by
  rw [accepts]
  cases fold with
  | false => rw [Bool.false_and, Bool.false_and, contains_ofSet hset]; rfl
  | true =>
      rw [Bool.true_and, Bool.true_and, contains_or_mapped, contains_ofSet hset,
        contains_ofSet hset, contains_ofSet hset, Bool.or_assoc]
      rfl

/-- A class that is matched in either case accepts both cases of a letter of ASCII or none. -/
theorem accepts_toLower (cls : CharClass) (c : Char) :
    cls.accepts c.toLower true = cls.accepts c true := by
  simp only [accepts, Bool.true_and, contains_or_mapped, Unicode.simpleLower_toLower,
    Unicode.simpleUpper_toLower]
  by_cases hsame : c.toLower = c
  · rw [hsame]
  · obtain ⟨hlower, hupper⟩ := Unicode.mapped_of_toLower_ne hsame
    rw [hlower, hupper, Bool.or_self, Bool.or_right_comm, Bool.or_self, Bool.or_comm]

end TextColumns.CharClass
