import Mathlib.Data.List.Basic
import TextColumns.Proofs.Text.Order
import TextColumns.Proofs.Text.Position

/-!
The order of texts by their characters.  The encoding of characters keeps their order, also where it
takes more bytes for one than for another, so the order of the bytes of texts is the lexicographic
order of their Unicode scalar values.
-/

namespace TextColumns.Text

variable {m n : Nat} {a b : String} {c d : Char}

def scalars (text : String) : List Nat :=
  text.toList.map Char.toNat

theorem scalars_inj : scalars a = scalars b ↔ a = b := by
  rw [scalars, scalars, ← String.toList_inj]
  exact (List.map_injective_iff.mpr fun _ _ => Char.toNat_inj.mp).eq_iff

theorem compare_add_left (k m n : Nat) : Ord.compare (k + m) (k + n) = Ord.compare m n := by
  simp only [Nat.compare_eq_ite_lt, Nat.add_lt_add_iff_left]

/-- Numbers are in the order of their leading digits, and then of their last one. -/
theorem compare_div_mod (m n base : Nat) :
    (Ord.compare (m / base) (n / base)).then (Ord.compare (m % base) (n % base)) =
      Ord.compare m n := by
  rcases Nat.lt_trichotomy (m / base) (n / base) with hlt | heq | hgt
  · rw [Nat.compare_eq_lt.mpr hlt, Nat.compare_eq_lt.mpr (Nat.lt_of_div_lt_div hlt)]
    rfl
  · conv_rhs => rw [← Nat.div_add_mod m base, ← Nat.div_add_mod n base, heq, compare_add_left]
    rw [heq, Std.ReflOrd.compare_self]
    rfl
  · rw [Nat.compare_eq_gt.mpr hgt, Nat.compare_eq_gt.mpr (Nat.lt_of_div_lt_div hgt)]
    rfl

theorem compare_ofNat (hm : m < 256) (hn : n < 256) :
    Ord.compare (UInt8.ofNat m) (UInt8.ofNat n) = Ord.compare m n := by
  have hbyte {k : Nat} (hk : k < 256) : (UInt8.ofNat k).toNat = k := UInt8.toNat_ofNat_of_lt' hk
  rcases Nat.lt_trichotomy m n with hlt | rfl | hgt
  · rw [Nat.compare_eq_lt.mpr hlt, Std.compare_eq_lt, UInt8.lt_iff_toNat_lt, hbyte hm, hbyte hn]
    exact hlt
  · rw [Std.ReflOrd.compare_self, Std.ReflOrd.compare_self]
  · rw [Nat.compare_eq_gt.mpr hgt, Std.compare_eq_gt, UInt8.lt_iff_toNat_lt, hbyte hm, hbyte hn]
    exact hgt

theorem compare_append {x y : List UInt8} (hlength : x.length = y.length) (r s : List UInt8) :
    Ord.compare (x ++ r) (y ++ s) = (Ord.compare x y).then (Ord.compare r s) := by
  induction x generalizing y with
  | nil =>
      cases List.eq_nil_of_length_eq_zero hlength.symm
      rfl
  | cons p x ih =>
      cases y with
      | nil => cases hlength
      | cons q y =>
          rw [List.cons_append, List.cons_append, List.compare_cons_cons, List.compare_cons_cons,
            ih (Nat.succ_inj.mp hlength), Ordering.then_assoc]

/-! The bytes of a character: the leading digits of its number with a mark that tells how many bytes
follow, and the other digits. -/

/-- A number without its last `count` digits to the base 64. -/
def leadingDigits : (count : Nat) → Nat → Nat
  | 0, n => n
  | count + 1, n => leadingDigits count (n / 64)

/-- The last `count` digits of a number to the base 64, as bytes that follow a leading one. -/
def followers : (count : Nat) → Nat → List UInt8
  | 0, _ => []
  | count + 1, n => followers count (n / 64) ++ [UInt8.ofNat (128 + n % 64)]

theorem length_followers (count n : Nat) : (followers count n).length = count := by
  induction count generalizing n with
  | zero => rfl
  | succ count ih => rw [followers, List.length_append, ih, List.length_singleton]

theorem compare_followers (count m n : Nat) :
    (Ord.compare (leadingDigits count m) (leadingDigits count n)).then
      (Ord.compare (followers count m) (followers count n)) = Ord.compare m n := by
  induction count generalizing m n with
  | zero => exact Ordering.then_eq
  | succ count ih =>
      have hlast : Ord.compare [UInt8.ofNat (128 + m % 64)] [UInt8.ofNat (128 + n % 64)] =
          Ord.compare (m % 64) (n % 64) := by
        rw [List.compare_cons_cons, compare_ofNat (by omega) (by omega), compare_add_left]
        exact Ordering.then_eq
      rw [followers, followers, compare_append (by rw [length_followers, length_followers]), hlast,
        ← Ordering.then_assoc, leadingDigits, leadingDigits, ih, compare_div_mod]

def followerCount (n : Nat) : Nat :=
  if n ≤ 0x7F then 0 else if n ≤ 0x7FF then 1 else if n ≤ 0xFFFF then 2 else 3

/-- What a leading byte has beside the leading digits. -/
def leadMark : (count : Nat) → Nat
  | 0 => 0
  | 1 => 0xC0
  | 2 => 0xE0
  | _ => 0xF0

def lead (n : Nat) : Nat :=
  leadMark (followerCount n) + leadingDigits (followerCount n) n

theorem toNat_lt (c : Char) : c.toNat < 0x110000 := by
  have hscalar : c.val.toNat < 0xD800 ∨ (0xDFFF < c.val.toNat ∧ c.val.toNat < 0x110000) := c.valid
  change c.val.toNat < 0x110000
  omega

theorem lead_cases (n : Nat) :
    (n ≤ 0x7F ∧ followerCount n = 0 ∧ lead n = n) ∨
    (0x7F < n ∧ n ≤ 0x7FF ∧ followerCount n = 1 ∧ lead n = 0xC0 + n / 64) ∨
    (0x7FF < n ∧ n ≤ 0xFFFF ∧ followerCount n = 2 ∧ lead n = 0xE0 + n / 64 / 64) ∨
    (0xFFFF < n ∧ followerCount n = 3 ∧ lead n = 0xF0 + n / 64 / 64 / 64) := by
  rw [lead, followerCount]
  split
  next hone => exact .inl ⟨hone, rfl, Nat.zero_add n⟩
  next hone =>
    split
    next htwo => exact .inr (.inl ⟨Nat.lt_of_not_le hone, htwo, rfl, rfl⟩)
    next htwo =>
      split
      next hthree => exact .inr (.inr (.inl ⟨Nat.lt_of_not_le htwo, hthree, rfl, rfl⟩))
      next hthree => exact .inr (.inr (.inr ⟨Nat.lt_of_not_le hthree, rfl, rfl⟩))

theorem lead_lt (hn : n < 0x110000) : lead n < 256 := by
  have hcases := lead_cases n
  omega

/-- A character that takes fewer bytes has a smaller number, and a smaller leading byte. -/
theorem lead_lt_lead (hcount : followerCount m < followerCount n) :
    m < n ∧ lead m < lead n := by
  have hm := lead_cases m
  have hn := lead_cases n
  omega

theorem utf8EncodeChar_eq (c : Char) :
    String.utf8EncodeChar c =
      UInt8.ofNat (lead c.toNat) :: followers (followerCount c.toNat) c.toNat := by
  have hscalar : c.val.toNat < 0x110000 := toNat_lt c
  have hcases := lead_cases c.val.toNat
  have hcons {m m' : Nat} {x y : List UInt8} (hm : m = m') (hxy : x = y) :
      UInt8.ofNat m :: x = UInt8.ofNat m' :: y := by rw [hm, hxy]
  change _ = UInt8.ofNat (lead c.val.toNat) :: followers (followerCount c.val.toNat) c.val.toNat
  rw [String.utf8EncodeChar]
  generalize c.val.toNat = n at hscalar hcases ⊢
  split
  · obtain ⟨hcount, hlead⟩ : followerCount n = 0 ∧ lead n = n := by omega
    rw [hcount, hlead]
    rfl
  split
  · obtain ⟨hcount, hlead⟩ : followerCount n = 1 ∧ lead n = 0xC0 + n / 64 := by omega
    rw [hcount, hlead]
    exact hcons (by omega) (hcons (by omega) rfl)
  split
  · obtain ⟨hcount, hlead⟩ : followerCount n = 2 ∧ lead n = 0xE0 + n / 64 / 64 := by omega
    rw [hcount, hlead]
    exact hcons (by omega) (hcons (by omega) (hcons (by omega) rfl))
  · obtain ⟨hcount, hlead⟩ : followerCount n = 3 ∧ lead n = 0xF0 + n / 64 / 64 / 64 := by omega
    rw [hcount, hlead]
    exact hcons (by omega) (hcons (by omega) (hcons (by omega) (hcons (by omega) rfl)))

theorem compare_encode_of_lt (hcount : followerCount c.toNat < followerCount d.toNat)
    (r s : List UInt8) :
    Ord.compare (String.utf8EncodeChar c ++ r) (String.utf8EncodeChar d ++ s) = .lt ∧
      Ord.compare c.toNat d.toNat = .lt := by
  obtain ⟨hlt, hlead⟩ := lead_lt_lead hcount
  refine ⟨?_, Nat.compare_eq_lt.mpr hlt⟩
  rw [utf8EncodeChar_eq, utf8EncodeChar_eq, List.cons_append, List.cons_append,
    List.compare_cons_cons, compare_ofNat (lead_lt (toNat_lt c)) (lead_lt (toNat_lt d)),
    Nat.compare_eq_lt.mpr hlead]
  rfl

theorem compare_encode_of_eq (hcount : followerCount c.toNat = followerCount d.toNat) :
    Ord.compare (String.utf8EncodeChar c) (String.utf8EncodeChar d) =
      Ord.compare c.toNat d.toNat := by
  rw [utf8EncodeChar_eq, utf8EncodeChar_eq, List.compare_cons_cons,
    compare_ofNat (lead_lt (toNat_lt c)) (lead_lt (toNat_lt d)), lead, lead, hcount,
    compare_add_left, compare_followers]

theorem compare_encode_append (c d : Char) (r s : List UInt8) :
    Ord.compare (String.utf8EncodeChar c ++ r) (String.utf8EncodeChar d ++ s) =
      (Ord.compare c.toNat d.toNat).then (Ord.compare r s) := by
  rcases Nat.lt_trichotomy (followerCount c.toNat) (followerCount d.toNat) with hlt | heq | hgt
  · obtain ⟨hbytes, hchars⟩ := compare_encode_of_lt hlt r s
    rw [hbytes, hchars]
    rfl
  · have hlength : (String.utf8EncodeChar c).length = (String.utf8EncodeChar d).length := by
      rw [utf8EncodeChar_eq, utf8EncodeChar_eq, List.length_cons, List.length_cons,
        length_followers, length_followers, heq]
    rw [compare_append hlength, compare_encode_of_eq heq]
  · obtain ⟨hbytes, hchars⟩ := compare_encode_of_lt hgt s r
    rw [Std.OrientedOrd.eq_swap, hbytes, Std.OrientedOrd.eq_swap (a := c.toNat), hchars]
    rfl

theorem compare_flatMap_encode (x y : List Char) :
    Ord.compare (x.flatMap String.utf8EncodeChar) (y.flatMap String.utf8EncodeChar) =
      Ord.compare (x.map Char.toNat) (y.map Char.toNat) := by
  induction x generalizing y with
  | nil =>
      cases y with
      | nil => rfl
      | cons d y =>
          rw [List.flatMap_cons, utf8EncodeChar_eq, List.flatMap_nil, List.cons_append,
            List.compare_nil_cons]
          rfl
  | cons c x ih =>
      cases y with
      | nil =>
          rw [List.flatMap_cons, utf8EncodeChar_eq, List.flatMap_nil, List.cons_append,
            List.compare_cons_nil]
          rfl
      | cons d y =>
          rw [List.flatMap_cons, List.flatMap_cons, compare_encode_append, ih, List.map_cons,
            List.map_cons, List.compare_cons_cons]

/-- Texts are in the order of their scalar values. -/
theorem compare_eq_scalars (a b : String) :
    compare a b = Ord.compare (scalars a) (scalars b) := by
  rw [compare_eq, toList_data, toList_data, compare_flatMap_encode]
  rfl

end TextColumns.Text
