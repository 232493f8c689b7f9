import Mathlib.Algebra.Order.Group.Nat
import Mathlib.Data.List.Basic
import Mathlib.Data.List.Induction
import TextColumns.Number.Integer

/-!
Numerals: a sign, any number of zeros and the digits of an integer.  Whatever integer a kind holds
is read from each of its numerals, the blanks around it left out.
-/

namespace TextColumns.Number

section Digits

variable {radix bound : Nat}

theorem digitsFrom_append (value : Nat) (front behind : List Char) :
    digitsFrom radix bound value (front ++ behind) =
      (digitsFrom radix bound value front).bind (digitsFrom radix bound · behind) := by
  induction front generalizing value with
  | nil => rfl
  | cons c front ih =>
      rw [List.cons_append, digitsFrom, digitsFrom]
      cases digit? radix c with
      | none => rfl
      | some digit =>
          dsimp only
          split
          · rfl
          · exact ih _

theorem digit?_digitChar {n : Nat} (hn : n < 10) : digit? 10 n.digitChar = some n := by
  have hdigits : ∀ n : Fin 10, digit? 10 (n : Nat).digitChar = some n := by decide
  exact hdigits ⟨n, hn⟩

/-- The digits of a number are read as that number, since no part of it is above the bound either. -/
theorem digitsFrom_decimalDigits {n : Nat} (hn : n ≤ bound) :
    digitsFrom 10 bound 0 (decimalDigits n) = some n := by
  induction n using Nat.strong_induction_on with
  | _ n ih =>
      rw [decimalDigits]
      rcases Nat.lt_or_ge n 10 with hsmall | hlarge
      · rw [Nat.toDigits_of_lt_base hsmall, digitsFrom, digit?_digitChar hsmall]
        simp [digitsFrom, Nat.not_lt.mpr hn]
      · have hfront : digitsFrom 10 bound 0 (Nat.toDigits 10 (n / 10)) = some (n / 10) :=
          ih _ (by omega) (by omega)
        have hlast : digit? 10 (n % 10).digitChar = some (n % 10) :=
          digit?_digitChar (Nat.mod_lt n (by decide))
        have hwhole : 10 * (n / 10) + n % 10 = n := Nat.div_add_mod n 10
        rw [Nat.toDigits_of_base_le (by decide) hlarge, digitsFrom_append, hfront,
          Option.bind_some, digitsFrom, hlast]
        simp [digitsFrom, hwhole, Nat.not_lt.mpr hn]

theorem digitsFrom_zeros (count : Nat) (digits : List Char) :
    digitsFrom 10 bound 0 (List.replicate count '0' ++ digits) = digitsFrom 10 bound 0 digits := by
  induction count with
  | zero => rfl
  | succ count ih =>
      have hzero : digit? 10 '0' = some 0 := by decide
      rw [List.replicate_succ, List.cons_append, digitsFrom, hzero]
      simpa using ih

theorem digits?_zeros {n : Nat} (hn : n ≤ bound) (count : Nat) :
    digits? 10 bound (List.replicate count '0' ++ decimalDigits n) = some n := by
  have hnonempty : (List.replicate count '0' ++ decimalDigits n).isEmpty = false := by
    simp [decimalDigits]
  rw [digits?, hnonempty, digitsFrom_zeros, digitsFrom_decimalDigits hn]
  rfl

end Digits

def signOf (n : Int) : List Char :=
  if n < 0 then ['-'] else []

/-- The text of an integer with some zeros behind its sign. -/
def numeral (n : Int) (zeros : Nat) : List Char :=
  signOf n ++ (List.replicate zeros '0' ++ decimalDigits n.natAbs)

theorem toList_writeInteger (n : Int) : (writeInteger n).toList = numeral n 0 := by
  rw [writeInteger, numeral, signOf]
  split <;> exact String.toList_ofList

theorem isDigit_of_mem_digits {n zeros : Nat} {c : Char}
    (hmem : c ∈ List.replicate zeros '0' ++ decimalDigits n) : c.isDigit = true := by
  rcases List.mem_append.mp hmem with hzero | hdigit
  · rw [(List.mem_replicate.mp hzero).2]
    rfl
  · exact Nat.isDigit_of_mem_toDigits (by decide) (by decide) hdigit

theorem mem_numeral {n : Int} {zeros : Nat} {c : Char} (hmem : c ∈ numeral n zeros) :
    c = '-' ∨ c.isDigit = true := by
  rcases List.mem_append.mp hmem with hsign | hdigit
  · rw [signOf] at hsign
    split at hsign
    · exact .inl (List.mem_singleton.mp hsign)
    · cases hsign
  · exact .inr (isDigit_of_mem_digits hdigit)

variable {kind : IntegerKind} {n : Int}

theorem holds_iff : kind.holds n = true ↔ kind.least ≤ n ∧ n ≤ kind.greatest := by
  simp [IntegerKind.holds]

theorem natAbs_le_bound (hholds : kind.holds n = true) : n.natAbs ≤ kind.bound := by
  have hhalf : twoTo (kind.bits - 1) ≤ twoTo kind.bits :=
    Nat.pow_le_pow_right (by decide) (Nat.sub_le _ 1)
  obtain ⟨hleast, hgreatest⟩ := holds_iff.mp hholds
  rw [IntegerKind.least] at hleast
  rw [IntegerKind.greatest] at hgreatest
  rw [IntegerKind.bound]
  cases hsigned : kind.signed <;> simp only [hsigned, if_true, Bool.false_eq_true, if_false] at * <;>
    omega

theorem signed_of_neg (hholds : kind.holds n = true) (hneg : n < 0) : kind.signed = true := by
  by_contra hunsigned
  have hleast := (holds_iff.mp hholds).1
  rw [IntegerKind.least, if_neg hunsigned] at hleast
  exact absurd hneg (not_lt.mpr hleast)

theorem signedDigits?_numeral (hholds : kind.holds n = true) (zeros : Nat) :
    signedDigits? kind 10 (numeral n zeros) = some n := by
  have hdigits := digits?_zeros (natAbs_le_bound hholds) zeros
  rw [numeral, signOf]
  by_cases hneg : n < 0
  · rw [if_pos hneg, List.singleton_append, signedDigits?, if_pos (signed_of_neg hholds hneg), hdigits,
      Option.map_some]
    exact congrArg some (show -(n.natAbs : Int) = n by omega)
  · rw [if_neg hneg, List.nil_append, signedDigits?.eq_3, hdigits, Option.map_some]
    · exact congrArg some (show (n.natAbs : Int) = n by omega)
    · intro rest hplus
      have hdigit := isDigit_of_mem_digits (hplus ▸ List.mem_cons_self)
      cases hdigit
    · intro rest hminus
      have hdigit := isDigit_of_mem_digits (hminus ▸ List.mem_cons_self)
      cases hdigit

/-- Whether digits are the usual ones of a number: they have its value, and begin with a zero only
where that is the one digit. -/
structure IsDecimal (n : Nat) (digits : List Char) : Prop where
  isDigit : ∀ c ∈ digits, c.isDigit = true
  value : Nat.ofDigitChars 10 digits 0 = n
  ne_nil : digits ≠ []
  zero_first : digits.head? = some '0' → digits = ['0']

theorem digitChar_of_isDigit {c : Char} (hdigit : c.isDigit = true) :
    c.toNat - '0'.toNat < 10 ∧ (c.toNat - '0'.toNat).digitChar = c := by
  obtain ⟨hleast, hgreatest⟩ := Char.isDigit_iff_toNat.mp hdigit
  have hzero : '0'.toNat = 48 := rfl
  have hnine : '9'.toNat = 57 := rfl
  have hlt : c.toNat - '0'.toNat < 10 := by omega
  refine ⟨hlt, Char.toNat_inj.mp ?_⟩
  rw [Nat.toNat_digitChar_of_lt_ten hlt]
  omega

theorem isDecimal_decimalDigits (n : Nat) : IsDecimal n (decimalDigits n) where
  isDigit := fun _ hmem => Nat.isDigit_of_mem_toDigits (by decide) (by decide) hmem
  value := Nat.ofDigitChars_ten_toDigits
  ne_nil := by simp [decimalDigits]
  zero_first := by
    induction n using Nat.strong_induction_on with
    | _ n ih =>
        rw [decimalDigits]
        rcases Nat.lt_or_ge n 10 with hsmall | hlarge
        · rw [Nat.toDigits_of_lt_base hsmall]
          exact fun hhead => congrArg (fun c => [c]) (Option.some.inj hhead)
        · rw [Nat.toDigits_of_base_le (by decide) hlarge,
            List.head?_append_of_ne_nil _ Nat.toDigits_ne_nil]
          intro hhead
          -- What is in front of the last digit would be the one digit of zero.
          have hfront : Nat.toDigits 10 (n / 10) = ['0'] := ih (n / 10) (by omega) hhead
          have hvalue := @Nat.ofDigitChars_ten_toDigits (n / 10)
          rw [hfront] at hvalue
          have hzero : 0 = n / 10 := hvalue
          omega

/-- The digits of a number are taken off the end one by one, so there are no others. -/
theorem IsDecimal.eq_decimalDigits {n : Nat} {digits : List Char} (hdigits : IsDecimal n digits) :
    digits = decimalDigits n := by
  induction digits using List.reverseRecOn generalizing n with
  | nil => exact absurd rfl hdigits.ne_nil
  | append_singleton front c ih =>
      obtain ⟨hlt, hchar⟩ := digitChar_of_isDigit (hdigits.isDigit c (by simp))
      have hvalue := hdigits.value
      rw [Nat.ofDigitChars_append, Nat.ofDigitChars_cons, Nat.ofDigitChars_nil] at hvalue
      rw [decimalDigits]
      rcases eq_or_ne front [] with rfl | hfront
      · rw [Nat.ofDigitChars_nil, Nat.mul_zero, Nat.zero_add] at hvalue
        rw [← hvalue, Nat.toDigits_of_lt_base hlt, hchar, List.nil_append]
      · have hfirst : front.head? ≠ some '0' := fun hhead => by
          have hwhole := congrArg List.length
            (hdigits.zero_first ((List.head?_append_of_ne_nil front hfront).trans hhead))
          have hlength := List.length_pos_iff.mpr hfront
          simp only [List.length_append, List.length_singleton] at hwhole
          omega
        have htenth : IsDecimal (n / 10) front :=
          { isDigit := fun d hmem => hdigits.isDigit d (List.mem_append_left _ hmem)
            value := by omega
            ne_nil := hfront
            zero_first := fun hhead => absurd hhead hfirst }
        have hlarge : 10 ≤ n := by
          by_contra hsmall
          have hzero : n / 10 = 0 := by omega
          rw [ih htenth, hzero] at hfirst
          exact hfirst rfl
        rw [Nat.toDigits_of_base_le (by decide) hlarge, ← decimalDigits, ← ih htenth]
        have hlast : n % 10 = c.toNat - '0'.toNat := by omega
        rw [hlast, hchar]

/-- Whether a text is the usual one of an integer: a sign if it is negative, and the digits. -/
def IsWritten (n : Int) (text : String) : Prop :=
  ∃ digits, IsDecimal n.natAbs digits ∧ text.toList = signOf n ++ digits

theorem isWritten_iff {n : Int} {text : String} : IsWritten n text ↔ text = writeInteger n := by
  rw [← String.toList_inj, toList_writeInteger, numeral, List.replicate_zero, List.nil_append]
  constructor
  · rintro ⟨digits, hdigits, htext⟩
    rw [htext, hdigits.eq_decimalDigits]
  · exact fun htext => ⟨_, isDecimal_decimalDigits _, htext⟩

/-- Any routine that writes integers as usual writes these texts. -/
theorem writeInteger_of_contract {write : Int → String} (hwrite : ∀ n, IsWritten n (write n)) :
    writeInteger = write :=
  funext fun n => (isWritten_iff.mp (hwrite n)).symm

theorem isAsciiBlank_of_mem_numeral {zeros : Nat} {c : Char} (hmem : c ∈ numeral n zeros) :
    isAsciiBlank c = false := by
  rcases mem_numeral hmem with rfl | hdigit
  · rfl
  · by_contra hblank
    simp only [isAsciiBlank, Bool.not_eq_false, Bool.or_eq_true, beq_iff_eq] at hblank
    rcases hblank with (((rfl | rfl) | rfl) | rfl) | rfl <;> cases hdigit

theorem dropWhile_blanks {blanks chars : List Char} (hne : chars ≠ [])
    (hblanks : ∀ c ∈ blanks, isAsciiBlank c = true) (hchars : ∀ c ∈ chars, isAsciiBlank c = false)
    (behind : List Char) :
    (blanks ++ (chars ++ behind)).dropWhile isAsciiBlank = chars ++ behind := by
  obtain ⟨c, rest, rfl⟩ := List.exists_cons_of_ne_nil hne
  rw [List.dropWhile_append_of_pos hblanks, List.cons_append, List.dropWhile_cons_of_neg]
  simp [hchars c List.mem_cons_self]

theorem trimBlanks_between {front chars behind : List Char} (hne : chars ≠ [])
    (hfront : ∀ c ∈ front, isAsciiBlank c = true) (hbehind : ∀ c ∈ behind, isAsciiBlank c = true)
    (hchars : ∀ c ∈ chars, isAsciiBlank c = false) :
    trimBlanks (front ++ (chars ++ behind)) = chars := by
  have hback := dropWhile_blanks (List.reverse_ne_nil_iff.mpr hne)
    (fun c hmem => hbehind c (List.mem_reverse.mp hmem))
    (fun c hmem => hchars c (List.mem_reverse.mp hmem)) []
  rw [List.append_nil] at hback
  rw [trimBlanks, dropWhile_blanks hne hfront hchars, List.reverse_append, hback,
    List.reverse_reverse]

/-- A kind reads every integer that it holds from each numeral of it, with blanks on either side. -/
theorem readInteger_between (hholds : kind.holds n = true) {zeros : Nat} {front behind : List Char}
    (hfront : ∀ c ∈ front, isAsciiBlank c = true) (hbehind : ∀ c ∈ behind, isAsciiBlank c = true)
    {text : String} (htext : text.toList = front ++ (numeral n zeros ++ behind)) :
    readInteger kind 10 text = some n := by
  have hne : numeral n zeros ≠ [] := by simp [numeral, decimalDigits]
  rw [readInteger, htext,
    trimBlanks_between hne hfront hbehind fun c hmem => isAsciiBlank_of_mem_numeral hmem,
    signedDigits?_numeral hholds, Option.filter_some, hholds]
  rfl

theorem readInteger_numeral (hholds : kind.holds n = true) {zeros : Nat} {text : String}
    (htext : text.toList = numeral n zeros) : readInteger kind 10 text = some n := by
  have hnone : ∀ c ∈ ([] : List Char), isAsciiBlank c = true := nofun
  exact readInteger_between hholds hnone hnone (by rw [htext, List.append_nil, List.nil_append])

end TextColumns.Number
