import Mathlib.Data.Nat.Bitwise
import TextColumns.Unicode.CaseMapping

/-!
Simple case mappings are settled after one step: what is the lower case of a character is its own
lower case, and the same goes for the upper case.  Neither tells the two cases of a letter of ASCII
apart.
-/

namespace TextColumns.Unicode

namespace Stretch

variable {domain : α → Stretch} {table : Array α} {code : Nat}

theorem mem_of_find? {entry : α} (hfind : find? domain table code = some entry) :
    entry ∈ table ∧ (domain entry).contains code = true := by
  obtain ⟨hentry, hcontains⟩ := Option.filter_eq_some_iff.mp hfind
  exact ⟨Array.mem_of_getElem? hentry, hcontains⟩

theorem find?_eq_none (hnone : ∀ entry ∈ table, (domain entry).contains code = false) :
    find? domain table code = none := by
  refine Option.eq_none_iff_forall_ne_some.mpr fun entry hfind => ?_
  obtain ⟨hentry, hcontains⟩ := mem_of_find? hfind
  exact absurd hcontains (ne_true_of_eq_false (hnone entry hentry))

def codes (stretch : Stretch) : List Nat :=
  (List.range ((stretch.last - stretch.first) / stretch.step + 1)).map
    (stretch.first + stretch.step * ·)

theorem mem_codes {stretch : Stretch} (hcontains : stretch.contains code = true) :
    code ∈ stretch.codes := by
  simp only [contains, Bool.and_eq_true, decide_eq_true_eq, beq_iff_eq] at hcontains
  obtain ⟨⟨hfirst, hlast⟩, hstep⟩ := hcontains
  refine List.mem_map.mpr ⟨(code - stretch.first) / stretch.step, ?_, ?_⟩
  · rw [List.mem_range]
    exact Nat.lt_succ_of_le (Nat.div_le_div_right (Nat.sub_le_sub_right hlast _))
  · have hcode := Nat.mod_add_div (code - stretch.first) stretch.step
    omega

end Stretch

def Shift.targets (shift : Shift) : List Nat :=
  shift.domain.codes.map fun code => (Char.ofNat (Int.ofNat code + shift.offset).toNat).toNat

def bitsOf (codes : List Nat) : Nat :=
  codes.foldr (fun code bits => 2 ^ code ||| bits) 0

theorem testBit_bitsOf (codes : List Nat) (code : Nat) :
    (bitsOf codes).testBit code = decide (code ∈ codes) := by
  induction codes with
  | nil => exact Nat.zero_testBit code
  | cons first rest ih =>
      rw [bitsOf, List.foldr_cons, Nat.testBit_or, Nat.testBit_two_pow, ← bitsOf, ih]
      simp only [List.mem_cons, Bool.decide_or, @eq_comm _ code first]

/-- Whether some shift of a table moves a code point, kept as one number for all of them. -/
def moved (shifts : Array Shift) : Nat :=
  bitsOf (shifts.toList.flatMap (·.domain.codes))

def onlyChar (c : Char) : List Char → Char
  | [mapped] => mapped
  | _ => c

/-- A simple case mapping: its own way with characters of ASCII, and else what the tables give if
that is one character. -/
def simple (ascii : Char → Char) (shifts : Array Shift) (expansions : Array Expansion) (c : Char) :
    Char :=
  if isAscii c then ascii c else onlyChar c (mapChar shifts expansions c)

/-- Whether no character is moved that some character is mapped to. -/
structure Settles (ascii : Char → Char) (shifts : Array Shift) (expansions : Array Expansion) :
    Prop where
  shifted : ∀ code ∈ shifts.toList.flatMap Shift.targets, (moved shifts).testBit code = false
  several : ∀ entry ∈ expansions.toList, entry.text.length ≠ 1
  still : ∀ n : Fin 128, (moved shifts).testBit n = false → ascii (Char.ofNat n) = Char.ofNat n
  ascii : ∀ n : Fin 128, ascii (Char.ofNat n) = Char.ofNat n ∨
    (moved shifts).testBit (ascii (Char.ofNat n)).toNat = false

namespace Settles

variable {ascii : Char → Char} {shifts : Array Shift} {expansions : Array Expansion}

theorem onlyChar_mapChar (hsettles : Settles ascii shifts expansions) {c : Char}
    (hnone : Stretch.find? Shift.domain shifts c.toNat = none) :
    onlyChar c (mapChar shifts expansions c) = c := by
  rw [mapChar, hnone]
  dsimp only
  split
  next expansion hexpansion =>
    obtain ⟨hentry, -⟩ := Stretch.mem_of_find? hexpansion
    have hseveral := hsettles.several _ (Array.mem_toList_iff.mpr hentry)
    rw [onlyChar]
    intro mapped hmapped
    exact hseveral (by rw [← List.length_map, hmapped, List.length_singleton])
  next => rfl

theorem simple_of_still (hsettles : Settles ascii shifts expansions) {c : Char}
    (hstill : (moved shifts).testBit c.toNat = false) : simple ascii shifts expansions c = c := by
  rw [simple]
  split
  next hascii =>
    have hcode := hsettles.still ⟨c.toNat, of_decide_eq_true hascii⟩ hstill
    rwa [Char.ofNat_toNat] at hcode
  next =>
    rw [moved, testBit_bitsOf, decide_eq_false_iff_not] at hstill
    refine hsettles.onlyChar_mapChar (Stretch.find?_eq_none fun shift hshift => ?_)
    refine Bool.eq_false_iff.mpr fun hcontains => hstill (List.mem_flatMap.mpr ?_)
    exact ⟨shift, Array.mem_toList_iff.mpr hshift, Stretch.mem_codes hcontains⟩

theorem simple_cases (hsettles : Settles ascii shifts expansions) (c : Char) :
    simple ascii shifts expansions c = c ∨
      (moved shifts).testBit (simple ascii shifts expansions c).toNat = false := by
  rw [simple]
  split
  next hascii =>
    have hcode := hsettles.ascii ⟨c.toNat, of_decide_eq_true hascii⟩
    rwa [Char.ofNat_toNat] at hcode
  next =>
    cases hshift : Stretch.find? Shift.domain shifts c.toNat with
    | none => exact .inl (hsettles.onlyChar_mapChar hshift)
    | some shift =>
        obtain ⟨hmem, hcontains⟩ := Stretch.mem_of_find? hshift
        rw [mapChar, hshift]
        refine .inr (hsettles.shifted _ (List.mem_flatMap.mpr
          ⟨shift, Array.mem_toList_iff.mpr hmem, ?_⟩))
        exact List.mem_map.mpr ⟨c.toNat, Stretch.mem_codes hcontains, rfl⟩

theorem simple_simple (hsettles : Settles ascii shifts expansions) (c : Char) :
    simple ascii shifts expansions (simple ascii shifts expansions c) =
      simple ascii shifts expansions c := by
  rcases hsettles.simple_cases c with hsame | hstill
  · rw [hsame, hsame]
  · exact hsettles.simple_of_still hstill

end Settles

theorem settles_lower : Settles Char.toLower lowerShifts lowerExpansions where
  shifted := by decide +kernel
  several := by decide +kernel
  still := by decide +kernel
  ascii := by decide +kernel

theorem settles_upper : Settles Char.toUpper upperShifts upperExpansions where
  shifted := by decide +kernel
  several := by decide +kernel
  still := by decide +kernel
  ascii := by decide +kernel

theorem simpleLower_eq : simpleLower = simple Char.toLower lowerShifts lowerExpansions := by
  funext c
  rw [simpleLower, simple, lowerText]
  generalize mapChar lowerShifts lowerExpansions c = mapped
  rfl

theorem simpleUpper_eq : simpleUpper = simple Char.toUpper upperShifts upperExpansions := by
  funext c
  rw [simpleUpper, simple, upperText]
  generalize mapChar upperShifts upperExpansions c = mapped
  rfl

theorem toLower_eq_or_isAscii (c : Char) : c.toLower = c ∨ c.toNat < 128 := by
  rcases Nat.lt_or_ge c.toNat 128 with hascii | hcode
  · exact .inr hascii
  · refine .inl (dif_neg fun hcapital => ?_)
    have hle : c.toNat ≤ 'Z'.toNat := UInt32.le_iff_toNat_le.mp hcapital.2
    exact absurd (Nat.le_trans hcode hle) (by decide)

/-- What tells no letter of ASCII from its lower case tells no character from its lower case, since
`Char.toLower` maps the letters of ASCII alone. -/
theorem apply_toLower (f : Char → β)
    (hascii : ∀ n : Fin 128, f (Char.ofNat n).toLower = f (Char.ofNat n)) (c : Char) :
    f c.toLower = f c := by
  rcases toLower_eq_or_isAscii c with hsame | hcode
  · rw [hsame]
  · have hletter := hascii ⟨c.toNat, hcode⟩
    rwa [Char.ofNat_toNat] at hletter

theorem utf8Size_toLower (c : Char) : c.toLower.utf8Size = c.utf8Size :=
  apply_toLower Char.utf8Size (by decide +kernel) c

theorem simpleLower_toLower (c : Char) : simpleLower c.toLower = simpleLower c :=
  apply_toLower simpleLower (by decide +kernel) c

theorem simpleUpper_toLower (c : Char) : simpleUpper c.toLower = simpleUpper c :=
  apply_toLower simpleUpper (by decide +kernel) c

theorem mapped_of_toLower_ne {c : Char} (hcapital : c.toLower ≠ c) :
    simpleLower c = c.toLower ∧ simpleUpper c = c := by
  have hascii : ∀ n : Fin 128, (Char.ofNat n).toLower ≠ Char.ofNat n →
      simpleLower (Char.ofNat n) = (Char.ofNat n).toLower ∧
        simpleUpper (Char.ofNat n) = Char.ofNat n := by decide +kernel
  have hcode := (toLower_eq_or_isAscii c).resolve_left hcapital
  have hletter := hascii ⟨c.toNat, hcode⟩
  rw [Char.ofNat_toNat] at hletter
  exact hletter hcapital

theorem simpleLower_simpleLower (c : Char) : simpleLower (simpleLower c) = simpleLower c := by
  rw [simpleLower_eq]
  exact settles_lower.simple_simple c

theorem simpleUpper_simpleUpper (c : Char) : simpleUpper (simpleUpper c) = simpleUpper c := by
  rw [simpleUpper_eq]
  exact settles_upper.simple_simple c

end TextColumns.Unicode
