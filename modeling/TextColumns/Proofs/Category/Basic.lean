import TextColumns.Category.Basic
import TextColumns.Proofs.Store.Limits
import TextColumns.Proofs.Text.Order

/-!
What the check of a category table accepts, and the texts that the rows of a table have.
-/

namespace TextColumns.CategoryTable

open Std (ReflCmp TransCmp)

def Rising (keys : List (Option String)) : Prop :=
  keys.Pairwise fun a b => Text.compareOptional a b = .lt

structure SortedKeys (keys : Store) : Prop where
  valid : keys.Valid
  rising : Rising keys.texts.toList
  ne_none : none ∉ keys.texts

/-- Whether a code is the place of one of so many keys, or none. -/
def CodeInside (keyCount : Nat) (code : Int32) : Prop :=
  code = missing ∨ ∃ k : Nat, code.toInt = k ∧ k < keyCount

structure Checked (table : CategoryTable) : Prop where
  keys : SortedKeys table.keys
  code_inside : ∀ code ∈ table.codes, CodeInside table.keyCount code

def textOfCode (keys : Store) (code : Int32) : Option String :=
  if code = missing then none else keys.text? code.toNatClampNeg

def decoded (table : CategoryTable) : List (Option String) :=
  table.codes.toList.map (textOfCode table.keys)

variable {table : CategoryTable} {code : Int32} {k : Nat}

theorem ne_missing_of_toInt (hcode : code.toInt = k) : code ≠ missing := by
  rintro rfl
  have hk : (-1 : Int) = k := hcode
  omega

theorem toNatClampNeg_of_toInt (hcode : code.toInt = k) : code.toNatClampNeg = k := by
  rw [← Int32.toNat_toInt, hcode, Int.toNat_natCast]

theorem toInt_ofNat_of_le (hk : k ≤ maxKeys) : (Int32.ofNat k).toInt = k :=
  Int32.toInt_ofNat_of_lt (Nat.lt_succ_of_le hk)

theorem le_maxKeys_of_toInt (hcode : code.toInt = k) : k ≤ maxKeys := by
  have hlt := code.toInt_lt
  rw [hcode] at hlt
  have hk : (k : Int) < 2147483648 := hlt
  have hmax : maxKeys = 2147483647 := rfl
  omega

theorem rising_cons_cons {previous key : Option String} {rest : List (Option String)} :
    Rising (previous :: key :: rest) ↔
      Text.compareOptional previous key = .lt ∧ Rising (key :: rest) := by
  rw [Rising, List.pairwise_cons]
  constructor
  · intro hrising
    exact ⟨hrising.1 key (.head _), hrising.2⟩
  · intro hrising
    refine ⟨?_, hrising.2⟩
    intro other hother
    cases hother with
    | head => exact hrising.1
    | tail _ hrest =>
        exact TransCmp.lt_trans hrising.1 ((List.pairwise_cons.mp hrising.2).1 other hrest)

theorem Rising.nodup {keys : List (Option String)} (hrising : Rising keys) : keys.Nodup := by
  refine hrising.imp fun {a b} hless heq => ?_
  rw [heq, @ReflCmp.compare_self _ Text.compareOptional] at hless
  cases hless

theorem firstUnsorted?_eq_none {previous : Option String} {k : Nat} {keys : List (Option String)} :
    firstUnsorted? previous k keys = none ↔ Rising (previous :: keys) := by
  induction keys generalizing previous k with
  | nil => exact iff_of_true rfl (List.pairwise_singleton _ _)
  | cons key rest ih =>
      rw [firstUnsorted?, rising_cons_cons, ← ih]
      by_cases hless : Text.compareOptional previous key = .lt
      · rw [if_pos (beq_iff_eq.mpr hless), and_iff_right hless]
      · rw [if_neg (beq_iff_eq.not.mpr hless)]
        exact iff_of_false nofun fun hrising => hless hrising.1

theorem compareOptional_none_eq_lt {text : Option String} :
    Text.compareOptional none text = .lt ↔ text ≠ none := by
  cases text with
  | none => exact iff_of_false nofun fun hne => hne rfl
  | some text => exact iff_of_true rfl nofun

theorem codeInside_iff {keyCount : Nat} :
    CodeInside keyCount code ↔
      ¬ (code ≠ missing && (code < 0 || (keyCount : Int) ≤ code.toInt)) = true := by
  have hnegative : code < 0 ↔ code.toInt < 0 := Int32.lt_iff_toInt_lt
  simp only [Bool.and_eq_true, Bool.or_eq_true, decide_eq_true_eq, hnegative, not_and_or,
    not_or, Decidable.not_not]
  refine or_congr_right ⟨fun hinside => ?_, fun hinside => ?_⟩
  · obtain ⟨k, hcode, hk⟩ := hinside
    omega
  · exact ⟨code.toInt.toNat, by omega, by omega⟩

theorem firstOutside?_eq_none {keyCount : Nat} {codes : Array Int32} :
    firstOutside? keyCount codes = none ↔ ∀ code ∈ codes, CodeInside keyCount code := by
  rw [firstOutside?, List.find?_eq_none]
  constructor
  · intro hnone code hmem
    obtain ⟨row, hrow⟩ := List.mem_iff_getElem?.mp (Array.mem_toList_iff.mpr hmem)
    exact codeInside_iff.mpr (hnone (code, row) (List.mem_zipIdx_iff_getElem?.mpr hrow))
  · intro hinside entry hentry
    have hmem := List.mem_of_getElem? (List.mem_zipIdx_iff_getElem?.mp hentry)
    exact codeInside_iff.mp (hinside entry.1 (Array.mem_toList_iff.mp hmem))

theorem check_eq_ok_iff (hvalid : table.keys.Valid) : table.check = .ok () ↔ table.Checked := by
  have hcount : table.keys.nullCount = 0 ↔ none ∉ table.keys.texts := by
    rw [hvalid.nullCount_eq_countP, List.countP_eq_zero, ← Array.mem_toList_iff]
    constructor
    · intro hnone hmem
      exact hnone none hmem rfl
    · intro hmem text htext hnone
      exact hmem (Option.isNone_iff_eq_none.mp hnone ▸ htext)
  rw [check]
  by_cases hnulls : 0 < table.keys.nullCount
  · rw [if_pos hnulls]
    refine iff_of_false nofun fun hchecked => ?_
    exact Nat.ne_of_gt hnulls (hcount.mpr hchecked.keys.ne_none)
  · have hnone := hcount.mp (Nat.eq_zero_of_not_pos hnulls)
    rw [if_neg hnulls]
    cases hunsorted : firstUnsorted? none 0 table.keys.texts.toList with
    | some k =>
        refine iff_of_false nofun fun hchecked => ?_
        have hrising : firstUnsorted? none 0 table.keys.texts.toList = none := by
          refine firstUnsorted?_eq_none.mpr (List.pairwise_cons.mpr ⟨?_, hchecked.keys.rising⟩)
          intro key hkey
          refine compareOptional_none_eq_lt.mpr fun heq => hnone ?_
          exact heq ▸ Array.mem_toList_iff.mp hkey
        rw [hunsorted] at hrising
        cases hrising
    | none =>
        have hrising := (List.pairwise_cons.mp (firstUnsorted?_eq_none.mp hunsorted)).2
        cases houtside : firstOutside? table.keyCount table.codes with
        | some entry =>
            refine iff_of_false nofun fun hchecked => ?_
            rw [firstOutside?_eq_none.mpr hchecked.code_inside] at houtside
            cases houtside
        | none =>
            have hinside := firstOutside?_eq_none.mp houtside
            exact iff_of_true rfl ⟨⟨hvalid, hrising, hnone⟩, hinside⟩

theorem exists_checked {texts : List (Option String)} {codes : Array Int32}
    (htotal : total (textSizes texts) ≤ Store.maxElementSize) (hrising : Rising texts)
    (hnone : none ∉ texts) (hcodes : firstOutside? texts.length codes = none) :
    ∃ keys, Store.ofTexts texts = .ok keys ∧ keys.texts.toList = texts ∧
      Checked ⟨keys, codes⟩ := by
  obtain ⟨keys, hkeys, hvalid, htexts⟩ := Store.exists_of_total htotal
  have hsize : keys.size = texts.length := by
    rw [← keys.length_toList_texts, htexts]
  refine ⟨keys, hkeys, htexts, ⟨hvalid, ?_, ?_⟩, ?_⟩
  · exact htexts ▸ hrising
  · rwa [← Array.mem_toList_iff, htexts]
  · rwa [← firstOutside?_eq_none, keyCount, hsize]

theorem textOfCode_missing (keys : Store) : textOfCode keys missing = none :=
  if_pos rfl

theorem textOfCode_of_toInt (keys : Store) (hcode : code.toInt = k) :
    textOfCode keys code = keys.text? k := by
  rw [textOfCode, if_neg (ne_missing_of_toInt hcode), toNatClampNeg_of_toInt hcode]

theorem bind_code? (table : CategoryTable) (row : Nat) :
    (table.code? row).bind table.keys.text? = table.codes[row]?.bind (textOfCode table.keys) := by
  rw [code?]
  cases table.codes[row]? with
  | none => rfl
  | some code =>
      rw [Option.bind_some, textOfCode, Option.filter_some]
      by_cases hcode : code = missing
      · simp [hcode]
      · simp [hcode]

theorem decoded_eq_codesByRow (table : CategoryTable) :
    table.decoded = table.codesByRow.map (·.bind table.keys.text?) := by
  rw [decoded, codesByRow, List.map_map]
  refine List.ext_getElem? fun row => ?_
  rw [List.getElem?_map, List.getElem?_map, Array.getElem?_toList]
  by_cases hrow : row < table.size
  · have hcode := bind_code? table row
    rw [Array.getElem?_eq_getElem hrow] at hcode ⊢
    rw [List.getElem?_range hrow]
    exact congrArg some hcode.symm
  · have hle := Nat.le_of_not_lt hrow
    rw [Array.getElem?_eq_none hle, List.getElem?_eq_none (by simpa using hle)]
    rfl

theorem Checked.code?_lt (hchecked : table.Checked) {row k : Nat}
    (hcode : table.code? row = some k) : k < table.keyCount := by
  rw [code?, Option.map_eq_some_iff] at hcode
  obtain ⟨code, hcode, rfl⟩ := hcode
  obtain ⟨hcode, hne⟩ := Option.filter_eq_some_iff.mp hcode
  rcases hchecked.code_inside code (Array.mem_of_getElem? hcode) with rfl | ⟨k, hk, hlt⟩
  · simp at hne
  · rwa [toNatClampNeg_of_toInt hk]

theorem Checked.toStore_eq (hchecked : table.Checked) :
    table.toStore = Store.ofTexts table.decoded := by
  rw [toStore, hchecked.keys.valid.gatherOptional_eq, decoded_eq_codesByRow]
  intro k hk
  obtain ⟨row, -, hcode⟩ := List.mem_map.mp hk
  exact hchecked.code?_lt hcode

theorem Checked.texts_of_toStore (hchecked : table.Checked) {store : Store}
    (hstore : table.toStore = .ok store) : store.texts.toList = table.decoded := by
  rw [hchecked.toStore_eq] at hstore
  exact Store.texts_ofTexts hstore

end TextColumns.CategoryTable
