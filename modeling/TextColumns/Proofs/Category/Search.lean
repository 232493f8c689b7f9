import TextColumns.Proofs.Category.Basic
import TextColumns.Proofs.Text.Scalars

/-!
Searching for a key by halving.  Every round keeps the smaller keys in front of the range that is
left and the greater ones behind it, so the search ends at the key, or else at the place where it
would stand.  The rows of a key are those that have its text.
-/

namespace TextColumns.CategoryTable

open Std (LawfulEqCmp OrientedCmp ReflCmp TransCmp)
open Text (compareBytes)

variable {keys : Store} {needle : ByteArray} {low high middle k : Nat}

theorem keyBytes_of_bytes? {key : ByteArray} (hkey : keys.bytes? k = some key) :
    keyBytes keys k = key := by
  rw [keyBytes, hkey, Option.getD_some]

namespace SortedKeys

theorem exists_text (hkeys : SortedKeys keys) (hk : k < keys.size) :
    ∃ text, keys.text? k = some text := by
  apply Option.ne_none_iff_exists'.mp
  intro hnone
  apply hkeys.ne_none
  rw [← Array.mem_toList_iff, Store.toList_texts, List.mem_map]
  exact ⟨k, List.mem_range.mpr hk, hnone⟩

theorem bytes?_of_text? (hkeys : SortedKeys keys) {text : String}
    (htext : keys.text? k = some text) : keys.bytes? k = some text.toByteArray := by
  rw [hkeys.valid.bytes?_eq, htext, Option.map_some]

theorem bytes?_eq (hkeys : SortedKeys keys) (hk : k < keys.size) :
    keys.bytes? k = some (keyBytes keys k) := by
  obtain ⟨text, htext⟩ := hkeys.exists_text hk
  have hbytes := hkeys.bytes?_of_text? htext
  rw [keyBytes_of_bytes? hbytes, hbytes]

theorem lt_size_of_bytes? (hkeys : SortedKeys keys) {key : ByteArray}
    (hkey : keys.bytes? k = some key) : k < keys.size := by
  rw [hkeys.valid.bytes?_eq, Option.map_eq_some_iff] at hkey
  obtain ⟨text, htext, -⟩ := hkey
  exact Store.lt_size_of_text? htext

theorem compare_keyBytes (hkeys : SortedKeys keys) {i j : Nat} (hij : i < j)
    (hj : j < keys.size) : compareBytes (keyBytes keys i) (keyBytes keys j) = .lt := by
  obtain ⟨a, ha⟩ := hkeys.exists_text (Nat.lt_trans hij hj)
  obtain ⟨b, hb⟩ := hkeys.exists_text hj
  have hrising := hkeys.rising
  rw [Store.toList_texts, Rising, List.pairwise_map] at hrising
  have hpair := List.pairwise_iff_getElem.mp hrising i j
    (by rw [List.length_range]; omega) (by rwa [List.length_range]) hij
  rw [List.getElem_range, List.getElem_range, ha, hb] at hpair
  rw [keyBytes_of_bytes? (hkeys.bytes?_of_text? ha), keyBytes_of_bytes? (hkeys.bytes?_of_text? hb)]
  exact hpair

end SortedKeys

/-- What every round keeps: the keys in front of a range are smaller than the one that is looked
for, and those behind it are greater. -/
structure Brackets (keys : Store) (needle : ByteArray) (low high : Nat) : Prop where
  low_le : low ≤ high
  high_le : high ≤ keys.size
  below : ∀ k < low, compareBytes (keyBytes keys k) needle = .lt
  above : ∀ k, high ≤ k → k < keys.size → compareBytes (keyBytes keys k) needle = .gt

theorem brackets_all (keys : Store) (needle : ByteArray) : Brackets keys needle 0 keys.size where
  low_le := Nat.zero_le _
  high_le := Nat.le_refl _
  below := nofun
  above := fun _ hle hlt => absurd hlt (Nat.not_lt.mpr hle)

namespace Brackets

theorem behind (hbrackets : Brackets keys needle low high) (hkeys : SortedKeys keys)
    (hmiddle : middle < high) (hless : compareBytes (keyBytes keys middle) needle = .lt) :
    Brackets keys needle (middle + 1) high where
  low_le := hmiddle
  high_le := hbrackets.high_le
  below := by
    intro k hk
    rcases Nat.lt_or_eq_of_le (Nat.le_of_lt_succ hk) with hk | rfl
    · have hmiddle := Nat.lt_of_lt_of_le hmiddle hbrackets.high_le
      exact TransCmp.lt_trans (hkeys.compare_keyBytes hk hmiddle) hless
    · exact hless
  above := hbrackets.above

theorem before (hbrackets : Brackets keys needle low high) (hkeys : SortedKeys keys)
    (hlow : low ≤ middle) (hmiddle : middle < high)
    (hgreater : compareBytes (keyBytes keys middle) needle = .gt) :
    Brackets keys needle low middle where
  low_le := hlow
  high_le := Nat.le_trans (Nat.le_of_lt hmiddle) hbrackets.high_le
  below := hbrackets.below
  above := by
    intro k hk hsize
    rcases Nat.lt_or_eq_of_le hk with hk | rfl
    · exact TransCmp.gt_trans (OrientedCmp.gt_of_lt (hkeys.compare_keyBytes hk hsize)) hgreater
    · exact hgreater

theorem keyBytes_ne {place : Nat} (hbrackets : Brackets keys needle place place)
    (hk : k < keys.size) : keyBytes keys k ≠ needle := by
  rintro rfl
  have hself : compareBytes (keyBytes keys k) (keyBytes keys k) = .eq := ReflCmp.compare_self
  rcases Nat.lt_or_ge k place with hlt | hge
  · rw [hbrackets.below k hlt] at hself
    cases hself
  · rw [hbrackets.above k hge hk] at hself
    cases hself

theorem unique {first second : Nat} (hfirst : Brackets keys needle first first)
    (hsecond : Brackets keys needle second second) : second ≤ first := by
  apply Nat.le_of_not_lt
  intro hlt
  have hless := hsecond.below first hlt
  rw [hfirst.above first (Nat.le_refl _) (Nat.lt_of_lt_of_le hlt hsecond.high_le)] at hless
  cases hless

end Brackets

/-- What a search comes to. -/
inductive Searched (keys : Store) (needle : ByteArray) : Except Nat Nat → Prop
  | found {k : Nat} (hk : k < keys.size) (hkey : keyBytes keys k = needle) :
      Searched keys needle (.ok k)
  | between {place : Nat} (hplace : Brackets keys needle place place) :
      Searched keys needle (.error place)

theorem SortedKeys.searched (hkeys : SortedKeys keys) (hbrackets : Brackets keys needle low high) :
    Searched keys needle (searchKeys keys needle low high) := by
  fun_induction searchKeys keys needle low high with
  | case1 low high hlt middle hless ih =>
      have hmiddle : middle < high := by omega
      exact ih (hbrackets.behind hkeys hmiddle hless)
  | case2 low high hlt middle hgreater ih =>
      have hlow : low ≤ middle := Nat.le_add_right _ _
      have hmiddle : middle < high := by omega
      exact ih (hbrackets.before hkeys hlow hmiddle hgreater)
  | case3 low high hlt middle heq =>
      have hmiddle : middle < high := by omega
      exact .found (Nat.lt_of_lt_of_le hmiddle hbrackets.high_le) (LawfulEqCmp.eq_of_compare heq)
  | case4 low high hge =>
      obtain rfl : low = high := Nat.le_antisymm hbrackets.low_le (Nat.le_of_not_lt hge)
      exact .between hbrackets

namespace Searched

variable {result : Except Nat Nat}

theorem ok_iff (hsearched : Searched keys needle result) (hkeys : SortedKeys keys) (k : Nat) :
    result = .ok k ↔ keys.bytes? k = some needle := by
  cases hsearched with
  | @found found hfound hkey =>
      constructor
      · intro heq
        cases heq
        rw [hkeys.bytes?_eq hfound, hkey]
      · intro hk
        have hsame : compareBytes (keyBytes keys found) (keyBytes keys k) = .eq := by
          rw [hkey, keyBytes_of_bytes? hk]
          exact ReflCmp.compare_self
        rcases Nat.lt_trichotomy found k with hlt | rfl | hlt
        · rw [hkeys.compare_keyBytes hlt (hkeys.lt_size_of_bytes? hk)] at hsame
          cases hsame
        · rfl
        · rw [OrientedCmp.gt_of_lt (hkeys.compare_keyBytes hlt hfound)] at hsame
          cases hsame
  | between hplace =>
      apply iff_of_false nofun
      intro hk
      exact hplace.keyBytes_ne (hkeys.lt_size_of_bytes? hk) (keyBytes_of_bytes? hk)

theorem error_iff (hsearched : Searched keys needle result) (place : Nat) :
    result = .error place ↔ Brackets keys needle place place := by
  cases hsearched with
  | found hk hkey => exact iff_of_false nofun fun hplace => hplace.keyBytes_ne hk hkey
  | between hfound =>
      constructor
      · intro heq
        cases heq
        exact hfound
      · intro hplace
        rw [Nat.le_antisymm (hplace.unique hfound) (hfound.unique hplace)]

end Searched

/-- The place where a key would stand, by the keys on either side. -/
theorem SortedKeys.brackets_iff (hkeys : SortedKeys keys) (place : Nat) :
    Brackets keys needle place place ↔ place ≤ keys.size ∧
      (∀ k < place, ∀ key, keys.bytes? k = some key →
        key.data.toList < needle.data.toList) ∧
      ∀ k, place ≤ k → ∀ key, keys.bytes? k = some key →
        needle.data.toList < key.data.toList := by
  constructor
  · intro hplace
    refine ⟨hplace.high_le, fun k hk key hkey => ?_, fun k hk key hkey => ?_⟩
    · rw [← Text.compareBytes_eq_lt, ← keyBytes_of_bytes? hkey]
      exact hplace.below k hk
    · rw [← Text.compareBytes_eq_lt, ← keyBytes_of_bytes? hkey]
      exact OrientedCmp.lt_of_gt (hplace.above k hk (hkeys.lt_size_of_bytes? hkey))
  · rintro ⟨hsize, hbelow, habove⟩
    refine ⟨Nat.le_refl _, hsize, fun k hk => ?_, fun k hk hksize => ?_⟩
    · exact Text.compareBytes_eq_lt.mpr
        (hbelow k hk _ (hkeys.bytes?_eq (Nat.lt_of_lt_of_le hk hsize)))
    · exact OrientedCmp.gt_of_lt
        (Text.compareBytes_eq_lt.mpr (habove k hk _ (hkeys.bytes?_eq hksize)))

theorem SortedKeys.indexOf?_eq_some (hkeys : SortedKeys keys) {needle : String} :
    indexOf? keys needle = some k ↔ keys.text? k = some needle := by
  have hsearched := hkeys.searched (brackets_all keys needle.toByteArray)
  have hfound : indexOf? keys needle = some k ↔
      searchKeys keys needle.toByteArray 0 keys.size = .ok k := by
    rw [indexOf?]
    cases searchKeys keys needle.toByteArray 0 keys.size <;> simp
  rw [hfound, hsearched.ok_iff hkeys, hkeys.valid.bytes?_eq, Option.map_eq_some_iff]
  constructor
  · rintro ⟨text, htext, hbytes⟩
    rw [htext, String.toByteArray_inj.mp hbytes]
  · intro htext
    exact ⟨needle, htext, rfl⟩

variable {table : CategoryTable}

theorem Checked.textOfCode_eq_some (hchecked : table.Checked) {key : String}
    (hkey : table.keyIndex? key = some k) {code : Int32} (hcode : CodeInside table.keyCount code) :
    textOfCode table.keys code = some key ↔ code.toInt = k := by
  rcases hcode with rfl | ⟨place, hplace, -⟩
  · rw [textOfCode_missing]
    refine iff_of_false nofun fun hmissing => ne_missing_of_toInt hmissing rfl
  · rw [textOfCode_of_toInt _ hplace, ← hchecked.keys.indexOf?_eq_some, ← keyIndex?, hkey,
      Option.some_inj, hplace, Int.ofNat_inj]
    exact eq_comm

/-- A code is the place of a key, cut down to the size of a code, just if it is that place, as long
as nothing is left of the place that is the code of missing rows. -/
theorem CodeInside.eq_ofNat_iff {keyCount : Nat} {code : Int32} (hcode : CodeInside keyCount code)
    (hk : k + 1 < Int32.size) : code = Int32.ofNat k ↔ code.toInt = k := by
  have hsize : Int32.size = 4294967296 := rfl
  have hcut : (Int32.ofNat k).toInt = (k : Int).bmod 4294967296 := Int32.toInt_ofNat'
  constructor
  · rintro rfl
    rcases hcode with hmissing | ⟨place, hplace, -⟩
    · rw [hmissing] at hcut
      have hcut : (-1 : Int) = (k : Int).bmod 4294967296 := hcut
      rw [Int.bmod_def] at hcut
      omega
    · rw [hcut, Int.bmod_def] at hplace
      rw [hcut, Int.bmod_def]
      omega
  · intro hcode
    exact Int32.toInt.inj (hcode.trans (toInt_ofNat_of_le (le_maxKeys_of_toInt hcode)).symm)

theorem Checked.mem_rowsOfKey (hchecked : table.Checked) {key : String}
    (hplace : ∀ k, table.keyIndex? key = some k → k + 1 < Int32.size) (row : Nat) :
    row ∈ table.rowsOfKey key ↔ table.decoded[row]? = some (some key) := by
  rw [decoded, List.getElem?_map, Array.getElem?_toList, Option.map_eq_some_iff]
  cases hkey : table.keyIndex? key with
  | none =>
      rw [rowsOfKey, hkey]
      apply iff_of_false List.not_mem_nil
      rintro ⟨code, hcode, htext⟩
      rcases hchecked.code_inside code (Array.mem_of_getElem? hcode) with rfl | ⟨k, hk, -⟩
      · rw [textOfCode_missing] at htext
        cases htext
      · rw [textOfCode_of_toInt _ hk, ← hchecked.keys.indexOf?_eq_some, ← keyIndex?, hkey] at htext
        cases htext
  | some k =>
      have hcode {code} (hrow : table.codes[row]? = some code) :
          code = Int32.ofNat k ↔ textOfCode table.keys code = some key := by
        have hinside := hchecked.code_inside code (Array.mem_of_getElem? hrow)
        exact (hinside.eq_ofNat_iff (hplace k hkey)).trans
          (hchecked.textOfCode_eq_some hkey hinside).symm
      rw [rowsOfKey, hkey, List.mem_filter, List.mem_range, beq_iff_eq]
      constructor
      · rintro ⟨-, hrow⟩
        exact ⟨_, hrow, (hcode hrow).mp rfl⟩
      · rintro ⟨code, hrow, htext⟩
        rw [(hcode hrow).mpr htext] at hrow
        exact ⟨(Array.getElem?_eq_some_iff.mp hrow).1, hrow⟩

theorem pairwise_rowsOfKey (table : CategoryTable) (key : String) :
    (table.rowsOfKey key).Pairwise (· < ·) := by
  rw [rowsOfKey]
  cases table.keyIndex? key with
  | none => exact .nil
  | some k => exact List.pairwise_lt_range.filter _

/-- The search over rising keys ends at a key just if that is the one that is looked for, and
otherwise between the smaller and the greater ones.  In a table that the check accepts, the index of
a key is its place, and the rows of a key, which rise, are those that decode to it, unless the place
of the key is one at which nothing is left of it but the code of missing rows. -/
theorem search_finds_keys (keys : Store) (table : CategoryTable) :
    (SortedKeys keys → ∀ needle : ByteArray,
      (∀ k, searchKeys keys needle 0 keys.size = .ok k ↔ keys.bytes? k = some needle) ∧
      ∀ place, searchKeys keys needle 0 keys.size = .error place ↔ place ≤ keys.size ∧
        (∀ k < place, ∀ key, keys.bytes? k = some key → key.data.toList < needle.data.toList) ∧
        ∀ k, place ≤ k → ∀ key, keys.bytes? k = some key →
          needle.data.toList < key.data.toList) ∧
    (table.keys.Valid → table.check = .ok () → ∀ key : String,
      (∀ k, table.keyIndex? key = some k ↔ table.keys.text? k = some key) ∧
      (table.rowsOfKey key).Pairwise (· < ·) ∧
      ((∀ k, table.keyIndex? key = some k → k + 1 < Int32.size) →
        (∀ row, row ∈ table.rowsOfKey key ↔ table.decoded[row]? = some (some key)) ∧
        ∀ rows, table.toStore = .ok rows →
          ∀ row, row ∈ table.rowsOfKey key ↔ rows.text? row = some key)) := by
  constructor
  · intro hkeys needle
    have hsearched := hkeys.searched (brackets_all keys needle)
    refine ⟨hsearched.ok_iff hkeys, fun place => ?_⟩
    rw [hsearched.error_iff, hkeys.brackets_iff]
  · intro hvalid hcheck key
    have hchecked := (check_eq_ok_iff hvalid).mp hcheck
    refine ⟨fun k => hchecked.keys.indexOf?_eq_some, table.pairwise_rowsOfKey key,
      fun hplace => ⟨hchecked.mem_rowsOfKey hplace, ?_⟩⟩
    intro rows hrows row
    rw [hchecked.mem_rowsOfKey hplace, ← hchecked.texts_of_toStore hrows, Store.texts_getElem?]

/-- A text that would stand between the keys, and a key that several rows have. -/
theorem search_finds_keys_between :
    ∃ keys, Store.ofTexts [some "a", some "c"] = .ok keys ∧ SortedKeys keys ∧
      searchKeys keys "b".toByteArray 0 keys.size = .error 1 ∧
      check ⟨keys, #[1, -1, 0, 1]⟩ = .ok () ∧
      ∀ row, row ∈ rowsOfKey ⟨keys, #[1, -1, 0, 1]⟩ "c" ↔ row = 0 ∨ row = 3 := by
  obtain ⟨keys, hkeys, htexts, hchecked⟩ := @exists_checked [some "a", some "c"] #[1, -1, 0, 1]
    (by decide) (by simp only [Rising, Text.compareOptional, Text.compare_eq]; decide) (by decide)
    (by decide)
  have hcheck := (check_eq_ok_iff hchecked.keys.valid).mpr hchecked
  have hfirst : keys.text? 0 = some "a" := by rw [← Store.texts_getElem?, htexts]; rfl
  have hsecond : keys.text? 1 = some "c" := by rw [← Store.texts_getElem?, htexts]; rfl
  have hsize : keys.size = 2 := by
    rw [← keys.length_toList_texts, htexts]
    rfl
  have hrows : decoded ⟨keys, #[1, -1, 0, 1]⟩ = [some "c", none, some "a", some "c"] := by
    simp only [decoded, textOfCode, missing, List.map_cons, List.map_nil]
    simp [hfirst, hsecond]
  obtain ⟨hsearch, htable⟩ := search_finds_keys keys ⟨keys, #[1, -1, 0, 1]⟩
  obtain ⟨-, hplace⟩ := hsearch hchecked.keys "b".toByteArray
  obtain ⟨hindex, -, hdecodes⟩ := htable hchecked.keys.valid hcheck "c"
  obtain ⟨hmem, -⟩ := hdecodes fun k hk => by
    have hlt : k < keys.size := Store.lt_size_of_text? ((hindex k).mp hk)
    have hsize : Int32.size = 4294967296 := rfl
    omega
  refine ⟨keys, hkeys, hchecked.keys, (hplace 1).mpr ⟨by omega, ?_, ?_⟩, hcheck, fun row => ?_⟩
  · intro k hk key hkey
    obtain rfl : k = 0 := Nat.lt_one_iff.mp hk
    rw [hchecked.keys.bytes?_of_text? hfirst, Option.some_inj] at hkey
    rw [← hkey]
    decide
  · intro k hk key hkey
    have hlt : k < keys.size := hchecked.keys.lt_size_of_bytes? hkey
    obtain rfl : k = 1 := by omega
    rw [hchecked.keys.bytes?_of_text? hsecond, Option.some_inj] at hkey
    rw [← hkey]
    decide
  · rw [hmem, hrows]
    rcases row with _ | _ | _ | _ | row <;> simp

/-- One of `2 ^ 32` texts that rise with their numbers. -/
def wideKey (k : Nat) : String :=
  String.ofList [Char.ofNat (65536 + k / 65536), Char.ofNat (65536 + k % 65536)]

theorem toNat_ofNat_of_lt {n : Nat} (hn : n < 65536) :
    (Char.ofNat (65536 + n)).toNat = 65536 + n := by
  have hvalid : (65536 + n).isValidChar := .inr (by omega)
  rw [Char.ofNat, dif_pos hvalid]
  rfl

theorem scalars_wideKey (hk : k < Int32.size) :
    Text.scalars (wideKey k) = [65536 + k / 65536, 65536 + k % 65536] := by
  have hsize : Int32.size = 4294967296 := rfl
  rw [Text.scalars, wideKey, String.toList_ofList, List.map_cons, List.map_singleton,
    toNat_ofNat_of_lt (by omega), toNat_ofNat_of_lt (by omega)]

theorem compare_wideKey {i j : Nat} (hij : i < j) (hj : j < Int32.size) :
    Text.compare (wideKey i) (wideKey j) = .lt := by
  rw [Text.compare_eq_scalars, scalars_wideKey (Nat.lt_trans hij hj), scalars_wideKey hj,
    List.compare_cons_cons, List.compare_cons_cons, Text.compare_add_left, Text.compare_add_left,
    Std.ReflOrd.compare_self, Ordering.then_eq, Text.compare_div_mod]
  exact Nat.compare_eq_lt.mpr hij

theorem utf8ByteSize_wideKey_le (k : Nat) : (wideKey k).utf8ByteSize ≤ 8 := by
  have hfirst := (Char.ofNat (65536 + k / 65536)).utf8Size_le_four
  have hsecond := (Char.ofNat (65536 + k % 65536)).utf8Size_le_four
  rw [wideKey, Text.utf8ByteSize_ofList]
  simp only [Text.sizeOf]
  omega

theorem exists_wideKeys : ∃ keys, SortedKeys keys ∧ keys.size = Int32.size ∧
    ∀ k < Int32.size, keys.text? k = some (wideKey k) := by
  obtain ⟨texts, htexts⟩ : ∃ texts, texts = (List.range Int32.size).map (some ∘ wideKey) := ⟨_, rfl⟩
  have hlength : texts.length = Int32.size := by rw [htexts, List.length_map, List.length_range]
  have hsize : ∀ text, some text ∈ texts → text.utf8ByteSize ≤ 8 := by
    intro text htext
    rw [htexts] at htext
    obtain ⟨k, -, hk⟩ := List.mem_map.mp htext
    rw [← Option.some.inj hk]
    exact utf8ByteSize_wideKey_le k
  obtain ⟨keys, hkeys⟩ := Store.exists_ofTexts
    (fun text htext => Nat.le_trans (hsize text htext) (by decide))
    (Nat.le_trans (total_textSizes_le hsize) (by rw [hlength]; decide))
  have hread := Store.texts_ofTexts hkeys
  refine ⟨keys, ⟨Store.valid_of_build hkeys, ?_, ?_⟩, ?_, fun k hk => ?_⟩
  · rw [hread, htexts, Rising, List.pairwise_map]
    exact List.pairwise_lt_range.imp_of_mem fun _ hj hij =>
      compare_wideKey hij (List.mem_range.mp hj)
  · rw [← Array.mem_toList_iff, hread, htexts]
    simp
  · rw [← keys.length_toList_texts, hread, hlength]
  · rw [Store.text?_eq_getD, hread, htexts, List.getElem?_map, List.getElem?_range hk]
    rfl

/-- The place of the last key is cut down to the code of missing rows, which are then found. -/
theorem rowsOfKey_last_wideKeys :
    ∃ (table : CategoryTable) (key : String), table.keys.Valid ∧ table.check = .ok () ∧
      table.keyIndex? key = some 4294967295 ∧ table.decoded = [none] ∧
      table.rowsOfKey key = [0] := by
  obtain ⟨keys, hkeys, hsize, htexts⟩ := exists_wideKeys
  let table : CategoryTable := ⟨keys, #[missing]⟩
  have hchecked : table.Checked := ⟨hkeys, fun code hcode => .inl (by simpa [table] using hcode)⟩
  have hkey : table.keyIndex? (wideKey 4294967295) = some 4294967295 :=
    hkeys.indexOf?_eq_some.mpr (htexts _ (by decide))
  refine ⟨table, wideKey 4294967295, hkeys.valid, (check_eq_ok_iff hkeys.valid).mpr hchecked, hkey,
    rfl, ?_⟩
  rw [rowsOfKey, hkey]
  rfl

end TextColumns.CategoryTable
