import TextColumns.Category.Keys
import TextColumns.Proofs.Category.Encoding
import TextColumns.Proofs.Category.Search
import Mathlib.Data.List.NodupEquivFin
import Mathlib.Data.Set.Basic
import Mathlib.Order.WellFounded

/-!
Other keys for a table.  A text is found among rising keys by halving if it is one of them, and so
every row keeps its text if that is still a key.
-/

namespace TextColumns

def Store.textSet (store : Store) : Set String :=
  {text | some text ∈ store.texts}

namespace CategoryTable

variable {table result : CategoryTable} {keys : Store}

theorem SortedKeys.indexOf?_eq_none (hkeys : SortedKeys keys) {needle : String} :
    indexOf? keys needle = none ↔ needle ∉ keys.textSet := by
  have hmem : needle ∈ keys.textSet ↔ ∃ k, indexOf? keys needle = some k :=
    Store.some_mem_texts.trans (exists_congr fun k => hkeys.indexOf?_eq_some.symm)
  rw [hmem, ← Option.isSome_iff_exists, Option.not_isSome_iff_eq_none]

open Classical in
noncomputable def restrict (keys : Set String) (text : Option String) : Option String :=
  text.filter (· ∈ keys)

theorem restrict_of_mem {keys : Set String} {text : String} (hmem : text ∈ keys) :
    restrict keys (some text) = some text := by
  rw [restrict, Option.filter_some, if_pos (by simpa using hmem)]

theorem restrict_of_notMem {keys : Set String} {text : String} (hmem : text ∉ keys) :
    restrict keys (some text) = none := by
  rw [restrict, Option.filter_some, if_neg (by simpa using hmem)]

theorem map_restrict_eq_self {rows : List (Option String)} {keys : Set String}
    (hkeys : ∀ text, some text ∈ rows → text ∈ keys) : rows.map (restrict keys) = rows := by
  refine (List.map_congr_left fun text htext => ?_).trans (List.map_id rows)
  cases text with
  | none => rfl
  | some text => exact restrict_of_mem (hkeys text htext)

theorem map_restrict_congr {rows : List (Option String)} {a b : Set String}
    (hsame : ∀ text, some text ∈ rows → (text ∈ a ↔ text ∈ b)) :
    rows.map (restrict a) = rows.map (restrict b) := by
  refine List.map_congr_left fun text htext => ?_
  cases text with
  | none => rfl
  | some text =>
      by_cases hmem : text ∈ a
      · rw [restrict_of_mem hmem, restrict_of_mem ((hsame text htext).mp hmem)]
      · rw [restrict_of_notMem hmem, restrict_of_notMem ((hsame text htext).not.mp hmem)]

theorem mem_textSet_of_textOfCode {code : Int32} {text : String}
    (htext : textOfCode keys code = some text) : text ∈ keys.textSet := by
  rw [textOfCode] at htext
  split at htext
  · cases htext
  · exact Store.some_mem_texts.mpr ⟨_, htext⟩

theorem mem_textSet_of_decoded {text : String}
    (htext : some text ∈ table.decoded) : text ∈ table.keys.textSet := by
  obtain ⟨code, -, hcode⟩ := List.mem_map.mp htext
  exact mem_textSet_of_textOfCode hcode

def recodeOne (keys newKeys : Store) (code : Int32) : Int32 :=
  if code = missing then missing else (keyMap keys newKeys)[code.toNatClampNeg]?.getD missing

theorem recodeOne_of_toInt {newKeys : Store} {code : Int32} {k : Nat} {text : String}
    (hcode : code.toInt = k) (htext : keys.text? k = some text) :
    recodeOne keys newKeys code =
      match indexOf? newKeys text with
      | some place => Int32.ofNat place
      | none => missing := by
  have hentry : keys.texts[k]? = some (some text) := by
    rw [← Array.getElem?_toList]
    exact (Store.texts_getElem? k text).mpr htext
  rw [recodeOne, if_neg (ne_missing_of_toInt hcode), toNatClampNeg_of_toInt hcode, keyMap,
    Array.getElem?_map, hentry]
  rfl

/-- Whether a key that has a code can have one among other keys as well: the place there is none
that a code would cut down. -/
def InReach (keys newKeys : Store) : Prop :=
  ∀ ⦃k place text⦄, k ≤ maxKeys → keys.text? k = some text → newKeys.text? place = some text →
    place ≤ maxKeys

theorem inReach_of_size {newKeys : Store} (hsize : newKeys.size ≤ maxKeys) :
    InReach keys newKeys := fun _ _ _ _ _ hplace =>
  Nat.le_trans (Nat.le_of_lt (Store.lt_size_of_text? hplace)) hsize

theorem SortedKeys.inReach_of_sublist (hkeys : SortedKeys keys) {newKeys : Store}
    (hsublist : newKeys.texts.toList.Sublist keys.texts.toList) : InReach keys newKeys := by
  intro k place text hk htext hplace
  obtain ⟨embed, hembed⟩ := List.sublist_iff_exists_orderEmbedding_getElem?_eq.mp hsublist
  have hold := (Store.texts_getElem? k text).mpr htext
  have hsame := (hembed place).symm.trans ((Store.texts_getElem? place text).mpr hplace)
  obtain ⟨hlt, -⟩ := List.getElem?_eq_some_iff.mp hsame
  have heq : embed place = k :=
    (List.getElem?_inj hlt hkeys.rising.nodup).mp (hsame.trans hold.symm)
  calc place
    _ ≤ embed place := embed.strictMono.le_apply
    _ = k := heq
    _ ≤ maxKeys := hk

/-- A row keeps its text if that is still a key, and loses it otherwise. -/
theorem SortedKeys.recodeOne_spec (hkeys : SortedKeys keys) {newKeys : Store}
    (hnew : SortedKeys newKeys) (hreach : InReach keys newKeys) {code : Int32}
    (hcode : CodeInside keys.size code) :
    CodeInside newKeys.size (recodeOne keys newKeys code) ∧
      textOfCode newKeys (recodeOne keys newKeys code) =
        restrict newKeys.textSet (textOfCode keys code) := by
  rcases hcode with rfl | ⟨k, hcode, hk⟩
  · rw [recodeOne, if_pos rfl, textOfCode_missing, textOfCode_missing]
    exact ⟨.inl rfl, rfl⟩
  · obtain ⟨text, htext⟩ := hkeys.exists_text hk
    rw [recodeOne_of_toInt hcode htext, textOfCode_of_toInt _ hcode, htext]
    cases hplace : indexOf? newKeys text with
    | some place =>
        have hnewText := hnew.indexOf?_eq_some.mp hplace
        have hmem : text ∈ newKeys.textSet := Store.some_mem_texts.mpr ⟨place, hnewText⟩
        have hnumber : (Int32.ofNat place).toInt = place :=
          toInt_ofNat_of_le (hreach (le_maxKeys_of_toInt hcode) htext hnewText)
        refine ⟨.inr ⟨place, hnumber, Store.lt_size_of_text? hnewText⟩, ?_⟩
        rw [textOfCode_of_toInt _ hnumber, hnewText, restrict_of_mem hmem]
    | none =>
        have hmem := hnew.indexOf?_eq_none.mp hplace
        refine ⟨.inl rfl, ?_⟩
        rw [textOfCode_missing, restrict_of_notMem hmem]

theorem recode_eq (table : CategoryTable) (newKeys : Store) :
    table.recode newKeys = table.codes.map (recodeOne table.keys newKeys) :=
  rfl

theorem Checked.recode (hchecked : table.Checked) {newKeys : Store} (hnew : SortedKeys newKeys)
    (hreach : InReach table.keys newKeys) :
    (∀ code ∈ table.recode newKeys, CodeInside newKeys.size code) ∧
      (table.recode newKeys).toList.map (textOfCode newKeys) =
        table.decoded.map (restrict newKeys.textSet) := by
  rw [recode_eq]
  constructor
  · intro code hcode
    obtain ⟨old, hold, rfl⟩ := Array.mem_map.mp hcode
    exact (hchecked.keys.recodeOne_spec hnew hreach (hchecked.code_inside old hold)).1
  · rw [Array.toList_map, List.map_map, decoded, List.map_map]
    refine List.map_congr_left fun old hold => ?_
    have hinside := hchecked.code_inside old (Array.mem_toList_iff.mp hold)
    exact (hchecked.keys.recodeOne_spec hnew hreach hinside).2

theorem Checked.withKeys (hchecked : table.Checked) {newKeys : Store}
    (hnew : SortedKeys newKeys) (hreach : InReach table.keys newKeys) :
    (table.withKeys newKeys).Checked ∧
      (table.withKeys newKeys).decoded = table.decoded.map (restrict newKeys.textSet) := by
  obtain ⟨hinside, htexts⟩ := hchecked.recode hnew hreach
  exact ⟨⟨hnew, hinside⟩, htexts⟩

theorem distinctTexts_spec {stores : List Store} (hvalid : ∀ store ∈ stores, store.Valid)
    (hkeys : distinctTexts stores = .ok keys) :
    SortedKeys keys ∧ keys.size ≤ maxKeys ∧
      ∀ text, text ∈ keys.textSet ↔ ∃ store ∈ stores, text ∈ store.textSet := by
  rw [distinctTexts] at hkeys
  cases hall : Store.concat stores with
  | error failure =>
      rw [hall] at hkeys
      cases hkeys
  | ok all =>
      obtain ⟨hallValid, htexts⟩ := Store.valid_concat hvalid hall
      rw [hall] at hkeys
      cases htable : ofStore all with
      | error failure =>
          simp only [htable] at hkeys
          cases hkeys
      | ok encoded =>
          simp only [htable] at hkeys
          cases hkeys
          have hencodes := encodes_of_ofStore hallValid htable
          have hcard := (le_maxKeys_of_ofStore hallValid htable).1
          refine ⟨hencodes.sortedKeys, hencodes.keyCount_eq.trans_le hcard, fun text => ?_⟩
          have hmem : text ∈ encoded.keys.textSet ↔ some text ∈ all.texts.toList :=
            (hencodes.mem_keys (some text)).trans
              ((and_iff_left nofun).trans Array.mem_toList_iff.symm)
          rw [hmem, htexts, List.mem_flatMap]
          exact exists_congr fun store => and_congr_right fun _ => Array.mem_toList_iff

theorem exists_distinctTexts_of_card {stores : List Store}
    (hvalid : ∀ store ∈ stores, store.Valid)
    (hbytes : total (stores.map Store.valueBytes) ≤ Store.maxBufferSize)
    (hcard : ((stores.flatMap (·.texts.toList)).filterMap id).toFinset.card ≤ maxKeys) :
    ∃ keys, distinctTexts stores = .ok keys := by
  have hsize : ∀ text, some text ∈ stores.flatMap (·.texts.toList) →
      text.utf8ByteSize ≤ Store.maxElementSize := by
    intro text htext
    obtain ⟨store, hstore, htext⟩ := List.mem_flatMap.mp htext
    exact (hvalid store hstore).size_le_of_text (Array.mem_toList_iff.mp htext)
  have htotal : total (textSizes (stores.flatMap (·.texts.toList))) =
      total (stores.map Store.valueBytes) := by
    rw [textSizes, List.map_flatMap, total_flatMap]
    refine congrArg total (List.map_congr_left fun store hstore => ?_)
    exact (hvalid store hstore).valueBytes_eq.symm
  obtain ⟨all, hall⟩ := Store.exists_ofTexts hsize (htotal ▸ hbytes)
  rw [← Store.texts_ofTexts hall] at hcard
  obtain ⟨table, htable, -⟩ := exists_ofStore (Store.valid_of_build hall) hcard
  rw [← Store.concat_eq hvalid] at hall
  refine ⟨table.keys, ?_⟩
  rw [distinctTexts, hall]
  simp only [htable]

theorem exists_distinctTexts {stores : List Store} (hvalid : ∀ store ∈ stores, store.Valid)
    (hbytes : total (stores.map Store.valueBytes) ≤ Store.maxBufferSize)
    (hrows : total (stores.map Store.size) ≤ maxKeys) :
    ∃ keys, distinctTexts stores = .ok keys := by
  apply exists_distinctTexts_of_card hvalid hbytes
  have hlength : (stores.flatMap (·.texts.toList)).length = total (stores.map Store.size) := by
    rw [List.length_flatMap, ← total_eq_sum]
    exact congrArg total (List.map_congr_left fun store _ => store.size_texts)
  calc ((stores.flatMap (·.texts.toList)).filterMap id).toFinset.card
    _ ≤ ((stores.flatMap (·.texts.toList)).filterMap id).length := List.toFinset_card_le _
    _ ≤ (stores.flatMap (·.texts.toList)).length := List.length_filterMap_le _ _
    _ ≤ maxKeys := hlength ▸ hrows

theorem SortedKeys.gather (hkeys : SortedKeys keys) {keep : Nat → Bool} {kept : Store}
    (hkept : keys.gather ((List.range keys.size).filter keep) = .ok kept) :
    SortedKeys kept ∧ InReach keys kept ∧
      ∀ text, text ∈ kept.textSet ↔ ∃ k, keep k = true ∧ keys.text? k = some text := by
  obtain ⟨-, hvalid, htexts⟩ := hkeys.valid.gather hkept
  have hsublist : kept.texts.toList.Sublist keys.texts.toList := by
    rw [htexts, Store.toList_texts]
    exact List.filter_sublist.map _
  refine ⟨⟨hvalid, hkeys.rising.sublist hsublist, fun hnone => hkeys.ne_none ?_⟩,
    hkeys.inReach_of_sublist hsublist, fun text => ?_⟩
  · exact Array.mem_toList_iff.mp (hsublist.mem (Array.mem_toList_iff.mpr hnone))
  · have hmem : text ∈ kept.textSet ↔ some text ∈ kept.texts.toList :=
      Array.mem_toList_iff.symm
    rw [hmem, htexts, List.mem_map]
    refine exists_congr fun k => ?_
    rw [List.mem_filter, List.mem_range]
    constructor
    · intro hk
      exact ⟨hk.1.2, hk.2⟩
    · intro hk
      exact ⟨⟨Store.lt_size_of_text? hk.2, hk.1⟩, hk.2⟩

end CategoryTable

end TextColumns
