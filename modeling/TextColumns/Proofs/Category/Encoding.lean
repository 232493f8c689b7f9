import TextColumns.Proofs.Category.Basic
import TextColumns.Proofs.Order
import TextColumns.Proofs.Scatter
import Mathlib.Data.Finset.Card

/-!
The table of a store.  The rows are walked in the order of their texts, and a row opens a key when
its text differs from the one before.  The keys are the texts of the opening rows, and every row
has the place of the last key that was open when it was reached.
-/

namespace TextColumns

open Std (LawfulEqCmp ReflCmp)

def Store.distinct (store : Store) : Finset String :=
  (store.texts.toList.filterMap id).toFinset

namespace CategoryTable

/-- Whether a table has the distinct texts of a store as its keys, in rising order, and the place
of its text for every row. -/
structure Encodes (table : CategoryTable) (store : Store) : Prop where
  keys_valid : table.keys.Valid
  rising : Rising table.keys.texts.toList
  mem_keys : ∀ key, key ∈ table.keys.texts ↔ key ∈ store.texts ∧ key ≠ none
  size_eq : table.size = store.size
  code_eq_missing : ∀ row < store.size,
    table.codes[row]? = some missing ↔ store.text? row = none
  key_of_code : ∀ row text, store.text? row = some text →
    ∃ (code : Int32) (k : Nat), table.codes[row]? = some code ∧ code.toInt = k ∧
      table.keys.text? k = some text

/-- The entries of rows that follow the text `previous`, when `rank` keys are open. -/
def entriesFrom (store : Store) (previous : Option String) (rank : Nat) :
    List Nat → List (Nat × Bool × Nat)
  | [] => []
  | row :: rest =>
    let mark := store.text? row != previous
    (row, mark, rank) :: entriesFrom store (store.text? row) (rank + markSize mark) rest

/-- The rows that open a key, of rows that follow the text `previous`. -/
def openingsFrom (store : Store) (previous : Option String) : List Nat → List Nat
  | [] => []
  | row :: rest =>
    if store.text? row = previous then openingsFrom store (store.text? row) rest
    else row :: openingsFrom store (store.text? row) rest

def openings (store : Store) : List Nat :=
  openingsFrom store none (filledRows store)

variable {store : Store} {previous : Option String} {rows : List Nat} {rank : Nat}

theorem openingsFrom_cons_same {row : Nat} (hsame : store.text? row = previous) :
    openingsFrom store previous (row :: rows) = openingsFrom store previous rows := by
  rw [openingsFrom, if_pos hsame, hsame]

theorem openingsFrom_cons_other {row : Nat} (hother : store.text? row ≠ previous) :
    openingsFrom store previous (row :: rows) =
      row :: openingsFrom store (store.text? row) rows := by
  rw [openingsFrom, if_neg hother]

theorem entriesFrom_cons_same {row : Nat} (hsame : store.text? row = previous) :
    entriesFrom store previous rank (row :: rows) =
      (row, false, rank) :: entriesFrom store previous rank rows := by
  rw [entriesFrom, hsame, bne_self_eq_false]
  rfl

theorem entriesFrom_cons_other {row : Nat} (hother : store.text? row ≠ previous) :
    entriesFrom store previous rank (row :: rows) =
      (row, true, rank) :: entriesFrom store (store.text? row) (rank + 1) rows := by
  rw [entriesFrom, bne_iff_ne.mpr hother]
  rfl

theorem zip_changes (store : Store) (previous : Option String) (rank : Nat) (rows : List Nat) :
    rows.zip ((changes previous (rows.map store.text?)).zip (PrefixSum.startsFrom rank
      ((changes previous (rows.map store.text?)).map markSize))) =
      entriesFrom store previous rank rows := by
  induction rows generalizing previous rank with
  | nil => rfl
  | cons row rest ih => exact congrArg (List.cons _) (ih _ _)

theorem length_changes (previous : Option String) (texts : List (Option String)) :
    (changes previous texts).length = texts.length := by
  induction texts generalizing previous with
  | nil => rfl
  | cons text rest ih => exact congrArg (· + 1) (ih text)

theorem total_changes (store : Store) (previous : Option String) (rows : List Nat) :
    total ((changes previous (rows.map store.text?)).map markSize) =
      (openingsFrom store previous rows).length := by
  induction rows generalizing previous with
  | nil => rfl
  | cons row rest ih =>
      rw [List.map_cons, changes, List.map_cons, total_cons, ih]
      by_cases hsame : store.text? row = previous
      · rw [openingsFrom_cons_same hsame, hsame, bne_self_eq_false, markSize,
          if_neg Bool.false_ne_true, Nat.zero_add]
      · rw [openingsFrom_cons_other hsame, bne_iff_ne.mpr hsame, markSize, if_pos rfl,
          Nat.add_comm, List.length_cons]

theorem map_fst_entriesFrom (store : Store) (previous : Option String) (rank : Nat)
    (rows : List Nat) : (entriesFrom store previous rank rows).map Prod.fst = rows := by
  induction rows generalizing previous rank with
  | nil => rfl
  | cons row rest ih => exact congrArg (List.cons row) (ih _ _)

theorem marked_entriesFrom (store : Store) (previous : Option String) (rank : Nat)
    (rows : List Nat) :
    (entriesFrom store previous rank rows).filterMap (fun (row, mark, rank) =>
      if mark then some (rank, row) else none) =
      ((openingsFrom store previous rows).zipIdx rank).map Prod.swap := by
  induction rows generalizing previous rank with
  | nil => rfl
  | cons row rest ih =>
      by_cases hsame : store.text? row = previous
      · rw [openingsFrom_cons_same hsame, entriesFrom_cons_same hsame,
          List.filterMap_cons_none (by rfl), ih]
      · rw [openingsFrom_cons_other hsame, entriesFrom_cons_other hsame,
          List.filterMap_cons_some (by rfl), ih]
        rfl

/-- The last key that is open behind a row has the text of the row.  `front` are the rows that have
opened keys so far. -/
theorem opening_of_entry {front : List Nat} (hprevious : front.getLast?.bind store.text? = previous)
    (hrows : ∀ row ∈ rows, ∃ text, store.text? row = some text) {row : Nat} {mark : Bool}
    (hentry : (row, mark, rank) ∈ entriesFrom store previous front.length rows) :
    ∃ opening, (front ++ openingsFrom store previous rows)[rank + markSize mark - 1]? =
      some opening ∧ store.text? opening = store.text? row := by
  induction rows generalizing previous front with
  | nil => cases hentry
  | cons first rest ih =>
      have hrest : ∀ row ∈ rest, ∃ text, store.text? row = some text :=
        fun row hrow => hrows row (.tail _ hrow)
      by_cases hsame : store.text? first = previous
      · rw [entriesFrom_cons_same hsame] at hentry
        rw [openingsFrom_cons_same hsame]
        cases hentry with
        | head =>
            obtain ⟨text, htext⟩ := hrows row (.head _)
            rw [← hsame, htext, Option.bind_eq_some_iff] at hprevious
            obtain ⟨opening, hlast, hopening⟩ := hprevious
            refine ⟨opening, ?_, hopening.trans htext.symm⟩
            rw [List.getLast?_eq_getElem?] at hlast
            obtain ⟨hlt, -⟩ := List.getElem?_eq_some_iff.mp hlast
            rw [markSize, if_neg Bool.false_ne_true, Nat.add_zero,
              List.getElem?_append_left hlt, hlast]
        | tail _ hentry => exact ih hprevious hrest hentry
      · rw [entriesFrom_cons_other hsame] at hentry
        rw [openingsFrom_cons_other hsame]
        cases hentry with
        | head =>
            refine ⟨row, ?_, rfl⟩
            rw [markSize, if_pos rfl, Nat.add_sub_cancel, List.getElem?_append_right le_rfl,
              Nat.sub_self, List.getElem?_cons_zero]
        | tail _ hentry =>
            have hlast : (front ++ [first]).getLast?.bind store.text? = store.text? first := by
              rw [List.getLast?_concat, Option.bind_some]
            have hnext := ih hlast hrest (by rwa [List.length_append, List.length_singleton])
            rwa [List.append_assoc] at hnext

theorem rising_openingsFrom
    (hsorted : rows.Pairwise fun i j =>
      (Text.compareOptional (store.text? i) (store.text? j)).isLE)
    (hprevious : ∀ row ∈ rows, (Text.compareOptional previous (store.text? row)).isLE) :
    Rising (previous :: (openingsFrom store previous rows).map store.text?) := by
  induction rows generalizing previous with
  | nil => exact List.pairwise_singleton _ _
  | cons first rest ih =>
      obtain ⟨hfirst, hrest⟩ := List.pairwise_cons.mp hsorted
      by_cases hsame : store.text? first = previous
      · rw [openingsFrom_cons_same hsame]
        exact ih hrest fun row hrow => hprevious row (.tail _ hrow)
      · have hless : Text.compareOptional previous (store.text? first) = .lt := by
          have hle := hprevious first (.head _)
          cases hcompare : Text.compareOptional previous (store.text? first) with
          | lt => rfl
          | eq => exact absurd (LawfulEqCmp.eq_of_compare hcompare).symm hsame
          | gt =>
              rw [hcompare] at hle
              cases hle
        rw [openingsFrom_cons_other hsame, List.map_cons, rising_cons_cons]
        exact ⟨hless, ih hrest hfirst⟩

theorem openingsFrom_sublist (store : Store) (previous : Option String) (rows : List Nat) :
    (openingsFrom store previous rows).Sublist rows := by
  induction rows generalizing previous with
  | nil => exact .slnil
  | cons row rest ih =>
      rw [openingsFrom]
      split
      · exact (ih _).cons row
      · exact (ih _).cons_cons row

def walked (store : Store) : List (Nat × Bool × Nat) :=
  entriesFrom store none 0 (filledRows store)

theorem mem_filledRows_of_openings {row : Nat} (hrow : row ∈ openings store) :
    row ∈ filledRows store :=
  (openingsFrom_sublist store none (filledRows store)).mem hrow

theorem rising_openings (store : Store) : Rising ((openings store).map store.text?) := by
  have hnone : ∀ row ∈ filledRows store,
      (Text.compareOptional none (store.text? row)).isLE := by
    intro row _
    cases store.text? row <;> rfl
  exact (List.pairwise_cons.mp (rising_openingsFrom (pairwise_filledRows store) hnone)).2

theorem exists_opening {row : Nat} {text : String} (htext : store.text? row = some text) :
    ∃ mark rank opening, (row, mark, rank) ∈ walked store ∧
      (openings store)[rank + markSize mark - 1]? = some opening ∧
      store.text? opening = some text := by
  have hmem : row ∈ (walked store).map Prod.fst := by
    rw [walked, map_fst_entriesFrom]
    exact mem_filledRows.mpr ⟨text, htext⟩
  obtain ⟨⟨_, mark, rank⟩, hentry, rfl⟩ := List.mem_map.mp hmem
  obtain ⟨opening, hopening, hsame⟩ := @opening_of_entry store none (filledRows store) rank [] rfl
    (fun row hrow => mem_filledRows.mp hrow) _ _ hentry
  exact ⟨mark, rank, opening, hentry, hopening, hsame.trans htext⟩

theorem mem_map_openings (store : Store) (key : Option String) :
    key ∈ (openings store).map store.text? ↔ key ∈ store.texts ∧ key ≠ none := by
  rw [List.mem_map]
  constructor
  · intro hkey
    obtain ⟨row, hrow, rfl⟩ := hkey
    obtain ⟨text, htext⟩ := mem_filledRows.mp (mem_filledRows_of_openings hrow)
    rw [htext]
    exact ⟨Store.some_mem_texts.mpr ⟨row, htext⟩, nofun⟩
  · intro hkey
    obtain ⟨text, rfl⟩ := Option.ne_none_iff_exists'.mp hkey.2
    obtain ⟨row, htext⟩ := Store.some_mem_texts.mp hkey.1
    obtain ⟨mark, rank, opening, -, hopening, hsame⟩ := exists_opening htext
    exact ⟨opening, List.mem_of_getElem? hopening, hsame⟩

theorem card_distinct (store : Store) : store.distinct.card = (openings store).length := by
  have hkeys : store.distinct.map Function.Embedding.some =
      ((openings store).map store.text?).toFinset := by
    ext key
    rw [List.mem_toFinset, mem_map_openings]
    cases key <;> simp [Store.distinct]
  have hnodup : ((openings store).map store.text?).Nodup := (rising_openings store).nodup
  rw [← Finset.card_map Function.Embedding.some, hkeys, List.toFinset_card_of_nodup hnodup,
    List.length_map]

theorem writtenSlots_codeWrites (store : Store) :
    writtenSlots (codeWrites (walked store)) = filledRows store := by
  rw [writtenSlots, codeWrites, walked, List.filterMap_map]
  exact (List.filterMap_eq_map ▸ map_fst_entriesFrom store none 0 (filledRows store) :)

theorem filterMap_openingWrites (store : Store) :
    (openingWrites (walked store)).filterMap id = ((openings store).zipIdx).map Prod.swap := by
  rw [openingWrites, walked, List.filterMap_map]
  exact marked_entriesFrom store none 0 (filledRows store)

theorem mem_openingWrites {k row : Nat} :
    some (k, row) ∈ openingWrites (walked store) ↔ (openings store)[k]? = some row := by
  have hmem : some (k, row) ∈ openingWrites (walked store) ↔
      (k, row) ∈ (openingWrites (walked store)).filterMap id := by simp
  rw [hmem, filterMap_openingWrites, List.mem_map]
  constructor
  · intro hwrite
    obtain ⟨⟨opening, place⟩, hopening, hswap⟩ := hwrite
    cases hswap
    exact List.mem_zipIdx_iff_getElem?.mp hopening
  · intro hopening
    exact ⟨(row, k), List.mem_zipIdx_iff_getElem?.mpr hopening, rfl⟩

theorem writtenSlots_openingWrites (store : Store) :
    writtenSlots (openingWrites (walked store)) = List.range store.distinct.card := by
  have hslots : writtenSlots (openingWrites (walked store)) =
      ((openingWrites (walked store)).filterMap id).map Prod.fst := by
    rw [writtenSlots, List.map_filterMap]
    rfl
  rw [hslots, filterMap_openingWrites, List.map_map, card_distinct, List.range_eq_range']
  exact List.zipIdx_map_snd 0 (openings store)

theorem writesOnce_codeWrites (store : Store) :
    WritesOnce (codeWrites (walked store)) store.size := by
  have hslots := writtenSlots_codeWrites store
  refine ⟨hslots ▸ nodup_filledRows store, fun row hrow => ?_⟩
  rw [hslots] at hrow
  exact mem_sortedRows.mp (List.mem_of_mem_filter hrow)

theorem writesOnce_openingWrites (store : Store) :
    WritesOnce (openingWrites (walked store)) store.distinct.card := by
  have hslots := writtenSlots_openingWrites store
  refine ⟨hslots ▸ List.nodup_range, fun k hk => ?_⟩
  rwa [hslots, List.mem_range] at hk

theorem values_openingWrites (store : Store) :
    (scatter (Array.replicate store.distinct.card 0)
      (openingWrites (walked store))).values.toList = openings store := by
  have honce := writesOnce_openingWrites store
  rw [← @Array.size_replicate _ store.distinct.card 0] at honce
  obtain ⟨-, hsize, hkept, -⟩ := honce.scatter
  rw [Array.size_replicate] at hsize
  refine List.ext_getElem? fun k => ?_
  rw [Array.getElem?_toList]
  by_cases hk : k < (openings store).length
  · have hrow := List.getElem?_eq_getElem hk
    rw [hkept k _ (mem_openingWrites.mpr hrow), hrow]
  · rw [List.getElem?_eq_none (Nat.le_of_not_lt hk), Array.getElem?_eq_none]
    rw [hsize, card_distinct]
    exact Nat.le_of_not_lt hk

theorem entries_eq (hvalid : store.Valid) :
    entries store =
      if store.distinct.card ≤ Word.greatest then .ok (walked store, store.distinct.card)
      else .error (.prefixSum (filledRows store).length) := by
  have hcard := card_distinct store
  rw [openings, ← total_changes] at hcard
  simp only [entries, Store.text?_eq, hvalid.drop_sortedRows, PrefixSum.exclusive_eq, ← hcard]
  by_cases hsum : store.distinct.card ≤ Word.greatest
  · rw [if_pos hsum, if_pos hsum, walked, ← zip_changes]
  · rw [if_neg hsum, if_neg hsum, List.size_toArray, List.length_map, length_changes,
      List.length_map]

theorem ofStore_eq (hvalid : store.Valid) :
    ofStore store =
      if Word.greatest < store.distinct.card then .error (.prefixSum (filledRows store).length)
      else if maxKeys < store.distinct.card then .error (.tooManyKeys store.distinct.card)
      else encodedBy store store.distinct.card (codeWrites (walked store))
        (openingWrites (walked store)) := by
  rw [ofStore, entries_eq hvalid]
  by_cases hsum : Word.greatest < store.distinct.card
  · rw [if_pos hsum, if_neg (Nat.not_le.mpr hsum)]
  · rw [if_neg hsum, if_pos (Nat.not_lt.mp hsum)]

theorem le_maxKeys_of_ofStore {table : CategoryTable} (hvalid : store.Valid)
    (htable : ofStore store = .ok table) :
    store.distinct.card ≤ maxKeys ∧
      encodedBy store store.distinct.card (codeWrites (walked store))
        (openingWrites (walked store)) = .ok table := by
  rw [ofStore_eq hvalid] at htable
  by_cases hsum : Word.greatest < store.distinct.card
  · rw [if_pos hsum] at htable
    cases htable
  · rw [if_neg hsum] at htable
    by_cases hkeys : maxKeys < store.distinct.card
    · rw [if_pos hkeys] at htable
      cases htable
    · rw [if_neg hkeys] at htable
      exact ⟨Nat.le_of_not_lt hkeys, htable⟩

/-- What the writes leave in the slots makes a table of the store. -/
theorem encodes_of_encodedBy {table : CategoryTable} (hvalid : store.Valid)
    (hcard : store.distinct.card ≤ maxKeys)
    (htable : encodedBy store store.distinct.card (codeWrites (walked store))
      (openingWrites (walked store)) = .ok table) : table.Encodes store := by
  simp only [encodedBy, values_openingWrites] at htable
  cases hgather : store.gather (openings store) with
  | error e =>
      rw [hgather] at htable
      cases htable
  | ok keys =>
      rw [hgather] at htable
      cases htable
      obtain ⟨-, hkeys, htexts⟩ := hvalid.gather hgather
      have honce := writesOnce_codeWrites store
      rw [← @Array.size_replicate _ store.size missing] at honce
      obtain ⟨-, hsize, hkept, hleft⟩ := honce.scatter
      rw [Array.size_replicate] at hsize
      have hcode : ∀ row text, store.text? row = some text → ∃ (code : Int32) (k : Nat),
          (scatter (Array.replicate store.size missing) (codeWrites (walked store))).values[row]? =
            some code ∧ code.toInt = k ∧ keys.text? k = some text := by
        intro row text htext
        obtain ⟨mark, rank, opening, hentry, hopening, hsame⟩ := exists_opening htext
        have hplace : rank + markSize mark - 1 ≤ maxKeys := by
          obtain ⟨hlt, -⟩ := List.getElem?_eq_some_iff.mp hopening
          rw [← card_distinct] at hlt
          exact Nat.le_trans (Nat.le_of_lt hlt) hcard
        refine ⟨_, rank + markSize mark - 1, hkept row _ (List.mem_map.mpr ⟨_, hentry, rfl⟩),
          toInt_ofNat_of_le hplace, ?_⟩
        rw [← Store.text?_eq, ← Array.getElem?_toList, htexts, List.getElem?_map, hopening]
        exact hsame
      refine ⟨hkeys, ?_, ?_, hsize, ?_, hcode⟩
      · rw [htexts]
        exact rising_openings store
      · intro key
        rw [← Array.mem_toList_iff, htexts]
        exact mem_map_openings store key
      · intro row hrow
        cases htext : store.text? row with
        | none =>
            refine iff_of_true ?_ rfl
            have hunwritten : row ∉ writtenSlots (codeWrites (walked store)) := by
              rw [writtenSlots_codeWrites, mem_filledRows, htext]
              exact nofun
            rw [hleft row hunwritten, Array.getElem?_replicate, if_pos hrow]
        | some text =>
            refine iff_of_false ?_ nofun
            obtain ⟨code, k, hrow, hk, -⟩ := hcode row text htext
            rw [hrow, Option.some_inj]
            exact ne_missing_of_toInt hk

theorem encodes_of_ofStore {table : CategoryTable} (hvalid : store.Valid)
    (htable : ofStore store = .ok table) : table.Encodes store := by
  obtain ⟨hcard, hencoded⟩ := le_maxKeys_of_ofStore hvalid htable
  exact encodes_of_encodedBy hvalid hcard hencoded

namespace Encodes

variable {table : CategoryTable}

theorem sortedKeys (hencodes : table.Encodes store) : SortedKeys table.keys where
  valid := hencodes.keys_valid
  rising := hencodes.rising
  ne_none := fun hnone => ((hencodes.mem_keys none).mp hnone).2 rfl

theorem checked (hencodes : table.Encodes store) : table.Checked where
  keys := hencodes.sortedKeys
  code_inside := by
    intro code hcode
    obtain ⟨row, hrow⟩ := Array.mem_iff_getElem?.mp hcode
    obtain ⟨hlt, -⟩ := Array.getElem?_eq_some_iff.mp hrow
    cases htext : store.text? row with
    | none =>
        have hmissing := (hencodes.code_eq_missing row (hencodes.size_eq ▸ hlt)).mpr htext
        exact .inl (Option.some.inj (hrow.symm.trans hmissing))
    | some text =>
        obtain ⟨found, k, hfound, hk, hkey⟩ := hencodes.key_of_code row text htext
        obtain rfl := Option.some.inj (hrow.symm.trans hfound)
        exact .inr ⟨k, hk, Store.lt_size_of_text? hkey⟩

theorem decoded_eq (hencodes : table.Encodes store) : table.decoded = store.texts.toList := by
  rw [decoded_eq_codesByRow, codesByRow, List.map_map, Store.toList_texts, hencodes.size_eq]
  refine List.map_congr_left fun row hrow => ?_
  have hrow := List.mem_range.mp hrow
  rw [Function.comp_apply, bind_code?]
  cases htext : store.text? row with
  | none =>
      rw [(hencodes.code_eq_missing row hrow).mpr htext]
      exact textOfCode_missing table.keys
  | some text =>
      obtain ⟨code, k, hcode, hk, hkey⟩ := hencodes.key_of_code row text htext
      rw [hcode, Option.bind_some, textOfCode_of_toInt _ hk, hkey]

theorem keyCount_eq (hencodes : table.Encodes store) : table.keyCount = store.distinct.card := by
  have hkeys : store.distinct.map Function.Embedding.some = table.keys.texts.toList.toFinset := by
    ext key
    rw [List.mem_toFinset, Array.mem_toList_iff, hencodes.mem_keys]
    cases key <;> simp [Store.distinct]
  rw [← Finset.card_map Function.Embedding.some, hkeys,
    List.toFinset_card_of_nodup hencodes.rising.nodup, Store.length_toList_texts, keyCount]

end Encodes

theorem exists_ofStore (hvalid : store.Valid) (hkeys : store.distinct.card ≤ maxKeys) :
    ∃ table, ofStore store = .ok table ∧
      encodedBy store store.distinct.card (codeWrites (walked store))
        (openingWrites (walked store)) = .ok table := by
  have hfits : store.distinct.card ≤ Word.greatest := Nat.le_trans hkeys (by decide)
  have hinside : ∀ row ∈ openings store, row < store.size := fun row hrow =>
    mem_sortedRows.mp (List.mem_of_mem_filter (mem_filledRows_of_openings hrow))
  have hsize : ∀ text, some text ∈ (openings store).map store.text? →
      text.utf8ByteSize ≤ Store.maxElementSize := fun text htext =>
    hvalid.size_le_of_text ((mem_map_openings store _).mp htext).1
  have htotal : total (textSizes ((openings store).map store.text?)) ≤ Store.maxBufferSize := by
    refine Nat.le_trans (total_textSizes_le hsize) ?_
    rw [List.length_map, ← card_distinct store]
    exact Nat.le_trans (Nat.mul_le_mul_right _ hkeys) (by decide)
  obtain ⟨keys, hbuilt⟩ := Store.exists_ofTexts hsize htotal
  rw [ofStore_eq hvalid, if_neg (Nat.not_lt.mpr hfits), if_neg (Nat.not_lt.mpr hkeys)]
  simp only [encodedBy, values_openingWrites, hvalid.gather_eq hinside, hbuilt]
  exact ⟨_, rfl, rfl⟩

/-- The table of a store has its distinct texts as keys, in rising order, and every row has the
place of its text.  It gives back the texts of the store, and no slot is written twice, so that the
order of the writes does not matter. -/
theorem ofStore_encodes (hvalid : store.Valid) (hkeys : store.distinct.card ≤ maxKeys) :
    ∃ table walk, ofStore store = .ok table ∧ table.Encodes store ∧
      (∀ decoded, table.toStore = .ok decoded → decoded.texts = store.texts) ∧
      (store.valueBytes ≤ Store.maxBufferSize → ∃ decoded, table.toStore = .ok decoded) ∧
      entries store = .ok (walk, store.distinct.card) ∧
      WritesOnce (codeWrites walk) store.size ∧
      WritesOnce (openingWrites walk) store.distinct.card ∧
      ∀ codes openings, (codeWrites walk).Perm codes → (openingWrites walk).Perm openings →
        (scatter (Array.replicate store.size missing) codes).dropped = 0 ∧
          (scatter (Array.replicate store.distinct.card 0) openings).dropped = 0 ∧
          encodedBy store store.distinct.card codes openings = .ok table := by
  obtain ⟨table, htable, hencoded⟩ := exists_ofStore hvalid hkeys
  have hencodes := encodes_of_ofStore hvalid htable
  have hcodes := writesOnce_codeWrites store
  have hopenings := writesOnce_openingWrites store
  have hfits : store.distinct.card ≤ Word.greatest := Nat.le_trans hkeys (by decide)
  refine ⟨table, walked store, htable, hencodes, ?_, ?_,
    (entries_eq hvalid).trans (if_pos hfits), hcodes, hopenings, ?_⟩
  · intro decoded hdecoded
    have htexts := hencodes.checked.texts_of_toStore hdecoded
    rw [hencodes.decoded_eq] at htexts
    exact Array.toList_inj.mp htexts
  · intro hbytes
    rw [hencodes.checked.toStore_eq, hencodes.decoded_eq]
    refine Store.exists_ofTexts (fun text htext => ?_) (hvalid.valueBytes_eq ▸ hbytes)
    exact hvalid.size_le_of_text (Array.mem_toList_iff.mp htext)
  · intro codes openings hcodesPerm hopeningsPerm
    rw [← @Array.size_replicate _ store.size missing] at hcodes
    rw [← @Array.size_replicate _ store.distinct.card 0] at hopenings
    obtain ⟨hcodesDropped, hcodesValues⟩ := hcodes.perm hcodesPerm
    obtain ⟨hopeningsDropped, hopeningsValues⟩ := hopenings.perm hopeningsPerm
    refine ⟨hcodesDropped, hopeningsDropped, ?_⟩
    simp only [encodedBy, hcodesValues, hopeningsValues]
    exact hencoded

theorem ofStore_encodes_repeated :
    ∃ store, Store.ofTexts [some "b", none, some "a", some "b"] = .ok store ∧ store.Valid ∧
      store.distinct.card = 2 ∧ store.valueBytes = 3 ∧
      ∃ table decoded, ofStore store = .ok table ∧ table.Encodes store ∧
        table.toStore = .ok decoded ∧ decoded.texts = store.texts := by
  obtain ⟨store, hstore⟩ := @Store.exists_ofTexts [some "b", none, some "a", some "b"]
    (by
      intro text htext
      simp only [List.mem_cons, Option.some.injEq, reduceCtorEq, List.not_mem_nil, or_false,
        false_or] at htext
      rcases htext with rfl | rfl | rfl <;> decide)
    (by decide)
  have hvalid := Store.valid_of_build hstore
  have htexts := Store.texts_ofTexts hstore
  have hcard : store.distinct.card = 2 := by
    rw [Store.distinct, htexts]
    decide
  have hbytes : store.valueBytes = 3 := by
    rw [hvalid.valueBytes_eq, htexts]
    decide
  obtain ⟨table, -, htable, hencodes, hdecoded, hexists, -⟩ :=
    ofStore_encodes hvalid (hcard ▸ (by decide : 2 ≤ maxKeys))
  obtain ⟨decoded, hstored⟩ := hexists (hbytes ▸ (by decide : 3 ≤ Store.maxBufferSize))
  exact ⟨store, hstore, hvalid, hcard, hbytes, table, decoded, htable, hencodes, hstored,
    hdecoded decoded hstored⟩

end CategoryTable

end TextColumns
