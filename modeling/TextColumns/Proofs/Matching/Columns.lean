import TextColumns.Proofs.Matching.Joined
import TextColumns.Proofs.Pieces.Rows
import TextColumns.Proofs.Regex.WholeMatch

/-! The columns that are made with a pattern, row by row: what they tell of the matches in a text. -/

namespace TextColumns.Matching

open Pattern (Flags)
open Text (Cursor Extent)

variable {store : Store} {pattern : String} {flags : Flags} {regex : Regex}

section Answers

variable (hvalid : store.Valid) (hcompile : Regex.compile pattern flags = .ok regex) (row : Nat)
include hvalid hcompile

theorem get?_mapRows {f : Matcher → String → β × Matcher} (hcall : RowCall f)
    (post : Option β → γ) :
    (⟨((mapRows store regex f).map post).toArray, store.validity⟩ : Column γ).get? row =
      (store.text? row).map fun text => post (some (f regex.matcher text).1) := by
  refine @Store.Valid.get?_answers store _ hvalid _ _ (post none) ?_ row
  rw [mapRows_eq hcompile hcall, List.map_map]
  refine List.map_congr_left fun text? _ => ?_
  cases text? <;> rfl

theorem contains_get? :
    (contains store regex).get? row = (store.text? row).map fun text => (regex.find text).isSome := by
  simp only [← Regex.isMatch_eq hcompile]
  exact get?_mapRows hvalid hcompile row .contains (·.getD false)

theorem matchesStart_get? :
    (matchesStart store regex).get? row =
      (store.text? row).map fun text => (regex.find text).any (·.start == 0) := by
  simp only [← Regex.isMatchAtStart_eq hcompile]
  exact get?_mapRows hvalid hcompile row .matchesStart (·.getD false)

theorem find_get? :
    (find store regex).get? row =
      (store.text? row).map fun text => (regex.find text).map (found text) :=
  get?_mapRows hvalid hcompile row .find (·.getD none)

theorem count_get? :
    (count store regex).get? row =
      (store.text? row).map fun text => toInt32 (regex.program.extentsIn text).length := by
  have hcount (text : String) : (regex.program.extentsIn text).length =
      (regex.matcher.countMatches text).1 := by
    rw [Program.length_extentsIn]
    exact ((Matcher.ready_ofProgram regex.program).countMatches_eq
      (Regex.check_of_compile hcompile) (Regex.advances_of_compile hcompile) text).symm
  simp only [hcount]
  exact get?_mapRows hvalid hcompile row .count fun n => toInt32 (n.getD 0)

end Answers

theorem getElem?_map_texts {f : String → β} {row : Nat} (hrow : row < store.size) :
    (store.texts.toList.map (Option.map f))[row]? = some ((store.text? row).map f) := by
  rw [List.getElem?_map, store.getElem?_toList_texts hrow, Option.map_some]

theorem pieces_eq (hcompile : Regex.compile pattern flags = .ok regex) (store : Store)
    (limit : Option Nat) :
    (extents store regex limit).zipWith
        (fun found text => found.map (between ((text.map String.utf8ByteSize).getD 0) 0))
        store.texts.toList =
      store.texts.toList.map (Option.map fun text =>
        between text.utf8ByteSize 0 (Text.upTo limit (regex.program.extentsIn text))) := by
  rw [extents_eq hcompile, List.zipWith_map_left, List.zipWith_self]
  refine List.map_congr_left fun text? _ => ?_
  cases text? <;> rfl

section Lists

variable {column : ListColumn} (hvalid : store.Valid)
  (hcompile : Regex.compile pattern flags = .ok regex) {row : Nat} (hrow : row < store.size)
include hvalid hcompile hrow

theorem findAll_row? (hfound : findAll store regex = .ok column) :
    column.row? row = (store.text? row).map fun text =>
      (regex.program.extentsIn text).map fun extent =>
        Text.between text extent.start extent.stop := by
  have hextents := getElem?_map_texts
    (f := fun text => Text.upTo none (regex.program.extentsIn text)) hrow
  rw [← extents_eq hcompile] at hextents
  rw [ListColumn.row?_of_ofExtents hvalid (rowsWithin_extents hcompile none) hfound hextents]
  cases store.text? row <;> rfl

theorem split_row? {limit : Option Nat} (hsplit : split store regex limit = .ok column) :
    column.row? row = (store.text? row).map fun text =>
      (between text.utf8ByteSize 0 (Text.upTo limit (regex.program.extentsIn text))).map
        fun piece => Text.between text piece.start piece.stop := by
  have hpieces := getElem?_map_texts (f := fun text =>
    between text.utf8ByteSize 0 (Text.upTo limit (regex.program.extentsIn text))) hrow
  rw [← pieces_eq hcompile] at hpieces
  rw [ListColumn.row?_of_ofExtents hvalid (rowsWithin_between hcompile limit) hsplit hpieces]
  cases store.text? row <;> rfl

end Lists

theorem length_of_extract {parts : List Store} (hextract : extract store regex = .ok parts) :
    parts.length = regex.groupCount := by
  unfold extract at hextract
  split at hextract
  · cases hextract
  · cases hextract
    rw [List.length_map, List.length_range]

theorem extract_eq_ok {parts : List Store} (hextract : extract store regex = .ok parts) {k : Nat}
    {part : Store} (hpart : parts[k]? = some part) :
    part = store.share ((mapRows store regex captureRow).mapIdx fun row groups =>
      groupSpan (k + 1) row groups) := by
  unfold extract at hextract
  split at hextract
  · cases hextract
  · cases hextract
    rw [List.getElem?_map, Option.map_eq_some_iff] at hpart
    obtain ⟨i, hi, rfl⟩ := hpart
    obtain ⟨-, rfl⟩ := List.getElem?_eq_some_iff.mp hi
    rw [List.getElem_range]

theorem extract_text? (hvalid : store.Valid) (hcompile : Regex.compile pattern flags = .ok regex)
    {parts : List Store} (hextract : extract store regex = .ok parts) {k : Nat} {part : Store}
    (hpart : parts[k]? = some part) {row : Nat} (hrow : row < store.size) :
    part.text? row = (store.text? row).bind fun text => (regex.captures text).bind fun groups =>
      (groups[k + 1]?.join).map fun extent => Text.between text extent.start extent.stop := by
  obtain rfl := extract_eq_ok hextract hpart
  have hspans : ∀ span, some span ∈ ((mapRows store regex captureRow).mapIdx fun row groups =>
      groupSpan (k + 1) row groups) → span.Within store := by
    intro span hspan
    obtain ⟨row, hrow⟩ := List.mem_iff_getElem?.mp hspan
    exact (within_groupSpan hcompile hrow).2
  rw [hvalid.text?_share hspans, List.getElem?_mapIdx, mapRows_eq hcompile .extract,
    getElem?_map_texts hrow]
  cases htext : store.text? row with
  | none => rfl
  | some text =>
      show ((groupSpan (k + 1) row (some (regex.captures text))).map store.spanText) = _
      cases hcaptures : regex.captures text with
      | none => simp [groupSpan, hcaptures]
      | some groups =>
          cases hgroup : groups[k + 1]? with
          | none => simp [groupSpan, hcaptures, hgroup]
          | some group =>
              cases group with
              | none => simp [groupSpan, hcaptures, hgroup]
              | some extent => simp [groupSpan, hcaptures, hgroup, Store.spanText, htext]

theorem toInt32_of_le {n : Nat} (hle : n ≤ maxInt32) : toInt32 n = n := by
  rw [toInt32]
  omega

theorem toInt32_pos {n : Nat} : 0 < toInt32 n ↔ 0 < n := by
  rw [toInt32, maxInt32]
  omega

theorem length_le_sizeOf (chars : List Char) : chars.length ≤ Text.sizeOf chars := by
  induction chars with
  | nil => exact Nat.le_refl 0
  | cons c rest ih =>
      have := c.utf8Size_pos
      rw [List.length_cons, Text.sizeOf]
      omega

theorem length_between (size start : Nat) (found : List Extent) :
    (between size start found).length = found.length + 1 := by
  induction found generalizing start with
  | nil => rfl
  | cons extent rest ih => rw [between, List.length_cons, ih, List.length_cons]

theorem length_upTo (limit : Option Nat) (found : List α) :
    (Text.upTo limit found).length = limit.elim found.length (min · found.length) := by
  cases limit with
  | none => rfl
  | some n => exact List.length_take

theorem replace_text? (hcompile : Regex.compile pattern flags = .ok regex) {replacement : String}
    {limit : Option Nat} {replaced : Store}
    (hreplace : replace store regex replacement limit = .ok replaced) {row : Nat}
    (hrow : row < store.size) :
    replaced.text? row = (store.text? row).map fun text =>
      joinedFrom replacement text 0 (Text.upTo limit (regex.program.extentsIn text)) := by
  by_cases hlimit : limit = some 0
  · subst hlimit
    obtain rfl : store = replaced := Except.ok.inj hreplace
    simp [Text.upTo, joinedFrom_nil, Text.between_all]
  · have htexts := (counted_replace hcompile store replacement hlimit).texts_eq hreplace
    have htext := replaced.text?_eq row
    rw [← Array.getElem?_toList, htexts, getElem?_map_texts hrow, Option.getD_some] at htext
    exact htext.symm

theorem isSome_find_iff (hcompile : Regex.compile pattern flags = .ok regex) (text : String) :
    (regex.find text).isSome = true ↔ 0 < (regex.program.extentsIn text).length := by
  rw [← Regex.head?_extentsIn hcompile, List.isSome_head?, List.length_pos_iff]

/-! The columns of lists are made, and so is the store with the matches replaced, as far as there
is room. -/

theorem length_extentsIn_le (hvalid : store.Valid) {text : String}
    (htext : some text ∈ store.texts) (regex : Regex) :
    (regex.program.extentsIn text).length ≤ maxInt32 + 1 := by
  have hsize := hvalid.size_le_of_text htext
  have hcount := Program.length_matchesFrom_le regex.program (.start text) none
  have hchars := length_le_sizeOf text.toList
  rw [Text.sizeOf_toList] at hchars
  rw [Program.length_extentsIn]
  exact Nat.le_trans hcount (Nat.succ_le_succ (Nat.le_trans hchars hsize))

def maxRows : Nat := 4294967296

theorem exists_findAll (hvalid : store.Valid) (hcompile : Regex.compile pattern flags = .ok regex)
    (hsize : store.size ≤ maxRows) : ∃ column, findAll store regex = .ok column := by
  refine @ListColumn.exists_ofExtents store _ (maxInt32 + 1) ?_ ?_
  · rw [extents_eq hcompile]
    intro extents hextents
    obtain ⟨text?, htext?, hmap⟩ := List.mem_map.mp hextents
    obtain ⟨text, rfl, rfl⟩ := Option.map_eq_some_iff.mp hmap
    exact length_extentsIn_le hvalid (Array.mem_toList_iff.mp htext?) regex
  · rw [extents_eq hcompile, List.length_map, Array.length_toList, Store.size_texts]
    exact Nat.le_trans (Nat.mul_le_mul_right _ hsize) (by decide)

theorem exists_split (hvalid : store.Valid) (hcompile : Regex.compile pattern flags = .ok regex)
    (hsize : store.size ≤ maxRows) (limit : Option Nat) :
    ∃ column, split store regex limit = .ok column := by
  refine @ListColumn.exists_ofExtents store _ (maxInt32 + 2) ?_ ?_
  · rw [pieces_eq hcompile]
    intro pieces hpieces
    obtain ⟨text?, htext?, hmap⟩ := List.mem_map.mp hpieces
    obtain ⟨text, rfl, rfl⟩ := Option.map_eq_some_iff.mp hmap
    rw [length_between]
    exact Nat.succ_le_succ (Nat.le_trans (Text.upTo_sublist _ _).length_le
      (length_extentsIn_le hvalid (Array.mem_toList_iff.mp htext?) regex))
  · rw [pieces_eq hcompile, List.length_map, Array.length_toList, Store.size_texts]
    exact Nat.le_trans (Nat.mul_le_mul_right _ hsize) (by decide)

theorem exists_replace (hvalid : store.Valid) (hcompile : Regex.compile pattern flags = .ok regex)
    {limit : Option Nat} {replacement : String} {column : ListColumn}
    (hsplit : split store regex limit = .ok column)
    (htexts : ∀ text, some text ∈ column.rows.map (Option.map replacement.intercalate) →
      text.utf8ByteSize ≤ Store.maxElementSize)
    (htotal : total (textSizes (column.rows.map (Option.map replacement.intercalate))) ≤
      Store.maxBufferSize) :
    ∃ replaced, replace store regex replacement limit = .ok replaced := by
  by_cases hlimit : limit = some 0
  · subst hlimit
    exact ⟨store, rfl⟩
  · have hrows : column.rows.map (Option.map replacement.intercalate) =
        store.texts.toList.map (Option.map fun text =>
          joinedFrom replacement text 0 (Text.upTo limit (regex.program.extentsIn text))) := by
      obtain ⟨-, -, -, hsize⟩ := ListColumn.ofExtents_eq hsplit
      rw [pieces_eq hcompile, List.length_map, Array.length_toList, Store.size_texts] at hsize
      rw [ListColumn.rows, hsize, Store.toList_texts, List.map_map, List.map_map]
      refine List.map_congr_left fun row hrow => ?_
      rw [Function.comp_apply, Function.comp_apply,
        split_row? hvalid hcompile (List.mem_range.mp hrow) hsplit, Option.map_map]
      rfl
    rw [hrows] at htexts htotal
    obtain ⟨replaced, hreplaced, -⟩ :=
      (counted_replace hcompile store replacement hlimit).stored ⟨htexts, htotal⟩
    exact ⟨replaced, hreplaced⟩

end TextColumns.Matching
