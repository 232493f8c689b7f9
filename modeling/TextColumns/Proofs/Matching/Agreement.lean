import TextColumns.Proofs.Pieces.Arrangement
import TextColumns.Proofs.Regex.Literal

/-!
The columns of one pattern tell the same of every element: whether it matches, where it does so
first, how often, and what lies in the matches and between them.
-/

namespace TextColumns.Matching

open Pattern (Flags)
open Text (Cursor Extent)

/-- What the columns of one pattern tell of a row, each by the others.  A count is a 32-bit integer
and stays at the greatest of these where there are more matches, and a column of pieces has none of
a row that is cut into fewer. -/
structure AgreesAt (store : Store) (regex : Regex) (row : Nat) : Prop where
  contains_iff_count : (contains store regex).get? row = some true ↔
    ∃ n, (count store regex).get? row = some n ∧ 0 < n
  contains_iff_find : (contains store regex).get? row = some true ↔
    ∃ found, (find store regex).get? row = some (some found)
  contains_iff_findAll : ∀ column, findAll store regex = .ok column →
    ((contains store regex).get? row = some true ↔
      ∃ piece pieces, column.row? row = some (piece :: pieces))
  contains_iff_captures : (contains store regex).get? row = some true ↔
    ∃ text groups, store.text? row = some text ∧ regex.captures text = some groups
  matchesStart_iff_find : (matchesStart store regex).get? row = some true ↔
    ∃ length, (find store regex).get? row = some (some ⟨0, length⟩)
  counted : ∀ text, store.text? row = some text → ∃ n, n ≤ text.length + 1 ∧
    (count store regex).get? row = some (toInt32 n) ∧
    (∀ column, findAll store regex = .ok column →
      ∃ pieces, column.row? row = some pieces ∧ pieces.length = n) ∧
    ∀ limit column, split store regex limit = .ok column →
      ∃ pieces, column.row? row = some pieces ∧ pieces.length = limit.elim n (min · n) + 1
  first_piece : ∀ column found, findAll store regex = .ok column →
    (find store regex).get? row = some (some found) →
      ∃ text piece pieces, ∃ position length : Nat, store.text? row = some text ∧
        column.row? row = some (piece :: pieces) ∧ found = ⟨position, length⟩ ∧
        piece.toList = (text.toList.drop position).take length
  split_columns : ∀ limit column, split store regex limit = .ok column →
    ∀ (k : Nat) (part : Store), column.transpose[k]? = some part →
      part.text? row = (column.row? row).bind (·[k]?)
  joined : ∀ limit column replacement replaced, split store regex limit = .ok column →
    replace store regex replacement limit = .ok replaced →
      replaced.text? row = (column.row? row).map replacement.intercalate
  extracted : ∀ parts, extract store regex = .ok parts → parts.length = regex.groupCount ∧
    ∀ k part, parts[k]? = some part →
      part.text? row = (store.text? row).bind fun text => (regex.captures text).bind fun groups =>
        (groups[k + 1]?.join).map fun extent => Text.between text extent.start extent.stop
  contains_missing : (contains store regex).get? row = none ↔ store.text? row = none
  matchesStart_missing : (matchesStart store regex).get? row = none ↔ store.text? row = none
  find_missing : (find store regex).get? row = none ↔ store.text? row = none
  count_missing : (count store regex).get? row = none ↔ store.text? row = none
  findAll_missing : ∀ column, findAll store regex = .ok column →
    (column.row? row = none ↔ store.text? row = none)
  split_missing : ∀ limit column, split store regex limit = .ok column →
    (column.row? row = none ↔ store.text? row = none)
  split_columns_missing : ∀ limit column, split store regex limit = .ok column →
    ∀ (k : Nat) (part : Store), column.transpose[k]? = some part →
      (part.text? row = none ↔ store.text? row = none ∨
        ∃ pieces, column.row? row = some pieces ∧ pieces.length ≤ k)
  replace_missing : ∀ replacement limit replaced,
    replace store regex replacement limit = .ok replaced →
      (replaced.text? row = none ↔ store.text? row = none)

variable {store : Store} {pattern : String} {flags : Flags} {regex : Regex}

theorem found_eq {text : String} {extent : Extent} (hwithin : extent.Within text)
    (hle : extent.start ≤ extent.stop) (hsize : text.utf8ByteSize ≤ maxInt32) :
    ∃ position length : Nat, found text extent = ⟨position, length⟩ ∧
      (Text.between text extent.start extent.stop).toList =
        (text.toList.drop position).take length ∧ (position = 0 ↔ extent.start = 0) := by
  obtain ⟨front, middle, behind, htext, hstart, hstop⟩ := hwithin.exists_chars hle
  have hlength : front.length + middle.length ≤ maxInt32 := by
    have hchars := length_le_sizeOf text.toList
    rw [Text.sizeOf_toList, htext] at hchars
    simp only [List.length_append] at hchars
    omega
  refine ⟨front.length, middle.length, ?_, ?_, ?_⟩
  · rw [found, hstart, hstop, Text.charPosition_eq htext,
      Text.charPosition_eq (htext.trans (List.append_assoc ..).symm), List.length_append,
      Nat.add_sub_cancel_left, toInt32_of_le (by omega), toInt32_of_le (by omega)]
  · rw [hstart, hstop, Text.between_eq_ofList htext, String.toList_ofList, htext,
      List.drop_left, List.take_left]
  · rw [hstart]
    constructor
    · intro hnil
      rw [List.eq_nil_of_length_eq_zero hnil]
      rfl
    · intro hzero
      rw [Text.eq_nil_of_sizeOf_eq_zero hzero]
      rfl

theorem transposed_split (hvalid : store.Valid)
    (hcompile : Regex.compile pattern flags = .ok regex) {limit : Option Nat} {column : ListColumn}
    (hsplit : split store regex limit = .ok column) :
    column.size = store.size ∧ ListColumn.Transposed column column.transpose := by
  have hcut : ListColumn.CutBy store _ column := .splitAtMatches hcompile hsplit
  refine ⟨hcut.size_eq, ListColumn.transposed (hcut.valid hvalid) fun row hrow => ?_⟩
  exact hcut.rowLength_eq hvalid (hcut.size_eq ▸ hrow)

theorem text?_splitColumn (hvalid : store.Valid)
    (hcompile : Regex.compile pattern flags = .ok regex) {limit : Option Nat} {column : ListColumn}
    (hsplit : split store regex limit = .ok column) {row k : Nat} (hrow : row < store.size)
    {part : Store} (hpart : column.transpose[k]? = some part) :
    part.text? row = (column.row? row).bind (·[k]?) := by
  obtain ⟨hsize, hsides⟩ := transposed_split hvalid hcompile hsplit
  exact hsides.text?_eq k part hpart row (hsize ▸ hrow)

theorem agreesAt (hvalid : store.Valid) (hcompile : Regex.compile pattern flags = .ok regex)
    {row : Nat} (hrow : row < store.size) : AgreesAt store regex row where
  contains_iff_count := by
    rw [contains_get? hvalid hcompile, count_get? hvalid hcompile]
    simp only [Option.map_eq_some_iff, exists_exists_and_eq_and, toInt32_pos,
      isSome_find_iff hcompile]
  contains_iff_find := by
    rw [contains_get? hvalid hcompile, find_get? hvalid hcompile]
    cases store.text? row with
    | none => simp
    | some text => simp [Option.isSome_iff_exists]
  contains_iff_findAll := by
    intro column hfound
    rw [contains_get? hvalid hcompile, findAll_row? hvalid hcompile hrow hfound]
    cases store.text? row with
    | none => simp
    | some text =>
        simp only [Option.map_some, Option.some.injEq, isSome_find_iff hcompile]
        rw [List.length_pos_iff_exists_cons]
        simp [List.map_eq_cons_iff]
  contains_iff_captures := by
    rw [contains_get? hvalid hcompile]
    simp only [Option.map_eq_some_iff, ← Regex.isSome_captures hcompile, Option.isSome_iff_exists,
      exists_and_left]
  matchesStart_iff_find := by
    rw [matchesStart_get? hvalid hcompile, find_get? hvalid hcompile]
    cases htext : store.text? row with
    | none => simp
    | some text =>
        rw [Option.map_some, Option.map_some, Option.some.injEq]
        simp only [Option.some.injEq]
        cases hfind : regex.find text with
        | none => simp
        | some extent =>
            obtain ⟨hwithin, hle⟩ := Regex.within_find hcompile hfind
            obtain ⟨position, length, hfound, -, hzero⟩ :=
              found_eq hwithin hle (hvalid.size_le_of_text? htext)
            simp [hfound, hzero]
  counted := by
    intro text htext
    have hmost : (regex.program.extentsIn text).length ≤ text.length + 1 := by
      rw [Program.length_extentsIn, ← String.length_toList]
      exact Program.length_matchesFrom_le _ _ _
    have hcount : (count store regex).get? row =
        some (toInt32 (regex.program.extentsIn text).length) := by
      rw [count_get? hvalid hcompile, htext, Option.map_some]
    refine ⟨(regex.program.extentsIn text).length, hmost, hcount, ?_, ?_⟩
    · intro column hfound
      rw [findAll_row? hvalid hcompile hrow hfound, htext]
      exact ⟨_, rfl, List.length_map _⟩
    · intro limit column hsplit
      rw [split_row? hvalid hcompile hrow hsplit, htext]
      refine ⟨_, rfl, ?_⟩
      rw [List.length_map, length_between, length_upTo]
  first_piece := by
    intro column match' hcolumn hfind
    rw [find_get? hvalid hcompile, Option.map_eq_some_iff] at hfind
    obtain ⟨text, htext, hfind⟩ := hfind
    obtain ⟨extent, hextent, rfl⟩ := Option.map_eq_some_iff.mp hfind
    obtain ⟨hwithin, hle⟩ := Regex.within_find hcompile hextent
    obtain ⟨position, length, hfound, hpiece, -⟩ :=
      found_eq hwithin hle (hvalid.size_le_of_text? htext)
    rw [← Regex.head?_extentsIn hcompile] at hextent
    obtain ⟨others, hothers⟩ := List.head?_eq_some_iff.mp hextent
    have hpieces : column.row? row = some (Text.between text extent.start extent.stop ::
        others.map fun extent => Text.between text extent.start extent.stop) := by
      rw [findAll_row? hvalid hcompile hrow hcolumn, htext, Option.map_some, hothers, List.map_cons]
    exact ⟨text, _, _, position, length, htext, hpieces, hfound, hpiece⟩
  split_columns := fun _ _ hsplit _ _ hpart =>
    text?_splitColumn hvalid hcompile hsplit hrow hpart
  joined := by
    intro limit column replacement replaced hsplit hreplace
    rw [replace_text? hcompile hreplace hrow, split_row? hvalid hcompile hrow hsplit, Option.map_map]
    rfl
  extracted := by
    intro parts hextract
    exact ⟨length_of_extract hextract, fun _ _ hpart =>
      extract_text? hvalid hcompile hextract hpart hrow⟩
  contains_missing := by rw [contains_get? hvalid hcompile, Option.map_eq_none_iff]
  matchesStart_missing := by rw [matchesStart_get? hvalid hcompile, Option.map_eq_none_iff]
  find_missing := by rw [find_get? hvalid hcompile, Option.map_eq_none_iff]
  count_missing := by rw [count_get? hvalid hcompile, Option.map_eq_none_iff]
  findAll_missing := by
    intro column hfound
    rw [findAll_row? hvalid hcompile hrow hfound, Option.map_eq_none_iff]
  split_missing := by
    intro limit column hsplit
    rw [split_row? hvalid hcompile hrow hsplit, Option.map_eq_none_iff]
  split_columns_missing := by
    intro limit column hsplit k part hpart
    rw [text?_splitColumn hvalid hcompile hsplit hrow hpart,
      split_row? hvalid hcompile hrow hsplit]
    cases store.text? row with
    | none => simp
    | some text => simp
  replace_missing := by
    intro replacement limit replaced hreplace
    rw [replace_text? hcompile hreplace hrow, Option.map_eq_none_iff]

/-- The columns of a pattern agree on every row of a store. -/
theorem columns_agree (hvalid : store.Valid)
    (hcompile : Regex.compile pattern flags = .ok regex) :
    (∀ row, row < store.size → AgreesAt store regex row) ∧
    (store.size ≤ maxRows → (∃ column, findAll store regex = .ok column) ∧
      ∀ limit, ∃ column, split store regex limit = .ok column) ∧
    ∀ limit replacement column, split store regex limit = .ok column →
      (∀ text, some text ∈ column.rows.map (Option.map replacement.intercalate) →
        text.utf8ByteSize ≤ Store.maxElementSize) →
      total (textSizes (column.rows.map (Option.map replacement.intercalate))) ≤
        Store.maxBufferSize →
      ∃ replaced, replace store regex replacement limit = .ok replaced := by
  refine ⟨fun row hrow => agreesAt hvalid hcompile hrow, fun hsize => ?_, ?_⟩
  · exact ⟨exists_findAll hvalid hcompile hsize, exists_split hvalid hcompile hsize⟩
  · intro limit replacement column hsplit htexts htotal
    exact exists_replace hvalid hcompile hsplit htexts htotal

theorem columns_agree_emptyMatches :
    let store := Store.ofCells ⟨⟨#[97, 195, 164, 98]⟩, none⟩ #[⟨0, some 4⟩, ⟨4, none⟩]
    let regex : Regex := ⟨"(ä)?b*", Flags.none,
      ⟨#[.save 0, .split 2 5, .save 2, .char 'ä' false, .save 3, .split 6 8, .char 'b' false,
        .jump 5, .save 1, .accept], #[], 4, 0⟩⟩
    let column : ListColumn :=
      ⟨Store.ofCells ⟨⟨#[97, 195, 164, 98]⟩, none⟩ #[⟨0, some 4⟩], #[0, 1, 1], some #[true, false]⟩
    Store.ofTexts [some "aäb", none] = .ok store ∧ store.Valid ∧
      Regex.compile "(ä)?b*" Flags.none = .ok regex ∧ store.size ≤ maxRows ∧
      (∀ row, row < store.size → AgreesAt store regex row) ∧
      (∃ column, findAll store regex = .ok column) ∧
      (∀ limit, ∃ column, split store regex limit = .ok column) ∧
      split store regex (some 0) = .ok column ∧
      column.rows.map (Option.map "-".intercalate) = [some "aäb", none] ∧
      ∃ replaced, replace store regex "-" (some 0) = .ok replaced := by
  intro store regex column
  have hbuild : Store.ofTexts [some "aäb", none] = .ok store := by with_unfolding_all rfl
  have hvalid : store.Valid := Store.valid_of_build hbuild
  have hcompile : Regex.compile "(ä)?b*" Flags.none = .ok regex := by decide +kernel
  have hsize : store.size ≤ maxRows := by decide
  have hsplit : split store regex (some 0) = .ok column := by
    unfold split
    rw [pieces_eq hcompile, Store.texts_ofTexts hbuild]
    simp only [Text.upTo, List.take_zero, List.map_cons, List.map_nil, Option.map_some,
      Option.map_none]
    with_unfolding_all rfl
  have hrows : column.rows.map (Option.map "-".intercalate) = [some "aäb", none] := by
    decide +kernel
  obtain ⟨hagree, hlists, hreplace⟩ := columns_agree hvalid hcompile
  obtain ⟨hfindAll, hsplits⟩ := hlists hsize
  refine ⟨hbuild, hvalid, hcompile, hsize, hagree, hfindAll, hsplits, hsplit, hrows, ?_⟩
  refine hreplace (some 0) "-" column hsplit ?_ ?_
  · rw [hrows]
    intro text htext
    obtain rfl : text = "aäb" := by simpa using htext
    decide
  · rw [hrows]
    decide

theorem exists_findAll_empty {text : String} (hlength : text.length = maxInt32)
    (hsize : text.utf8ByteSize = maxInt32) :
    ∃ store regex column pieces, Store.ofTexts [some text] = .ok store ∧
      Regex.compile "" Flags.none = .ok regex ∧ findAll store regex = .ok column ∧
      column.row? 0 = some pieces ∧ pieces.length = maxInt32 + 1 ∧
      (count store regex).get? 0 = some (maxInt32 : Int) := by
  have htexts : ∀ other, some other ∈ [some text] → other.utf8ByteSize ≤ Store.maxElementSize := by
    intro other hother
    obtain rfl : other = text := by simpa using hother
    exact Nat.le_of_eq hsize
  have htotal : total (textSizes [some text]) ≤ Store.maxBufferSize := by
    simp [textSizes, hsize, Store.maxBufferSize, maxInt32]
  obtain ⟨store, hbuild⟩ := Store.exists_ofTexts htexts htotal
  obtain ⟨regex, hcompile⟩ : ∃ regex, Regex.compile "" Flags.none = .ok regex :=
    ⟨⟨"", Flags.none, ⟨#[.save 0, .save 1, .accept], #[], 2, 0⟩⟩, by decide +kernel⟩
  have hvalid := Store.valid_of_build hbuild
  have hrows := Store.texts_ofTexts hbuild
  have hone : store.size = 1 := by rw [← store.length_toList_texts, hrows, List.length_singleton]
  have hrow : 0 < store.size := hone ▸ Nat.one_pos
  have htext : store.text? 0 = some text := by
    rw [store.text?_eq_getD, hrows]
    rfl
  obtain ⟨column, hfound⟩ := exists_findAll hvalid hcompile (hone ▸ by decide)
  have hpieces := findAll_row? hvalid hcompile hrow hfound
  rw [htext, Option.map_some] at hpieces
  refine ⟨store, regex, column, _, hbuild, hcompile, hfound, hpieces, ?_, ?_⟩
  · rw [List.length_map, Regex.length_extentsIn_empty hcompile, hlength]
  · rw [count_get? hvalid hcompile, htext, Option.map_some,
      Regex.length_extentsIn_empty hcompile, hlength]
    rfl

/-- Beside a row of two words, a row of one word has nothing in the second column. -/
theorem exists_split_short :
    ∃ store regex column part, Store.ofTexts [some "a", some "a b"] = .ok store ∧
      Regex.compile " " Flags.none = .ok regex ∧ split store regex none = .ok column ∧
      column.row? 0 = some ["a"] ∧ column.row? 1 = some ["a", "b"] ∧
      column.transpose[1]? = some part ∧ store.text? 0 = some "a" ∧ part.text? 0 = none := by
  let store := Store.ofCells ⟨⟨#[97, 97, 32, 98]⟩, none⟩ #[⟨0, some 1⟩, ⟨1, some 3⟩]
  have hbuild : Store.ofTexts [some "a", some "a b"] = .ok store := by with_unfolding_all rfl
  obtain ⟨regex, hcompile⟩ : ∃ regex, Regex.compile " " Flags.none = .ok regex :=
    ⟨⟨" ", Flags.none, ⟨#[.save 0, .char ' ' false, .save 1, .accept], #[], 2, 0⟩⟩,
      by decide +kernel⟩
  have hvalid := Store.valid_of_build hbuild
  have hone : store.text? 0 = some "a" := by decide +kernel
  have htwo : store.text? 1 = some "a b" := by decide +kernel
  have hpattern : Pattern.escaped Pattern.isEscapable " " = " " := by decide
  have hextents (text : String) : regex.program.extentsIn text =
      (Text.occurrences text.toByteArray (.ofText " ")).map (Regex.occurrence " ") :=
    Regex.extentsIn_escaped Pattern.escaping_isEscapable (by decide) (hpattern.symm ▸ hcompile)
      text
  obtain ⟨column, hsplit⟩ := exists_split hvalid hcompile (by decide) none
  have hshort : column.row? 0 = some ["a"] := by
    rw [split_row? hvalid hcompile (by decide) hsplit, hone, Option.map_some, hextents]
    decide +kernel
  have hlong : column.row? 1 = some ["a", "b"] := by
    rw [split_row? hvalid hcompile (by decide) hsplit, htwo, Option.map_some, hextents]
    decide +kernel
  obtain ⟨hsize, hsides⟩ := transposed_split hvalid hcompile hsplit
  have hwidth : 1 < column.transpose.length :=
    hsides.length_le 1 (hsize ▸ by decide) _ hlong
  have hpart := List.getElem?_eq_getElem hwidth
  refine ⟨store, regex, column, _, hbuild, hcompile, hsplit, hshort, hlong, hpart, hone, ?_⟩
  rw [text?_splitColumn hvalid hcompile hsplit (by decide) hpart, hshort]
  rfl

/-- A count can be less than the number of the pieces, and a column of pieces can be missing where
the element is not. -/
theorem columns_disagree :
    (∃ store regex column pieces,
      Store.ofTexts [some (String.ofList (List.replicate 2147483647 'a'))] = .ok store ∧
      Regex.compile "" Flags.none = .ok regex ∧ findAll store regex = .ok column ∧
      column.row? 0 = some pieces ∧ pieces.length = 2147483648 ∧
      (count store regex).get? 0 = some 2147483647) ∧
    ∃ store regex column part, Store.ofTexts [some "a", some "a b"] = .ok store ∧
      Regex.compile " " Flags.none = .ok regex ∧ split store regex none = .ok column ∧
      column.row? 0 = some ["a"] ∧ column.row? 1 = some ["a", "b"] ∧
      column.transpose[1]? = some part ∧ store.text? 0 = some "a" ∧ part.text? 0 = none := by
  refine ⟨exists_findAll_empty ?_ ?_, exists_split_short⟩
  · rw [String.length_ofList, List.length_replicate, maxInt32]
  · rw [Text.utf8ByteSize_ofList, Text.sizeOf_replicate]
    rfl

end TextColumns.Matching
