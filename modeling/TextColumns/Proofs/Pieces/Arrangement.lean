import TextColumns.Proofs.Matching.Columns
import TextColumns.Proofs.Pieces.Separators

/-!
How the pieces of all elements are laid out.  The pieces stand one behind the other among the values
of the column, from row to row, and the offsets tell where each row begins; turned on its side, the
column has one store for each place in a row, of which the rows can be put together again.
-/

namespace TextColumns

namespace ListColumn

open Text (Extent)
open Transform (pieceTexts)

variable {store : Store} {column : ListColumn} {pieces : String → List Extent}

/-- The columns that hold the pieces of the elements of a store, with what cuts a text into them. -/
inductive CutBy (store : Store) : (String → List Extent) → ListColumn → Prop
  | split {separator : Option String} {limit : Option Nat} {column : ListColumn}
      (hsplit : ListColumn.split store separator limit = .ok column) :
      CutBy store ((Text.Cut.ofText separator).pieces limit) column
  | splitFromRight {separator : Option String} {limit : Option Nat} {column : ListColumn}
      (hsplit : ListColumn.splitFromRight store separator limit = .ok column) :
      CutBy store ((Text.Cut.ofText separator).piecesFromRight limit) column
  | splitAtMatches {pattern : String} {flags : Pattern.Flags} {regex : Regex}
      {limit : Option Nat} {column : ListColumn}
      (hcompile : Regex.compile pattern flags = .ok regex)
      (hsplit : Matching.split store regex limit = .ok column) :
      CutBy store (fun text => Matching.between text.utf8ByteSize 0
        (Text.upTo limit (regex.program.extentsIn text))) column
  | findAll {pattern : String} {flags : Pattern.Flags} {regex : Regex} {column : ListColumn}
      (hcompile : Regex.compile pattern flags = .ok regex)
      (hfound : Matching.findAll store regex = .ok column) :
      CutBy store regex.program.extentsIn column

/-- Whether a column has the pieces of every element, one row behind the other. -/
structure Arranged (store : Store) (pieces : String → List Extent) (column : ListColumn) :
    Prop where
  rows_eq : column.rows =
    store.texts.toList.map (·.map fun text => pieceTexts text (pieces text))
  size_offsets : column.offsets.size = store.size + 1
  first : column.offsets[0]? = some 0
  ascending : column.offsets.toList.Pairwise (· ≤ ·)
  last : column.offsets[store.size]? = some column.values.size
  isValid_eq : ∀ row < store.size,
    Validity.isValid column.validity row = (store.text? row).isSome
  rowLength_eq : ∀ row < store.size,
    column.rowLength row = ((column.row? row).map List.length).getD 0
  values_eq : column.values.texts.toList = (column.rows.flatMap (·.getD [])).map some
  nullCount_eq : column.values.nullCount = 0

/-- Whether stores are those of a column turned on its side: there are as many as the longest row
has pieces, and the rows are made of what the stores have in them. -/
structure Transposed (column : ListColumn) (parts : List Store) : Prop where
  length_le : ∀ row < column.size, ∀ texts, column.row? row = some texts →
    texts.length ≤ parts.length
  longest : parts ≠ [] →
    ∃ row < column.size, ∃ texts, column.row? row = some texts ∧ texts.length = parts.length
  size_eq : ∀ part ∈ parts, part.size = column.size
  text?_eq : ∀ (k : Nat) (part : Store), parts[k]? = some part → ∀ row < column.size,
    part.text? row = (column.row? row).bind (·[k]?)
  rows_eq : column.rows = (List.range column.size).map fun row =>
    if Validity.isValid column.validity row then some (parts.filterMap fun part => part.text? row)
    else none

theorem within_extentsIn {pattern : String} {flags : Pattern.Flags} {regex : Regex}
    (hcompile : Regex.compile pattern flags = .ok regex) (limit : Option Nat) (text : String) :
    ∀ extent ∈ Text.upTo limit (regex.program.extentsIn text), extent.Within text := by
  have hcheck := Regex.check_of_compile hcompile
  have hready := Matcher.ready_ofProgram regex.program
  rw [← hready.findAll_eq hcheck (Regex.advances_of_compile hcompile)]
  exact (hready.findAll hcheck limit text).1

theorem CutBy.within (hcut : CutBy store pieces column) (text : String) :
    ∀ extent ∈ pieces text, extent.Within text := by
  intro extent hextent
  cases hcut with
  | split hsplit =>
      unfold ListColumn.split at hsplit
      split at hsplit
      · cases hsplit
      · exact Text.Cut.within_of_mem_pieces (ne_of_checkSeparator ‹_›) hextent
  | splitFromRight hsplit =>
      unfold ListColumn.splitFromRight at hsplit
      split at hsplit
      · cases hsplit
      · exact Text.Cut.within_of_mem_piecesFromRight (ne_of_checkSeparator ‹_›) hextent
  | splitAtMatches hcompile =>
      exact Matching.within_of_mem_between (Text.isBoundary_zero text)
        (within_extentsIn hcompile _ text) hextent
  | findAll hcompile => exact within_extentsIn hcompile none text extent hextent

theorem CutBy.ofExtents_eq (hcut : CutBy store pieces column) :
    ofExtents store (store.texts.toList.map (·.map pieces)) = .ok column := by
  cases hcut with
  | split hsplit =>
      unfold ListColumn.split at hsplit
      split at hsplit
      · cases hsplit
      · exact hsplit
  | splitFromRight hsplit =>
      unfold ListColumn.splitFromRight at hsplit
      split at hsplit
      · cases hsplit
      · exact hsplit
  | splitAtMatches hcompile hsplit =>
      rw [← hsplit, Matching.split]
      exact congrArg _ (Matching.pieces_eq hcompile store _).symm
  | findAll hcompile hfound =>
      rw [← hfound, Matching.findAll]
      exact congrArg _ (Matching.extents_eq hcompile store none).symm

theorem map_spansFrom (f : Span → β) (first : Nat) (rows : List (Option (List Extent))) :
    (spansFrom first rows).map (Option.map f) =
      (rows.mapIdx fun row extents => (extents.getD []).map fun extent =>
        some (f ⟨first + row, extent.start, extent.stop⟩)).flatten := by
  induction rows generalizing first with
  | nil => rfl
  | cons extents? rest ih =>
      have hrest := ih (first + 1)
      simp only [Nat.add_right_comm first 1] at hrest
      rw [List.mapIdx_cons, List.flatten_cons]
      cases extents? with
      | none => exact hrest
      | some extents =>
          rw [spansFrom, List.map_append, hrest, List.map_map]
          rfl

theorem CutBy.size_eq (hcut : CutBy store pieces column) : column.size = store.size := by
  obtain ⟨-, -, -, hsize⟩ := ListColumn.ofExtents_eq hcut.ofExtents_eq
  rw [hsize, List.length_map, Store.length_toList_texts]

theorem CutBy.isValid_eq (hcut : CutBy store pieces column) {row : Nat}
    (hrow : row < store.size) :
    Validity.isValid column.validity row = (store.text? row).isSome := by
  obtain ⟨-, -, hvalidity, -⟩ := ListColumn.ofExtents_eq hcut.ofExtents_eq
  rw [hvalidity]
  refine Validity.isValid_ofMarks ?_
  rw [List.getElem?_toArray, List.getElem?_map, List.getElem?_map,
    store.getElem?_toList_texts hrow, Option.map_some, Option.map_some, Option.isSome_map]

section Rows

variable (hvalid : store.Valid) (hcut : CutBy store pieces column)
include hvalid hcut

theorem CutBy.row?_eq {row : Nat} (hrow : row < store.size) :
    column.row? row = (store.text? row).map fun text => pieceTexts text (pieces text) :=
  row?_eq_map hvalid hcut.within hcut.ofExtents_eq hrow

theorem CutBy.rows_eq : column.rows =
    store.texts.toList.map (·.map fun text => pieceTexts text (pieces text)) := by
  rw [rows, hcut.size_eq, Store.toList_texts, List.map_map]
  exact List.map_congr_left fun row hrow => hcut.row?_eq hvalid (List.mem_range.mp hrow)

theorem CutBy.values_eq :
    column.values.texts.toList = (column.rows.flatMap (·.getD [])).map some := by
  obtain ⟨hvalues, -⟩ := ListColumn.ofExtents_eq hcut.ofExtents_eq
  have hwithin := @rowsWithin_map store _ hcut.within
  rw [hvalues, hvalid.texts_share fun _ => hwithin.span, map_spansFrom, hcut.rows_eq hvalid,
    List.map_flatMap, List.flatMap_map, List.flatMap_def]
  refine congrArg List.flatten (List.ext_getElem (by simp) fun row hrow _ => ?_)
  rw [List.length_mapIdx, List.length_map] at hrow
  have htext := store.getElem?_toList_texts (store.length_toList_texts ▸ hrow)
  rw [List.getElem?_eq_getElem hrow, Option.some.injEq] at htext
  simp only [List.getElem_mapIdx, List.getElem_map, htext]
  cases htext : store.text? row with
  | none => rfl
  | some text => simp [pieceTexts, Store.spanText, htext]

theorem CutBy.valid : column.Valid :=
  valid_of_ofExtents hvalid (rowsWithin_map hcut.within) hcut.ofExtents_eq

theorem CutBy.rowLength_eq {row : Nat} (hrow : row < store.size) :
    column.rowLength row = ((column.row? row).map List.length).getD 0 := by
  have hpieces : (store.texts.toList.map (·.map pieces))[row]? =
      some ((store.text? row).map pieces) := by
    rw [List.getElem?_map, store.getElem?_toList_texts hrow]
    rfl
  rw [rowLength_of_ofExtents hcut.ofExtents_eq hpieces, hcut.row?_eq hvalid hrow]
  cases store.text? row with
  | none => rfl
  | some text => exact (List.length_map _).symm

/-- The pieces of all elements make up the values, and the offsets tell whose they are. -/
theorem CutBy.arranged : Arranged store pieces column := by
  have hcolumn := hcut.ofExtents_eq
  have hlength : (store.texts.toList.map (·.map pieces)).length = store.size := by
    rw [List.length_map, Store.length_toList_texts]
  have hoffset {row : Nat} (hrow : row ≤ store.size) := getElem?_offsets hcolumn (hlength ▸ hrow)
  have heq := eq_of_ofExtents hcolumn
  constructor
  case rows_eq => exact hcut.rows_eq hvalid
  case size_offsets =>
    rw [heq, Array.size_push, List.size_toArray, PrefixSum.length_startsFrom, counts,
      List.length_map, hlength]
  case first => exact hoffset (Nat.zero_le _)
  case ascending =>
    have hstarts := PrefixSum.pairwise_startsFrom 0
      (counts (store.texts.toList.map (·.map pieces)))
    rw [Nat.zero_add] at hstarts
    rwa [heq, Array.toList_push]
  case last =>
    have hall := hoffset (Nat.le_refl _)
    rw [List.take_of_length_le (by rw [counts, List.length_map, hlength])] at hall
    rw [hall, heq, Store.size_share, length_spansFrom]
  case isValid_eq => exact fun _ hrow => hcut.isValid_eq hrow
  case rowLength_eq => exact fun _ hrow => hcut.rowLength_eq hvalid hrow
  case values_eq => exact hcut.values_eq hvalid
  case nullCount_eq =>
    rw [(hcut.valid hvalid).values.nullCount_eq_countP, hcut.values_eq hvalid, List.countP_map]
    exact List.countP_eq_zero.mpr fun _ _ => Bool.false_ne_true

end Rows

theorem foldl_max (sizes : List Nat) (start : Nat) :
    start ≤ sizes.foldl max start ∧ (∀ size ∈ sizes, size ≤ sizes.foldl max start) ∧
      (sizes.foldl max start = start ∨ sizes.foldl max start ∈ sizes) := by
  induction sizes generalizing start with
  | nil => exact ⟨Nat.le_refl _, nofun, .inl rfl⟩
  | cons size rest ih =>
      obtain ⟨hstart, hrest, hmax⟩ := ih (max start size)
      have hle := Nat.max_le.mp hstart
      refine ⟨hle.1, List.forall_mem_cons.mpr ⟨hle.2, hrest⟩, ?_⟩
      rcases hmax with hmax | hmax
      · rw [List.foldl_cons, hmax]
        rcases Nat.le_total start size with hsize | hsize
        · rw [Nat.max_eq_right hsize]
          exact .inr (.head _)
        · exact .inl (Nat.max_eq_left hsize)
      · exact .inr (.tail _ hmax)

theorem filterMap_getElem?_range (items : List α) (count : Nat) :
    (List.range count).filterMap (items[·]?) = items.take count := by
  induction count with
  | zero => rfl
  | succ count ih =>
      rw [List.range_succ, List.filterMap_append, ih, List.take_add_one]
      cases hitem : items[count]? <;> simp [hitem]

section Transpose

variable (hvalid : column.Valid)
  (hlength : ∀ row < column.size,
    column.rowLength row = ((column.row? row).map List.length).getD 0)
include hvalid hlength

theorem text?_nth {row : Nat} (hrow : row < column.size) (k : Nat) :
    (column.nth k).text? row = (column.row? row).bind (·[k]?) := by
  have hlength := hlength row hrow
  rw [nth, hvalid.values.text?_share fun _ => hvalid.within_nth k, List.getElem?_map,
    List.getElem?_range hrow, Option.map_some, Option.join_some]
  by_cases hk : k < column.rowLength row
  · obtain ⟨text, htext, hbytes⟩ := hvalid.exists_text (hvalid.lt_of_lt_rowLength hk)
    have hspan : column.values.spanText ⟨column.rowStart row + k, 0, text.utf8ByteSize⟩ = text := by
      rw [Store.spanText, htext, Option.getD_some, Text.between_all]
    rw [if_pos hk, hbytes, Option.map_some, Option.map_some, Option.getD_some,
      String.size_toByteArray, hspan]
    unfold row? at hlength ⊢
    split
    next =>
      rw [Option.bind_some, List.getElem?_map, List.getElem?_range hk, Option.map_some, htext,
        Option.getD_some]
    next hmissing =>
      rw [if_neg hmissing] at hlength
      exact absurd hk (hlength ▸ Nat.not_lt_zero k)
  · rw [if_neg hk, Option.map_none]
    cases htexts : column.row? row with
    | none => rfl
    | some texts =>
        rw [htexts, Option.map_some, Option.getD_some] at hlength
        exact (List.getElem?_eq_none (hlength ▸ Nat.le_of_not_lt hk)).symm

theorem transposed : Transposed column column.transpose := by
  obtain ⟨-, hle, hmax⟩ := foldl_max ((List.range column.size).map column.rowLength) 0
  have hrowLength {row : Nat} (hrow : row < column.size) {texts : List String}
      (htexts : column.row? row = some texts) : texts.length = column.rowLength row := by
    rw [hlength row hrow, htexts, Option.map_some, Option.getD_some]
  have hwidth : column.transpose.length = column.width := by
    rw [transpose, List.length_map, List.length_range]
  have hlongest {row : Nat} (hrow : row < column.size) {texts : List String}
      (htexts : column.row? row = some texts) : texts.length ≤ column.width :=
    hrowLength hrow htexts ▸ hle _ (List.mem_map_of_mem (List.mem_range.mpr hrow))
  constructor
  case length_le => exact fun row hrow texts htexts => hwidth ▸ hlongest hrow htexts
  case longest =>
    intro hne
    have hpos : 0 < column.width := hwidth ▸ List.length_pos_iff.mpr hne
    obtain ⟨row, hrow, hmax⟩ := List.mem_map.mp (hmax.resolve_left (Nat.ne_of_gt hpos))
    have hrow := List.mem_range.mp hrow
    change column.rowLength row = column.width at hmax
    have hlength := hlength row hrow
    cases htexts : column.row? row with
    | none =>
        rw [htexts, hmax] at hlength
        exact absurd hlength (Nat.ne_of_gt hpos)
    | some texts =>
        exact ⟨row, hrow, texts, htexts, by rw [hwidth, ← hmax, hrowLength hrow htexts]⟩
  case size_eq =>
    intro part hpart
    obtain ⟨k, -, rfl⟩ := List.mem_map.mp hpart
    rw [nth, Store.size_share, List.length_map, List.length_range]
  case text?_eq =>
    intro k part hpart row hrow
    rw [transpose, List.getElem?_map, Option.map_eq_some_iff] at hpart
    obtain ⟨i, hi, rfl⟩ := hpart
    obtain ⟨-, rfl⟩ := List.getElem?_eq_some_iff.mp hi
    rw [List.getElem_range, text?_nth hvalid hlength hrow]
  case rows_eq =>
    refine List.map_congr_left fun row hrow => ?_
    have hrow := List.mem_range.mp hrow
    cases htexts : column.row? row with
    | none =>
        have hmissing : Validity.isValid column.validity row = false := by
          by_contra hpresent
          rw [row?, if_pos (Bool.not_eq_false _ ▸ hpresent)] at htexts
          cases htexts
        rw [hmissing]
        rfl
    | some texts =>
        have hpresent : Validity.isValid column.validity row = true := by
          by_contra hmissing
          rw [row?, if_neg hmissing] at htexts
          cases htexts
        have hparts : column.transpose.filterMap (·.text? row) = texts := by
          rw [transpose, List.filterMap_map]
          calc
            (List.range column.width).filterMap ((·.text? row) ∘ column.nth)
            _ = (List.range column.width).filterMap (texts[·]?) :=
                List.filterMap_congr fun k _ => by
                  rw [Function.comp_apply, text?_nth hvalid hlength hrow, htexts, Option.bind_some]
            _ = texts.take column.width := filterMap_getElem?_range _ _
            _ = texts := List.take_of_length_le (hlongest hrow htexts)
        rw [if_pos hpresent, hparts]

end Transpose

/-- The pieces of all elements stand one behind the other among the values of the column that holds
them, a missing element has none, and the offsets tell whose they are.  On its side the column has
one store for each place in the longest row, and the rows can be put together from these. -/
theorem lays_out_pieces (hvalid : store.Valid) (hcut : CutBy store pieces column) :
    Arranged store pieces column ∧ Transposed column column.transpose :=
  ⟨hcut.arranged hvalid, transposed (hcut.valid hvalid) fun _ hrow =>
    hcut.rowLength_eq hvalid (hcut.size_eq ▸ hrow)⟩

/-- A row of two words, one that is missing, one without words, and one of a single word. -/
theorem lays_out_pieces_words :
    let buffer : Buffer := ⟨⟨#[97, 32, 98, 32, 195, 169]⟩, none⟩
    let store := Store.ofCells buffer #[⟨0, some 3⟩, ⟨3, none⟩, ⟨3, some 1⟩, ⟨4, some 2⟩]
    let column : ListColumn := ⟨Store.ofCells buffer #[⟨0, some 1⟩, ⟨2, some 1⟩, ⟨4, some 2⟩],
      #[0, 2, 2, 2, 3], some #[true, false, true, true]⟩
    store.Valid ∧ CutBy store (Text.Cut.blanks.pieces none) column ∧
      column.rows = [some ["a", "b"], none, some [], some ["é"]] ∧
      column.transpose.map (·.texts.toList) =
        [[some "a", none, none, some "é"], [some "b", none, none, none]] ∧
      Arranged store (Text.Cut.blanks.pieces none) column ∧
      Transposed column column.transpose := by
  intro buffer store column
  have hbuild : Store.ofTexts [some "a b", none, some " ", some "é"] = .ok store := by
    with_unfolding_all rfl
  have hvalid : store.Valid := Store.valid_of_build hbuild
  have hwords : Text.splitWords none "a b" = [⟨0, 1⟩, ⟨2, 3⟩] := by decide +kernel
  have hblank : Text.splitWords none " " = [] := by decide +kernel
  have hword : Text.splitWords none "é" = [⟨0, 2⟩] := by decide +kernel
  have hsplit : split store none none = .ok column := by
    rw [split, Store.texts_ofTexts hbuild]
    simp only [checkSeparator, Text.Cut.ofText, Text.Cut.pieces, List.map_cons, List.map_nil,
      Option.map_some, Option.map_none, hwords, hblank, hword]
    with_unfolding_all rfl
  have hcut : CutBy store (Text.Cut.blanks.pieces none) column := .split hsplit
  exact ⟨hvalid, hcut, by decide +kernel, by decide +kernel, lays_out_pieces hvalid hcut⟩

end ListColumn

end TextColumns
