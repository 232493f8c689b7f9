import TextColumns.Proofs.Pieces.Split
import TextColumns.Proofs.PrefixSum
import TextColumns.Proofs.Store.Valid

/-! Columns of lists are made of parts of elements that are cut between characters. -/

namespace TextColumns.ListColumn

open Text (Extent)

def RowsWithin (store : Store) (rows : List (Option (List Extent))) : Prop :=
  ∀ row extents, rows[row]? = some (some extents) →
    ∃ text, store.text? row = some text ∧ ∀ extent ∈ extents, extent.Within text

/-- A column whose values are texts, all of them present, with its rows among them. -/
structure Valid (column : ListColumn) : Prop where
  values : column.values.Valid
  present : ∀ cell ∈ column.values.cells, cell.length ≠ none
  offset_le : ∀ offset ∈ column.offsets, offset ≤ column.values.size

variable {store : Store} {column : ListColumn} {rows : List (Option (List Extent))}

theorem rowsWithin_map {pieces : String → List Extent}
    (hpieces : ∀ text, ∀ extent ∈ pieces text, extent.Within text) :
    RowsWithin store (store.texts.toList.map (·.map pieces)) := by
  intro row extents hrow
  rw [List.getElem?_map, Option.map_eq_some_iff] at hrow
  obtain ⟨text?, htext?, hmap⟩ := hrow
  obtain ⟨text, rfl, rfl⟩ := Option.map_eq_some_iff.mp hmap
  exact ⟨text, (Store.texts_getElem? row text).mp htext?, hpieces text⟩

theorem mem_spansFrom {row : Nat} {span? : Option Span} (hspan : span? ∈ spansFrom row rows) :
    ∃ i extents extent, rows[i]? = some (some extents) ∧ extent ∈ extents ∧
      span? = some ⟨row + i, extent.start, extent.stop⟩ := by
  induction rows generalizing row with
  | nil => cases hspan
  | cons first rest ih =>
      cases first with
      | none =>
          obtain ⟨i, extents, extent, hrow, hextent, hspan⟩ := ih hspan
          refine ⟨i + 1, extents, extent, hrow, hextent, ?_⟩
          rw [hspan, Nat.add_right_comm, Nat.add_assoc]
      | some extents =>
          rcases List.mem_append.mp hspan with hhere | hrest
          · obtain ⟨extent, hextent, hspan⟩ := List.mem_map.mp hhere
            exact ⟨0, extents, extent, rfl, hextent, hspan.symm⟩
          · obtain ⟨i, extents, extent, hrow, hextent, hspan⟩ := ih hrest
            refine ⟨i + 1, extents, extent, hrow, hextent, ?_⟩
            rw [hspan, Nat.add_right_comm, Nat.add_assoc]

theorem RowsWithin.span (hrows : RowsWithin store rows) {span : Span}
    (hspan : some span ∈ spansFrom 0 rows) : span.Within store := by
  obtain ⟨row, extents, extent, hrow, hextent, heq⟩ := mem_spansFrom hspan
  rw [Nat.zero_add] at heq
  cases heq
  obtain ⟨text, htext, hwithin⟩ := hrows row extents hrow
  exact ⟨text, htext, hwithin extent hextent⟩

def counts (rows : List (Option (List Extent))) : List Nat :=
  rows.map fun row => (row.map List.length).getD 0

theorem length_spansFrom (row : Nat) (rows : List (Option (List Extent))) :
    (spansFrom row rows).length = total (counts rows) := by
  induction rows generalizing row with
  | nil => rfl
  | cons first rest ih =>
      cases first with
      | none => simp [counts, spansFrom, ih]
      | some extents => simp [counts, spansFrom, ih]

theorem eq_of_ofExtents (hcolumn : ofExtents store rows = .ok column) :
    column =
      { values := store.share (spansFrom 0 rows)
        offsets := (PrefixSum.startsFrom 0 (counts rows)).toArray.push (total (counts rows))
        validity := Validity.ofMarks (rows.map (·.isSome)).toArray } := by
  rw [ofExtents, PrefixSum.exclusive_eq] at hcolumn
  dsimp only at hcolumn
  by_cases hfits : total (rows.map fun row => (row.map List.length).getD 0) ≤ Word.greatest
  · rw [if_pos hfits] at hcolumn
    cases hcolumn
    rfl
  · rw [if_neg hfits] at hcolumn
    cases hcolumn

theorem valid_of_ofExtents (hvalid : store.Valid) (hrows : RowsWithin store rows)
    (hcolumn : ofExtents store rows = .ok column) : column.Valid := by
  obtain rfl := eq_of_ofExtents hcolumn
  constructor
  · exact hvalid.share fun _ => hrows.span
  · intro cell hcell
    rw [Store.share_eq] at hcell
    rcases Store.mem_sharedCells (List.mem_toArray.mp hcell) with ⟨hmissing, -⟩ | ⟨span, -, rfl⟩
    · obtain ⟨_, _, _, _, _, heq⟩ := mem_spansFrom hmissing
      cases heq
    · exact nofun
  · intro offset hoffset
    rw [Store.size_share, length_spansFrom]
    rcases Array.mem_push.mp hoffset with hstart | rfl
    · have hle := PrefixSum.le_of_mem_startsFrom (List.mem_toArray.mp hstart)
      rwa [Nat.zero_add] at hle
    · exact Nat.le_refl _

theorem ne_of_checkSeparator {subject : Subject} {separator : Option String}
    (hchecked : checkSeparator subject separator = .ok ()) : separator ≠ some "" := by
  intro hempty
  rw [hempty] at hchecked
  cases hchecked

theorem valid_of_split (hvalid : store.Valid) {separator : Option String} {limit : Option Nat}
    (hsplit : split store separator limit = .ok column) : column.Valid := by
  cases hchecked : checkSeparator .split separator with
  | error failure =>
      rw [split, hchecked] at hsplit
      cases hsplit
  | ok =>
      rw [split, hchecked] at hsplit
      refine valid_of_ofExtents hvalid (rowsWithin_map ?_) hsplit
      intro text extent
      exact Text.Cut.within_of_mem_pieces (ne_of_checkSeparator hchecked)

theorem valid_of_splitFromRight (hvalid : store.Valid) {separator : Option String}
    {limit : Option Nat} (hsplit : splitFromRight store separator limit = .ok column) :
    column.Valid := by
  cases hchecked : checkSeparator .splitFromRight separator with
  | error failure =>
      rw [splitFromRight, hchecked] at hsplit
      cases hsplit
  | ok =>
      rw [splitFromRight, hchecked] at hsplit
      refine valid_of_ofExtents hvalid (rowsWithin_map ?_) hsplit
      intro text extent
      exact Text.Cut.within_of_mem_piecesFromRight (ne_of_checkSeparator hchecked)

theorem Valid.lt_of_lt_rowLength (hvalid : column.Valid) {row k : Nat}
    (hk : k < column.rowLength row) : column.rowStart row + k < column.values.size := by
  have hstop : column.rowStart (row + 1) ≤ column.values.size := by
    rw [rowStart]
    cases hoffset : column.offsets[row + 1]? with
    | none => exact Nat.zero_le _
    | some offset => exact hvalid.offset_le offset (Array.mem_of_getElem? hoffset)
  rw [rowLength] at hk
  omega

theorem Valid.exists_text (hvalid : column.Valid) {value : Nat}
    (hvalue : value < column.values.size) :
    ∃ text, column.values.text? value = some text ∧
      column.values.bytes? value = some text.toByteArray := by
  have hcell := Array.getElem?_eq_getElem hvalue
  obtain ⟨length, hlength⟩ :=
    Option.ne_none_iff_exists'.mp (hvalid.present _ (Array.getElem_mem hvalue))
  have htext := Store.text?_eq_some_iff.mpr ⟨_, length, hcell, hlength, rfl⟩
  obtain ⟨cell, hsame, hsize, -, hbytes⟩ := hvalid.values.exists_cell htext
  refine ⟨_, htext, ?_⟩
  simp only [Store.bytes?, Store.cellBytes, hsame, hsize, Option.bind_some, Option.map_some, hbytes]

theorem Valid.within_nth (hvalid : column.Valid) (k : Nat) {span : Span}
    (hspan : some span ∈ (List.range column.size).map fun row =>
      if k < column.rowLength row then
        some ⟨column.rowStart row + k, 0,
          ((column.values.bytes? (column.rowStart row + k)).map ByteArray.size).getD 0⟩
      else none) : span.Within column.values := by
  obtain ⟨row, -, hrow⟩ := List.mem_map.mp hspan
  by_cases hk : k < column.rowLength row
  · rw [if_pos hk] at hrow
    cases hrow
    obtain ⟨text, htext, hbytes⟩ := hvalid.exists_text (hvalid.lt_of_lt_rowLength hk)
    refine ⟨text, htext, Text.isBoundary_zero text, ?_⟩
    rw [hbytes]
    exact Text.isBoundary_utf8ByteSize text
  · rw [if_neg hk] at hrow
    cases hrow

theorem Valid.nth (hvalid : column.Valid) (k : Nat) : (column.nth k).Valid :=
  hvalid.values.share fun _ hspan => hvalid.within_nth k hspan

theorem Valid.transpose (hvalid : column.Valid) {part : Store} (hpart : part ∈ column.transpose) :
    part.Valid := by
  obtain ⟨k, -, rfl⟩ := List.mem_map.mp hpart
  exact hvalid.nth k

end TextColumns.ListColumn
