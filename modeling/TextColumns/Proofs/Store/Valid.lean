import TextColumns.Proofs.Text.Boundary
import TextColumns.Store.Select

/-!
Stores whose elements are texts.  Every element lies in the buffer and is well-formed UTF-8, and a
part of an element is another element if it is cut between characters.
-/

namespace TextColumns

open Text (Extent IsBoundary)

/-- The length of an element as the table has it, where -1 stands for a missing element. -/
def Cell.entry (cell : Cell) : Int32 :=
  match cell.length with
  | none => Int32.ofInt Store.nullLength
  | some length => Int32.ofNat length

def Cell.stop (cell : Cell) : Nat :=
  cell.offset + cell.entry.toNatClampNeg

/-- Whether a range of a buffer holds a text, of a size that the table can keep. -/
structure Buffer.Holds (buffer : Buffer) (offset length : Nat) : Prop where
  fits : length ≤ maxInt32
  inside : offset + length ≤ buffer.bytes.size
  wellFormed : (buffer.bytes.extract offset (offset + length)).IsValidUTF8

/-- Whether a span is a part of an element that is cut between characters. -/
def Span.Within (store : Store) (span : Span) : Prop :=
  ∃ text, store.text? span.row = some text ∧ (⟨span.start, span.stop⟩ : Extent).Within text

def Cell.nulls (cell : Cell) : Nat :=
  if cell.length.isNone then 1 else 0

namespace Store

theorem countNulls_cons (cell : Cell) (cells : List Cell) :
    countNulls (cell :: cells).toArray = cell.nulls + countNulls cells.toArray := by
  rw [countNulls, List.countP_toArray, List.countP_cons, Nat.add_comm, Cell.nulls, countNulls,
    List.countP_toArray]

/-- Whether the cells of a store are elements of it, and the missing ones are counted. -/
structure Valid (store : Store) : Prop where
  holds : ∀ cell ∈ store.cells, ∀ length, cell.length = some length →
    store.buffer.Holds cell.offset length
  nullCount_eq : store.nullCount = countNulls store.cells

/-- What a reader of the table relies on who takes bytes for texts without a check. -/
structure Readable (store : Store) : Prop where
  entry_eq_or_le : ∀ cell ∈ store.cells, cell.entry = -1 ∨ 0 ≤ cell.entry
  inside : ∀ cell ∈ store.cells, cell.entry ≠ -1 → cell.stop ≤ store.buffer.bytes.size
  wellFormed : ∀ cell ∈ store.cells, cell.entry ≠ -1 →
    (store.buffer.bytes.extract cell.offset cell.stop).IsValidUTF8
  text?_eq : ∀ row cell, store.cells[row]? = some cell →
    (store.text? row).map String.toByteArray =
      if cell.entry = -1 then none else some (store.buffer.bytes.extract cell.offset cell.stop)
  nullCount_eq : store.nullCount = store.cells.countP (·.entry = -1)

variable {store : Store}

theorem valid_ofCells {buffer : Buffer} {cells : Array Cell}
    (hcells : ∀ cell ∈ cells, ∀ length, cell.length = some length →
      buffer.Holds cell.offset length) : (ofCells buffer cells).Valid :=
  ⟨hcells, rfl⟩

theorem valid_nulls (count : Nat) : (nulls count).Valid where
  holds := by
    intro cell hcell length hlength
    rw [(Array.mem_replicate.mp hcell).2] at hlength
    cases hlength
  nullCount_eq := by simp [nulls, countNulls, Array.countP_replicate]

theorem Valid.slice (hvalid : store.Valid) {start count : Nat} {part : Store}
    (hslice : store.slice start count = .ok part) : part.Valid := by
  rw [Store.slice] at hslice
  split at hslice
  · cases hslice
  · cases hslice
    apply valid_ofCells
    intro cell hcell
    obtain ⟨k, hk, rfl⟩ := Array.mem_extract_iff_getElem.mp hcell
    exact hvalid.holds _ (Array.getElem_mem _)

theorem text?_eq_some_iff {row : Nat} {text : String} :
    store.text? row = some text ↔
      ∃ cell length, store.cells[row]? = some cell ∧ cell.length = some length ∧
        (String.fromUTF8?
          (store.buffer.bytes.extract cell.offset (cell.offset + length))).getD "" = text := by
  simp only [text?, cellText, cellBytes, Option.bind_eq_some_iff, Option.map_eq_some_iff]
  constructor
  · intro htext
    obtain ⟨cell, hcell, _, ⟨length, hlength, rfl⟩, htext⟩ := htext
    exact ⟨cell, length, hcell, hlength, htext⟩
  · intro htext
    obtain ⟨cell, length, hcell, hlength, htext⟩ := htext
    exact ⟨cell, hcell, _, ⟨length, hlength, rfl⟩, htext⟩

theorem texts_getElem? (row : Nat) (text : String) :
    store.texts.toList[row]? = some (some text) ↔ store.text? row = some text := by
  simp only [texts, Array.getElem?_toList, Array.getElem?_map, text?, Option.map_eq_some_iff,
    Option.bind_eq_some_iff]

theorem Valid.exists_cell (hvalid : store.Valid) {row : Nat} {text : String}
    (htext : store.text? row = some text) :
    ∃ cell, store.cells[row]? = some cell ∧ cell.length = some text.utf8ByteSize ∧
      store.buffer.Holds cell.offset text.utf8ByteSize ∧
      store.buffer.bytes.extract cell.offset (cell.offset + text.utf8ByteSize) =
        text.toByteArray := by
  obtain ⟨cell, length, hcell, hlength, rfl⟩ := text?_eq_some_iff.mp htext
  have hholds := hvalid.holds cell (Array.mem_of_getElem? hcell) length hlength
  have hbytes := Text.toByteArray_of_fromUTF8? hholds.wellFormed
  have hinside := hholds.inside
  have hsize := congrArg ByteArray.size hbytes
  rw [String.size_toByteArray, ByteArray.size_extract, Nat.min_eq_left hinside,
    Nat.add_sub_cancel_left] at hsize
  rw [hsize]
  exact ⟨cell, hcell, hlength, hholds, hbytes.symm⟩

theorem entry_of_missing {cell : Cell} (hmissing : cell.length = none) : cell.entry = -1 := by
  rw [Cell.entry, hmissing]
  rfl

theorem toNatClampNeg_entry {cell : Cell} {length : Nat} (hlength : cell.length = some length)
    (hfits : length ≤ maxInt32) : cell.entry.toNatClampNeg = length := by
  rw [Cell.entry, hlength]
  exact Int32.toNatClampNeg_ofNat_of_lt (Nat.lt_succ_of_le hfits)

theorem entry_nonneg {cell : Cell} {length : Nat} (hlength : cell.length = some length)
    (hfits : length ≤ maxInt32) : 0 ≤ cell.entry := by
  rw [Cell.entry, hlength, Int32.le_iff_toInt_le,
    Int32.toInt_ofNat_of_lt (Nat.lt_succ_of_le hfits)]
  exact Int.natCast_nonneg length

theorem Valid.entry_eq_neg_one_iff (hvalid : store.Valid) {cell : Cell}
    (hcell : cell ∈ store.cells) : cell.entry = -1 ↔ cell.length = none := by
  constructor
  · intro hentry
    cases hlength : cell.length with
    | none => rfl
    | some length =>
        have hnonneg := entry_nonneg hlength (hvalid.holds cell hcell length hlength).fits
        rw [hentry] at hnonneg
        exact absurd hnonneg (by decide)
  · exact entry_of_missing

theorem Valid.exists_length (hvalid : store.Valid) {cell : Cell} (hcell : cell ∈ store.cells)
    (hentry : cell.entry ≠ -1) :
    ∃ length, cell.length = some length ∧ cell.stop = cell.offset + length ∧
      store.buffer.Holds cell.offset length := by
  cases hlength : cell.length with
  | none => exact absurd (entry_of_missing hlength) hentry
  | some length =>
      have hholds := hvalid.holds cell hcell length hlength
      refine ⟨length, rfl, ?_, hholds⟩
      rw [Cell.stop, toNatClampNeg_entry hlength hholds.fits]

theorem Valid.readable (hvalid : store.Valid) : store.Readable where
  entry_eq_or_le := by
    intro cell hcell
    cases hlength : cell.length with
    | none => exact .inl (entry_of_missing hlength)
    | some length =>
        exact .inr (entry_nonneg hlength (hvalid.holds cell hcell length hlength).fits)
  inside := by
    intro cell hcell hentry
    obtain ⟨length, -, hstop, hholds⟩ := hvalid.exists_length hcell hentry
    rw [hstop]
    exact hholds.inside
  wellFormed := by
    intro cell hcell hentry
    obtain ⟨length, -, hstop, hholds⟩ := hvalid.exists_length hcell hentry
    rw [hstop]
    exact hholds.wellFormed
  text?_eq := by
    intro row cell hcell
    have hmem := Array.mem_of_getElem? hcell
    rw [text?, hcell, Option.bind_some, cellText, cellBytes]
    by_cases hentry : cell.entry = -1
    · rw [if_pos hentry, (hvalid.entry_eq_neg_one_iff hmem).mp hentry]
      rfl
    · obtain ⟨length, hlength, hstop, hholds⟩ := hvalid.exists_length hmem hentry
      rw [if_neg hentry, hlength, hstop, Option.map_some, Option.map_some, Option.map_some,
        Text.toByteArray_of_fromUTF8? hholds.wellFormed]
  nullCount_eq := by
    rw [hvalid.nullCount_eq, countNulls]
    apply Array.countP_congr
    intro cell hcell
    rw [Option.isNone_iff_eq_none, decide_eq_true_iff, hvalid.entry_eq_neg_one_iff hcell]

/-- The bytes of a part of an element, wherever the element lies. -/
theorem Valid.extract_span (hvalid : store.Valid) {span : Span} {text : String}
    (htext : store.text? span.row = some text)
    (hspan : (⟨span.start, span.stop⟩ : Extent).Within text) :
    store.buffer.bytes.extract ((store.cells[span.row]?.getD default).offset + span.start)
        ((store.cells[span.row]?.getD default).offset + span.start + (span.stop - span.start)) =
      text.toByteArray.extract span.start span.stop := by
  obtain ⟨cell, hcell, -, -, hbytes⟩ := hvalid.exists_cell htext
  have hstop : span.stop ≤ text.utf8ByteSize := hspan.stop.le
  rw [hcell, Option.getD_some, ← hbytes, ByteArray.extract_extract, Nat.min_eq_left (by omega)]
  rcases Nat.le_total span.start span.stop with hle | hle
  · rw [Nat.add_assoc, Nat.add_sub_cancel' hle]
  · rw [ByteArray.extract_eq_empty_iff.mpr (by omega), ByteArray.extract_eq_empty_iff.mpr (by omega)]

theorem Valid.holds_span (hvalid : store.Valid) {span : Span} (hspan : span.Within store) :
    store.buffer.Holds ((store.cells[span.row]?.getD default).offset + span.start)
      (span.stop - span.start) := by
  obtain ⟨text, htext, hwithin⟩ := hspan
  have hextract := hvalid.extract_span htext hwithin
  obtain ⟨cell, hcell, -, hholds, -⟩ := hvalid.exists_cell htext
  rw [hcell, Option.getD_some] at hextract ⊢
  have hstart : span.start ≤ text.utf8ByteSize := hwithin.start.le
  have hstop : span.stop ≤ text.utf8ByteSize := hwithin.stop.le
  have hfits := hholds.fits
  have hinside := hholds.inside
  refine ⟨by omega, by omega, ?_⟩
  rw [hextract]
  exact Text.isValidUTF8_extract hwithin.start hwithin.stop

/-- The cells for parts of elements; `cursor` is the offset for an element that is missing. -/
def sharedCells (store : Store) (cursor : Nat) : List (Option Span) → List Cell
  | [] => []
  | none :: rest => ⟨cursor, none⟩ :: store.sharedCells cursor rest
  | some span :: rest =>
    let offset := (store.cells[span.row]?.getD default).offset + span.start
    ⟨offset, some (span.stop - span.start)⟩ :: store.sharedCells offset rest

theorem shareFrom_eq (store : Store) (cells : Array Cell) (nullCount cursor : Nat)
    (spans : List (Option Span)) :
    store.shareFrom cells nullCount cursor spans =
      (cells ++ (store.sharedCells cursor spans).toArray,
        nullCount + countNulls (store.sharedCells cursor spans).toArray) := by
  induction spans generalizing cells nullCount cursor with
  | nil => simp [shareFrom, sharedCells, countNulls]
  | cons first rest ih =>
      cases first <;>
        simp [shareFrom, sharedCells, ih, countNulls_cons, Cell.nulls, Nat.add_assoc]

theorem share_eq (store : Store) (spans : List (Option Span)) :
    store.share spans = ofCells store.buffer (store.sharedCells 0 spans).toArray := by
  rw [share, shareFrom_eq, ofCells, Array.empty_append, Nat.zero_add]

theorem mem_sharedCells {cursor : Nat} {spans : List (Option Span)} {cell : Cell}
    (hcell : cell ∈ store.sharedCells cursor spans) :
    (none ∈ spans ∧ cell.length = none) ∨ ∃ span, some span ∈ spans ∧
      cell = ⟨(store.cells[span.row]?.getD default).offset + span.start,
        some (span.stop - span.start)⟩ := by
  induction spans generalizing cursor with
  | nil => cases hcell
  | cons first rest ih =>
      cases first with
      | none =>
          cases hcell with
          | head => exact .inl ⟨.head _, rfl⟩
          | tail _ hrest =>
              rcases ih hrest with ⟨hnone, hlength⟩ | ⟨span, hspan, hcell⟩
              · exact .inl ⟨.tail _ hnone, hlength⟩
              · exact .inr ⟨span, .tail _ hspan, hcell⟩
      | some span =>
          cases hcell with
          | head => exact .inr ⟨span, .head _, rfl⟩
          | tail _ hrest =>
              rcases ih hrest with ⟨hnone, hlength⟩ | ⟨span, hspan, hcell⟩
              · exact .inl ⟨.tail _ hnone, hlength⟩
              · exact .inr ⟨span, .tail _ hspan, hcell⟩

theorem length_sharedCells (store : Store) (cursor : Nat) (spans : List (Option Span)) :
    (store.sharedCells cursor spans).length = spans.length := by
  induction spans generalizing cursor with
  | nil => rfl
  | cons first rest ih => cases first <;> simp only [sharedCells, List.length_cons, ih]

theorem size_share (store : Store) (spans : List (Option Span)) :
    (store.share spans).size = spans.length := by
  rw [share_eq]
  exact length_sharedCells store 0 spans

theorem Valid.share (hvalid : store.Valid) {spans : List (Option Span)}
    (hspans : ∀ span, some span ∈ spans → span.Within store) : (store.share spans).Valid := by
  rw [share_eq]
  apply valid_ofCells
  intro cell hcell length hlength
  rcases mem_sharedCells (List.mem_toArray.mp hcell) with ⟨-, hnone⟩ | ⟨span, hspan, rfl⟩
  · rw [hnone] at hlength
    cases hlength
  · cases hlength
    exact hvalid.holds_span (hspans span hspan)

theorem within_partOfText {part : String → Extent} (hpart : ∀ text, (part text).Within text)
    {row : Nat} {span : Span}
    (hrow : (store.texts.toList.mapIdx fun row text =>
      text.map fun text => (⟨row, (part text).start, (part text).stop⟩ : Span))[row]? =
        some (some span)) : span.row = row ∧ span.Within store := by
  rw [List.getElem?_mapIdx, Option.map_eq_some_iff] at hrow
  obtain ⟨text?, htext?, hmap⟩ := hrow
  obtain ⟨text, rfl, rfl⟩ := Option.map_eq_some_iff.mp hmap
  exact ⟨rfl, text, (texts_getElem? row text).mp htext?, hpart text⟩

theorem Valid.share_texts (hvalid : store.Valid) {part : String → Extent}
    (hpart : ∀ text, (part text).Within text) :
    (store.share <| store.texts.toList.mapIdx fun row text =>
      text.map fun text => ⟨row, (part text).start, (part text).stop⟩).Valid := by
  apply hvalid.share
  intro span hspan
  obtain ⟨row, hrow⟩ := List.mem_iff_getElem?.mp hspan
  exact (within_partOfText hpart hrow).2

end Store

end TextColumns
