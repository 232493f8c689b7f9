import TextColumns.Proofs.Category.Encoding
import TextColumns.Proofs.Matching.Columns

/-!
Which rows of a result hold a value.  A missing row is told by an element without a length, by a
map that is taken over from a store, made anew or merged from two others, or by a code; whichever
it is, the rows that are counted as missing are those that are read as missing.
-/

namespace TextColumns

open Text (Extent)

/-- Which rows hold a value when they are read, and how many are counted that do not. -/
structure RowMarks where
  present : List Bool
  nullCount : Nat

namespace RowMarks

def Counted (marks : RowMarks) : Prop :=
  marks.nullCount = marks.present.count false

/-- Whether the rows that hold a value are the given ones, and the others are counted. -/
structure Tells (marks : RowMarks) (present : List Bool) : Prop where
  present_eq : marks.present = present
  nullCount_eq : marks.nullCount = present.count false

theorem Tells.counted {marks : RowMarks} {present : List Bool} (htells : marks.Tells present) :
    marks.Counted := by
  rw [Counted, htells.nullCount_eq, htells.present_eq]

end RowMarks

def Store.marks (store : Store) : RowMarks :=
  ⟨store.texts.toList.map (·.isSome), store.nullCount⟩

def Column.marks (column : Column α) : RowMarks :=
  ⟨column.toOptions.toList.map (·.isSome), column.nullCount⟩

def ListColumn.marks (column : ListColumn) : RowMarks :=
  ⟨column.rows.map (·.isSome), column.nullCount⟩

def CategoryTable.marks (table : CategoryTable) : RowMarks :=
  ⟨table.codesByRow.map (·.isSome), table.nullCount⟩

theorem map_range_eq {f : Nat → α} {items : List α}
    (hitems : ∀ row item, items[row]? = some item → f row = item) :
    (List.range items.length).map f = items := by
  refine List.ext_getElem (by rw [List.length_map, List.length_range]) fun row _ hrow => ?_
  rw [List.getElem_map, List.getElem_range]
  exact hitems row _ (List.getElem?_eq_getElem hrow)

namespace Validity

variable {a b marks : Array Bool}

theorem nullCount_ofMarks (marks : Array Bool) :
    nullCount (ofMarks marks) = marks.toList.count false := by
  by_cases hall : marks.all id = true
  · rw [ofMarks, if_pos hall]
    refine (List.count_eq_zero.mpr fun hfalse => ?_).symm
    exact Bool.false_ne_true (Array.all_eq_true'.mp hall false (Array.mem_toList_iff.mp hfalse))
  · rw [ofMarks, if_neg hall]
    exact (Array.countP_toList).symm

theorem zipWith_and_of_all (hall : a.all id = true) (hsize : a.size = b.size) :
    a.zipWith (· && ·) b = b := by
  refine Array.ext (by rw [Array.size_zipWith, hsize, Nat.min_self]) fun row hrow _ => ?_
  have hmark := Array.all_eq_true.mp hall row (by rw [Array.size_zipWith] at hrow; omega)
  rw [id_eq] at hmark
  rw [Array.getElem_zipWith, hmark, Bool.true_and]

theorem zipWith_and_comm (a b : Array Bool) :
    a.zipWith (· && ·) b = b.zipWith (· && ·) a := by
  refine Array.ext (by rw [Array.size_zipWith, Array.size_zipWith, Nat.min_comm]) fun row _ _ => ?_
  rw [Array.getElem_zipWith, Array.getElem_zipWith, Bool.and_comm]

theorem merge_ofMarks (hsize : a.size = b.size) :
    merge (ofMarks a) (ofMarks b) = ofMarks (a.zipWith (· && ·) b) := by
  by_cases ha : a.all id = true
  · rw [zipWith_and_of_all ha hsize, ofMarks, if_pos ha]
    by_cases hb : b.all id = true
    · rw [ofMarks, if_pos hb, merge]
    · conv_lhs => rw [ofMarks, if_neg hb, merge]
  · by_cases hb : b.all id = true
    · rw [zipWith_and_comm, zipWith_and_of_all hb hsize.symm]
      conv_lhs => rw [ofMarks, ofMarks, if_neg ha, if_pos hb, merge]
    · conv_lhs => rw [ofMarks, ofMarks, if_neg ha, if_neg hb, merge]

end Validity

namespace Column

theorem tells_ofMarks {column : Column α} {marks : Array Bool}
    (hvalidity : column.validity = Validity.ofMarks marks)
    (hsize : column.values.size = marks.size) : column.marks.Tells marks.toList where
  present_eq := by
    refine List.ext_getElem? fun row => ?_
    rw [Column.marks, List.getElem?_map, Array.getElem?_toList, Array.getElem?_toList, toOptions,
      Array.getElem?_mapIdx, hvalidity]
    rcases Nat.lt_or_ge row marks.size with hrow | hrow
    · have hmark := Array.getElem?_eq_getElem hrow
      rw [Array.getElem?_eq_getElem (hsize ▸ hrow), hmark, Validity.isValid_ofMarks hmark]
      cases marks[row] <;> rfl
    · rw [Array.getElem?_eq_none hrow, Array.getElem?_eq_none (hsize ▸ hrow)]
      rfl
  nullCount_eq := by
    show Validity.nullCount column.validity = _
    rw [hvalidity, Validity.nullCount_ofMarks]

theorem tells_ofOptions [Inhabited α] (rows : Array (Option α)) :
    (ofOptions rows).marks.Tells (rows.toList.map (·.isSome)) := by
  have htells : (ofOptions rows).marks.Tells (rows.map (·.isSome)).toList :=
    tells_ofMarks rfl (by simp [ofOptions])
  rwa [Array.toList_map] at htells

theorem tells_all (values : Array α) :
    (⟨values, none⟩ : Column α).marks.Tells (List.replicate values.size true) := by
  have hall : Validity.ofMarks (Array.replicate values.size true) = none := by
    rw [Validity.ofMarks, if_pos]
    exact Array.all_eq_true'.mpr fun mark hmark => (Array.mem_replicate.mp hmark).2
  rw [← Array.toList_replicate]
  exact tells_ofMarks hall.symm Array.size_replicate.symm

end Column

namespace Store

variable {store : Store}

def present (store : Store) : List Bool :=
  store.texts.toList.map (·.isSome)

/-- The rows that hold a value when a missing element does as `missing` says, and a text as `keeps`
says. -/
def presentIf (store : Store) (missing : Bool) (keeps : Nat → String → Bool) : List Bool :=
  (List.range store.size).map fun row => (store.text? row).elim missing (keeps row)

theorem map_texts_eq (store : Store) (f : Option String → Bool) :
    store.texts.toList.map f = store.presentIf (f none) fun _ text => f (some text) := by
  rw [toList_texts, List.map_map]
  refine List.map_congr_left fun row _ => ?_
  rw [Function.comp_apply]
  cases store.text? row <;> rfl

theorem present_eq (store : Store) : store.present = store.presentIf false fun _ _ => true :=
  store.map_texts_eq (·.isSome)

theorem presentIf_congr {missing : Bool} {keeps others : Nat → String → Bool}
    (hkeeps : ∀ row text, store.text? row = some text → keeps row text = others row text) :
    store.presentIf missing keeps = store.presentIf missing others := by
  refine List.map_congr_left fun row _ => ?_
  cases htext : store.text? row with
  | none => rfl
  | some text => exact hkeeps row text htext

theorem present_of_text? {part : Store} {missing : Bool} {keeps : Nat → String → Bool}
    (hsize : part.size = store.size)
    (htext : ∀ row < store.size,
      (part.text? row).isSome = (store.text? row).elim missing (keeps row)) :
    part.present = store.presentIf missing keeps := by
  rw [present, toList_texts, List.map_map, hsize]
  exact List.map_congr_left fun row hrow => htext row (List.mem_range.mp hrow)

theorem zipWith_texts_eq {right : Store} (hsize : store.size = right.size)
    {f : Option String → Option String → Bool} {missing : Bool}
    (hmissing : ∀ text, f none text = missing) :
    store.texts.toList.zipWith f right.texts.toList =
      store.presentIf missing fun row text => f (some text) (right.text? row) := by
  rw [toList_texts, toList_texts, ← hsize, List.zipWith_map, List.zipWith_self]
  refine List.map_congr_left fun row _ => ?_
  cases store.text? row with
  | none => exact hmissing _
  | some text => rfl

theorem isSome_cellText (store : Store) (cell : Cell) :
    (store.cellText cell).isSome = cell.length.isSome := by
  rw [cellText, cellBytes, Option.isSome_map, Option.isSome_map]

theorem countNulls_eq (store : Store) : countNulls store.cells = store.present.count false := by
  rw [countNulls, present, texts, ← Array.countP_toList, Array.toList_map, List.map_map,
    List.count_eq_countP, List.countP_map]
  refine List.countP_congr fun cell _ => ?_
  rw [Function.comp_apply, Function.comp_apply, isSome_cellText]
  cases cell.length <;> simp

theorem tells_ofCells (buffer : Buffer) (cells : Array Cell) :
    (ofCells buffer cells).marks.Tells (ofCells buffer cells).present :=
  ⟨rfl, countNulls_eq (ofCells buffer cells)⟩

theorem Valid.tells (hvalid : store.Valid) : store.marks.Tells store.present :=
  ⟨rfl, hvalid.nullCount_eq.trans store.countNulls_eq⟩

theorem Valid.tells_validity (hvalid : store.Valid) {values : Array α}
    (hsize : values.size = store.size) :
    (⟨values, store.validity⟩ : Column α).marks.Tells store.present := by
  have htells : (⟨values, store.validity⟩ : Column α).marks.Tells
      (store.texts.map (·.isSome)).toList :=
    Column.tells_ofMarks hvalid.validity_eq (by rw [Array.size_map, size_texts, hsize])
  rwa [Array.toList_map] at htells

theorem tells_of_build {drafts : List (Option Draft)} (hbuild : build drafts = .ok store) :
    store.marks.Tells (drafts.map (·.isSome)) := by
  have hpresent : store.present = drafts.map (·.isSome) := by
    rw [present, texts_of_build hbuild, List.map_map]
    exact List.map_congr_left fun draft _ => Option.isSome_map
  rw [← hpresent]
  exact (valid_of_build hbuild).tells

theorem tells_transform {draft : String → Draft} {result : Store}
    (htransform : store.transform draft = .ok result) : result.marks.Tells store.present := by
  have hpresent : (store.texts.toList.map (·.map draft)).map (·.isSome) = store.present := by
    rw [List.map_map]
    exact List.map_congr_left fun text _ => Option.isSome_map
  rw [← hpresent]
  exact tells_of_build htransform

theorem isSome_sharedCells (store : Store) (cursor : Nat) (spans : List (Option Span)) :
    (store.sharedCells cursor spans).map (·.length.isSome) = spans.map (·.isSome) := by
  induction spans generalizing cursor with
  | nil => rfl
  | cons span rest ih => cases span <;> simp only [sharedCells, List.map_cons, ih] <;> rfl

theorem tells_share (store : Store) (spans : List (Option Span)) :
    (store.share spans).marks.Tells (spans.map (·.isSome)) := by
  have hpresent : (store.share spans).present = spans.map (·.isSome) := by
    rw [share_eq, present, texts, Array.toList_map, List.map_map, ← store.isSome_sharedCells 0]
    exact List.map_congr_left fun cell _ => isSome_cellText _ cell
  rw [← hpresent, share_eq]
  exact tells_ofCells _ _

theorem tells_share_texts (store : Store) (part : Nat → String → Span) :
    (store.share <| store.texts.toList.mapIdx fun row text => text.map (part row)).marks.Tells
      store.present := by
  have hpresent : (store.texts.toList.mapIdx fun row text => text.map (part row)).map (·.isSome) =
      store.present := by
    refine List.ext_getElem? fun row => ?_
    rw [present, List.getElem?_map, List.getElem?_map, List.getElem?_mapIdx, Option.map_map]
    exact Option.map_congr fun text _ => Option.isSome_map
  rw [← hpresent]
  exact store.tells_share _

end Store

namespace ListColumn

variable {store : Store} {column : ListColumn} {rows : List (Option (List Extent))}

theorem isSome_row? (column : ListColumn) (row : Nat) :
    (column.row? row).isSome = Validity.isValid column.validity row := by
  cases hmark : Validity.isValid column.validity row with
  | true => rw [row?, if_pos hmark, Option.isSome_some]
  | false => rw [row?, if_neg (Bool.eq_false_iff.mp hmark), Option.isSome_none]

theorem tells_ofExtents (hcolumn : ofExtents store rows = .ok column) :
    column.marks.Tells (rows.map (·.isSome)) := by
  obtain ⟨-, -, hvalidity, hsize⟩ := ofExtents_eq hcolumn
  constructor
  · rw [ListColumn.marks, ListColumn.rows, List.map_map, hsize, ← List.length_map (·.isSome)]
    refine map_range_eq fun row mark hmark => ?_
    rw [Function.comp_apply, isSome_row?, hvalidity]
    exact Validity.isValid_ofMarks (List.getElem?_toArray ▸ hmark)
  · show Validity.nullCount column.validity = _
    rw [hvalidity, Validity.nullCount_ofMarks]

theorem counted_values (hcolumn : ofExtents store rows = .ok column) :
    column.values.marks.Counted := by
  rw [(ofExtents_eq hcolumn).1]
  exact (Store.tells_share _ _).counted

theorem tells_nth (hcolumn : ofExtents store rows = .ok column) (k : Nat) :
    (column.nth k).marks.Tells (rows.map fun extents => extents.any (k < ·.length)) := by
  obtain ⟨-, -, -, hsize⟩ := ofExtents_eq hcolumn
  let span (row : Nat) : Option Span :=
    if k < column.rowLength row then
      some ⟨column.rowStart row + k, 0,
        ((column.values.bytes? (column.rowStart row + k)).map ByteArray.size).getD 0⟩
    else none
  have hpresent : ((List.range column.size).map span).map (·.isSome) =
      rows.map fun extents => extents.any (k < ·.length) := by
    rw [List.map_map, hsize, ← List.length_map fun extents => Option.any (k < ·.length) extents]
    refine map_range_eq fun row mark hmark => ?_
    obtain ⟨extents, hextents, rfl⟩ := Option.map_eq_some_iff.mp (List.getElem?_map ▸ hmark)
    show (span row).isSome = _
    simp only [span, rowLength_of_ofExtents hcolumn hextents]
    cases extents <;> simp [apply_ite]
  rw [← hpresent]
  exact column.values.tells_share _

end ListColumn

namespace CategoryTable

variable {store : Store} {table : CategoryTable}

theorem isSome_code? (table : CategoryTable) {row : Nat} {code : Int32}
    (hcode : table.codes[row]? = some code) : (table.code? row).isSome = (code != missing) := by
  rw [code?, hcode, Option.isSome_map, Option.filter_some]
  by_cases hmissing : code = missing <;> simp [hmissing]

theorem tells_codes (table : CategoryTable) :
    table.marks.Tells (table.codes.toList.map (· != missing)) := by
  constructor
  · have hsize : table.size = (table.codes.toList.map (· != missing)).length := by
      rw [List.length_map, Array.length_toList, size]
    rw [CategoryTable.marks, codesByRow, List.map_map, hsize]
    refine map_range_eq fun row mark hmark => ?_
    obtain ⟨code, hcode, rfl⟩ := Option.map_eq_some_iff.mp (List.getElem?_map ▸ hmark)
    exact table.isSome_code? (Array.getElem?_toList ▸ hcode)
  · show table.codes.countP (· == missing) = _
    rw [← Array.countP_toList, List.count_eq_countP, List.countP_map]
    exact List.countP_congr fun code _ => by simp

theorem Encodes.tells (hencodes : table.Encodes store) : table.marks.Tells store.present := by
  have hpresent : table.codes.toList.map (· != missing) = store.present := by
    refine List.ext_getElem? fun row => ?_
    rw [Store.present, List.getElem?_map, List.getElem?_map, Array.getElem?_toList]
    rcases Nat.lt_or_ge row store.size with hrow | hrow
    · rw [store.getElem?_toList_texts hrow]
      cases htext : store.text? row with
      | none =>
          rw [(hencodes.code_eq_missing row hrow).mpr htext]
          rfl
      | some text =>
          obtain ⟨code, k, hcode, hk, -⟩ := hencodes.key_of_code row text htext
          rw [hcode]
          exact congrArg some (bne_iff_ne.mpr (ne_missing_of_toInt hk))
    · have hsize := hencodes.size_eq
      rw [Array.getElem?_eq_none (hsize ▸ hrow :), List.getElem?_eq_none]
      · rfl
      · rwa [Array.length_toList, Store.size_texts]
  rw [← hpresent]
  exact table.tells_codes

end CategoryTable

end TextColumns
