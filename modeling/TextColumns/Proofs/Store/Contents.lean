import TextColumns.Proofs.Store.Build
import TextColumns.Proofs.Store.Locate
import Mathlib.Algebra.GroupWithZero.Nat
import Mathlib.Data.List.Basic

/-!
The texts of a store that is built, and when a store of given texts can be built.  What is gathered
or joined from other stores is built of the texts that are picked there.  A column of answers is
missing where the texts are.
-/

namespace TextColumns

def textSizes (texts : List (Option String)) : List Nat :=
  texts.map fun text => (text.map String.utf8ByteSize).getD 0

theorem total_eq_sum (sizes : List Nat) : total sizes = sizes.sum := by
  induction sizes with
  | nil => rfl
  | cons size rest ih => rw [total_cons, List.sum_cons, ih]

theorem total_flatMap {α : Type} (items : List α) (sizes : α → List Nat) :
    total (items.flatMap sizes) = total (items.map fun item => total (sizes item)) := by
  induction items with
  | nil => rfl
  | cons item rest ih => rw [List.flatMap_cons, total_append, ih, List.map_cons, total_cons]

theorem total_le_of_forall_le {sizes : List Nat} {bound : Nat}
    (hsizes : ∀ size ∈ sizes, size ≤ bound) : total sizes ≤ sizes.length * bound := by
  induction sizes with
  | nil => exact Nat.zero_le _
  | cons size rest ih =>
      obtain ⟨hsize, hrest⟩ := List.forall_mem_cons.mp hsizes
      rw [total_cons, List.length_cons, Nat.succ_mul, Nat.add_comm]
      exact Nat.add_le_add (ih hrest) hsize

theorem total_map_le {α : Type} {sizes bounds : α → Nat} (hle : ∀ item, sizes item ≤ bounds item)
    (items : List α) : total (items.map sizes) ≤ total (items.map bounds) := by
  induction items with
  | nil => exact Nat.le_refl _
  | cons item rest ih => exact Nat.add_le_add (hle item) ih

theorem total_textSizes_le {texts : List (Option String)} {bound : Nat}
    (htexts : ∀ text, some text ∈ texts → text.utf8ByteSize ≤ bound) :
    total (textSizes texts) ≤ texts.length * bound := by
  have hsizes : ∀ size ∈ textSizes texts, size ≤ bound := by
    intro size hsize
    obtain ⟨text?, htext?, rfl⟩ := List.mem_map.mp hsize
    cases text? with
    | none => exact Nat.zero_le _
    | some text => exact htexts text htext?
  have htotal := total_le_of_forall_le hsizes
  rwa [textSizes, List.length_map] at htotal

theorem Validity.isValid_ofMarks {marks : Array Bool} {row : Nat} {mark : Bool}
    (hmark : marks[row]? = some mark) : isValid (ofMarks marks) row = mark := by
  by_cases hall : marks.all id = true
  · rw [ofMarks, if_pos hall]
    exact (Array.all_eq_true'.mp hall mark (Array.mem_of_getElem? hmark)).symm
  · rw [ofMarks, if_neg hall, isValid, hmark, Option.getD_some]

namespace Draft

theorem written_ofText (text : String) :
    (ofText text).written = ⟨text.utf8ByteSize, text.toByteArray, false⟩ := by
  simp [written, ofText, ofBytes, Writer.ofCapacity, Writer.push]

theorem range_ofText (text : String) : (ofText text).written.range 0 = text.toByteArray := by
  simp [written_ofText, Writer.range]

theorem size_ofText (text : String) : (ofText text).size = text.utf8ByteSize :=
  String.size_toByteArray

end Draft

namespace Store

variable {store result : Store} {texts : List (Option String)}

theorem sizes_ofText (texts : List (Option String)) :
    sizes (texts.map (·.map Draft.ofText)) = textSizes texts := by
  simp [sizes, textSizes, Function.comp_def, Draft.size_ofText]

theorem text?_eq (store : Store) (row : Nat) : store.texts[row]?.getD none = store.text? row := by
  rw [texts, Array.getElem?_map, text?]
  cases store.cells[row]? <;> rfl

theorem size_texts (store : Store) : store.texts.size = store.size :=
  Array.size_map

theorem length_toList_texts (store : Store) : store.texts.toList.length = store.size := by
  rw [Array.length_toList, size_texts]

theorem text?_eq_getD (store : Store) (row : Nat) :
    store.text? row = store.texts.toList[row]?.getD none := by
  rw [← text?_eq, Array.getElem?_toList]

theorem toList_texts (store : Store) :
    store.texts.toList = (List.range store.size).map store.text? := by
  refine List.ext_getElem ?_ ?_
  · rw [Array.length_toList, size_texts, List.length_map, List.length_range]
  · intro row hrow _
    rw [Array.length_toList] at hrow
    rw [Array.getElem_toList, List.getElem_map, List.getElem_range, ← text?_eq,
      Array.getElem?_eq_getElem hrow, Option.getD_some]

theorem getElem?_toList_texts (store : Store) {row : Nat} (hrow : row < store.size) :
    store.texts.toList[row]? = some (store.text? row) := by
  rw [toList_texts, List.getElem?_map, List.getElem?_range hrow, Option.map_some]

theorem text?_eq_none_of_size_le {row : Nat} (hrow : store.size ≤ row) :
    store.text? row = none := by
  rw [text?, Array.getElem?_eq_none hrow, Option.bind_none]

theorem lt_size_of_text? {row : Nat} {text : String} (htext : store.text? row = some text) :
    row < store.size := by
  by_contra hrow
  rw [text?_eq_none_of_size_le (Nat.le_of_not_lt hrow)] at htext
  cases htext

theorem some_mem_texts {text : String} :
    some text ∈ store.texts ↔ ∃ row, store.text? row = some text := by
  rw [← Array.mem_toList_iff, List.mem_iff_getElem?]
  exact exists_congr fun row => texts_getElem? row text

theorem texts_of_build {drafts : List (Option Draft)} (hbuild : build drafts = .ok store) :
    store.texts.toList =
      drafts.map (·.map fun draft => (String.fromUTF8? draft.bytes).getD "") := by
  obtain ⟨hdrafts, rfl⟩ := build_eq hbuild
  have hsound : ∀ draft, some draft ∈ drafts → draft.Sound :=
    fun draft hdraft => (hdrafts draft hdraft).2
  have hcount : (PrefixSum.startsFrom 0 (sizes drafts)).length = drafts.length := by
    rw [PrefixSum.length_startsFrom, sizes, List.length_map]
  apply List.ext_getElem?
  intro row
  rw [Array.getElem?_toList, texts, Array.getElem?_map, List.getElem?_map]
  simp only [ofCells]
  rw [layOut_getElem? hcount]
  cases hrow : drafts[row]? with
  | none => rfl
  | some draft? =>
      cases draft? with
      | none => rfl
      | some draft =>
          obtain ⟨start, hstart, -, hextract⟩ := extract_contents hsound ByteArray.empty hrow
          rw [ByteArray.empty_append] at hextract
          rw [ByteArray.size_empty] at hstart
          simp only [hstart, Option.map_some, Option.getD_some, cellText, cellBytes, hextract]

theorem texts_ofTexts (hbuild : ofTexts texts = .ok store) : store.texts.toList = texts := by
  rw [texts_of_build hbuild, List.map_map]
  refine List.map_id'' (fun text => ?_) texts
  cases text with
  | none => rfl
  | some text =>
      have htext : (String.fromUTF8? text.toByteArray).getD "" = text :=
        String.toByteArray_inj.mp (Text.toByteArray_of_fromUTF8? text.isValidUTF8)
      simp only [Function.comp_apply, Option.map_some, Draft.bytes, Draft.range_ofText, htext]

theorem firstTooLong?_ofText {row : Nat}
    (htexts : ∀ text, some text ∈ texts → text.utf8ByteSize ≤ maxElementSize) :
    firstTooLong? row (texts.map (·.map Draft.ofText)) = none := by
  induction texts generalizing row with
  | nil => rfl
  | cons first rest ih =>
      have hrest : ∀ text, some text ∈ rest → text.utf8ByteSize ≤ maxElementSize :=
        fun text htext => htexts text (.tail _ htext)
      cases first with
      | none => exact ih hrest
      | some text =>
          have hsize := htexts text (.head _)
          rw [← Draft.size_ofText] at hsize
          rw [List.map_cons, Option.map_some, firstTooLong?, if_neg (Nat.not_lt.mpr hsize)]
          exact ih hrest

theorem add_ofText (filling : Filling) (row : Nat) (text : String) :
    filling.add row (Draft.ofText text) =
      { filling with bytes := filling.bytes ++ text.toByteArray } := by
  have hwellFormed : text.toByteArray.validateUTF8 = true :=
    ByteArray.validateUTF8_eq_true_iff.mpr text.isValidUTF8
  have hwritten : (Draft.ofText text).written.overrun = false := by rw [Draft.written_ofText]
  obtain ⟨bytes, overrun, notUtf8⟩ := filling
  simp [Filling.add, Draft.range_ofText, Draft.size_ofText, hwritten, hwellFormed]

theorem fill_ofText (filling : Filling) (row : Nat) (texts : List (Option String)) :
    (fill filling row (texts.map (·.map Draft.ofText))).overrun = filling.overrun ∧
      (fill filling row (texts.map (·.map Draft.ofText))).notUtf8 = filling.notUtf8 := by
  induction texts generalizing filling row with
  | nil => exact ⟨rfl, rfl⟩
  | cons first rest ih =>
      cases first with
      | none => exact ih filling (row + 1)
      | some text =>
          rw [List.map_cons, Option.map_some, fill, add_ofText]
          exact ih _ (row + 1)

theorem exists_ofTexts
    (htexts : ∀ text, some text ∈ texts → text.utf8ByteSize ≤ maxElementSize)
    (htotal : total (textSizes texts) ≤ maxBufferSize) : ∃ store, ofTexts texts = .ok store := by
  obtain ⟨hoverrun, hutf8⟩ := fill_ofText ⟨ByteArray.empty, none, none⟩ 0 texts
  have hfits : total (textSizes texts) ≤ Word.greatest := Nat.le_trans htotal (by decide)
  have hstarts := PrefixSum.exclusive_eq PrefixSum.workers (textSizes texts).toArray
  rw [if_pos hfits] at hstarts
  rw [ofTexts, build_of_none (firstTooLong?_ofText htexts), placed, sizes_ofText, hstarts]
  simp only [hoverrun, hutf8, if_neg (Nat.not_lt.mpr htotal)]
  exact ⟨_, rfl⟩

theorem Valid.cellBytes_eq (hvalid : store.Valid) {cell : Cell} (hcell : cell ∈ store.cells) :
    store.cellBytes cell = (store.cellText cell).map String.toByteArray := by
  rw [cellText, cellBytes]
  cases hlength : cell.length with
  | none => rfl
  | some length =>
      have hholds := hvalid.holds cell hcell length hlength
      exact congrArg some (Text.toByteArray_of_fromUTF8? hholds.wellFormed).symm

theorem Valid.bytes?_eq (hvalid : store.Valid) (row : Nat) :
    store.bytes? row = (store.text? row).map String.toByteArray := by
  rw [bytes?, text?]
  cases hcell : store.cells[row]? with
  | none => rfl
  | some cell => exact hvalid.cellBytes_eq (Array.mem_of_getElem? hcell)

theorem Valid.elementDraft_eq (hvalid : store.Valid) (row : Nat) :
    store.elementDraft row = (store.text? row).map Draft.ofText := by
  rw [elementDraft, hvalid.bytes?_eq, Option.map_map]
  rfl

theorem Valid.elementDrafts_eq (hvalid : store.Valid) :
    store.elementDrafts = store.texts.toList.map (·.map Draft.ofText) := by
  rw [elementDrafts, texts, Array.toList_map, List.map_map]
  refine List.map_congr_left fun cell hcell => ?_
  rw [hvalid.cellBytes_eq (Array.mem_toList_iff.mp hcell), Option.map_map]
  rfl

theorem checkIndices_eq_ok (store : Store) (indices : List Nat) :
    store.checkIndices indices = .ok () ↔ ∀ index ∈ indices, index < store.size := by
  rw [checkIndices]
  cases houtside : indices.find? fun index => store.size ≤ index with
  | none => simpa using houtside
  | some index =>
      have hmem := List.mem_of_find?_eq_some houtside
      have hle := List.find?_some houtside
      rw [decide_eq_true_iff] at hle
      refine iff_of_false nofun fun hinside => ?_
      exact Nat.not_lt.mpr hle (hinside index hmem)

theorem Valid.gather_eq (hvalid : store.Valid) {indices : List Nat}
    (hinside : ∀ index ∈ indices, index < store.size) :
    store.gather indices = ofTexts (indices.map store.text?) := by
  rw [Store.gather, (checkIndices_eq_ok store indices).mpr hinside, ofTexts, List.map_map]
  exact congrArg build (List.map_congr_left fun index _ => hvalid.elementDraft_eq index)

theorem Valid.gatherOptional_eq (hvalid : store.Valid) {indices : List (Option Nat)}
    (hinside : ∀ index, some index ∈ indices → index < store.size) :
    store.gatherOptional indices = ofTexts (indices.map (·.bind store.text?)) := by
  have hchecked : store.checkIndices (indices.filterMap id) = .ok () :=
    (checkIndices_eq_ok store _).mpr fun index hindex =>
      hinside index (by simpa using hindex)
  rw [gatherOptional, hchecked, ofTexts, List.map_map]
  refine congrArg build (List.map_congr_left fun index _ => ?_)
  cases index with
  | none => rfl
  | some index => exact hvalid.elementDraft_eq index

theorem forall_mem_pair {first second : Store} (hfirst : first.Valid) (hsecond : second.Valid) :
    ∀ store ∈ [first, second], store.Valid :=
  List.forall_mem_cons.mpr ⟨hfirst, List.forall_mem_singleton.mpr hsecond⟩

theorem concat_eq {stores : List Store} (hvalid : ∀ store ∈ stores, store.Valid) :
    concat stores = ofTexts (stores.flatMap (·.texts.toList)) := by
  rw [concat_eq_build, ofTexts, List.map_flatMap]
  refine congrArg build ?_
  rw [List.flatMap_congr fun store hstore => (hvalid store hstore).elementDrafts_eq]

theorem Valid.gather (hvalid : store.Valid) {indices : List Nat}
    (hgather : store.gather indices = .ok result) :
    (∀ index ∈ indices, index < store.size) ∧ result.Valid ∧
      result.texts.toList = indices.map store.text? := by
  have hinside : ∀ index ∈ indices, index < store.size := by
    apply (checkIndices_eq_ok store indices).mp
    rw [Store.gather] at hgather
    split at hgather
    · cases hgather
    · assumption
  rw [hvalid.gather_eq hinside] at hgather
  exact ⟨hinside, valid_of_build hgather, texts_ofTexts hgather⟩

theorem valid_concat {stores : List Store} (hvalid : ∀ store ∈ stores, store.Valid)
    (hconcat : concat stores = .ok result) :
    result.Valid ∧ result.texts.toList = stores.flatMap (·.texts.toList) := by
  rw [concat_eq hvalid] at hconcat
  exact ⟨valid_of_build hconcat, texts_ofTexts hconcat⟩

theorem Valid.valueBytes_eq (hvalid : store.Valid) :
    store.valueBytes = total (textSizes store.texts.toList) := by
  rw [valueBytes, textSizes, texts, Array.toList_map, List.map_map]
  refine congrArg total (List.map_congr_left fun cell hcell => ?_)
  have hbytes := hvalid.cellBytes_eq (Array.mem_toList_iff.mp hcell)
  rw [Function.comp_apply]
  cases hlength : cell.length with
  | none => rw [cellText, cellBytes, hlength]; rfl
  | some length =>
      have hinside := (hvalid.holds cell (Array.mem_toList_iff.mp hcell) length hlength).inside
      rw [cellBytes, hlength, Option.map_some] at hbytes
      obtain ⟨text, htext, hbytes⟩ := Option.map_eq_some_iff.mp hbytes.symm
      have hsize := congrArg ByteArray.size hbytes
      rw [String.size_toByteArray, ByteArray.size_extract, Nat.min_eq_left hinside,
        Nat.add_sub_cancel_left] at hsize
      rw [htext, Option.map_some, hsize]

theorem Valid.nullCount_eq_countP (hvalid : store.Valid) :
    store.nullCount = store.texts.toList.countP Option.isNone := by
  rw [hvalid.nullCount_eq, countNulls, texts, Array.toList_map, List.countP_map,
    ← Array.countP_toList]
  refine List.countP_congr fun cell _ => ?_
  rw [Function.comp_apply, cellText, cellBytes, Option.isNone_map, Option.isNone_map]

theorem Valid.size_le_of_text (hvalid : store.Valid) {text : String}
    (htext : some text ∈ store.texts) : text.utf8ByteSize ≤ maxElementSize := by
  obtain ⟨row, hrow⟩ := some_mem_texts.mp htext
  obtain ⟨cell, -, -, hholds, -⟩ := hvalid.exists_cell hrow
  exact hholds.fits

theorem Valid.size_le_of_text? (hvalid : store.Valid) {row : Nat} {text : String}
    (htext : store.text? row = some text) : text.utf8ByteSize ≤ maxElementSize :=
  hvalid.size_le_of_text (some_mem_texts.mpr ⟨row, htext⟩)

theorem Valid.validity_eq (hvalid : store.Valid) :
    store.validity = Validity.ofMarks (store.texts.map (·.isSome)) := by
  have hmarks : store.texts.map (·.isSome) = store.cells.map (·.length.isSome) := by
    rw [texts, Array.map_map]
    refine Array.map_congr_left fun cell _ => ?_
    rw [Function.comp_apply, cellText, cellBytes, Option.isSome_map, Option.isSome_map]
  rw [hmarks, validity]
  split
  next hnulls =>
    rw [hvalid.nullCount_eq, countNulls, Array.countP_eq_zero] at hnulls
    have hall : (store.cells.map (·.length.isSome)).all id = true := by
      rw [Array.all_eq_true']
      intro mark hmark
      obtain ⟨cell, hcell, rfl⟩ := Array.mem_map.mp hmark
      exact Option.isSome_iff_ne_none.mpr (by simpa using hnulls cell hcell)
    rw [Validity.ofMarks, if_pos hall]
  next => rfl

theorem Valid.get?_answers (hvalid : store.Valid) {values : Array α} {answer : String → α}
    {missing : α}
    (hvalues : values.toList = store.texts.toList.map fun text => (text.map answer).getD missing)
    (row : Nat) :
    (⟨values, store.validity⟩ : Column α).get? row = (store.text? row).map answer := by
  rw [Column.get?, ← Array.getElem?_toList, hvalues, List.getElem?_map]
  rcases Nat.lt_or_ge row store.size with hrow | hrow
  · have htext := store.getElem?_toList_texts hrow
    have hmark : (store.texts.map (·.isSome))[row]? = some (store.text? row).isSome := by
      rw [Array.getElem?_map, ← Array.getElem?_toList, htext, Option.map_some]
    rw [hvalid.validity_eq, Validity.isValid_ofMarks hmark, htext]
    cases store.text? row <;> rfl
  · have hnone : store.texts.toList[row]? = none := by
      rwa [List.getElem?_eq_none_iff, Array.length_toList, size_texts]
    rw [hnone, text?_eq_none_of_size_le hrow]
    simp

end Store

end TextColumns
