import TextColumns.Proofs.Store.Overrun
import TextColumns.Store.Workers
import Mathlib.Data.List.Nodup

/-!
What is asked for when a store is built.  It is refused if an element or all of them are too large,
else for the first element that is no text, and else each element is stored in a range of its own.
-/

namespace TextColumns.Store

open PrefixSum (startsFrom)

theorem exists_of_firstTooLong? {drafts : List (Option Draft)} {row : Nat} {found : Nat × Nat}
    (hfirst : firstTooLong? row drafts = some found) :
    ∃ draft, some draft ∈ drafts ∧ maxElementSize < draft.size := by
  induction drafts generalizing row with
  | nil => cases hfirst
  | cons draft? rest ih =>
      cases draft? with
      | none =>
          obtain ⟨draft, hdraft, hsize⟩ := ih hfirst
          exact ⟨draft, .tail _ hdraft, hsize⟩
      | some draft =>
          rw [firstTooLong?] at hfirst
          by_cases hsize : maxElementSize < draft.size
          · exact ⟨draft, .head _, hsize⟩
          · rw [if_neg hsize] at hfirst
            obtain ⟨other, hother, hsize⟩ := ih hfirst
            exact ⟨other, .tail _ hother, hsize⟩

theorem build_overflow {drafts : List (Option Draft)}
    (hlarge : (∃ draft, some draft ∈ drafts ∧ maxElementSize < draft.size) ∨
      maxBufferSize < total (sizes drafts)) :
    ∃ failure, build drafts = .error failure ∧ failure.kind = .overflow := by
  cases hfirst : firstTooLong? 0 drafts with
  | some found => exact ⟨_, build_of_some hfirst, rfl⟩
  | none =>
      rw [build_of_none hfirst, placed]
      have htotal : maxBufferSize < total (sizes drafts) := by
        refine hlarge.resolve_left ?_
        rintro ⟨draft, hdraft, hsize⟩
        exact Nat.not_le.mpr hsize (size_le_of_firstTooLong? hfirst hdraft)
      have hsums := PrefixSum.exclusive_eq PrefixSum.workers (sizes drafts).toArray
      by_cases hword : total (sizes drafts) ≤ Word.greatest
      · simp only [hsums, if_pos hword, if_pos htotal]
        exact ⟨_, rfl, rfl⟩
      · simp only [hsums, if_neg hword]
        exact ⟨_, rfl, rfl⟩

namespace Request

variable (request : Request)

def NotText (row : Nat) : Prop :=
  row < request.count ∧ ∃ bytes ∈ request.element? row, ¬ bytes.IsValidUTF8

theorem size_zeros (size : Nat) : (zeros size).size = size :=
  Array.size_replicate

theorem extract_zeros {size first last : Nat} (hle : last ≤ size) :
    (zeros size).extract first last = zeros (last - first) := by
  apply ByteArray.ext
  simp [zeros, Nat.min_eq_left hle]

theorem start_succ (row : Nat) :
    request.start (row + 1) = request.start row + request.rangeSize row := by
  simp [start, List.range_succ]

variable {request}

theorem start_le {row other : Nat} (hle : row ≤ other) : request.start row ≤ request.start other := by
  induction hle with
  | refl => exact Nat.le_refl _
  | step _ ih =>
      rw [start_succ]
      exact Nat.le_trans ih (Nat.le_add_right _ _)

theorem stop_le {row other : Nat} (hlt : row < other) :
    request.start row + request.rangeSize row ≤ request.start other := by
  rw [← start_succ]
  exact start_le hlt

theorem stop_le_bufferSize {row : Nat} (hrow : row < request.count) :
    request.start row + request.rangeSize row ≤ request.bufferSize :=
  stop_le hrow

theorem size_element? {row : Nat} {bytes : ByteArray} (hbytes : request.element? row = some bytes) :
    bytes.size = request.rangeSize row := by
  obtain ⟨size, hsize, rfl⟩ := Option.map_eq_some_iff.mp hbytes
  rw [request.size_write, size_zeros, rangeSize, hsize, Option.getD_some]

variable {row : Nat}

theorem sizes_drafts (request : Request) :
    sizes request.drafts = (List.range request.count).map request.rangeSize := by
  rw [sizes, drafts, List.map_map]
  refine List.map_congr_left fun row _ => ?_
  rw [Function.comp_apply, draft?, rangeSize]
  cases request.size row <;> rfl

theorem draft?_eq_some {draft : Draft} (hdraft : request.draft? row = some draft) :
    request.size row = some draft.size ∧ request.element? row = some draft.bytes ∧
      draft.beyond = false := by
  obtain ⟨size, hsize, rfl⟩ := Option.map_eq_some_iff.mp hdraft
  have hbytes : (request.write row (zeros size)).size = size :=
    (request.size_write row _).trans (size_zeros size)
  have hwritten : Draft.written ⟨size, (·.push (request.write row (zeros size)))⟩ =
      ⟨size, request.write row (zeros size), false⟩ := by
    simp [Draft.written, Writer.ofCapacity, Writer.push, hbytes]
  have hrange : Draft.bytes ⟨size, (·.push (request.write row (zeros size)))⟩ =
      request.write row (zeros size) := by
    rw [Draft.bytes, hwritten]
    simp [Writer.range, hbytes]
  refine ⟨hsize, ?_, ?_⟩
  · rw [element?, hsize, hrange, Option.map_some]
  · rw [Draft.beyond, hwritten, hrange, hbytes, bne_self_eq_false, Bool.false_or]

theorem mem_drafts {draft : Draft} :
    some draft ∈ request.drafts ↔ ∃ row < request.count, request.draft? row = some draft := by
  simp [drafts]

theorem getElem?_drafts (hrow : row < request.count) :
    request.drafts[row]? = some (request.draft? row) := by
  rw [drafts, List.getElem?_map, List.getElem?_range hrow, Option.map_some]

theorem overrun_drafts (request : Request) : (filling request.drafts).overrun = none := by
  rw [overrun_filling, List.findIdx?_eq_none_iff]
  intro draft? hdraft?
  cases draft? with
  | none => rfl
  | some draft =>
      obtain ⟨row, -, hdraft⟩ := mem_drafts.mp hdraft?
      exact (draft?_eq_some hdraft).2.2

theorem not_validateUTF8_iff (bytes : ByteArray) :
    (!bytes.validateUTF8) = true ↔ ¬ bytes.IsValidUTF8 := by
  rw [Bool.not_eq_true', ← Bool.not_eq_true, ByteArray.validateUTF8_eq_true_iff]

theorem notText_iff_draft? (hrow : row < request.count) :
    request.NotText row ↔ (request.draft? row).any (!·.bytes.validateUTF8) = true := by
  rw [NotText, and_iff_right hrow, Option.any_eq_true]
  constructor
  · rintro ⟨bytes, hbytes, hinvalid⟩
    obtain ⟨size, hsize, -⟩ := Option.map_eq_some_iff.mp hbytes
    have hdraft : request.draft? row = some ⟨size, (·.push (request.write row (zeros size)))⟩ := by
      rw [draft?, hsize, Option.map_some]
    obtain ⟨-, helement, -⟩ := draft?_eq_some hdraft
    refine ⟨_, hdraft, (not_validateUTF8_iff _).mpr ?_⟩
    rwa [← Option.some.inj (hbytes.symm.trans helement)]
  · rintro ⟨draft, hdraft, hinvalid⟩
    obtain ⟨-, helement, -⟩ := draft?_eq_some hdraft
    exact ⟨_, helement, (not_validateUTF8_iff _).mp hinvalid⟩

theorem notUtf8_drafts_cases (request : Request) :
    (∃ row, (filling request.drafts).notUtf8 = some row ∧ request.NotText row ∧
      ∀ earlier < row, ¬ request.NotText earlier) ∨
    (filling request.drafts).notUtf8 = none ∧ ∀ row, ¬ request.NotText row := by
  rw [notUtf8_filling]
  cases hfirst : request.drafts.findIdx? (·.any (!·.bytes.validateUTF8)) with
  | some row =>
      obtain ⟨hlength, hrow, hearlier⟩ := List.findIdx?_eq_some_iff_getElem.mp hfirst
      have hcount : row < request.count := by simpa [drafts] using hlength
      simp only [drafts, List.getElem_map, List.getElem_range] at hrow hearlier
      refine .inl ⟨row, rfl, (notText_iff_draft? hcount).mpr hrow, fun earlier hlt hnotText => ?_⟩
      exact hearlier earlier hlt ((notText_iff_draft? (Nat.lt_trans hlt hcount)).mp hnotText)
  | none =>
      refine .inr ⟨rfl, fun row hnotText => ?_⟩
      have hvalid := List.findIdx?_eq_none_iff.mp hfirst _
        (List.mem_of_getElem? (getElem?_drafts hnotText.1))
      rw [(notText_iff_draft? hnotText.1).mp hnotText] at hvalid
      cases hvalid

theorem notUtf8_drafts_eq_some_iff :
    (filling request.drafts).notUtf8 = some row ↔
      request.NotText row ∧ ∀ earlier < row, ¬ request.NotText earlier := by
  rcases request.notUtf8_drafts_cases with ⟨first, hfirst, hnotText, hearlier⟩ | ⟨hnone, htext⟩
  · rw [hfirst, Option.some_inj]
    constructor
    · rintro rfl
      exact ⟨hnotText, hearlier⟩
    · rintro ⟨hrow, hbefore⟩
      exact Nat.le_antisymm (Nat.le_of_not_lt fun hlt => hearlier row hlt hrow)
        (Nat.le_of_not_lt fun hlt => hbefore first hlt hnotText)
  · exact iff_of_false (hnone ▸ nofun) fun ⟨hrow, _⟩ => htext row hrow

def bytesOf (request : Request) : List Nat → ByteArray
  | [] => ByteArray.empty
  | row :: rest => (request.element? row).getD ByteArray.empty ++ bytesOf request rest

def contents (request : Request) : ByteArray :=
  request.bytesOf (List.range request.count)

theorem bytesOf_concat (request : Request) (rows : List Nat) (row : Nat) :
    request.bytesOf (rows ++ [row]) =
      request.bytesOf rows ++ (request.element? row).getD ByteArray.empty := by
  induction rows with
  | nil => exact ByteArray.append_empty.trans ByteArray.empty_append.symm
  | cons first rest ih =>
      rw [List.cons_append, bytesOf, ih, bytesOf, ByteArray.append_assoc]

theorem contents_drafts (request : Request) : Store.contents request.drafts = request.contents := by
  rw [contents, drafts]
  induction List.range request.count with
  | nil => rfl
  | cons row rest ih =>
      rw [List.map_cons, bytesOf, ← ih]
      cases hdraft : request.draft? row with
      | none =>
          have helement : request.element? row = none :=
            Option.map_eq_none_iff.mpr (Option.map_eq_none_iff.mp hdraft)
          rw [Store.contents, helement, Option.getD_none, ByteArray.empty_append]
      | some draft =>
          obtain ⟨-, helement, -⟩ := draft?_eq_some hdraft
          rw [Store.contents, helement, Option.getD_some]

theorem startsFrom_eq (request : Request) :
    startsFrom 0 (sizes request.drafts) = (List.range request.count).map request.start := by
  rw [sizes_drafts]
  induction request.count with
  | zero => rfl
  | succ count ih =>
      rw [List.range_succ, List.map_append, List.map_append, PrefixSum.startsFrom_append, ih,
        Nat.zero_add]
      rfl

theorem layOut_eq (request : Request) :
    layOut request.drafts (startsFrom 0 (sizes request.drafts)).toArray = request.cells := by
  rw [startsFrom_eq, layOut, drafts, cells, List.zipWith_toArray, List.zipWith_map, List.zipWith_self]
  congr 1
  refine List.map_congr_left fun row _ => ?_
  rw [draft?]
  cases request.size row <;> rfl

theorem countNulls_cells (request : Request) : countNulls request.cells = request.nullCount := by
  rw [cells, countNulls, List.countP_toArray, List.countP_map, nullCount]
  rfl

def TooLarge (request : Request) : Prop :=
  (∃ row < request.count, ∃ size ∈ request.size row, maxElementSize < size) ∨
    maxBufferSize < request.bufferSize

theorem total_sizes_drafts (request : Request) :
    total (sizes request.drafts) = request.bufferSize :=
  congrArg total (sizes_drafts request)

theorem tooLarge_of_firstTooLong? {found : Nat × Nat}
    (hfirst : firstTooLong? 0 request.drafts = some found) : request.TooLarge := by
  obtain ⟨draft, hdraft, hsize⟩ := exists_of_firstTooLong? hfirst
  obtain ⟨row, hrow, hdraft⟩ := mem_drafts.mp hdraft
  exact .inl ⟨row, hrow, draft.size, (draft?_eq_some hdraft).1, hsize⟩

theorem overflow_iff :
    (∃ failure, build request.drafts = .error failure ∧ failure.kind = .overflow) ↔
      request.TooLarge := by
  constructor
  · rintro ⟨failure, hfailure, hkind⟩
    have hbuilt := built request.drafts
    rw [hfailure] at hbuilt
    cases hbuilt with
    | elementTooLong hfirst => exact tooLarge_of_firstTooLong? hfirst
    | prefixSum _ htotal =>
        rw [total_sizes_drafts] at htotal
        exact .inr (Nat.lt_trans (by decide) htotal)
    | storeTooLarge _ htotal => exact .inr (total_sizes_drafts request ▸ htotal)
    | writtenBeyond => cases hkind
    | writtenNotUtf8 => cases hkind
  · intro hlarge
    refine build_overflow (hlarge.imp ?_ fun hsum => ?_)
    · rintro ⟨row, hrow, size, hsize, hlong⟩
      have hdraft : request.draft? row = some ⟨size, (·.push (request.write row (zeros size)))⟩ :=
        congrArg (Option.map _) hsize
      exact ⟨_, mem_drafts.mpr ⟨row, hrow, hdraft⟩, hlong⟩
    · rwa [total_sizes_drafts]

theorem build_eq_of_fits (hfits : ¬ request.TooLarge) :
    build request.drafts =
      match (filling request.drafts).notUtf8 with
      | some row => .error (.writtenNotUtf8 row)
      | none => .ok (ofCells ⟨request.contents, none⟩ request.cells) := by
  have htotal := total_sizes_drafts request
  have hbuilt := built request.drafts
  generalize hresult : build request.drafts = result at hbuilt
  cases hbuilt with
  | elementTooLong hfirst => exact absurd (tooLarge_of_firstTooLong? hfirst) hfits
  | prefixSum _ hsum =>
      rw [htotal] at hsum
      exact absurd (.inr (Nat.lt_trans (by decide) hsum)) hfits
  | storeTooLarge _ hsum => exact absurd (.inr (htotal ▸ hsum)) hfits
  | writtenBeyond _ _ hoverrun =>
      rw [overrun_drafts] at hoverrun
      cases hoverrun
  | writtenNotUtf8 _ hutf8 => rw [hutf8]
  | stored _ _ hoverrun hutf8 =>
      obtain ⟨-, hstore⟩ := Store.build_eq hresult
      rw [hutf8, hstore, contents_drafts, layOut_eq]

theorem sound_drafts (htext : ∀ row, ¬ request.NotText row) :
    ∀ draft, some draft ∈ request.drafts → draft.Sound := by
  intro draft hdraft
  obtain ⟨row, hrow, hdraft⟩ := mem_drafts.mp hdraft
  obtain ⟨hsize, helement, -⟩ := draft?_eq_some hdraft
  refine ⟨?_, ?_⟩
  · rw [size_element? helement, rangeSize, hsize, Option.getD_some]
  · by_contra hinvalid
    exact htext row ⟨hrow, draft.bytes, helement, hinvalid⟩

/-- Each element of the store has the bytes that were written for it. -/
theorem bytes?_eq_element? (htext : ∀ row, ¬ request.NotText row) (hrow : row < request.count) :
    (ofCells ⟨request.contents, none⟩ request.cells).bytes? row = request.element? row := by
  have hcell : request.cells[row]? = some ⟨request.start row, request.size row⟩ := by
    simp [cells, hrow]
  have hstore : (ofCells ⟨request.contents, none⟩ request.cells).bytes? row =
      (request.size row).map fun size =>
        request.contents.extract (request.start row) (request.start row + size) :=
    congrArg (Option.bind · _) hcell
  rw [hstore]
  cases hdraft : request.draft? row with
  | none =>
      have hsize : request.size row = none := Option.map_eq_none_iff.mp hdraft
      rw [element?, hsize]
      rfl
  | some draft =>
      obtain ⟨hsize, helement, -⟩ := draft?_eq_some hdraft
      obtain ⟨start, hstart, -, hextract⟩ := extract_contents (sound_drafts htext) ByteArray.empty
        ((getElem?_drafts hrow).trans (congrArg some hdraft))
      rw [ByteArray.size_empty, startsFrom_eq, List.getElem?_map, List.getElem?_range hrow] at hstart
      obtain rfl := Option.some.inj hstart
      rw [ByteArray.empty_append, contents_drafts] at hextract
      rw [hsize, Option.map_some, hextract, helement]

theorem build_of_notText (hfits : ¬ request.TooLarge) (hnotText : request.NotText row)
    (hearlier : ∀ earlier < row, ¬ request.NotText earlier) :
    build request.drafts = .error (.writtenNotUtf8 row) := by
  rw [build_eq_of_fits hfits, notUtf8_drafts_eq_some_iff.mpr ⟨hnotText, hearlier⟩]

/-- Whether a store holds what was asked for: each element its bytes, where the sizes in front of it
end, and the buffer nothing else. -/
structure HeldBy (request : Request) (store : Store) : Prop where
  size_eq : store.size = request.count
  bytes_eq : ∀ row < request.count, store.bytes? row = request.element? row
  offsets_eq : store.cells.toList.map Cell.offset = (List.range request.count).map request.start
  buffer_eq : store.buffer.bytes = request.contents

theorem heldBy_of_texts (htext : ∀ row, ¬ request.NotText row) :
    request.HeldBy (ofCells ⟨request.contents, none⟩ request.cells) where
  size_eq := by
    show request.cells.size = request.count
    simp [cells]
  bytes_eq _ := bytes?_eq_element? htext
  offsets_eq := by simp [ofCells, cells]
  buffer_eq := rfl

theorem exists_build (hfits : ¬ request.TooLarge) (htext : ∀ row, ¬ request.NotText row) :
    ∃ store, build request.drafts = .ok store ∧ request.HeldBy store := by
  have hnone : (filling request.drafts).notUtf8 = none :=
    Option.eq_none_iff_forall_not_mem.mpr fun row hrow =>
      htext row (notUtf8_drafts_eq_some_iff.mp hrow).1
  rw [build_eq_of_fits hfits, hnone]
  exact ⟨_, rfl, heldBy_of_texts htext⟩

theorem flatten_consecutiveRanges {α : Type} (buffer : List α) (sizes : List Nat) :
    (consecutiveRanges buffer sizes).flatten = buffer.take (total sizes) := by
  induction sizes generalizing buffer with
  | nil => rfl
  | cons size rest ih =>
      rw [consecutiveRanges, List.flatten_cons, ih, total_cons, List.take_add]

theorem consecutiveRanges_range' (start : Nat) (sizes : List Nat) :
    consecutiveRanges (List.range' start (total sizes)) sizes =
      List.zipWith (List.range' · ·) (startsFrom start sizes) sizes := by
  induction sizes generalizing start with
  | nil => rfl
  | cons size rest ih =>
      have hall : List.range' start (total (size :: rest)) =
          List.range' start size ++ List.range' (start + size) (total rest) := by
        rw [total_cons, List.range'_append_1]
      have hlength : (List.range' start size).length = size := List.length_range'
      rw [consecutiveRanges, hall, List.take_left' hlength, List.drop_left' hlength, ih]
      rfl

/-- The ranges into which the buffer is cut are those of the elements. -/
theorem consecutiveRanges_eq (request : Request) :
    consecutiveRanges (List.range request.bufferSize) (sizes request.drafts) =
      (List.range request.count).map fun row =>
        List.range' (request.start row) (request.rangeSize row) := by
  rw [← total_sizes_drafts, List.range_eq_range', consecutiveRanges_range', startsFrom_eq,
    sizes_drafts, List.zipWith_map, List.zipWith_self]

theorem flatten_ranges (request : Request) :
    (consecutiveRanges (List.range request.bufferSize) (sizes request.drafts)).flatten =
      List.range request.bufferSize := by
  rw [flatten_consecutiveRanges, total_sizes_drafts]
  exact List.take_of_length_le (Nat.le_of_eq List.length_range)

theorem disjoint_ranges (request : Request) :
    (consecutiveRanges (List.range request.bufferSize) (sizes request.drafts)).Pairwise
      List.Disjoint := by
  have hnodup := @List.nodup_range request.bufferSize
  rw [← flatten_ranges, List.nodup_flatten] at hnodup
  exact hnodup.2

end Request

end TextColumns.Store
