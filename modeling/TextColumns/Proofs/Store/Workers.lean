import TextColumns.Proofs.Store.Request

/-!
Workers that fill a store in any order come to what is built in one go.  No two of them write into
the same range, each range keeps what has been written into it, and the least element that is no
text is the same whoever finds it first.
-/

namespace TextColumns.Store

open FillEvent (handedRows testedRows)

namespace Workers

variable {bytes part : ByteArray} {start : Nat}

theorem size_overwrite (hinside : start + part.size ≤ bytes.size) :
    (overwrite bytes start part).size = bytes.size := by
  simp only [overwrite, ByteArray.size_append, ByteArray.size_extract]
  omega

theorem extract_overwrite_self (hinside : start + part.size ≤ bytes.size) :
    (overwrite bytes start part).extract start (start + part.size) = part := by
  have hfront : (bytes.extract 0 start).size = start := by
    rw [ByteArray.size_extract]
    omega
  have hextract := @ByteArray.extract_append_size_add (bytes.extract 0 start)
    (part ++ bytes.extract (start + part.size) bytes.size) 0 part.size
  rw [hfront, Nat.add_zero] at hextract
  rw [overwrite, ByteArray.append_assoc, hextract]
  exact ByteArray.extract_append_eq_left rfl

theorem extract_overwrite {first last : Nat} (hinside : start + part.size ≤ bytes.size)
    (hapart : last ≤ start ∨ start + part.size ≤ first) :
    (overwrite bytes start part).extract first last = bytes.extract first last := by
  apply ByteArray.ext
  apply Array.ext_getElem?
  intro i
  have hbytes : bytes.data.size = bytes.size := rfl
  have hpart : part.data.size = part.size := rfl
  simp only [overwrite, ByteArray.data_extract, ByteArray.data_append, Array.getElem?_extract,
    Array.getElem?_append, Array.size_append, Array.size_extract]
  grind

variable {request : Request} {history : List FillEvent} {workers next : Workers}
  {event : FillEvent} {row other : Nat}

section Range

variable (hsize : workers.buffer.size = request.bufferSize) (hrow : row < request.count)
include hsize hrow

theorem size_range : (workers.range request row).size = request.rangeSize row := by
  have hstop := Request.stop_le_bufferSize hrow
  rw [range, ByteArray.size_extract, hsize]
  omega

theorem inside_fill :
    request.start row + (request.write row (workers.range request row)).size ≤
      workers.buffer.size := by
  rw [request.size_write, size_range hsize hrow, hsize]
  exact Request.stop_le_bufferSize hrow

theorem extract_fill_self :
    (workers.fill request row).extract (request.start row)
        (request.start row + request.rangeSize row) =
      request.write row (workers.range request row) := by
  have hextract := extract_overwrite_self (inside_fill hsize hrow)
  rwa [request.size_write, size_range hsize hrow] at hextract

/-- Writing into one range leaves all others as they are. -/
theorem extract_fill_other (hne : other ≠ row) :
    (workers.fill request row).extract (request.start other)
        (request.start other + request.rangeSize other) =
      workers.range request other := by
  refine extract_overwrite (inside_fill hsize hrow) ?_
  rw [request.size_write, size_range hsize hrow]
  rcases Nat.lt_or_gt_of_ne hne with hlt | hgt
  · exact .inl (Request.stop_le hlt)
  · exact .inr (Request.stop_le hgt)

end Range

/-- Whether workers are where the steps of a history lead: the ranges that have been handed out hold
what is written into them, and the least element is that of those that were tested. -/
structure Reached (request : Request) (history : List FillEvent) (workers : Workers) : Prop where
  size_eq : workers.buffer.size = request.bufferSize
  perm : (handedRows history ++ workers.waiting).Perm (List.range request.count)
  fresh : ∀ row ∈ workers.waiting, workers.range request row = zeros (request.rangeSize row)
  filled : ∀ row ∈ handedRows history, ∀ bytes ∈ request.element? row,
    workers.range request row = bytes
  written : ∀ row ∈ workers.written, row ∈ handedRows history ∧ request.size row ≠ none
  tested_handed : ∀ row ∈ testedRows history, row ∈ handedRows history
  accounted : ∀ row ∈ handedRows history, request.size row ≠ none →
    row ∈ workers.written ∨ row ∈ testedRows history
  least_mem : ∀ row ∈ workers.least, row ∈ testedRows history ∧ request.NotText row
  least_le : ∀ row ∈ testedRows history, request.NotText row → ∃ first ≤ row, workers.least = some first
  length_le : history.length + 2 * workers.waiting.length + workers.written.length ≤
    2 * request.count

theorem reached_initial (request : Request) : Reached request [] (initial request) where
  size_eq := Request.size_zeros _
  perm := .refl _
  fresh row hrow := by
    have hstop := Request.stop_le_bufferSize (List.mem_range.mp hrow)
    exact (Request.extract_zeros hstop).trans (congrArg zeros (Nat.add_sub_cancel_left _ _))
  filled _ hrow := by cases hrow
  written _ hrow := by cases hrow
  tested_handed _ hrow := by cases hrow
  accounted _ hrow := by cases hrow
  least_mem _ hrow := by cases hrow
  least_le _ hrow := by cases hrow
  length_le := by simp [initial]

theorem lower_cases (least : Option Nat) (row : Nat) :
    ∃ first, lower least row = some first ∧ first ≤ row ∧ (first = row ∨ least = some first) ∧
      ∀ other ∈ least, first ≤ other := by
  cases least with
  | none => exact ⟨row, rfl, Nat.le_refl _, .inl rfl, nofun⟩
  | some least =>
      refine ⟨min row least, rfl, Nat.min_le_left _ _, ?_, ?_⟩
      · rcases Nat.le_total row least with hle | hle
        · exact .inl (Nat.min_eq_left hle)
        · exact .inr (congrArg some (Nat.min_eq_right hle).symm)
      · intro other hother
        obtain rfl := Option.some.inj hother
        exact Nat.min_le_right _ _

namespace Reached

variable (hreached : Reached request history workers)
include hreached

theorem nodup : (handedRows history ++ workers.waiting).Nodup :=
  hreached.perm.nodup_iff.mpr List.nodup_range

theorem lt_count_of_handed (hrow : row ∈ handedRows history) : row < request.count :=
  List.mem_range.mp (hreached.perm.mem_iff.mp (List.mem_append_left _ hrow))

theorem lt_count_of_waiting (hrow : row ∈ workers.waiting) : row < request.count :=
  List.mem_range.mp (hreached.perm.mem_iff.mp (List.mem_append_right _ hrow))

theorem perm_erase (hwaiting : row ∈ workers.waiting) :
    (row :: handedRows history ++ workers.waiting.erase row).Perm (List.range request.count) := by
  refine List.Perm.trans ?_ hreached.perm
  exact List.perm_middle.symm.trans ((List.perm_cons_erase hwaiting).symm.append_left _)

theorem ne_of_handed (hwaiting : row ∈ workers.waiting) (hother : other ∈ handedRows history) :
    other ≠ row := by
  rintro rfl
  exact (List.nodup_append.mp hreached.nodup).2.2 _ hother _ hwaiting rfl

theorem ne_of_waiting (hother : other ∈ workers.waiting.erase row) : other ≠ row := by
  have hnodup := (List.nodup_append.mp hreached.nodup).2.1
  exact (hnodup.mem_erase_iff.mp hother).1

theorem skip (hwaiting : row ∈ workers.waiting) (hsize : request.size row = none) :
    Reached request (.skipped row :: history)
      { workers with waiting := workers.waiting.erase row } where
  size_eq := hreached.size_eq
  perm := hreached.perm_erase hwaiting
  fresh other hother := hreached.fresh other (List.mem_of_mem_erase hother)
  filled other hother bytes hbytes := by
    rcases List.mem_cons.mp hother with rfl | hother
    · rw [Request.element?, hsize] at hbytes
      cases hbytes
    · exact hreached.filled other hother bytes hbytes
  written other hother := (hreached.written other hother).imp_left (.tail _)
  tested_handed other hother := .tail _ (hreached.tested_handed other hother)
  accounted other hother hpresent := by
    rcases List.mem_cons.mp hother with rfl | hother
    · exact absurd hsize hpresent
    · exact hreached.accounted other hother hpresent
  least_mem := hreached.least_mem
  least_le := hreached.least_le
  length_le := by
    have hlength := hreached.length_le
    have hpositive := List.length_pos_of_mem hwaiting
    simp only [List.length_cons, List.length_erase_of_mem hwaiting]
    omega

theorem write (hwaiting : row ∈ workers.waiting) (hsize : request.size row ≠ none) :
    Reached request (.wrote row :: history)
      { workers with
        buffer := workers.fill request row
        waiting := workers.waiting.erase row
        written := row :: workers.written } where
  size_eq := (size_overwrite (inside_fill hreached.size_eq
    (hreached.lt_count_of_waiting hwaiting))).trans hreached.size_eq
  perm := hreached.perm_erase hwaiting
  fresh other hother := by
    have hrow := hreached.lt_count_of_waiting hwaiting
    exact (extract_fill_other hreached.size_eq hrow (hreached.ne_of_waiting hother)).trans
      (hreached.fresh other (List.mem_of_mem_erase hother))
  filled other hother bytes hbytes := by
    have hrow := hreached.lt_count_of_waiting hwaiting
    rcases List.mem_cons.mp hother with rfl | hother
    · obtain ⟨size, hsize, rfl⟩ := Option.map_eq_some_iff.mp hbytes
      have hzeros := hreached.fresh _ hwaiting
      rw [Request.rangeSize, hsize, Option.getD_some] at hzeros
      exact (extract_fill_self hreached.size_eq hrow).trans (congrArg (request.write _) hzeros)
    · exact (extract_fill_other hreached.size_eq hrow (hreached.ne_of_handed hwaiting hother)).trans
        (hreached.filled other hother bytes hbytes)
  written other hother := by
    rcases List.mem_cons.mp hother with rfl | hother
    · exact ⟨.head _, hsize⟩
    · exact (hreached.written other hother).imp_left (.tail _)
  tested_handed other hother := .tail _ (hreached.tested_handed other hother)
  accounted other hother hpresent := by
    rcases List.mem_cons.mp hother with rfl | hother
    · exact .inl (.head _)
    · exact (hreached.accounted other hother hpresent).imp_left (.tail _)
  least_mem := hreached.least_mem
  least_le := hreached.least_le
  length_le := by
    have hlength := hreached.length_le
    have hpositive := List.length_pos_of_mem hwaiting
    simp only [List.length_cons, List.length_erase_of_mem hwaiting]
    omega

theorem notText_iff (hwritten : row ∈ workers.written) :
    request.NotText row ↔ ¬ (workers.range request row).validateUTF8 = true := by
  obtain ⟨hhanded, hpresent⟩ := hreached.written row hwritten
  obtain ⟨size, hsize⟩ := Option.ne_none_iff_exists'.mp hpresent
  have hbytes : request.element? row = some (request.write row (zeros size)) := by
    rw [Request.element?, hsize, Option.map_some]
  rw [hreached.filled row hhanded _ hbytes, ByteArray.validateUTF8_eq_true_iff, Request.NotText, hbytes]
  simp [hreached.lt_count_of_handed hhanded]

theorem test (hwritten : row ∈ workers.written) :
    Reached request (.tested row :: history)
      { workers with
        least := if (workers.range request row).validateUTF8 then workers.least
          else lower workers.least row
        written := workers.written.erase row } where
  size_eq := hreached.size_eq
  perm := hreached.perm
  fresh := hreached.fresh
  filled := hreached.filled
  written other hother := hreached.written other (List.mem_of_mem_erase hother)
  tested_handed other hother := by
    rcases List.mem_cons.mp hother with rfl | hother
    · exact (hreached.written _ hwritten).1
    · exact hreached.tested_handed other hother
  accounted other hother hpresent := by
    rcases hreached.accounted other hother hpresent with hwritten | htested
    · rcases eq_or_ne other row with rfl | hne
      · exact .inr (.head _)
      · exact .inl ((List.mem_erase_of_ne hne).mpr hwritten)
    · exact .inr (.tail _ htested)
  least_mem other hother := by
    have hrow := hreached.notText_iff hwritten
    split at hother
    next => exact (hreached.least_mem other hother).imp_left (.tail _)
    next hinvalid =>
      obtain ⟨first, hfirst, -, hcases, -⟩ := lower_cases workers.least row
      obtain rfl := Option.some.inj (hfirst.symm.trans hother)
      rcases hcases with rfl | hleast
      · exact ⟨.head _, hrow.mpr hinvalid⟩
      · exact (hreached.least_mem _ hleast).imp_left (.tail _)
  least_le other hother hnotText := by
    have hrow := hreached.notText_iff hwritten
    obtain ⟨first, hfirst, hle, -, hleast⟩ := lower_cases workers.least row
    rcases List.mem_cons.mp hother with rfl | hother
    · exact ⟨first, hle, (if_neg (hrow.mp hnotText)).trans hfirst⟩
    · obtain ⟨earliest, hbefore, hearliest⟩ := hreached.least_le other hother hnotText
      split
      · exact ⟨earliest, hbefore, hearliest⟩
      · exact ⟨first, Nat.le_trans (hleast _ hearliest) hbefore, hfirst⟩
  length_le := by
    have hlength := hreached.length_le
    have hpositive := List.length_pos_of_mem hwritten
    simp only [List.length_cons, List.length_erase_of_mem hwritten]
    omega

theorem step (hstep : Step request workers event next) :
    Reached request (event :: history) next := by
  cases hstep with
  | skip hwaiting hsize => exact hreached.skip hwaiting hsize
  | write hwaiting hsize => exact hreached.write hwaiting hsize
  | test hwritten => exact hreached.test hwritten

end Reached

theorem reached_of_steps (hsteps : Steps request history workers) :
    Reached request history workers := by
  induction hsteps with
  | initial => exact reached_initial request
  | step _ hlast ih => exact ih.step hlast

/-- While a range is left that has not been handed out or tested, some worker can go on. -/
theorem done_of_no_step (hstuck : ∀ event next, ¬ Step request workers event next) :
    workers.waiting = [] ∧ workers.written = [] := by
  refine ⟨List.eq_nil_iff_forall_not_mem.mpr fun row hrow => ?_,
    List.eq_nil_iff_forall_not_mem.mpr fun row hrow => hstuck _ _ (.test hrow)⟩
  cases hsize : request.size row with
  | none => exact hstuck _ _ (.skip hrow hsize)
  | some size => exact hstuck _ _ (.write hrow (hsize ▸ nofun))

namespace Reached

variable (hreached : Reached request history workers)
include hreached

theorem handed_of_done (hwaiting : workers.waiting = []) :
    (handedRows history).Perm (List.range request.count) := by
  have hperm := hreached.perm
  rwa [hwaiting, List.append_nil] at hperm

theorem range_of_done (hwaiting : workers.waiting = []) (hrow : row < request.count) :
    workers.range request row = (request.element? row).getD ByteArray.empty := by
  have hhanded : row ∈ handedRows history :=
    (hreached.handed_of_done hwaiting).mem_iff.mpr (List.mem_range.mpr hrow)
  cases hbytes : request.element? row with
  | some bytes => exact hreached.filled row hhanded bytes hbytes
  | none =>
      have hsize : request.rangeSize row = 0 := by
        rw [Request.rangeSize, Option.map_eq_none_iff.mp hbytes, Option.getD_none]
      rw [range, hsize, Nat.add_zero, ByteArray.extract_same, Option.getD_none]

theorem buffer_eq (hwaiting : workers.waiting = []) : workers.buffer = request.contents := by
  have hfront : ∀ count ≤ request.count,
      workers.buffer.extract 0 (request.start count) = request.bytesOf (List.range count) := by
    intro count hcount
    induction count with
    | zero => exact ByteArray.extract_same
    | succ count ih =>
        have hrange := hreached.range_of_done hwaiting hcount
        rw [List.range_succ, Request.bytesOf_concat, ← ih (Nat.le_of_succ_le hcount), ← hrange, range,
          ByteArray.extract_append_extract, Nat.zero_min, Request.start_succ,
          Nat.max_eq_right (Nat.le_add_right _ _)]
  have hall := hfront request.count (Nat.le_refl _)
  rwa [← Request.bufferSize, ← hreached.size_eq, ByteArray.extract_zero_size] at hall

theorem exists_least (hwaiting : workers.waiting = []) (hwritten : workers.written = [])
    (hnotText : request.NotText row) : ∃ first ≤ row, workers.least = some first := by
  obtain ⟨hrow, bytes, hbytes, -⟩ := id hnotText
  have hhanded : row ∈ handedRows history :=
    (hreached.handed_of_done hwaiting).mem_iff.mpr (List.mem_range.mpr hrow)
  have hpresent : request.size row ≠ none := by
    intro hmissing
    rw [Request.element?, hmissing] at hbytes
    cases hbytes
  refine hreached.least_le row ((hreached.accounted row hhanded hpresent).resolve_left ?_) hnotText
  rw [hwritten]
  exact List.not_mem_nil

theorem least_eq (hwaiting : workers.waiting = []) (hwritten : workers.written = []) :
    workers.least = (filling request.drafts).notUtf8 := by
  rcases request.notUtf8_drafts_cases with ⟨row, hrow, hnotText, hearlier⟩ | ⟨hnone, htext⟩
  · obtain ⟨first, hle, hfirst⟩ := hreached.exists_least hwaiting hwritten hnotText
    rcases Nat.lt_or_eq_of_le hle with hlt | rfl
    · exact absurd (hreached.least_mem first hfirst).2 (hearlier first hlt)
    · rw [hfirst, hrow]
  · rw [hnone]
    exact Option.eq_none_iff_forall_not_mem.mpr fun row hrow =>
      htext row (hreached.least_mem row hrow).2

/-- Workers that are done come to what is built in one go. -/
theorem result_eq (hfits : ¬ request.TooLarge) (hwaiting : workers.waiting = [])
    (hwritten : workers.written = []) : workers.result request = build request.drafts := by
  rw [Request.build_eq_of_fits hfits]
  cases hnotUtf8 : (filling request.drafts).notUtf8 with
  | some row => rw [result, hreached.least_eq hwaiting hwritten, hnotUtf8]
  | none =>
      rw [result, hreached.least_eq hwaiting hwritten, hnotUtf8, hreached.buffer_eq hwaiting,
        ofCells, request.countNulls_cells]

end Reached

end Workers

/-- A build is refused for sizes that are too large, else for the first element that is no text, and
else it stores each element in its range.  The buffer is cut into ranges that have no part in
common; each is handed out once, and in whichever order that is done and the workers go on, they
come to an end, and to the same outcome. -/
theorem build_fills_ranges (request : Request) :
    ((∃ failure, build request.drafts = .error failure ∧ failure.kind = .overflow) ↔
      request.TooLarge) ∧
    (¬ request.TooLarge →
      (∀ row, request.NotText row → (∀ earlier < row, ¬ request.NotText earlier) →
        build request.drafts = .error (.writtenNotUtf8 row) ∧
          (Failure.writtenNotUtf8 row).kind = .invalidArguments) ∧
      ((∀ row, ¬ request.NotText row) →
        ∃ store, build request.drafts = .ok store ∧ request.HeldBy store)) ∧
    (let ranges := consecutiveRanges (List.range request.bufferSize) (sizes request.drafts)
     ranges = (List.range request.count).map
          (fun row => List.range' (request.start row) (request.rangeSize row)) ∧
        ranges.flatten = List.range request.bufferSize ∧ ranges.Pairwise List.Disjoint) ∧
    ∀ history workers, Workers.Steps request history workers →
      (handedRows history).Nodup ∧ history.length ≤ 2 * request.count ∧
        ((∀ event next, ¬ Workers.Step request workers event next) →
          (handedRows history).Perm (List.range request.count) ∧
            (¬ request.TooLarge → workers.result request = build request.drafts)) := by
  refine ⟨Request.overflow_iff, fun hfits => ⟨fun row hnotText hearlier => ⟨?_, rfl⟩,
    Request.exists_build hfits⟩, ⟨request.consecutiveRanges_eq, request.flatten_ranges,
    request.disjoint_ranges⟩, fun history workers hsteps => ?_⟩
  · exact Request.build_of_notText hfits hnotText hearlier
  · have hreached := Workers.reached_of_steps hsteps
    refine ⟨(List.nodup_append.mp hreached.nodup).1, ?_, fun hstuck => ?_⟩
    · have hlength := hreached.length_le
      omega
    · obtain ⟨hwaiting, hwritten⟩ := Workers.done_of_no_step hstuck
      exact ⟨hreached.handed_of_done hwaiting,
        fun hfits => hreached.result_eq hfits hwaiting hwritten⟩

/-- The two bytes of `é`, one for each element. -/
def Request.halves : Request where
  count := 2
  size _ := some 1
  write row range := if range.size = 1 then ⟨#[if row = 0 then 0xC3 else 0xA9]⟩ else range
  size_write _ range := by
    by_cases hsize : range.size = 1
    · rw [if_pos hsize]
      exact hsize.symm
    · rw [if_neg hsize]

/-- Neither half of a character is a text, though the two of them together are one.  Here the second
half is found first, and still it is the first one that is named. -/
theorem build_fills_ranges_halves :
    build Request.halves.drafts = .error (.writtenNotUtf8 0) ∧
      Request.halves.contents = "é".toByteArray ∧
      ∃ workers, Workers.Steps Request.halves [.tested 0, .wrote 0, .tested 1, .wrote 1] workers ∧
        workers.result Request.halves = .error (.writtenNotUtf8 0) := by
  obtain ⟨-, hbuild, -, hworkers⟩ := build_fills_ranges Request.halves
  have hfits : ¬ Request.halves.TooLarge := by
    rintro (⟨row, -, size, hsize, hlong⟩ | hlarge)
    · obtain rfl := Option.some.inj hsize
      exact absurd hlong (by decide)
    · exact absurd hlarge (by decide)
  have hnotText : Request.halves.NotText 0 := by
    refine ⟨by decide, _, rfl, ?_⟩
    rw [← ByteArray.validateUTF8_eq_true_iff]
    decide
  have hrefused := ((hbuild hfits).1 0 hnotText nofun).1
  have hwrote : Workers.Steps Request.halves [.wrote 1] _ :=
    .step .initial (.write (by decide) nofun)
  have htested : Workers.Steps Request.halves [.tested 1, .wrote 1] _ :=
    .step hwrote (.test (by decide))
  have hwroteBoth : Workers.Steps Request.halves [.wrote 0, .tested 1, .wrote 1] _ :=
    .step htested (.write (by decide) nofun)
  have hsteps : Workers.Steps Request.halves [.tested 0, .wrote 0, .tested 1, .wrote 1] _ :=
    .step hwroteBoth (.test (by decide))
  have hresult := ((hworkers _ _ hsteps).2.2 ?_).2 hfits
  · exact ⟨hrefused, by decide, _, hsteps, hresult.trans hrefused⟩
  · intro event next hstep
    cases hstep with
    | skip hwaiting | write hwaiting => exact List.not_mem_nil hwaiting
    | test hwritten => exact List.not_mem_nil hwritten

end TextColumns.Store
