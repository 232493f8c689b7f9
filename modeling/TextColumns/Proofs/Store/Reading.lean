import TextColumns.Proofs.Store.Limits
import TextColumns.Proofs.Text.Order

/-!
What is read back from stores that are made of others.  The rows that are picked, cut out or joined
are those that the same operation gives on lists of texts, whichever stores share a buffer; a row is
out of bounds exactly when the list has none there.
-/

namespace TextColumns.Store

variable {store other result : Store} {texts : List (Option String)}

theorem checkIndices_cases (store : Store) (indices : List Nat) :
    (∃ index ∈ indices, store.size ≤ index ∧
      store.checkIndices indices = .error (.gatherOutside index store.size)) ∨
    (∀ index ∈ indices, index < store.size) ∧ store.checkIndices indices = .ok () := by
  cases hcheck : store.checkIndices indices with
  | ok _ => exact .inr ⟨(checkIndices_eq_ok store indices).mp hcheck, rfl⟩
  | error failure =>
      rw [checkIndices] at hcheck
      cases hfind : indices.find? (store.size ≤ ·) with
      | some index =>
          rw [hfind] at hcheck
          cases hcheck
          have hle := List.find?_some hfind
          rw [decide_eq_true_iff] at hle
          exact .inl ⟨index, List.mem_of_find?_eq_some hfind, hle, rfl⟩
      | none =>
          rw [hfind] at hcheck
          cases hcheck

theorem gather_eq_gatherOptional (store : Store) (indices : List Nat) :
    store.gather indices = store.gatherOptional (indices.map some) := by
  have hindices : (indices.map some).filterMap id = indices := by simp
  have hdrafts : (indices.map some).map (fun index => index.bind store.elementDraft) =
      indices.map store.elementDraft := List.map_map
  rw [gather, gatherOptional, hindices, hdrafts]

theorem gatherOptional_cases (store : Store) (indices : List (Option Nat)) :
    (∃ index, some index ∈ indices ∧ store.size ≤ index ∧
      store.gatherOptional indices = .error (.gatherOutside index store.size)) ∨
    (∀ index, some index ∈ indices → index < store.size) ∧
      store.gatherOptional indices =
        build (indices.map fun index => index.bind store.elementDraft) := by
  rcases store.checkIndices_cases (indices.filterMap id) with
    ⟨index, hindex, hle, hcheck⟩ | ⟨hinside, hcheck⟩
  · exact .inl ⟨index, by simpa using hindex, hle, by rw [gatherOptional, hcheck]⟩
  · exact .inr ⟨by simpa using hinside, by rw [gatherOptional, hcheck]⟩

theorem gatherOptional_outOfBounds_iff (store : Store) (indices : List (Option Nat)) :
    (∃ failure, store.gatherOptional indices = .error failure ∧ failure.kind = .outOfBounds) ↔
      ∃ index, some index ∈ indices ∧ store.size ≤ index := by
  rcases store.gatherOptional_cases indices with ⟨index, hindex, hle, herror⟩ | ⟨hinside, hbuild⟩
  · exact iff_of_true ⟨_, herror, rfl⟩ ⟨index, hindex, hle⟩
  · rw [hbuild]
    refine iff_of_false ?_ ?_
    · rintro ⟨failure, hfailure, hkind⟩
      exact kind_of_build hfailure hkind
    · rintro ⟨index, hindex, hle⟩
      exact Nat.not_lt.mpr hle (hinside index hindex)

theorem gather_outOfBounds_iff (store : Store) (indices : List Nat) :
    (∃ failure, store.gather indices = .error failure ∧ failure.kind = .outOfBounds) ↔
      ∃ index ∈ indices, store.size ≤ index := by
  rw [gather_eq_gatherOptional, gatherOptional_outOfBounds_iff]
  simp

theorem Valid.gatherOptional_ok_iff (hvalid : store.Valid) (indices : List (Option Nat)) :
    (∃ result, store.gatherOptional indices = .ok result) ↔
      (∀ index, some index ∈ indices → index < store.size) ∧
        FitsLimits (indices.map (·.bind store.text?)) := by
  rcases store.gatherOptional_cases indices with ⟨index, hindex, hle, herror⟩ | ⟨hinside, -⟩
  · rw [herror]
    refine iff_of_false nofun ?_
    rintro ⟨hinside, -⟩
    exact Nat.not_lt.mpr hle (hinside index hindex)
  · rw [hvalid.gatherOptional_eq hinside, ofTexts_ok_iff, and_iff_right hinside]

theorem Valid.gather_ok_iff (hvalid : store.Valid) (indices : List Nat) :
    (∃ result, store.gather indices = .ok result) ↔
      (∀ index ∈ indices, index < store.size) ∧ FitsLimits (indices.map store.text?) := by
  rw [gather_eq_gatherOptional, hvalid.gatherOptional_ok_iff, List.map_map]
  simp [Function.comp_def]

theorem Valid.texts_of_gatherOptional (hvalid : store.Valid) {indices : List (Option Nat)}
    (hgather : store.gatherOptional indices = .ok result) :
    result.texts.toList.map some =
      indices.map fun index => index.elim (some none) (store.texts.toList[·]?) := by
  obtain ⟨hinside, -⟩ := (hvalid.gatherOptional_ok_iff indices).mp ⟨result, hgather⟩
  rw [hvalid.gatherOptional_eq hinside] at hgather
  rw [texts_ofTexts hgather, List.map_map]
  refine List.map_congr_left fun index hindex => ?_
  cases index with
  | none => rfl
  | some index => exact (store.getElem?_toList_texts (hinside index hindex)).symm

theorem Valid.texts_of_gather (hvalid : store.Valid) {indices : List Nat}
    (hgather : store.gather indices = .ok result) :
    result.texts.toList.map some = indices.map (store.texts.toList[·]?) := by
  rw [gather_eq_gatherOptional] at hgather
  rw [hvalid.texts_of_gatherOptional hgather, List.map_map]
  rfl

theorem slice_cases (store : Store) (start count : Nat) :
    (store.size < start + count ∨ Word.greatest < start + count) ∧
      store.slice start count =
        .error (.sliceOutside start (Word.saturate (start + count)) store.size) ∨
    ¬ (store.size < start + count ∨ Word.greatest < start + count) ∧
      store.slice start count =
        .ok (ofCells store.buffer (store.cells.extract start (start + count))) := by
  by_cases houtside : store.size < start + count ∨ Word.greatest < start + count
  · exact .inl ⟨houtside, if_pos houtside.symm⟩
  · exact .inr ⟨houtside, if_neg fun h => houtside h.symm⟩

theorem slice_outOfBounds_iff (store : Store) (start count : Nat) :
    (∃ failure, store.slice start count = .error failure ∧ failure.kind = .outOfBounds) ↔
      store.size < start + count ∨ Word.greatest < start + count := by
  rcases store.slice_cases start count with ⟨houtside, herror⟩ | ⟨hinside, hok⟩
  · exact iff_of_true ⟨_, herror, rfl⟩ houtside
  · rw [hok]
    exact iff_of_false nofun hinside

theorem slice_ok_iff (store : Store) (start count : Nat) :
    (∃ result, store.slice start count = .ok result) ↔
      ¬ (store.size < start + count ∨ Word.greatest < start + count) := by
  rcases store.slice_cases start count with ⟨houtside, herror⟩ | ⟨hinside, hok⟩
  · rw [herror]
    exact iff_of_false nofun fun hinside => hinside houtside
  · exact iff_of_true ⟨_, hok⟩ hinside

theorem texts_of_slice {start count : Nat} (hslice : store.slice start count = .ok result) :
    result.texts.toList = (store.texts.toList.drop start).take count := by
  rcases store.slice_cases start count with ⟨-, herror⟩ | ⟨-, hok⟩
  · rw [herror] at hslice
    cases hslice
  · rw [hok] at hslice
    cases hslice
    have htexts : (ofCells store.buffer (store.cells.extract start (start + count))).texts =
        store.texts.extract start (start + count) := Array.map_extract
    rw [htexts, Array.toList_extract, List.extract_eq_take_drop, Nat.add_sub_cancel_left]

theorem concat_ok_iff {stores : List Store} (hvalid : ∀ store ∈ stores, store.Valid) :
    (∃ result, concat stores = .ok result) ↔ FitsLimits (stores.flatMap (·.texts.toList)) := by
  rw [concat_eq hvalid, ofTexts_ok_iff]

theorem Valid.compact_eq (hvalid : store.Valid) : store.compact = ofTexts store.texts.toList := by
  rw [compact, hvalid.elementDrafts_eq, ofTexts]

theorem sameTexts_iff (store other : Store) :
    store.sameTexts other = true ↔ store.texts.toList = other.texts.toList := by
  rw [sameTexts, Bool.and_eq_true, beq_iff_eq, List.all_eq_true]
  constructor
  · rintro ⟨hsize, hrows⟩
    rw [toList_texts, toList_texts, ← hsize]
    refine List.map_congr_left fun row hrow => ?_
    exact Std.LawfulEqCmp.eq_of_compare (beq_iff_eq.mp (hrows row hrow))
  · intro htexts
    have hsize : store.size = other.size := by
      rw [← length_toList_texts, htexts, length_toList_texts]
    refine ⟨hsize, fun row _ => ?_⟩
    rw [← text?_eq, ← text?_eq, ← Array.getElem?_toList, htexts, Array.getElem?_toList,
      beq_iff_eq]
    exact Std.ReflCmp.compare_self

/-- Whether the rows that are taken from a store are those that are taken from its list of texts. -/
structure ReadsBack (store : Store) : Prop where
  gather_texts : ∀ indices result, store.gather indices = .ok result →
    result.texts.toList.map some = indices.map (store.texts.toList[·]?)
  gather_ok_iff : ∀ indices, (∃ result, store.gather indices = .ok result) ↔
    (∀ index ∈ indices, index < store.size) ∧ FitsLimits (indices.map store.text?)
  gather_outOfBounds_iff : ∀ indices,
    (∃ failure, store.gather indices = .error failure ∧ failure.kind = .outOfBounds) ↔
      ∃ index ∈ indices, store.size ≤ index
  gatherOptional_texts : ∀ indices result, store.gatherOptional indices = .ok result →
    result.texts.toList.map some =
      indices.map fun index => index.elim (some none) (store.texts.toList[·]?)
  gatherOptional_ok_iff : ∀ indices, (∃ result, store.gatherOptional indices = .ok result) ↔
    (∀ index, some index ∈ indices → index < store.size) ∧
      FitsLimits (indices.map (·.bind store.text?))
  gatherOptional_outOfBounds_iff : ∀ indices,
    (∃ failure, store.gatherOptional indices = .error failure ∧ failure.kind = .outOfBounds) ↔
      ∃ index, some index ∈ indices ∧ store.size ≤ index
  slice_texts : ∀ start count result, store.slice start count = .ok result →
    result.texts.toList = (store.texts.toList.drop start).take count
  slice_ok_iff : ∀ start count, (∃ result, store.slice start count = .ok result) ↔
    ¬ (store.size < start + count ∨ Word.greatest < start + count)
  slice_outOfBounds_iff : ∀ start count,
    (∃ failure, store.slice start count = .error failure ∧ failure.kind = .outOfBounds) ↔
      store.size < start + count ∨ Word.greatest < start + count
  compact_texts : ∀ result, store.compact = .ok result →
    result.texts.toList = store.texts.toList
  compact_ok_iff : (∃ result, store.compact = .ok result) ↔ FitsLimits store.texts.toList
  same_iff : ∀ other, store.sameTexts other = true ↔ store.texts.toList = other.texts.toList

theorem Valid.readsBack (hvalid : store.Valid) : store.ReadsBack where
  gather_texts _ _ := hvalid.texts_of_gather
  gather_ok_iff := hvalid.gather_ok_iff
  gather_outOfBounds_iff := store.gather_outOfBounds_iff
  gatherOptional_texts _ _ := hvalid.texts_of_gatherOptional
  gatherOptional_ok_iff := hvalid.gatherOptional_ok_iff
  gatherOptional_outOfBounds_iff := store.gatherOptional_outOfBounds_iff
  slice_texts _ _ _ := texts_of_slice
  slice_ok_iff := store.slice_ok_iff
  slice_outOfBounds_iff := store.slice_outOfBounds_iff
  compact_texts result hcompact := by
    rw [hvalid.compact_eq] at hcompact
    exact texts_ofTexts hcompact
  compact_ok_iff := by rw [hvalid.compact_eq, ofTexts_ok_iff]
  same_iff := store.sameTexts_iff

/-- Reading back undoes building, and every operation on valid stores, windows and stores with a
shared buffer among them, does on their texts what it does on lists. -/
theorem reads_back {stores : List Store} (hvalid : ∀ store ∈ stores, store.Valid) :
    (∀ store ∈ stores, store.ReadsBack) ∧
      ((∃ result, concat stores = .ok result) ↔ FitsLimits (stores.flatMap (·.texts.toList))) ∧
      (∀ result, concat stores = .ok result →
        result.texts.toList = stores.flatMap (·.texts.toList)) ∧
      (∀ texts, (∃ store, ofTexts texts = .ok store) ↔ FitsLimits texts) ∧
      ∀ texts store, ofTexts texts = .ok store → store.texts.toList = texts := by
  refine ⟨fun store hstore => (hvalid store hstore).readsBack, concat_ok_iff hvalid, ?_, ?_, ?_⟩
  · intro result hconcat
    exact (valid_concat hvalid hconcat).2
  · exact fun texts => ofTexts_ok_iff
  · exact fun texts store hstore => texts_ofTexts hstore

/-- A window with a missing and an empty text, an empty store, and the store that both share. -/
theorem reads_back_window :
    ∃ whole window empty, ofTexts [some "a", none, some "", some "b"] = .ok whole ∧
      whole.slice 1 2 = .ok window ∧ whole.slice 4 0 = .ok empty ∧
      ∃ joined, concat [empty, window, empty, whole] = .ok joined ∧
        joined.texts.toList = [none, some "", some "a", none, some "", some "b"] := by
  obtain ⟨whole, hwhole⟩ := @exists_ofTexts [some "a", none, some "", some "b"]
    (by simp; decide) (by decide)
  have htexts := texts_ofTexts hwhole
  have hsize : whole.size = 4 := by
    rw [← whole.size_texts, ← Array.length_toList, htexts]
    rfl
  have hslice : ∀ start count, start + count ≤ 4 → ∃ part, whole.slice start count = .ok part := by
    intro start count hle
    refine (whole.slice_ok_iff start count).mpr fun houtside => ?_
    rw [hsize, Word.greatest] at houtside
    omega
  obtain ⟨window, hwindow⟩ := hslice 1 2 (by decide)
  obtain ⟨empty, hempty⟩ := hslice 4 0 (by decide)
  have hvalid := valid_of_build hwhole
  obtain ⟨-, hok, hjoin, -⟩ := @reads_back [empty, window, empty, whole] (by
    intro store hstore
    simp only [List.mem_cons, List.not_mem_nil, or_false] at hstore
    rcases hstore with rfl | rfl | rfl | rfl
    · exact hvalid.slice hempty
    · exact hvalid.slice hwindow
    · exact hvalid.slice hempty
    · exact hvalid)
  have hrows : [empty, window, empty, whole].flatMap (·.texts.toList) =
      [none, some "", some "a", none, some "", some "b"] := by
    simp [texts_of_slice hempty, texts_of_slice hwindow, htexts]
  rw [hrows] at hok hjoin
  obtain ⟨joined, hjoined⟩ := hok.mpr ⟨by simp; decide, by decide⟩
  exact ⟨whole, window, empty, hwhole, hwindow, hempty, joined, hjoined, hjoin joined hjoined⟩

end TextColumns.Store
