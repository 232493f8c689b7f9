import TextColumns.Proofs.Store.Contents

/-!
When texts can be built at all: a store of them exists exactly if each of them is short enough and
all of them together are.  A store that cannot be built is not one that was asked for a row that it
does not have.
-/

namespace TextColumns

structure FitsLimits (texts : List (Option String)) : Prop where
  each : ∀ text, some text ∈ texts → text.utf8ByteSize ≤ Store.maxElementSize
  all : total (textSizes texts) ≤ Store.maxBufferSize

theorem total_le_of_sublist {sizes others : List Nat} (hsublist : sizes.Sublist others) :
    total sizes ≤ total others := by
  induction hsublist with
  | slnil => exact Nat.le_refl _
  | cons size _ ih => exact Nat.le_trans ih (Nat.le_add_left _ _)
  | cons_cons size _ ih => exact Nat.add_le_add_left ih size

theorem total_textSizes_perm {texts others : List (Option String)} (hperm : texts.Perm others) :
    total (textSizes texts) = total (textSizes others) := by
  rw [total_eq_sum, total_eq_sum]
  exact (hperm.map _).sum_nat

theorem fitsLimits_perm {texts others : List (Option String)} (hperm : texts.Perm others) :
    FitsLimits texts ↔ FitsLimits others := by
  have htotal := total_textSizes_perm hperm
  constructor
  · intro hfits
    exact ⟨fun text htext => hfits.each text (hperm.mem_iff.mpr htext), htotal ▸ hfits.all⟩
  · intro hfits
    exact ⟨fun text htext => hfits.each text (hperm.mem_iff.mp htext), htotal ▸ hfits.all⟩

theorem fitsLimits_of_total {texts : List (Option String)}
    (htotal : total (textSizes texts) ≤ Store.maxElementSize) : FitsLimits texts where
  each text htext := by
    have hsize : text.utf8ByteSize ∈ textSizes texts := List.mem_map.mpr ⟨some text, htext, rfl⟩
    have hle := total_le_of_sublist (List.singleton_sublist.mpr hsize)
    rw [total_eq_sum, List.sum_singleton] at hle
    exact Nat.le_trans hle htotal
  all := Nat.le_trans htotal (by decide)

/-- Whether something is done just if it fits, and is otherwise refused for its size. -/
structure LimitedBy {α : Type} (fits : Prop) (result : Result α) : Prop where
  done : fits → ∃ value, result = .ok value
  refused : ¬ fits → ∃ failure, result = .error failure ∧ failure.kind = .overflow

namespace LimitedBy

variable {α β : Type} {fits also : Prop} {first : Result α} {next : α → Result β}

theorem of_iff (hfirst : LimitedBy fits first) (hiff : fits ↔ also) : LimitedBy also first where
  done halso := hfirst.done (hiff.mpr halso)
  refused hnot := hfirst.refused (hiff.not.mpr hnot)

theorem of_ok (hfirst : LimitedBy fits first) {value : α} (hvalue : first = .ok value) : fits := by
  by_contra hnot
  obtain ⟨failure, hfailure, -⟩ := hfirst.refused hnot
  rw [hvalue] at hfailure
  cases hfailure

theorem bind (hfirst : LimitedBy fits first)
    (hnext : ∀ value, first = .ok value → LimitedBy also (next value)) :
    LimitedBy (fits ∧ also) (do next (← first)) := by
  by_cases hfits : fits
  · obtain ⟨value, hvalue⟩ := hfirst.done hfits
    have hvalueNext := hnext value hvalue
    rw [hvalue]
    exact hvalueNext.of_iff (and_iff_right hfits).symm
  · obtain ⟨failure, hfailure, hkind⟩ := hfirst.refused hfits
    rw [hfailure]
    exact ⟨fun hboth => absurd hboth.1 hfits, fun _ => ⟨failure, rfl, hkind⟩⟩

theorem map (hfirst : LimitedBy fits first) (f : α → β) : LimitedBy fits (first.map f) where
  done hfits := by
    obtain ⟨value, hvalue⟩ := hfirst.done hfits
    exact ⟨f value, by rw [hvalue]; rfl⟩
  refused hnot := by
    obtain ⟨failure, hfailure, hkind⟩ := hfirst.refused hnot
    exact ⟨failure, by rw [hfailure]; rfl, hkind⟩

end LimitedBy

namespace Store

variable {store : Store} {drafts : List (Option Draft)} {texts : List (Option String)}

theorem total_sizes_le_of_build (hbuild : build drafts = .ok store) :
    total (sizes drafts) ≤ maxBufferSize := by
  have hbuilt := built drafts
  rw [hbuild] at hbuilt
  cases hbuilt
  assumption

theorem ofTexts_ok_iff : (∃ store, ofTexts texts = .ok store) ↔ FitsLimits texts := by
  constructor
  · rintro ⟨store, hstore⟩
    obtain ⟨hdrafts, -⟩ := build_eq hstore
    refine ⟨fun text htext => ?_, ?_⟩
    · rw [← Draft.size_ofText]
      exact (hdrafts (Draft.ofText text) (List.mem_map.mpr ⟨some text, htext, rfl⟩)).1
    · rw [← sizes_ofText]
      exact total_sizes_le_of_build hstore
  · intro hfits
    exact exists_ofTexts hfits.each hfits.all

theorem exists_of_total (htotal : total (textSizes texts) ≤ maxElementSize) :
    ∃ store, ofTexts texts = .ok store ∧ store.Valid ∧ store.texts.toList = texts := by
  obtain ⟨store, hstore⟩ := ofTexts_ok_iff.mpr (fitsLimits_of_total htotal)
  exact ⟨store, hstore, valid_of_build hstore, texts_ofTexts hstore⟩

theorem kind_of_build {failure : Failure} (hbuild : build drafts = .error failure) :
    failure.kind ≠ .outOfBounds := by
  have hbuilt := built drafts
  rw [hbuild] at hbuilt
  cases hbuilt <;> exact nofun

/-- Texts that cannot be built are too long, one of them or all of them together. -/
theorem kind_of_ofTexts {failure : Failure} (hbuild : ofTexts texts = .error failure) :
    failure.kind = .overflow := by
  obtain ⟨hoverrun, hutf8⟩ := fill_ofText ⟨ByteArray.empty, none, none⟩ 0 texts
  have hbuilt := built (texts.map (·.map Draft.ofText))
  rw [← ofTexts, hbuild] at hbuilt
  cases hbuilt with
  | elementTooLong => rfl
  | prefixSum => rfl
  | storeTooLarge => rfl
  | writtenBeyond _ _ hsome => cases hoverrun.symm.trans hsome
  | writtenNotUtf8 _ hsome => cases hutf8.symm.trans hsome

/-- What it comes to when a store of texts is asked for: the store if they fit, and otherwise a
refusal for their size. -/
structure Builds (texts : List (Option String)) (result : Result Store) : Prop where
  stored : FitsLimits texts → ∃ store, result = .ok store ∧ store.texts.toList = texts
  refused : ¬ FitsLimits texts → ∃ failure, result = .error failure ∧ failure.kind = .overflow

theorem builds_ofTexts (texts : List (Option String)) : Builds texts (ofTexts texts) where
  stored hfits := by
    obtain ⟨store, hstore⟩ := ofTexts_ok_iff.mpr hfits
    exact ⟨store, hstore, texts_ofTexts hstore⟩
  refused hfits := by
    cases hresult : ofTexts texts with
    | ok store => exact absurd (ofTexts_ok_iff.mp ⟨store, hresult⟩) hfits
    | error failure => exact ⟨failure, rfl, kind_of_ofTexts hresult⟩

theorem limitedBy_ofTexts (texts : List (Option String)) :
    LimitedBy (FitsLimits texts) (ofTexts texts) where
  done := ofTexts_ok_iff.mpr
  refused := (builds_ofTexts texts).refused

theorem Valid.fitsLimits_of_subset (hvalid : store.Valid)
    (hsubset : ∀ text, some text ∈ texts → some text ∈ store.texts)
    (htotal : total (textSizes texts) ≤ maxBufferSize) : FitsLimits texts where
  each text htext := hvalid.size_le_of_text (hsubset text htext)
  all := htotal

end Store

end TextColumns
