import TextColumns.Proofs.Store.Contents

namespace TextColumns.Store

variable {store : Store} {spans : List (Option Span)}

def spanText (store : Store) (span : Span) : String :=
  Text.between ((store.text? span.row).getD "") span.start span.stop

theorem getElem?_sharedCells_some {cursor row : Nat} {span : Span}
    (hspan : spans[row]? = some (some span)) :
    (store.sharedCells cursor spans)[row]? =
      some ⟨(store.cells[span.row]?.getD default).offset + span.start,
        some (span.stop - span.start)⟩ := by
  induction spans generalizing cursor row with
  | nil => cases hspan
  | cons first rest ih =>
      cases row with
      | zero =>
          obtain rfl := Option.some.inj hspan
          rfl
      | succ row => cases first <;> exact ih hspan

theorem getElem?_sharedCells_none {cursor row : Nat} (hspan : spans[row]? = some none) :
    ∃ offset, (store.sharedCells cursor spans)[row]? = some ⟨offset, none⟩ := by
  induction spans generalizing cursor row with
  | nil => cases hspan
  | cons first rest ih =>
      cases row with
      | zero =>
          obtain rfl := Option.some.inj hspan
          exact ⟨cursor, rfl⟩
      | succ row => cases first <;> exact ih hspan

theorem Valid.text?_share (hvalid : store.Valid)
    (hspans : ∀ span, some span ∈ spans → span.Within store) (row : Nat) :
    (store.share spans).text? row = spans[row]?.join.map store.spanText := by
  rw [text?, share_eq, ofCells, List.getElem?_toArray]
  cases hrow : spans[row]? with
  | none =>
      have hlength := List.getElem?_eq_none_iff.mp hrow
      rw [← length_sharedCells store 0] at hlength
      rw [List.getElem?_eq_none_iff.mpr hlength]
      rfl
  | some span? =>
      cases span? with
      | none =>
          obtain ⟨offset, hcell⟩ := @getElem?_sharedCells_none store spans 0 row hrow
          rw [hcell]
          rfl
      | some span =>
          obtain ⟨text, htext, hwithin⟩ := hspans span (List.mem_of_getElem? hrow)
          rw [getElem?_sharedCells_some hrow, Option.bind_some, cellText, cellBytes, Option.map_some,
            Option.map_some, hvalid.extract_span htext hwithin]
          simp only [Option.join_some, Option.map_some, spanText, htext, Option.getD_some,
            Text.between]

theorem Valid.texts_share (hvalid : store.Valid)
    (hspans : ∀ span, some span ∈ spans → span.Within store) :
    (store.share spans).texts.toList = spans.map (Option.map store.spanText) := by
  rw [toList_texts, size_share]
  refine List.ext_getElem (by simp) fun row hrow _ => ?_
  rw [List.length_map, List.length_range] at hrow
  rw [List.getElem_map, List.getElem_range, hvalid.text?_share hspans, List.getElem_map,
    List.getElem?_eq_getElem hrow, Option.join_some]

theorem Valid.text?_share_texts (hvalid : store.Valid) {part : String → Text.Extent}
    (hpart : ∀ text, (part text).Within text) (row : Nat) :
    (store.share <| store.texts.toList.mapIdx fun row text =>
      text.map fun text => ⟨row, (part text).start, (part text).stop⟩).text? row =
      (store.text? row).map fun text => Text.between text (part text).start (part text).stop := by
  rw [hvalid.text?_share fun span hspan => ?_, List.getElem?_mapIdx]
  · rcases Nat.lt_or_ge row store.size with hrow | hrow
    · rw [store.getElem?_toList_texts hrow]
      cases htext : store.text? row with
      | none => rfl
      | some text =>
          simp only [Option.map_some, Option.join_some, spanText, htext, Option.getD_some]
    · have hlength : store.texts.toList.length ≤ row := by
        rwa [Array.length_toList, size_texts]
      rw [List.getElem?_eq_none hlength, text?_eq_none_of_size_le hrow]
      rfl
  · obtain ⟨row, hrow⟩ := List.mem_iff_getElem?.mp hspan
    exact (within_partOfText hpart hrow).2

end TextColumns.Store
