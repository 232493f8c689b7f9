import TextColumns.Proofs.Pieces.ListColumn
import TextColumns.Proofs.Store.Contents
import TextColumns.Proofs.Store.Shared

/-! The rows of a column of lists that is made of parts of the elements of a store. -/

namespace TextColumns

namespace ListColumn

open Text (Extent)

variable {store : Store} {column : ListColumn} {rows : List (Option (List Extent))}

theorem getElem?_spansFrom (first : Nat) {row k : Nat} {extents : List Extent} {extent : Extent}
    (hrow : rows[row]? = some (some extents)) (hextent : extents[k]? = some extent) :
    (spansFrom first rows)[total ((counts rows).take row) + k]? =
      some (some ⟨first + row, extent.start, extent.stop⟩) := by
  induction rows generalizing first row with
  | nil => cases hrow
  | cons head rest ih =>
      cases row with
      | zero =>
          obtain rfl := Option.some.inj hrow
          obtain ⟨hk, -⟩ := List.getElem?_eq_some_iff.mp hextent
          rw [List.take_zero, total_nil, Nat.zero_add, spansFrom,
            List.getElem?_append_left (by rwa [List.length_map]), List.getElem?_map, hextent]
          rfl
      | succ row =>
          have hlater := ih (first + 1) hrow
          rw [Nat.add_right_comm, Nat.add_assoc] at hlater
          cases head with
          | none => simpa [counts, spansFrom] using hlater
          | some others =>
              have hlength : total ((counts (some others :: rest)).take (row + 1)) + k =
                  (others.map fun extent =>
                    some (⟨first, extent.start, extent.stop⟩ : Span)).length +
                      (total ((counts rest).take row) + k) := by
                simp [counts, Nat.add_assoc]
              rw [hlength, spansFrom, List.getElem?_append_right (Nat.le_add_right _ _),
                Nat.add_sub_cancel_left]
              exact hlater

theorem getElem?_offsets (hcolumn : ofExtents store rows = .ok column) {row : Nat}
    (hrow : row ≤ rows.length) : column.offsets[row]? = some (total ((counts rows).take row)) := by
  obtain rfl := eq_of_ofExtents hcolumn
  have hlength : row ≤ (counts rows).length := by rwa [counts, List.length_map]
  have hstart := PrefixSum.getElem?_startsFrom 0 hlength
  rw [Nat.zero_add, Nat.zero_add] at hstart
  rw [← Array.getElem?_toList, Array.toList_push]
  exact hstart

theorem ofExtents_eq (hcolumn : ofExtents store rows = .ok column) :
    column.values = store.share (spansFrom 0 rows) ∧
      (∀ row, row ≤ rows.length → column.rowStart row = total ((counts rows).take row)) ∧
      column.validity = Validity.ofMarks (rows.map (·.isSome)).toArray ∧
      column.size = rows.length := by
  have hstart (row : Nat) (hrow : row ≤ rows.length) :
      column.rowStart row = total ((counts rows).take row) := by
    rw [rowStart, getElem?_offsets hcolumn hrow, Option.getD_some]
  obtain rfl := eq_of_ofExtents hcolumn
  exact ⟨rfl, hstart, rfl, by simp [size, counts]⟩

theorem rowLength_of_ofExtents (hcolumn : ofExtents store rows = .ok column) {row : Nat}
    {extents? : Option (List Extent)} (hrow : rows[row]? = some extents?) :
    column.rowLength row = (extents?.map List.length).getD 0 := by
  obtain ⟨-, hstarts, -, -⟩ := ofExtents_eq hcolumn
  obtain ⟨hlt, -⟩ := List.getElem?_eq_some_iff.mp hrow
  have hcount : (counts rows)[row]? = some ((extents?.map List.length).getD 0) := by
    rw [counts, List.getElem?_map, hrow, Option.map_some]
  rw [rowLength, hstarts row (Nat.le_of_lt hlt), hstarts (row + 1) hlt, List.take_add_one, hcount,
    total_append]
  simp

theorem row?_of_ofExtents (hvalid : store.Valid) (hrows : RowsWithin store rows)
    (hcolumn : ofExtents store rows = .ok column) {row : Nat} {extents? : Option (List Extent)}
    (hrow : rows[row]? = some extents?) :
    column.row? row = extents?.map (List.map fun extent =>
      Text.between ((store.text? row).getD "") extent.start extent.stop) := by
  obtain ⟨hvalues, hstarts, hvalidity, -⟩ := ofExtents_eq hcolumn
  obtain ⟨hlt, -⟩ := List.getElem?_eq_some_iff.mp hrow
  have hmark : (rows.map (·.isSome)).toArray[row]? = some extents?.isSome := by
    rw [List.getElem?_toArray, List.getElem?_map, hrow]
    rfl
  rw [row?, hvalidity, Validity.isValid_ofMarks hmark]
  cases extents? with
  | none => rfl
  | some extents =>
      have hstart := hstarts row (Nat.le_of_lt hlt)
      have hlength : column.rowLength row = extents.length := rowLength_of_ofExtents hcolumn hrow
      rw [Option.isSome_some, if_pos rfl, Option.map_some, hlength, hstart]
      congr 1
      refine List.ext_getElem? fun k => ?_
      rw [List.getElem?_map, List.getElem?_map]
      rcases Nat.lt_or_ge k extents.length with hk | hk
      · have hextent := List.getElem?_eq_getElem hk
        rw [List.getElem?_range hk, hextent, hvalues, Option.map_some,
          hvalid.text?_share (fun _ => hrows.span), getElem?_spansFrom 0 hrow hextent, Nat.zero_add]
        rfl
      · rw [List.getElem?_eq_none hk, List.getElem?_eq_none (by rwa [List.length_range])]
        rfl

theorem exists_ofExtents {bound : Nat}
    (hrows : ∀ extents, some extents ∈ rows → extents.length ≤ bound)
    (hbound : rows.length * bound ≤ Word.greatest) :
    ∃ column, ofExtents store rows = .ok column := by
  have hcounts : ∀ n ∈ counts rows, n ≤ bound := by
    intro n hn
    obtain ⟨extents?, hextents, rfl⟩ := List.mem_map.mp hn
    cases extents? with
    | none => exact Nat.zero_le _
    | some extents => exact hrows extents hextents
  have htotal : total (counts rows) ≤ Word.greatest := by
    have hsum := total_le_of_forall_le hcounts
    rw [counts, List.length_map] at hsum
    exact Nat.le_trans hsum hbound
  have hstarts := PrefixSum.exclusive_eq PrefixSum.workers (counts rows).toArray
  rw [if_pos htotal, counts] at hstarts
  rw [ofExtents]
  simp only [hstarts]
  exact ⟨_, rfl⟩

end ListColumn

end TextColumns
