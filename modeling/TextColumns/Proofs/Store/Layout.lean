import TextColumns.Proofs.Store.Parts

/-!
The order of elements in a buffer.  A store whose elements lie one behind the other has parts that
do so too, if they are taken in order; and a store whose offsets do not decrease is accepted when it
is put together again from its tables.
-/

namespace TextColumns

/-- Whether an element lies behind another one, if neither of them is missing. -/
def Cell.Apart (a b : Cell) : Prop :=
  ∀ length, a.length = some length → b.length ≠ none → a.offset + length ≤ b.offset

def Span.Before (a b : Span) : Prop :=
  a.row < b.row ∨ a.row = b.row ∧ a.start ≤ b.start ∧ a.stop ≤ b.start

namespace Store

def Ordered (store : Store) : Prop :=
  store.cells.toList.Pairwise fun a b => a.offset ≤ b.offset

/-- Whether every element lies behind those in front of it. -/
def LaidOut (store : Store) : Prop :=
  store.cells.toList.Pairwise Cell.Apart

def spanOffset (store : Store) (span : Span) : Nat :=
  (store.cells[span.row]?.getD default).offset + span.start

def offsetTable (store : Store) : List Int :=
  store.cells.toList.map fun cell => cell.offset

def lengthTable (store : Store) : List Int :=
  store.cells.toList.map fun cell => (cell.length.map Int.ofNat).getD nullLength

/-- Whether the tables of a store are accepted over its buffer, and give the same elements. -/
def Reassembles (store : Store) : Prop :=
  ofParts store.buffer.bytes store.offsetTable store.lengthTable =
    .ok (ofCells ⟨store.buffer.bytes, none⟩ store.cells)

variable {store : Store} {spans : List (Option Span)}

theorem LaidOut.spanOffset_le (hlaidOut : store.LaidOut) (hvalid : store.Valid) {a b : Span}
    (ha : a.Within store) (hb : b.Within store) (hbefore : a.Before b) :
    store.spanOffset a + (a.stop - a.start) ≤ store.spanOffset b := by
  rcases hbefore with hrow | ⟨hrow, hstart, hstop⟩
  · obtain ⟨text, htext, hwithin⟩ := ha
    obtain ⟨other, hother, -⟩ := hb
    obtain ⟨cell, hcell, hlength, -⟩ := hvalid.exists_cell htext
    obtain ⟨behind, hbehind, hpresent, -⟩ := hvalid.exists_cell hother
    have hstart : a.start ≤ text.utf8ByteSize := hwithin.start.le
    have hstop : a.stop ≤ text.utf8ByteSize := hwithin.stop.le
    obtain ⟨hi, rfl⟩ := Array.getElem?_eq_some_iff.mp hcell
    obtain ⟨hj, rfl⟩ := Array.getElem?_eq_some_iff.mp hbehind
    have hapart := List.pairwise_iff_getElem.mp hlaidOut a.row b.row
      (by rwa [Array.length_toList]) (by rwa [Array.length_toList]) hrow
    rw [Array.getElem_toList, Array.getElem_toList] at hapart
    have hle := hapart _ hlength (by rw [hpresent]; exact nofun)
    rw [spanOffset, spanOffset, hcell, hbehind, Option.getD_some, Option.getD_some]
    omega
  · rw [spanOffset, spanOffset, hrow]
    omega

theorem ordered_sharedCells {cursor : Nat}
    (hcursor : ∀ span, some span ∈ spans → cursor ≤ store.spanOffset span)
    (hspans : (spans.filterMap id).Pairwise fun a b => store.spanOffset a ≤ store.spanOffset b) :
    ((store.sharedCells cursor spans).Pairwise fun a b => a.offset ≤ b.offset) ∧
      ∀ cell ∈ store.sharedCells cursor spans, cursor ≤ cell.offset := by
  induction spans generalizing cursor with
  | nil => exact ⟨.nil, nofun⟩
  | cons first rest ih =>
      cases first with
      | none =>
          obtain ⟨hordered, hbehind⟩ := ih (fun span hspan => hcursor span (.tail _ hspan)) hspans
          exact ⟨List.pairwise_cons.mpr ⟨hbehind, hordered⟩,
            List.forall_mem_cons.mpr ⟨Nat.le_refl _, hbehind⟩⟩
      | some span =>
          have hfirst := hcursor span (.head _)
          obtain ⟨hspan, hrest⟩ := List.pairwise_cons.mp hspans
          have hlater : ∀ other, some other ∈ rest → store.spanOffset span ≤ store.spanOffset other :=
            fun other hother => hspan other (List.mem_filterMap.mpr ⟨some other, hother, rfl⟩)
          obtain ⟨hordered, hbehind⟩ := ih hlater hrest
          exact ⟨List.pairwise_cons.mpr ⟨hbehind, hordered⟩, List.forall_mem_cons.mpr
            ⟨hfirst, fun cell hcell => Nat.le_trans hfirst (hbehind cell hcell)⟩⟩

theorem laidOut_sharedCells {cursor : Nat}
    (hspans : (spans.filterMap id).Pairwise fun a b =>
      store.spanOffset a + (a.stop - a.start) ≤ store.spanOffset b) :
    (store.sharedCells cursor spans).Pairwise Cell.Apart := by
  induction spans generalizing cursor with
  | nil => exact .nil
  | cons first rest ih =>
      cases first with
      | none =>
          refine List.pairwise_cons.mpr ⟨fun cell _ length hlength => ?_, ih hspans⟩
          cases hlength
      | some span =>
          obtain ⟨hspan, hrest⟩ := List.pairwise_cons.mp hspans
          refine List.pairwise_cons.mpr ⟨fun cell hcell length hlength hpresent => ?_, ih hrest⟩
          cases hlength
          rcases mem_sharedCells hcell with ⟨-, hmissing⟩ | ⟨other, hother, rfl⟩
          · exact absurd hmissing hpresent
          · exact hspan other (List.mem_filterMap.mpr ⟨_, hother, rfl⟩)

/-- Parts that are taken in order lie one behind the other. -/
theorem LaidOut.share (hlaidOut : store.LaidOut) (hvalid : store.Valid)
    (hspans : ∀ span, some span ∈ spans → span.Within store)
    (hbefore : (spans.filterMap id).Pairwise Span.Before) :
    (store.share spans).LaidOut ∧ (store.share spans).Ordered := by
  have hmem : ∀ {span}, span ∈ spans.filterMap id → span.Within store := fun hspan =>
    hspans _ (by simpa using hspan)
  have hapart : (spans.filterMap id).Pairwise fun a b =>
      store.spanOffset a + (a.stop - a.start) ≤ store.spanOffset b :=
    hbefore.imp_of_mem fun ha hb => hlaidOut.spanOffset_le hvalid (hmem ha) (hmem hb)
  rw [share_eq]
  constructor
  · exact laidOut_sharedCells hapart
  · refine (ordered_sharedCells (fun _ _ => Nat.zero_le _) (hapart.imp fun hle => ?_)).1
    exact Nat.le_trans (Nat.le_add_right _ _) hle

theorem LaidOut.share_rows (hlaidOut : store.LaidOut) (hvalid : store.Valid)
    {rows : List (Option Span)}
    (hrows : ∀ (row : Nat) (span : Span), rows[row]? = some (some span) →
      span.row = row ∧ span.Within store) :
    (store.share rows).LaidOut ∧ (store.share rows).Ordered := by
  refine hlaidOut.share hvalid (fun span hspan => ?_) ?_
  · obtain ⟨row, hrow⟩ := List.mem_iff_getElem?.mp hspan
    exact (hrows row span hrow).2
  · rw [List.pairwise_filterMap, List.pairwise_iff_getElem]
    intro i j hi hj hij a ha b hb
    have hfirst := (hrows i a ((List.getElem?_eq_getElem hi).trans (congrArg some ha))).1
    have hsecond := (hrows j b ((List.getElem?_eq_getElem hj).trans (congrArg some hb))).1
    exact .inl (by rwa [hfirst, hsecond])

theorem LaidOut.share_texts (hlaidOut : store.LaidOut) (hvalid : store.Valid)
    {part : String → Text.Extent} (hpart : ∀ text, (part text).Within text) :
    let shared := store.share <| store.texts.toList.mapIdx fun row text =>
      text.map fun text => ⟨row, (part text).start, (part text).stop⟩
    shared.LaidOut ∧ shared.Ordered :=
  hlaidOut.share_rows hvalid fun _ _ hrow => within_partOfText hpart hrow

theorem accepted_of_holds {buffer : Buffer} {cell : Cell}
    (hholds : ∀ length, cell.length = some length → buffer.Holds cell.offset length) :
    Accepted buffer.bytes cell.offset ((cell.length.map Int.ofNat).getD nullLength) cell := by
  obtain ⟨offset, length⟩ := cell
  cases length with
  | none => exact .missing
  | some length =>
      have hlength := hholds length rfl
      exact .present (Int.natCast_nonneg length) hlength.inside
        (Text.utf8Fault?_eq_none hlength.wellFormed)

theorem checkEntries_eq_ok {buffer : Buffer} {cells : List Cell} {previous : Int} {row : Nat}
    (nullCount : Nat)
    (hholds : ∀ cell ∈ cells, ∀ length, cell.length = some length →
      buffer.Holds cell.offset length)
    (hordered : cells.Pairwise fun a b => a.offset ≤ b.offset)
    (hprevious : ∀ cell ∈ cells, previous ≤ cell.offset) :
    checkEntries buffer.bytes previous row nullCount
      ((cells.map fun cell => (cell.offset : Int)).zip
        (cells.map fun cell => (cell.length.map Int.ofNat).getD nullLength)) =
      .ok (cells, nullCount + countNulls cells.toArray) := by
  rw [List.zip_map', checkEntries_eq_ok_iff, List.map_map, List.forall₂_map_left_iff,
    List.forall₂_same]
  refine ⟨?_, ?_, rfl⟩
  · rw [List.isChain_iff_pairwise, List.pairwise_cons, List.forall_mem_map, List.pairwise_map]
    exact ⟨hprevious, hordered.imp Int.ofNat_le.mpr⟩
  · exact fun cell hcell => accepted_of_holds (hholds cell hcell)

theorem Valid.reassembles (hvalid : store.Valid) (hordered : store.Ordered) :
    store.Reassembles := by
  have hcheck := @checkEntries_eq_ok store.buffer store.cells.toList 0 0 0
    (fun cell hcell => hvalid.holds cell (Array.mem_toList_iff.mp hcell)) hordered
    fun cell _ => Int.natCast_nonneg cell.offset
  rw [Reassembles, ofParts, if_neg (by simp [offsetTable, lengthTable]), offsetTable, lengthTable,
    hcheck, Nat.zero_add]
  rfl

end Store

end TextColumns
