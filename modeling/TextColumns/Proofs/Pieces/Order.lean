import TextColumns.Proofs.Pieces.ListColumn
import TextColumns.Proofs.Store.Layout

/-!
The pieces of a text come in their order and do not overlap, whichever end they are counted from;
so the values of a column of pieces lie one behind the other, and so do the places of its rows.
-/

namespace TextColumns

namespace Text

def Extent.Before (a b : Extent) : Prop :=
  a.start ≤ b.start ∧ a.stop ≤ b.start

def Ascending (extents : List Extent) : Prop :=
  extents.Pairwise Extent.Before

theorem ascending_cons_of_le {start stop : Nat} {extents : List Extent} (hle : start ≤ stop)
    (hascending : Ascending extents) (hbehind : ∀ extent ∈ extents, stop ≤ extent.start) :
    Ascending (⟨start, stop⟩ :: extents) ∧ ∀ extent ∈ (⟨start, stop⟩ :: extents : List Extent),
      start ≤ extent.start := by
  have hall : ∀ extent ∈ extents, start ≤ extent.start :=
    fun extent hextent => Nat.le_trans hle (hbehind extent hextent)
  exact ⟨List.pairwise_cons.mpr
    ⟨fun extent hextent => ⟨hall extent hextent, hbehind extent hextent⟩, hascending⟩,
    List.forall_mem_cons.mpr ⟨Nat.le_refl _, hall⟩⟩

theorem pairwise_occurrencesFrom (hay : Haystack) (needle : Needle) (start : Nat) :
    ((occurrencesFrom hay needle start).Pairwise fun a b => a + needle.bytes.size ≤ b) ∧
      ∀ place ∈ occurrencesFrom hay needle start, start ≤ place := by
  fun_induction occurrencesFrom hay needle start with
  | case1 start _ _ ih =>
      obtain ⟨hpairwise, hbehind⟩ := ih
      refine ⟨List.pairwise_cons.mpr ⟨fun place hplace => ?_, hpairwise⟩,
        List.forall_mem_cons.mpr ⟨Nat.le_refl _, fun place hplace => ?_⟩⟩
      · have hle := hbehind place hplace
        omega
      · exact Nat.le_trans (Nat.le_add_right _ _) (hbehind place hplace)
  | case2 start _ _ ih =>
      exact ⟨ih.1, fun place hplace => Nat.le_of_succ_le (ih.2 place hplace)⟩
  | case3 start => exact ⟨.nil, List.forall_mem_nil _⟩

theorem pairwise_occurrencesBefore (hay : Haystack) (needle : Needle) (stop : Nat) :
    ((occurrencesBefore hay needle stop).Pairwise fun a b => b + needle.bytes.size ≤ a) ∧
      ∀ place ∈ occurrencesBefore hay needle stop, place + needle.bytes.size ≤ stop := by
  fun_induction occurrencesBefore hay needle stop with
  | case1 stop hfits last _ ih =>
      have hlast : last + needle.bytes.size ≤ stop := Nat.le_of_eq (Nat.sub_add_cancel hfits.2)
      refine ⟨List.pairwise_cons.mpr ⟨ih.2, ih.1⟩,
        List.forall_mem_cons.mpr ⟨hlast, fun place hplace => ?_⟩⟩
      exact Nat.le_trans (ih.2 place hplace) (Nat.le_trans (Nat.le_add_right _ _) hlast)
  | case2 stop _ last _ ih =>
      exact ⟨ih.1, fun place hplace => Nat.le_trans (ih.2 place hplace) (Nat.sub_le _ _)⟩
  | case3 stop => exact ⟨.nil, List.forall_mem_nil _⟩

theorem pairwise_occurrences (hay : ByteArray) (needle : Needle) :
    (occurrences hay needle).Pairwise fun a b => a + needle.bytes.size ≤ b := by
  rw [occurrences]
  split
  · exact (pairwise_occurrencesFrom _ _ _).1
  · exact .nil

theorem pairwise_occurrencesFromRight (hay : ByteArray) (needle : Needle) :
    ((occurrencesFromRight hay needle).Pairwise fun a b => b + needle.bytes.size ≤ a) ∧
      ∀ place ∈ occurrencesFromRight hay needle, place + needle.bytes.size ≤ hay.size := by
  rw [occurrencesFromRight]
  split
  · exact pairwise_occurrencesBefore _ _ _
  · exact ⟨.nil, List.forall_mem_nil _⟩

theorem upTo_sublist (limit : Option Nat) (found : List α) : (upTo limit found).Sublist found :=
  (prefix_upTo limit found).sublist

theorem ascending_piecesFrom {size stop start : Nat} {places : List Nat}
    (hplaces : places.Pairwise fun a b => a + size ≤ b) (hstart : ∀ place ∈ places, start ≤ place) :
    Ascending (piecesFrom size stop start places) ∧
      ∀ extent ∈ piecesFrom size stop start places, start ≤ extent.start := by
  induction places generalizing start with
  | nil => exact ⟨List.pairwise_singleton _ _, by simp [piecesFrom]⟩
  | cons place rest ih =>
      obtain ⟨hplace, hrest⟩ := List.pairwise_cons.mp hplaces
      obtain ⟨hascending, hbehind⟩ := ih hrest hplace
      exact ascending_cons_of_le (hstart place (.head _)) hascending fun extent hextent =>
        Nat.le_trans (Nat.le_add_right _ _) (hbehind extent hextent)

theorem ascending_piecesBefore {size stop : Nat} {found : List Extent} {places : List Nat}
    (hplaces : places.Pairwise fun a b => b + size ≤ a)
    (hstop : ∀ place ∈ places, place + size ≤ stop) (hfound : Ascending found)
    (hbehind : ∀ extent ∈ found, stop ≤ extent.start) :
    Ascending (piecesBefore size stop found places) := by
  induction places generalizing stop found with
  | nil => exact (ascending_cons_of_le (Nat.zero_le stop) hfound hbehind).1
  | cons place rest ih =>
      obtain ⟨hplace, hrest⟩ := List.pairwise_cons.mp hplaces
      obtain ⟨hascending, hstarts⟩ :=
        ascending_cons_of_le (hstop place (.head _)) hfound hbehind
      exact ih hrest hplace hascending fun extent hextent =>
        Nat.le_trans (Nat.le_add_right _ _) (hstarts extent hextent)

theorem ascending_splitAt (separator : Needle) (limit : Option Nat) (text : String) :
    Ascending (splitAt separator limit text) :=
  (ascending_piecesFrom ((pairwise_occurrences _ separator).sublist (upTo_sublist _ _))
    fun _ _ => Nat.zero_le _).1

theorem ascending_splitAtFromRight (separator : Needle) (limit : Option Nat) (text : String) :
    Ascending (splitAtFromRight separator limit text) := by
  obtain ⟨hpairwise, hstop⟩ := pairwise_occurrencesFromRight text.toByteArray separator
  rw [String.size_toByteArray] at hstop
  have hsublist := upTo_sublist limit (occurrencesFromRight text.toByteArray separator)
  exact ascending_piecesBefore (hpairwise.sublist hsublist)
    (fun place hplace => hstop place (hsublist.mem hplace)) .nil (List.forall_mem_nil _)

theorem ascending_wordsFrom (limit : Option Nat) (stop offset : Nat) (chars : List Char) :
    Ascending (wordsFrom limit stop offset chars) ∧
      ∀ extent ∈ wordsFrom limit stop offset chars, offset ≤ extent.start := by
  fun_induction wordsFrom limit stop offset chars with
  | case1 => exact ⟨.nil, List.forall_mem_nil _⟩
  | case2 limit offset chars start =>
      exact ⟨List.pairwise_singleton _ _, by simp [start]⟩
  | case3 limit offset chars start c rest _ _ word wordStop _ ih =>
      obtain ⟨hascending, hstarts⟩ :=
        ascending_cons_of_le (Nat.le_add_right start _ : start ≤ wordStop) ih.1 ih.2
      exact ⟨hascending, fun extent hextent =>
        Nat.le_trans (Nat.le_add_right _ _) (hstarts extent hextent)⟩

theorem ascending_wordsBefore {limit : Option Nat} {stop : Nat} {found : List Extent}
    {chars : List Char} (hfound : Ascending found)
    (hbehind : ∀ extent ∈ found, stop ≤ extent.start) :
    Ascending (wordsBefore limit stop found chars) := by
  fun_induction wordsBefore limit stop found chars with
  | case1 => exact hfound
  | case2 limit stop found chars wordStop =>
      exact (ascending_cons_of_le (Nat.zero_le _) hfound fun extent hextent =>
        Nat.le_trans (Nat.sub_le _ _) (hbehind extent hextent)).1
  | case3 limit stop found chars wordStop c rest _ _ word start _ ih =>
      obtain ⟨hascending, hstarts⟩ := ascending_cons_of_le (Nat.sub_le _ _ : start ≤ wordStop)
        hfound fun extent hextent => Nat.le_trans (Nat.sub_le _ _) (hbehind extent hextent)
      exact ih hascending hstarts

theorem Cut.ascending_pieces (cut : Cut) (limit : Option Nat) (text : String) :
    Ascending (cut.pieces limit text) := by
  cases cut with
  | separator needle => exact ascending_splitAt needle limit text
  | blanks => exact (ascending_wordsFrom limit _ _ _).1

theorem Cut.ascending_piecesFromRight (cut : Cut) (limit : Option Nat) (text : String) :
    Ascending (cut.piecesFromRight limit text) := by
  cases cut with
  | separator needle => exact ascending_splitAtFromRight needle limit text
  | blanks => exact ascending_wordsBefore .nil (List.forall_mem_nil _)

end Text

namespace ListColumn

open Text (Ascending Extent)

/-- A column whose values lie one behind the other, and whose rows do so too. -/
structure LaidOut (column : ListColumn) : Prop where
  values : column.values.LaidOut
  ordered : column.values.Ordered
  offsets : column.offsets.toList.Pairwise (· ≤ ·)

variable {store : Store} {column : ListColumn} {rows : List (Option (List Extent))}

theorem pairwise_spansFrom (row : Nat)
    (hrows : ∀ extents, some extents ∈ rows → Ascending extents) :
    ((spansFrom row rows).filterMap id).Pairwise Span.Before ∧
      ∀ span ∈ (spansFrom row rows).filterMap id, row ≤ span.row := by
  induction rows generalizing row with
  | nil => exact ⟨.nil, List.forall_mem_nil _⟩
  | cons first rest ih =>
      obtain ⟨hbefore, hrow⟩ :=
        ih (row + 1) fun extents hextents => hrows extents (.tail _ hextents)
      cases first with
      | none => exact ⟨hbefore, fun span hspan => Nat.le_of_succ_le (hrow span hspan)⟩
      | some extents =>
          have hhere : (extents.map fun extent =>
              some (⟨row, extent.start, extent.stop⟩ : Span)).filterMap id =
              extents.map fun extent => ⟨row, extent.start, extent.stop⟩ := by
            rw [List.filterMap_map]
            exact congrFun List.filterMap_eq_map' extents
          rw [spansFrom, List.filterMap_append, hhere]
          refine ⟨List.pairwise_append.mpr ⟨?_, hbefore, ?_⟩, fun span hspan => ?_⟩
          · exact List.pairwise_map.mpr ((hrows extents (.head _)).imp fun hle => .inr ⟨rfl, hle⟩)
          · intro a ha b hb
            obtain ⟨extent, -, rfl⟩ := List.mem_map.mp ha
            exact .inl (hrow b hb)
          · rcases List.mem_append.mp hspan with hspan | hspan
            · obtain ⟨extent, -, rfl⟩ := List.mem_map.mp hspan
              exact Nat.le_refl row
            · exact Nat.le_of_succ_le (hrow span hspan)

theorem laidOut_of_ofExtents (hlaidOut : store.LaidOut) (hvalid : store.Valid)
    (hwithin : RowsWithin store rows)
    (hascending : ∀ extents, some extents ∈ rows → Ascending extents)
    (hcolumn : ofExtents store rows = .ok column) : column.LaidOut := by
  obtain rfl := eq_of_ofExtents hcolumn
  obtain ⟨hvalues, hordered⟩ :=
    hlaidOut.share hvalid (fun _ => hwithin.span) (pairwise_spansFrom 0 hascending).1
  refine ⟨hvalues, hordered, ?_⟩
  have hstarts := PrefixSum.pairwise_startsFrom 0 (counts rows)
  rw [Nat.zero_add] at hstarts
  rwa [Array.toList_push]

theorem ascending_of_mem_map {pieces : String → List Extent}
    (hpieces : ∀ text, Ascending (pieces text)) {texts : List (Option String)}
    {extents : List Extent} (hextents : some extents ∈ texts.map (·.map pieces)) :
    Ascending extents := by
  obtain ⟨text?, -, hmap⟩ := List.mem_map.mp hextents
  obtain ⟨text, rfl, rfl⟩ := Option.map_eq_some_iff.mp hmap
  exact hpieces text

theorem laidOut_of_split (hlaidOut : store.LaidOut) (hvalid : store.Valid)
    {separator : Option String} {limit : Option Nat}
    (hsplit : split store separator limit = .ok column) : column.LaidOut := by
  cases hchecked : checkSeparator .split separator with
  | error failure =>
      rw [split, hchecked] at hsplit
      cases hsplit
  | ok =>
      rw [split, hchecked] at hsplit
      refine laidOut_of_ofExtents hlaidOut hvalid (rowsWithin_map ?_) ?_ hsplit
      · intro text extent
        exact Text.Cut.within_of_mem_pieces (ne_of_checkSeparator hchecked)
      · exact fun _ => ascending_of_mem_map (Text.Cut.ascending_pieces _ limit)

theorem laidOut_of_splitFromRight (hlaidOut : store.LaidOut) (hvalid : store.Valid)
    {separator : Option String} {limit : Option Nat}
    (hsplit : splitFromRight store separator limit = .ok column) : column.LaidOut := by
  cases hchecked : checkSeparator .splitFromRight separator with
  | error failure =>
      rw [splitFromRight, hchecked] at hsplit
      cases hsplit
  | ok =>
      rw [splitFromRight, hchecked] at hsplit
      refine laidOut_of_ofExtents hlaidOut hvalid (rowsWithin_map ?_) ?_ hsplit
      · intro text extent
        exact Text.Cut.within_of_mem_piecesFromRight (ne_of_checkSeparator hchecked)
      · exact fun _ => ascending_of_mem_map (Text.Cut.ascending_piecesFromRight _ limit)

theorem LaidOut.rowStart_le (hlaidOut : column.LaidOut) {i j : Nat} (hij : i ≤ j)
    (hj : j < column.offsets.size) : column.rowStart i ≤ column.rowStart j := by
  rcases Nat.lt_or_eq_of_le hij with hlt | rfl
  · have hpair := List.pairwise_iff_getElem.mp hlaidOut.offsets i j
      (by rw [Array.length_toList]; omega) (by rwa [Array.length_toList]) hlt
    rw [rowStart, rowStart, Array.getElem?_eq_getElem hj,
      Array.getElem?_eq_getElem (Nat.lt_trans hlt hj)]
    exact hpair
  · exact Nat.le_refl _

theorem LaidOut.nth (hlaidOut : column.LaidOut) (hvalid : column.Valid) (k : Nat) :
    (column.nth k).LaidOut ∧ (column.nth k).Ordered := by
  refine hlaidOut.values.share hvalid.values (fun _ => hvalid.within_nth k) ?_
  rw [List.pairwise_filterMap, List.pairwise_map]
  refine List.pairwise_lt_range.imp_of_mem fun {i j} _ hj hij => ?_
  intro a ha b hb
  have hsize := List.mem_range.mp hj
  rw [size] at hsize
  have hle : column.rowStart (i + 1) ≤ column.rowStart j :=
    hlaidOut.rowStart_le hij (by omega)
  dsimp only [id] at ha hb
  by_cases hk : k < column.rowLength i
  · rw [if_pos hk] at ha
    split at hb
    · rw [rowLength] at hk
      cases ha
      cases hb
      refine .inl ?_
      dsimp only
      omega
    · cases hb
  · rw [if_neg hk] at ha
    cases ha

end ListColumn

end TextColumns
