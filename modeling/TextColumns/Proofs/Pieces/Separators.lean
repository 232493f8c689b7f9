import TextColumns.Proofs.Transform.Replace

/-!
Separators and the pieces between them.  As many separators are found from the right end of a text
as from its left end, where they may be others; the pieces with the separator put between them are
the text again, and a separator is left over only in the piece in which the counting stopped.
-/

namespace TextColumns

namespace Text

variable {hay needle : ByteArray}

theorem length_le_occurrencesFrom (hneedle : 0 < needle.size) {start : Nat} {places : List Nat}
    (hapart : places.Pairwise fun a b => a + needle.size ≤ b)
    (hplaces : ∀ place ∈ places, start ≤ place ∧ standsAt hay needle place = true) :
    places.length ≤ (occurrencesFrom (.ofBytes hay) (.ofBytes needle) start).length := by
  generalize hhaystack : Haystack.ofBytes hay = haystack
  generalize hprints : Needle.ofBytes needle = prints
  have hsize : prints.bytes.size = needle.size := hprints ▸ rfl
  have hoccurs (place : Nat) : occursAt haystack prints place = standsAt hay needle place := by
    rw [← hhaystack, ← hprints, occursAt_ofBytes]
  fun_induction occurrencesFrom haystack prints start generalizing places with
  | case1 start _ _ ih =>
      cases places with
      | nil => exact Nat.zero_le _
      | cons place rest =>
          obtain ⟨hbehind, hrest⟩ := List.pairwise_cons.mp hapart
          obtain ⟨⟨hstart, -⟩, hstands⟩ := List.forall_mem_cons.mp hplaces
          refine Nat.succ_le_succ (ih hrest fun other hother => ⟨?_, (hstands other hother).2⟩)
          have hle := hbehind other hother
          omega
  | case2 start _ hnot ih =>
      refine ih hapart fun place hplace => ?_
      obtain ⟨hle, hstands⟩ := hplaces place hplace
      refine ⟨Nat.lt_of_le_of_ne hle fun heq => hnot ?_, hstands⟩
      rw [heq, hoccurs, hstands]
  | case3 start hlong =>
      cases places with
      | nil => exact Nat.le_refl _
      | cons place rest =>
          obtain ⟨⟨hle, hstands⟩, -⟩ := List.forall_mem_cons.mp hplaces
          have hfits := le_size_of_standsAt hstands
          rw [hsize, ← hhaystack] at hlong
          exact absurd (Nat.le_trans (Nat.add_le_add_right hle _) hfits) hlong

theorem length_le_occurrencesBefore {stop : Nat} {places : List Nat} (hneedle : 0 < needle.size)
    (hapart : places.Pairwise fun a b => b + needle.size ≤ a)
    (hplaces : ∀ place ∈ places, place + needle.size ≤ stop ∧ standsAt hay needle place = true) :
    places.length ≤ (occurrencesBefore (.ofBytes hay) (.ofBytes needle) stop).length := by
  generalize hhaystack : Haystack.ofBytes hay = haystack
  generalize hprints : Needle.ofBytes needle = prints
  have hsize : prints.bytes.size = needle.size := hprints ▸ rfl
  have hoccurs (place : Nat) : occursAt haystack prints place = standsAt hay needle place := by
    rw [← hhaystack, ← hprints, occursAt_ofBytes]
  fun_induction occurrencesBefore haystack prints stop generalizing places with
  | case1 stop _ last _ =>
      rename_i ih
      cases places with
      | nil => exact Nat.zero_le _
      | cons place rest =>
          obtain ⟨hbehind, hrest⟩ := List.pairwise_cons.mp hapart
          obtain ⟨⟨hstop, -⟩, hstands⟩ := List.forall_mem_cons.mp hplaces
          refine Nat.succ_le_succ (ih hrest fun other hother => ⟨?_, (hstands other hother).2⟩)
          have hle := hbehind other hother
          omega
  | case2 stop _ last hnot =>
      rename_i ih
      refine ih hapart fun place hplace => ?_
      obtain ⟨hle, hstands⟩ := hplaces place hplace
      refine ⟨?_, hstands⟩
      have hne : place ≠ last := by
        rintro rfl
        exact hnot ((hoccurs _).trans hstands)
      omega
  | case3 stop hshort =>
      cases places with
      | nil => exact Nat.le_refl _
      | cons place rest =>
          obtain ⟨⟨hle, -⟩, -⟩ := List.forall_mem_cons.mp hplaces
          omega

theorem length_occurrencesFromRight (hneedle : 0 < needle.size) :
    (occurrencesFromRight hay (.ofBytes needle)).length =
      (occurrences hay (.ofBytes needle)).length := by
  have hsize : (Needle.ofBytes needle).bytes.size = needle.size := rfl
  obtain ⟨hapart, hstop⟩ := pairwise_occurrencesFromRight hay (.ofBytes needle)
  apply Nat.le_antisymm
  · rw [← List.length_reverse, occurrences_eq]
    refine length_le_occurrencesFrom hneedle (List.pairwise_reverse.mpr hapart)
      fun place hplace => ?_
    exact ⟨Nat.zero_le _, standsAt_of_mem_occurrencesFromRight (List.mem_reverse.mp hplace)⟩
  · rw [← List.length_reverse, occurrencesFromRight_eq]
    refine length_le_occurrencesBefore hneedle
      (List.pairwise_reverse.mpr (pairwise_occurrences hay (.ofBytes needle)))
      fun place hplace => ?_
    have hstands := standsAt_of_mem_occurrences (List.mem_reverse.mp hplace)
    exact ⟨le_size_of_standsAt hstands, hstands⟩

def Extent.Clear (hay needle : ByteArray) (extent : Extent) : Prop :=
  ∀ place, extent.start ≤ place → place + needle.size ≤ extent.stop →
    standsAt hay needle place = false

theorem clear_cons {extent : Extent} {found : List Extent} (hextent : extent.Clear hay needle)
    (hfound : ∀ piece ∈ found, piece.Clear hay needle) :
    ∀ piece ∈ extent :: found, piece.Clear hay needle :=
  List.forall_mem_cons.mpr ⟨hextent, hfound⟩

theorem upTo_cons_cases (limit : Option Nat) (first : α) (rest : List α) :
    (limit = some 0 ∧ upTo limit (first :: rest) = []) ∨
      ∃ less, upTo limit (first :: rest) = first :: upTo less rest ∧
        ((∀ n ∈ limit, (first :: rest).length ≤ n) → ∀ n ∈ less, rest.length ≤ n) := by
  cases limit with
  | none => exact .inr ⟨none, rfl, fun _ => nofun⟩
  | some n =>
      cases n with
      | zero => exact .inl ⟨rfl, rfl⟩
      | succ n =>
          refine .inr ⟨some n, rfl, fun hall m hm => ?_⟩
          obtain rfl := Option.some.inj hm
          exact Nat.le_of_succ_le_succ (hall _ rfl)

theorem piecesFrom_ne_nil (size stop start : Nat) (places : List Nat) :
    piecesFrom size stop start places ≠ [] := by
  cases places <;> exact List.cons_ne_nil _ _

/-- Of the pieces from the left none holds a separator but the last, and that one holds none if all
separators may be used. -/
theorem clear_piecesFrom (hneedle : 0 < needle.size) {place start : Nat} (limit : Option Nat)
    (hpassed : ∀ other, start ≤ other → other < place → standsAt hay needle other = false) :
    let places := occurrencesFrom (.ofBytes hay) (.ofBytes needle) place
    let pieces := piecesFrom needle.size hay.size start (upTo limit places)
    (∀ piece ∈ pieces.dropLast, piece.Clear hay needle) ∧
      ((∀ n ∈ limit, places.length ≤ n) → ∀ piece ∈ pieces, piece.Clear hay needle) := by
  generalize hhaystack : Haystack.ofBytes hay = haystack
  generalize hprints : Needle.ofBytes needle = prints
  have hsize : prints.bytes.size = needle.size := hprints ▸ rfl
  have hoccurs (place : Nat) : occursAt haystack prints place = standsAt hay needle place := by
    rw [← hhaystack, ← hprints, occursAt_ofBytes]
  fun_induction occurrencesFrom haystack prints place generalizing start limit with
  | case1 place _ hhere ih =>
      have hpiece : Extent.Clear hay needle ⟨start, place⟩ := fun other hstart hstop =>
        hpassed other hstart (Nat.lt_of_lt_of_le (Nat.lt_add_of_pos_right hneedle) hstop)
      rcases upTo_cons_cases limit place
        (occurrencesFrom haystack prints (place + max 1 prints.bytes.size)) with
        ⟨rfl, hnone⟩ | ⟨less, hsome, hall⟩
      · simp only [hnone]
        exact ⟨List.forall_mem_nil _, fun hused => absurd (hused 0 rfl) (Nat.not_succ_le_zero _)⟩
      · obtain ⟨hothers, hlast⟩ := @ih (place + needle.size) less (by omega)
        have hne := piecesFrom_ne_nil needle.size hay.size (place + needle.size)
          (upTo less (occurrencesFrom haystack prints (place + max 1 prints.bytes.size)))
        simp only [hsome, piecesFrom, List.dropLast_cons_of_ne_nil hne]
        exact ⟨clear_cons hpiece hothers, fun hused => clear_cons hpiece (hlast (hall hused))⟩
  | case2 place _ hnot ih =>
      refine ih limit fun other hstart hother => ?_
      rcases Nat.lt_or_eq_of_le (Nat.le_of_lt_succ hother) with hlt | rfl
      · exact hpassed other hstart hlt
      · rw [← hoccurs]
        exact Bool.eq_false_iff.mpr hnot
  | case3 place hlong =>
      have hnone : upTo limit ([] : List Nat) = [] := List.sublist_nil.mp (upTo_sublist _ _)
      simp only [hnone, piecesFrom]
      refine ⟨List.forall_mem_nil _, fun _ => List.forall_mem_singleton.mpr ?_⟩
      intro other hstart hstop
      refine hpassed other hstart (Nat.lt_of_not_le fun hle => hlong ?_)
      rw [hsize, ← hhaystack]
      exact Nat.le_trans (Nat.add_le_add_right hle _) hstop

/-- Of the pieces from the right none holds a separator but the first, and that one holds none if
all separators may be used. -/
theorem clear_piecesBefore (hneedle : 0 < needle.size) {last stop : Nat} {found : List Extent}
    (limit : Option Nat)
    (hpassed : ∀ other, last < other + needle.size → other + needle.size ≤ stop →
      standsAt hay needle other = false)
    (hfound : ∀ piece ∈ found, piece.Clear hay needle) :
    let places := occurrencesBefore (.ofBytes hay) (.ofBytes needle) last
    let pieces := piecesBefore needle.size stop found (upTo limit places)
    (∀ piece ∈ pieces.tail, piece.Clear hay needle) ∧
      ((∀ n ∈ limit, places.length ≤ n) → ∀ piece ∈ pieces, piece.Clear hay needle) := by
  generalize hhaystack : Haystack.ofBytes hay = haystack
  generalize hprints : Needle.ofBytes needle = prints
  have hsize : prints.bytes.size = needle.size := hprints ▸ rfl
  have hoccurs (place : Nat) : occursAt haystack prints place = standsAt hay needle place := by
    rw [← hhaystack, ← hprints, occursAt_ofBytes]
  fun_induction occurrencesBefore haystack prints last generalizing stop found limit with
  | case1 last hfits place _ =>
      rename_i ih
      rcases upTo_cons_cases limit place (occurrencesBefore haystack prints place) with
        ⟨rfl, hnone⟩ | ⟨less, hsome, hall⟩
      · simp only [hnone]
        exact ⟨hfound, fun hused => absurd (hused 0 rfl) (Nat.not_succ_le_zero _)⟩
      · have hpiece : Extent.Clear hay needle ⟨place + needle.size, stop⟩ :=
          fun other hstart hstop => by
            have hle : place + needle.size ≤ other := hstart
            exact hpassed other (by omega) hstop
        obtain ⟨hothers, hfirst⟩ :=
          @ih place (⟨place + needle.size, stop⟩ :: found) less (by omega)
            (clear_cons hpiece hfound)
        simp only [hsome]
        exact ⟨hothers, fun hused => hfirst (hall hused)⟩
  | case2 last hfits place hnot =>
      rename_i ih
      refine ih limit (fun other hlast hstop => ?_) hfound
      rcases Nat.lt_or_ge last (other + needle.size) with hlt | hge
      · exact hpassed other hlt hstop
      · obtain rfl : other = place := by omega
        rw [← hoccurs]
        exact Bool.eq_false_iff.mpr hnot
  | case3 last hshort =>
      have hnone : upTo limit ([] : List Nat) = [] := List.sublist_nil.mp (upTo_sublist _ _)
      simp only [hnone, piecesBefore]
      refine ⟨hfound, fun _ => clear_cons (fun other _ hstop => ?_) hfound⟩
      exact hpassed other (by omega) hstop

theorem clear_splitAt (hneedle : 0 < needle.size) (limit : Option Nat) (text : String) :
    let pieces := splitAt (.ofBytes needle) limit text
    (∀ piece ∈ pieces.dropLast, piece.Clear text.toByteArray needle) ∧
      ((∀ n ∈ limit, (occurrences text.toByteArray (.ofBytes needle)).length ≤ n) →
        ∀ piece ∈ pieces, piece.Clear text.toByteArray needle) := by
  rw [splitAt, occurrences_eq]
  exact clear_piecesFrom hneedle limit fun other _ hother => absurd hother (Nat.not_lt_zero other)

theorem clear_splitAtFromRight (hneedle : 0 < needle.size) (limit : Option Nat) (text : String) :
    let pieces := splitAtFromRight (.ofBytes needle) limit text
    (∀ piece ∈ pieces.tail, piece.Clear text.toByteArray needle) ∧
      ((∀ n ∈ limit, (occurrences text.toByteArray (.ofBytes needle)).length ≤ n) →
        ∀ piece ∈ pieces, piece.Clear text.toByteArray needle) := by
  rw [splitAtFromRight, ← length_occurrencesFromRight hneedle, occurrencesFromRight_eq]
  exact clear_piecesBefore hneedle limit
    (fun other hlast hstop => absurd hstop (Nat.not_le_of_lt hlast)) (List.forall_mem_nil _)

theorem piecesFrom_concat (size stop start place : Nat) (places : List Nat) :
    piecesFrom size stop start (places ++ [place]) =
      piecesFrom size place start places ++ [⟨place + size, stop⟩] := by
  induction places generalizing start with
  | nil => rfl
  | cons first rest ih => rw [List.cons_append, piecesFrom, ih, piecesFrom, List.cons_append]

/-- Pieces that are counted from the right are those between the same places from the left. -/
theorem piecesBefore_eq (size stop : Nat) (found : List Extent) (places : List Nat) :
    piecesBefore size stop found places = piecesFrom size stop 0 places.reverse ++ found := by
  induction places generalizing stop found with
  | nil => rfl
  | cons place rest ih =>
      rw [piecesBefore, ih, List.reverse_cons, piecesFrom_concat, List.append_assoc,
        List.singleton_append]

theorem between_occurrence {text separator : String} (hseparator : separator ≠ "") {place : Nat}
    (hstands : standsAt text.toByteArray separator.toByteArray place = true) :
    between text place (place + separator.utf8ByteSize) = separator := by
  obtain ⟨hstart, hstop⟩ := isBoundary_of_standsAt hseparator hstands
  rw [← String.toByteArray_inj, toByteArray_between hstart hstop, ← String.size_toByteArray]
  exact extract_of_standsAt hstands

theorem Extent.Clear.absent {text separator : String} (hseparator : separator ≠ "")
    {extent : Extent} (hclear : extent.Clear text.toByteArray separator.toByteArray)
    (hwithin : extent.Within text) (hle : extent.start ≤ extent.stop) :
    ¬ separator.toList <:+: (between text extent.start extent.stop).toList := by
  obtain ⟨front, middle, behind, htext, hstart, hstop⟩ := hwithin.exists_chars hle
  rw [hstart, hstop, between_eq_ofList htext, String.toList_ofList]
  rintro ⟨left, right, rfl⟩
  have hchars : text.toList = (front ++ left) ++ (separator.toList ++ (right ++ behind)) := by
    rw [htext]
    simp only [List.append_assoc]
  have hon : Cursor.On text ⟨sizeOf (front ++ left), (front ++ left).getLast?,
      separator.toList ++ (right ++ behind)⟩ := ⟨_, hchars, rfl, rfl⟩
  have hstands := (hon.standsAt_iff hseparator).mpr (List.prefix_append _ _)
  refine Bool.false_ne_true ((hclear _ ?_ ?_).symm.trans hstands)
  · rw [hstart, sizeOf_append]
    exact Nat.le_add_right _ _
  · rw [hstop, String.size_toByteArray, ← sizeOf_toList]
    simp only [sizeOf_append]
    omega

end Text

namespace Transform

open Regex (occurrence)
open Text (Extent)

variable {separator text : String}

theorem joinedFrom_eq_between {start : Nat} {found : List Extent}
    (hfound : Matching.OrderedIn text start found)
    (htexts : ∀ extent ∈ found, Text.between text extent.start extent.stop = separator) :
    Matching.joinedFrom separator text start found =
      Text.between text start text.utf8ByteSize := by
  induction hfound with
  | nil => exact Matching.joinedFrom_nil
  | @cons start extent rest hstart hextent hle hproper _ ih =>
      obtain ⟨htext, hrest⟩ := List.forall_mem_cons.mp htexts
      have hend := Text.isBoundary_utf8ByteSize text
      rw [Matching.joinedFrom_cons, ih hrest, ← htext, String.append_assoc,
        Text.between_append hextent.start hextent.stop hend hproper hextent.stop.le,
        Text.between_append hstart hextent.start hend hle hextent.start.le]

/-- Pieces of a text between some of its `count` separators, of which `closed` are all but the one
in which counting stopped. -/
structure SplitsInto (text separator : String) (limit : Option Nat) (count : Nat)
    (pieces closed : List String) : Prop where
  length_eq : pieces.length = limit.elim count (min · count) + 1
  joined : separator.intercalate pieces = text
  clear_closed : ∀ piece ∈ closed, ¬ separator.toList <:+: piece.toList
  clear : (∀ n ∈ limit, count ≤ n) → ∀ piece ∈ pieces, ¬ separator.toList <:+: piece.toList

theorem SplitsInto.length_le {limit : Option Nat} {count : Nat} {pieces closed : List String}
    (hpieces : SplitsInto text separator limit count pieces closed) :
    pieces.length ≤ count + 1 := by
  rw [hpieces.length_eq]
  cases limit with
  | none => exact Nat.le_refl _
  | some n => exact Nat.succ_le_succ (Nat.min_le_right n count)

def pieceTexts (text : String) (pieces : List Extent) : List String :=
  pieces.map fun piece => Text.between text piece.start piece.stop

section Pieces

variable (hseparator : separator ≠ "") {places : List Nat}
  (hapart : places.Pairwise fun a b => a + separator.utf8ByteSize ≤ b)
  (hstands : ∀ place ∈ places, Text.standsAt text.toByteArray separator.toByteArray place = true)
include hseparator hapart hstands

theorem absent_of_clear {pieces : List Extent}
    (hpieces : pieces.Sublist
      (Text.piecesFrom separator.utf8ByteSize text.utf8ByteSize 0 places))
    (hclear : ∀ piece ∈ pieces, piece.Clear text.toByteArray separator.toByteArray) :
    ∀ piece ∈ pieceTexts text pieces, ¬ separator.toList <:+: piece.toList := by
  have hdefined := (orderedIn_occurrences hseparator hapart hstands).defined_between
  rw [← Matching.piecesFrom_eq] at hdefined
  refine List.forall_mem_map.mpr fun piece hpiece => ?_
  obtain ⟨hwithin, hle⟩ := hdefined piece (hpieces.mem hpiece)
  exact (hclear piece hpiece).absent hseparator hwithin hle

/-- Separators that stand apart cut a text into one piece more than they are, with the text between
them again. -/
theorem splitsInto_piecesFrom {limit : Option Nat} {count : Nat} {closed : List Extent}
    (hlength : places.length = limit.elim count (min · count))
    (hclosed : closed.Sublist
      (Text.piecesFrom separator.utf8ByteSize text.utf8ByteSize 0 places))
    (hclear : (∀ piece ∈ closed, piece.Clear text.toByteArray separator.toByteArray) ∧
      ((∀ n ∈ limit, count ≤ n) →
        ∀ piece ∈ Text.piecesFrom separator.utf8ByteSize text.utf8ByteSize 0 places,
          piece.Clear text.toByteArray separator.toByteArray)) :
    SplitsInto text separator limit count
      (pieceTexts text (Text.piecesFrom separator.utf8ByteSize text.utf8ByteSize 0 places))
      (pieceTexts text closed) where
  length_eq := by
    rw [pieceTexts, List.length_map, Matching.piecesFrom_eq, Matching.length_between,
      List.length_map, hlength]
  joined := by
    have hjoined := joinedFrom_eq_between (orderedIn_occurrences hseparator hapart hstands) <|
      List.forall_mem_map.mpr fun place hplace =>
        Text.between_occurrence hseparator (hstands place hplace)
    rwa [Text.between_all, Matching.joinedFrom, ← Matching.piecesFrom_eq] at hjoined
  clear_closed := absent_of_clear hseparator hapart hstands hclosed hclear.1
  clear hused := absent_of_clear hseparator hapart hstands (.refl _) (hclear.2 hused)

end Pieces

theorem pos_size_of_ne (hseparator : separator ≠ "") : 0 < separator.toByteArray.size :=
  Nat.pos_of_ne_zero fun hzero => hseparator (String.utf8ByteSize_eq_zero_iff.mp hzero)

theorem count_eq_length (hseparator : separator ≠ "") (text : String) :
    Text.count text (.ofText separator) =
      (Text.occurrences text.toByteArray (.ofText separator)).length := by
  have hsize := Nat.ne_of_gt (pos_size_of_ne hseparator)
  exact if_neg (by simpa [Text.Needle.ofText, Text.Needle.ofBytes, ByteArray.isEmpty] using hsize)

theorem count_le_size (hseparator : separator ≠ "") (text : String) :
    Text.count text (.ofText separator) ≤ text.utf8ByteSize := by
  have hordered := orderedIn_occurrences hseparator
    (Text.pairwise_occurrences text.toByteArray (.ofText separator))
    fun _ => Text.standsAt_of_mem_occurrences
  have htotal := (hordered.size_joinedFrom separator).1
  rw [Matching.total_sizes, Nat.zero_add] at htotal
  rw [count_eq_length hseparator]
  exact Nat.le_trans (Nat.le_mul_of_pos_right _ (pos_size_of_ne hseparator)) htotal

theorem splitsInto_splitAt (hseparator : separator ≠ "") (limit : Option Nat) (text : String) :
    let pieces := pieceTexts text (Text.splitAt (.ofText separator) limit text)
    SplitsInto text separator limit (Text.count text (.ofText separator)) pieces
      pieces.dropLast := by
  have hapart := (Text.pairwise_occurrences text.toByteArray (.ofText separator)).sublist
    (Text.upTo_sublist limit _)
  dsimp only
  rw [count_eq_length hseparator, pieceTexts, ← List.map_dropLast]
  exact splitsInto_piecesFrom hseparator hapart
    (fun _ hplace => Text.standsAt_of_mem_occurrences (Text.mem_of_mem_upTo hplace))
    (Matching.length_upTo _ _) (List.dropLast_sublist _)
    (Text.clear_splitAt (pos_size_of_ne hseparator) limit text)

theorem splitsInto_splitAtFromRight (hseparator : separator ≠ "") (limit : Option Nat)
    (text : String) :
    let pieces := pieceTexts text (Text.splitAtFromRight (.ofText separator) limit text)
    SplitsInto text separator limit (Text.count text (.ofText separator)) pieces pieces.tail := by
  have hapart := (Text.pairwise_occurrencesFromRight text.toByteArray (.ofText separator)).1.sublist
    (Text.upTo_sublist limit _)
  have hlength : (Text.occurrencesFromRight text.toByteArray (.ofText separator)).length =
      (Text.occurrences text.toByteArray (.ofText separator)).length :=
    Text.length_occurrencesFromRight (pos_size_of_ne hseparator)
  have hclear := Text.clear_splitAtFromRight (pos_size_of_ne hseparator) limit text
  dsimp only at hclear ⊢
  rw [Text.splitAtFromRight, Text.piecesBefore_eq, List.append_nil] at hclear ⊢
  rw [count_eq_length hseparator, pieceTexts, ← List.map_tail]
  refine splitsInto_piecesFrom hseparator (List.pairwise_reverse.mpr hapart) ?_
    (List.length_reverse.trans ?_) (List.tail_sublist _) hclear
  · exact fun place hplace => Text.standsAt_of_mem_occurrencesFromRight
      (Text.mem_of_mem_upTo (List.mem_reverse.mp hplace))
  · rw [← hlength]
    exact Matching.length_upTo _ _

end Transform

namespace ListColumn

open Text (Extent)
open Transform (SplitsInto pieceTexts)

variable {store : Store} {separator : String}

theorem split_eq_ofExtents (hseparator : separator ≠ "") (store : Store) (limit : Option Nat) :
    split store (some separator) limit =
      ofExtents store (store.texts.toList.map (·.map (Text.splitAt (.ofText separator) limit))) := by
  have hchecked : (some separator == some "") = false := by simpa using hseparator
  rw [split, checkSeparator, hchecked]
  rfl

theorem splitFromRight_eq_ofExtents (hseparator : separator ≠ "") (store : Store)
    (limit : Option Nat) :
    splitFromRight store (some separator) limit =
      ofExtents store
        (store.texts.toList.map (·.map (Text.splitAtFromRight (.ofText separator) limit))) := by
  have hchecked : (some separator == some "") = false := by simpa using hseparator
  rw [splitFromRight, checkSeparator, hchecked]
  rfl

section Rows

variable {pieces : String → List Extent} (hvalid : store.Valid)
include hvalid

theorem row?_eq_map (hwithin : ∀ text, ∀ extent ∈ pieces text, extent.Within text)
    {column : ListColumn}
    (hcolumn : ofExtents store (store.texts.toList.map (·.map pieces)) = .ok column) {row : Nat}
    (hrow : row < store.size) :
    column.row? row = (store.text? row).map fun text => pieceTexts text (pieces text) := by
  have hpieces : (store.texts.toList.map (·.map pieces))[row]? =
      some ((store.text? row).map pieces) := by
    rw [List.getElem?_map, store.getElem?_toList_texts hrow]
    rfl
  rw [row?_of_ofExtents hvalid (rowsWithin_map hwithin) hcolumn hpieces]
  cases store.text? row <;> rfl

theorem row?_of_text? (hwithin : ∀ text, ∀ extent ∈ pieces text, extent.Within text)
    {column : ListColumn}
    (hcolumn : ofExtents store (store.texts.toList.map (·.map pieces)) = .ok column) {row : Nat}
    {text : String} (htext : store.text? row = some text) :
    column.row? row = some (pieceTexts text (pieces text)) := by
  rw [row?_eq_map hvalid hwithin hcolumn (Store.lt_size_of_text? htext), htext]
  rfl

theorem exists_pieces (hsize : store.size ≤ Matching.maxRows)
    (hpieces : ∀ text, (pieceTexts text (pieces text)).length ≤ text.utf8ByteSize + 1) :
    ∃ column, ofExtents store (store.texts.toList.map (·.map pieces)) = .ok column := by
  refine @exists_ofExtents store _ (maxInt32 + 1) (fun extents hextents => ?_) ?_
  · obtain ⟨text?, htext?, hmap⟩ := List.mem_map.mp hextents
    obtain ⟨text, rfl, rfl⟩ := Option.map_eq_some_iff.mp hmap
    have hlength := hpieces text
    rw [pieceTexts, List.length_map] at hlength
    exact Nat.le_trans hlength
      (Nat.succ_le_succ (hvalid.size_le_of_text (Array.mem_toList_iff.mp htext?)))
  · rw [List.length_map, Array.length_toList, Store.size_texts]
    exact Nat.le_trans (Nat.mul_le_mul_right _ hsize) (by decide)

end Rows

theorem count_get? (hvalid : store.Valid) (hseparator : separator ≠ "") {row : Nat} {text : String}
    (htext : store.text? row = some text) :
    (Measure.count store separator).get? row = some (Text.count text (.ofText separator) : Int) := by
  have hle : Text.count text (.ofText separator) ≤ maxInt32 :=
    Nat.le_trans (Transform.count_le_size hseparator text) (hvalid.size_le_of_text? htext)
  rw [Measure.count, Measure.counts, Matching.numbers_eq hvalid,
    hvalid.get?_answers (Array.toList_map ..), htext, Option.map_some, Matching.toInt32_of_le hle]

theorem exists_split (hvalid : store.Valid) (hseparator : separator ≠ "") (limit : Option Nat)
    (hsize : store.size ≤ Matching.maxRows) :
    ∃ column, split store (some separator) limit = .ok column := by
  rw [split_eq_ofExtents hseparator]
  exact exists_pieces hvalid hsize fun text =>
    Nat.le_trans (Transform.splitsInto_splitAt hseparator limit text).length_le
      (Nat.succ_le_succ (Transform.count_le_size hseparator text))

/-- From both ends a text is cut at as many separators as the limit admits and the text has, counted
from the left; the pieces give the text back, and a separator is left only where the limit stopped
the cutting. -/
theorem splits_at_separator (hseparator : separator ≠ "") (limit : Option Nat) :
    (∀ text,
      let count := Text.count text (.ofText separator)
      let pieces := pieceTexts text (Text.splitAt (.ofText separator) limit text)
      let others := pieceTexts text (Text.splitAtFromRight (.ofText separator) limit text)
      SplitsInto text separator limit count pieces pieces.dropLast ∧
        SplitsInto text separator limit count others others.tail) ∧
    ∀ store : Store, store.Valid →
      (store.size ≤ Matching.maxRows →
        (∃ left, split store (some separator) limit = .ok left) ∧
          ∃ right, splitFromRight store (some separator) limit = .ok right) ∧
      ∀ left right, split store (some separator) limit = .ok left →
        splitFromRight store (some separator) limit = .ok right →
          ∀ row text, store.text? row = some text → ∃ (count : Nat) (pieces others : List String),
            (Measure.count store separator).get? row = some (count : Int) ∧
              left.row? row = some pieces ∧ right.row? row = some others ∧
              SplitsInto text separator limit count pieces pieces.dropLast ∧
              SplitsInto text separator limit count others others.tail := by
  have hpieces := Transform.splitsInto_splitAt hseparator limit
  have hothers := Transform.splitsInto_splitAtFromRight hseparator limit
  refine ⟨fun text => ⟨hpieces text, hothers text⟩, fun store hvalid => ⟨fun hsize => ?_, ?_⟩⟩
  · refine ⟨exists_split hvalid hseparator limit hsize, ?_⟩
    rw [splitFromRight_eq_ofExtents hseparator]
    exact exists_pieces hvalid hsize fun text => Nat.le_trans (hothers text).length_le
      (Nat.succ_le_succ (Transform.count_le_size hseparator text))
  · intro left right hleft hright row text htext
    rw [split_eq_ofExtents hseparator] at hleft
    rw [splitFromRight_eq_ofExtents hseparator] at hright
    exact ⟨_, _, _, count_get? hvalid hseparator htext,
      row?_of_text? hvalid (fun _ _ => Text.within_of_mem_splitAt hseparator) hleft htext,
      row?_of_text? hvalid (fun _ _ => Text.within_of_mem_splitAtFromRight hseparator) hright htext,
      hpieces text, hothers text⟩

theorem splits_at_separator_overlapping :
    let store := Store.ofCells ⟨⟨#[97, 97, 97, 97, 97]⟩, none⟩ #[⟨0, some 5⟩, ⟨5, none⟩]
    let left : ListColumn := ⟨Store.ofCells ⟨⟨#[97, 97, 97, 97, 97]⟩, none⟩
      #[⟨0, some 0⟩, ⟨2, some 3⟩], #[0, 2, 2], some #[true, false]⟩
    let right : ListColumn := ⟨Store.ofCells ⟨⟨#[97, 97, 97, 97, 97]⟩, none⟩
      #[⟨0, some 3⟩, ⟨5, some 0⟩], #[0, 2, 2], some #[true, false]⟩
    "aa" ≠ "" ∧ Store.ofTexts [some "aaaaa", none] = .ok store ∧ store.Valid ∧
      store.size ≤ Matching.maxRows ∧ split store (some "aa") (some 1) = .ok left ∧
      splitFromRight store (some "aa") (some 1) = .ok right ∧ store.text? 0 = some "aaaaa" ∧
      (Measure.count store "aa").get? 0 = some 2 ∧ left.row? 0 = some ["", "aaa"] ∧
      right.row? 0 = some ["aaa", ""] ∧
      SplitsInto "aaaaa" "aa" (some 1) 2 ["", "aaa"] [""] ∧
      SplitsInto "aaaaa" "aa" (some 1) 2 ["aaa", ""] [""] := by
  intro store left right
  have hseparator : "aa" ≠ "" := by decide
  have hbuild : Store.ofTexts [some "aaaaa", none] = .ok store := by with_unfolding_all rfl
  have hvalid : store.Valid := Store.valid_of_build hbuild
  have hsplit : Text.splitAt (.ofText "aa") (some 1) "aaaaa" = [⟨0, 0⟩, ⟨2, 5⟩] := by
    decide +kernel
  have hsplit' : Text.splitAtFromRight (.ofText "aa") (some 1) "aaaaa" = [⟨0, 3⟩, ⟨5, 5⟩] := by
    decide +kernel
  have hleft : split store (some "aa") (some 1) = .ok left := by
    rw [split_eq_ofExtents hseparator, Store.texts_ofTexts hbuild]
    simp only [List.map_cons, List.map_nil, Option.map_some, Option.map_none, hsplit]
    with_unfolding_all rfl
  have hright : splitFromRight store (some "aa") (some 1) = .ok right := by
    rw [splitFromRight_eq_ofExtents hseparator, Store.texts_ofTexts hbuild]
    simp only [List.map_cons, List.map_nil, Option.map_some, Option.map_none, hsplit']
    with_unfolding_all rfl
  have htext : store.text? 0 = some "aaaaa" := by decide +kernel
  have hcount : (Measure.count store "aa").get? 0 = some 2 := by decide +kernel
  have hpieces : left.row? 0 = some ["", "aaa"] := by decide +kernel
  have hothers : right.row? 0 = some ["aaa", ""] := by decide +kernel
  obtain ⟨count, pieces, others, hcount', hpieces', hothers', hsplits⟩ :=
    ((splits_at_separator hseparator (some 1)).2 store hvalid).2 left right hleft hright 0 _ htext
  obtain rfl := Option.some.inj (hpieces.symm.trans hpieces')
  obtain rfl := Option.some.inj (hothers.symm.trans hothers')
  obtain rfl : count = 2 := Int.ofNat.inj (Option.some.inj (hcount'.symm.trans hcount))
  exact ⟨hseparator, hbuild, hvalid, by decide, hleft, hright, htext, hcount, hpieces, hothers,
    hsplits⟩

end ListColumn

end TextColumns
