import TextColumns.Pieces.Split
import TextColumns.Proofs.Text.Boundary

/-!
Texts are cut between characters.  Where a separator stands in a text, its bytes begin and end
with characters of the text, since no character begins within another one.
-/

namespace TextColumns.Text

variable {text : String}

theorem le_size_of_standsAt {hay needle : ByteArray} {place : Nat}
    (hstands : standsAt hay needle place = true) : place + needle.size ≤ hay.size :=
  of_decide_eq_true (Bool.and_eq_true_iff.mp hstands).1

theorem extract_of_standsAt {hay needle : ByteArray} {place : Nat}
    (hstands : standsAt hay needle place = true) :
    hay.extract place (place + needle.size) = needle := by
  have hsize := le_size_of_standsAt hstands
  have hlength : (hay.data.toList.take place).length = place := by
    rw [List.length_take, Array.length_toList]
    exact Nat.min_eq_left (Nat.le_trans (Nat.le_add_right _ _) hsize)
  have htake := take_of_standsAt hstands
  apply ByteArray.ext
  apply Array.toList_inj.mp
  calc
    (hay.extract place (place + needle.size)).data.toList
    _ = (hay.data.toList.take (place + needle.size)).drop place := by
        rw [ByteArray.data_extract, Array.toList_extract, List.extract_eq_drop_take', List.drop_take]
    _ = needle.data.toList := by rw [htake, List.drop_left' hlength]

theorem isBoundary_of_standsAt {needle : String} (hneedle : needle ≠ "") {place : Nat}
    (hstands : standsAt text.toByteArray needle.toByteArray place = true) :
    IsBoundary text place ∧ IsBoundary text (place + needle.utf8ByteSize) := by
  have hsize : place + needle.utf8ByteSize ≤ text.utf8ByteSize := le_size_of_standsAt hstands
  have hvalid : (text.toByteArray.extract place (place + needle.utf8ByteSize)).IsValidUTF8 := by
    have hextract := extract_of_standsAt hstands
    rw [String.size_toByteArray] at hextract
    rw [hextract]
    exact needle.isValidUTF8
  -- Bytes of a text that are a text themselves begin and end between its characters.
  have hle : (⟨place⟩ : String.Pos.Raw) ≤ ⟨place + needle.utf8ByteSize⟩ := Nat.le_add_right _ _
  rcases (String.Pos.Raw.isValidUTF8_extract_iff _ _ hle hsize).mp hvalid with heq | hboth
  · have hzero : needle.utf8ByteSize = 0 := by
      have := congrArg String.Pos.Raw.byteIdx heq
      simp only at this
      omega
    exact absurd (String.utf8ByteSize_eq_zero_iff.mp hzero) hneedle
  · exact hboth

theorem standsAt_of_mem_occurrencesFrom {hay needle : ByteArray} {start place : Nat}
    (hplace : place ∈ occurrencesFrom (.ofBytes hay) (.ofBytes needle) start) :
    standsAt hay needle place = true := by
  generalize hhaystack : Haystack.ofBytes hay = haystack at hplace
  generalize hprints : Needle.ofBytes needle = prints at hplace
  fun_induction occurrencesFrom haystack prints start with
  | case1 start _ hoccurs ih =>
      cases hplace with
      | head =>
          rw [← occursAt_ofBytes, hhaystack, hprints]
          exact hoccurs
      | tail _ hrest => exact ih hrest
  | case2 start _ _ ih => exact ih hplace
  | case3 start => cases hplace

theorem standsAt_of_mem_occurrencesBefore {hay needle : ByteArray} {stop place : Nat}
    (hplace : place ∈ occurrencesBefore (.ofBytes hay) (.ofBytes needle) stop) :
    standsAt hay needle place = true := by
  generalize hhaystack : Haystack.ofBytes hay = haystack at hplace
  generalize hprints : Needle.ofBytes needle = prints at hplace
  fun_induction occurrencesBefore haystack prints stop with
  | case1 stop _ last hoccurs ih =>
      rcases List.mem_cons.mp hplace with hlast | hrest
      · rw [← occursAt_ofBytes, hhaystack, hprints, hlast]
        exact hoccurs
      · exact ih hrest
  | case2 stop _ last _ ih => exact ih hplace
  | case3 stop => cases hplace

theorem standsAt_of_mem_occurrences {hay needle : ByteArray} {place : Nat}
    (hplace : place ∈ occurrences hay (.ofBytes needle)) : standsAt hay needle place = true := by
  rw [occurrences] at hplace
  split at hplace
  · exact standsAt_of_mem_occurrencesFrom hplace
  · cases hplace

theorem standsAt_of_mem_occurrencesFromRight {hay needle : ByteArray} {place : Nat}
    (hplace : place ∈ occurrencesFromRight hay (.ofBytes needle)) :
    standsAt hay needle place = true := by
  rw [occurrencesFromRight] at hplace
  split at hplace
  · exact standsAt_of_mem_occurrencesBefore hplace
  · cases hplace

theorem mem_of_mem_upTo {found : List α} {limit : Option Nat} {item : α}
    (hitem : item ∈ upTo limit found) : item ∈ found := by
  cases limit with
  | none => exact hitem
  | some n => exact List.mem_of_mem_take hitem

theorem within_of_mem_piecesFrom {size stop start : Nat} {places : List Nat}
    (hstart : IsBoundary text start) (hstop : IsBoundary text stop)
    (hplaces : ∀ place ∈ places, IsBoundary text place ∧ IsBoundary text (place + size))
    {extent : Extent} (hextent : extent ∈ piecesFrom size stop start places) :
    extent.Within text := by
  induction places generalizing start with
  | nil =>
      obtain rfl := List.mem_singleton.mp hextent
      exact ⟨hstart, hstop⟩
  | cons place rest ih =>
      obtain ⟨⟨hplace, hbehind⟩, hrest⟩ := List.forall_mem_cons.mp hplaces
      cases hextent with
      | head => exact ⟨hstart, hplace⟩
      | tail _ hextent => exact ih hbehind hrest hextent

theorem within_of_mem_piecesBefore {size stop : Nat} {found : List Extent} {places : List Nat}
    (hstop : IsBoundary text stop) (hfound : ∀ extent ∈ found, extent.Within text)
    (hplaces : ∀ place ∈ places, IsBoundary text place ∧ IsBoundary text (place + size))
    {extent : Extent} (hextent : extent ∈ piecesBefore size stop found places) :
    extent.Within text := by
  induction places generalizing stop found with
  | nil =>
      cases hextent with
      | head => exact ⟨isBoundary_zero text, hstop⟩
      | tail _ hextent => exact hfound extent hextent
  | cons place rest ih =>
      obtain ⟨⟨hplace, hbehind⟩, hrest⟩ := List.forall_mem_cons.mp hplaces
      exact ih hplace (List.forall_mem_cons.mpr ⟨⟨hbehind, hstop⟩, hfound⟩) hrest hextent

theorem within_of_mem_splitAt {separator : String} (hseparator : separator ≠ "")
    {limit : Option Nat} {extent : Extent}
    (hextent : extent ∈ splitAt (.ofText separator) limit text) : extent.Within text := by
  refine within_of_mem_piecesFrom (isBoundary_zero text) (isBoundary_utf8ByteSize text) ?_ hextent
  intro place hplace
  exact isBoundary_of_standsAt hseparator (standsAt_of_mem_occurrences (mem_of_mem_upTo hplace))

theorem within_of_mem_splitAtFromRight {separator : String} (hseparator : separator ≠ "")
    {limit : Option Nat} {extent : Extent}
    (hextent : extent ∈ splitAtFromRight (.ofText separator) limit text) :
    extent.Within text := by
  refine within_of_mem_piecesBefore (isBoundary_utf8ByteSize text) (by simp) ?_ hextent
  intro place hplace
  exact isBoundary_of_standsAt hseparator
    (standsAt_of_mem_occurrencesFromRight (mem_of_mem_upTo hplace))

/-- What lies in front of the first character that is no blank, the word there, and the rest. -/
theorem eq_append_of_dropWhile_eq_cons {chars rest : List Char} {c : Char}
    (hrest : chars.dropWhile Unicode.isBlank = c :: rest) :
    chars = chars.takeWhile Unicode.isBlank ++ ((c :: (takeWord rest).1) ++ (takeWord rest).2) := by
  rw [takeWord, List.cons_append, List.takeWhile_append_dropWhile, ← hrest,
    List.takeWhile_append_dropWhile]

theorem sizeOf_behind_blanks {chars rest : List Char} {c : Char} {stop : Nat}
    (hrest : chars.dropWhile Unicode.isBlank = c :: rest) (hstop : stop = sizeOf chars) :
    stop - sizeOf (chars.takeWhile Unicode.isBlank) =
      sizeOf ((c :: (takeWord rest).1) ++ (takeWord rest).2).reverse := by
  rw [eq_append_of_dropWhile_eq_cons hrest, sizeOf_append] at hstop
  rw [sizeOf_reverse]
  exact Nat.sub_eq_of_eq_add' hstop

theorem within_of_mem_wordsFrom {limit : Option Nat} {offset : Nat} {front chars : List Char}
    (htext : text.toList = front ++ chars) (hoffset : offset = sizeOf front) {extent : Extent}
    (hextent : extent ∈ wordsFrom limit text.utf8ByteSize offset chars) :
    extent.Within text := by
  fun_induction wordsFrom limit text.utf8ByteSize offset chars generalizing front with
  | case1 => cases hextent
  | case2 limit offset chars start c rest hrest =>
      rw [eq_append_of_dropWhile_eq_cons hrest, ← List.append_assoc] at htext
      have hstart : start = sizeOf (front ++ chars.takeWhile Unicode.isBlank) := by
        rw [sizeOf_append, ← hoffset]
      rw [List.mem_singleton.mp hextent, hstart]
      exact ⟨isBoundary_of_append htext, isBoundary_utf8ByteSize text⟩
  | case3 limit offset chars start c rest hrest _ word wordStop =>
      rename_i _ ih
      rw [eq_append_of_dropWhile_eq_cons hrest, ← List.append_assoc] at htext
      have hstart : start = sizeOf (front ++ chars.takeWhile Unicode.isBlank) := by
        rw [sizeOf_append, ← hoffset]
      have hstop : wordStop =
          sizeOf (front ++ chars.takeWhile Unicode.isBlank ++ (c :: word.1)) := by
        rw [sizeOf_append, ← hstart]
      have hbehind := htext
      rw [← List.append_assoc] at hbehind
      rcases List.mem_cons.mp hextent with rfl | hextent
      · rw [hstop, hstart]
        exact ⟨isBoundary_of_append htext, isBoundary_of_append hbehind⟩
      · exact ih hbehind hstop hextent

theorem within_of_mem_wordsBefore {limit : Option Nat} {stop : Nat} {found : List Extent}
    {chars behind : List Char} (htext : text.toList = chars.reverse ++ behind)
    (hstop : stop = sizeOf chars) (hfound : ∀ extent ∈ found, extent.Within text)
    {extent : Extent} (hextent : extent ∈ wordsBefore limit stop found chars) :
    extent.Within text := by
  fun_induction wordsBefore limit stop found chars generalizing behind with
  | case1 => exact hfound extent hextent
  | case2 limit stop found chars wordStop c rest hrest =>
      have hchars := eq_append_of_dropWhile_eq_cons hrest
      have hwordStop : wordStop = sizeOf ((c :: (takeWord rest).1) ++ (takeWord rest).2).reverse :=
        sizeOf_behind_blanks hrest hstop
      rw [hchars, List.reverse_append, List.append_assoc] at htext
      rcases List.mem_cons.mp hextent with rfl | hextent
      · rw [hwordStop]
        exact ⟨isBoundary_zero text, isBoundary_of_append htext⟩
      · exact hfound extent hextent
  | case3 limit stop found chars wordStop c rest hrest _ word start =>
      rename_i _ ih
      have hchars := eq_append_of_dropWhile_eq_cons hrest
      have hwordStop : wordStop = sizeOf ((c :: word.1) ++ word.2).reverse :=
        sizeOf_behind_blanks hrest hstop
      have hstart : start = sizeOf word.2 := by
        rw [sizeOf_reverse, sizeOf_append] at hwordStop
        exact Nat.sub_eq_of_eq_add' hwordStop
      rw [hchars, List.reverse_append, List.append_assoc] at htext
      have hfront := htext
      rw [List.reverse_append, List.append_assoc] at hfront
      refine ih hfront hstart (List.forall_mem_cons.mpr ⟨⟨?_, ?_⟩, hfound⟩) hextent
      · rw [hstart, ← sizeOf_reverse]
        exact isBoundary_of_append hfront
      · rw [hwordStop]
        exact isBoundary_of_append htext

theorem Cut.within_of_mem_pieces {separator : Option String} (hseparator : separator ≠ some "")
    {limit : Option Nat} {extent : Extent}
    (hextent : extent ∈ (Cut.ofText separator).pieces limit text) : extent.Within text := by
  cases separator with
  | none => exact within_of_mem_wordsFrom (List.nil_append _).symm rfl hextent
  | some separator =>
      exact within_of_mem_splitAt (fun hempty => hseparator (congrArg some hempty)) hextent

theorem Cut.within_of_mem_piecesFromRight {separator : Option String}
    (hseparator : separator ≠ some "") {limit : Option Nat} {extent : Extent}
    (hextent : extent ∈ (Cut.ofText separator).piecesFromRight limit text) :
    extent.Within text := by
  cases separator with
  | none =>
      have htext : text.toList = text.toList.reverse.reverse ++ [] := by
        rw [List.reverse_reverse, List.append_nil]
      have hstop : text.utf8ByteSize = sizeOf text.toList.reverse := by
        rw [sizeOf_reverse, sizeOf_toList]
      exact within_of_mem_wordsBefore htext hstop (by simp) hextent
  | some separator =>
      exact within_of_mem_splitAtFromRight (fun hempty => hseparator (congrArg some hempty)) hextent

end TextColumns.Text
