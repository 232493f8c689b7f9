import TextColumns.Proofs.Pieces.Order
import TextColumns.Proofs.Text.Position

/-!
Occurrences by characters.  The bytes of a text stand at a place of another one just where its
characters follow, so that going on from byte to byte finds what going on from character to
character finds.
-/

namespace TextColumns.Text

variable {text needle : String}

theorem agreesFrom_append (front needle behind : ByteArray) (i : Nat) :
    agreesFrom (front ++ (needle ++ behind)) needle front.size i = true := by
  fun_induction agreesFrom (front ++ (needle ++ behind)) needle front.size i with
  | case1 i hi hplace ih =>
      rw [ih, Bool.and_true, beq_iff_eq, ByteArray.getElem_append_right (Nat.le_add_right _ _)]
      simp only [Nat.add_sub_cancel_left]
      exact ByteArray.getElem_append_left hi
  | case2 i hi hplace =>
      simp only [ByteArray.size_append] at hplace
      omega
  | case3 => rfl

theorem standsAt_append (front needle behind : ByteArray) :
    standsAt (front ++ (needle ++ behind)) needle front.size = true := by
  rw [standsAt, agreesFrom_append, Bool.and_true, decide_eq_true_eq, ByteArray.size_append,
    ByteArray.size_append]
  omega

theorem exists_cursor_of_standsAt (hneedle : needle ≠ "") {place : Nat}
    (hstands : standsAt text.toByteArray needle.toByteArray place = true) :
    ∃ cursor, Cursor.On text cursor ∧ cursor.offset = place ∧ needle.toList <+: cursor.rest := by
  obtain ⟨hstart, hstop⟩ := isBoundary_of_standsAt hneedle hstands
  have hwithin : Extent.Within text ⟨place, place + needle.utf8ByteSize⟩ := ⟨hstart, hstop⟩
  obtain ⟨front, middle, behind, htext, hfront, hmiddle⟩ :=
    hwithin.exists_chars (Nat.le_add_right _ _)
  have hbetween := toByteArray_between hstart hstop
  have hextract := extract_of_standsAt hstands
  rw [String.size_toByteArray] at hextract
  dsimp only at hfront hmiddle
  rw [hextract, hfront, ← hfront, hmiddle, hfront, between_eq_ofList htext,
    String.toByteArray_inj] at hbetween
  refine ⟨⟨place, front.getLast?, middle ++ behind⟩, ⟨front, htext, hfront, rfl⟩, rfl, ?_⟩
  rw [← hbetween, String.toList_ofList]
  exact List.prefix_append _ _

/-- A text stands at a place just where its characters follow. -/
theorem Cursor.On.standsAt_iff {cursor : Cursor} (hon : Cursor.On text cursor)
    (hneedle : needle ≠ "") :
    standsAt text.toByteArray needle.toByteArray cursor.offset = true ↔
      needle.toList <+: cursor.rest := by
  constructor
  · intro hstands
    obtain ⟨other, hother, hoffset, hfollows⟩ := exists_cursor_of_standsAt hneedle hstands
    rwa [hon.eq_of_offset_eq hother hoffset.symm]
  · intro hfollows
    obtain ⟨behind, hrest⟩ := hfollows
    obtain ⟨front, htext, hoffset, -⟩ := hon
    have hsize : cursor.offset = (String.ofList front).toByteArray.size := by
      rw [hoffset, String.size_toByteArray, utf8ByteSize_ofList]
    rw [hsize, toByteArray_of_append htext, ← hrest, String.ofList_append,
      String.toByteArray_append, String.ofList_toList]
    exact standsAt_append _ _ _

theorem occurrencesFrom_succ {hay : Haystack} {needle : Needle} {place : Nat}
    (hplace : occursAt hay needle place = false) :
    occurrencesFrom hay needle place = occurrencesFrom hay needle (place + 1) := by
  rw [occurrencesFrom]
  split
  · rw [if_neg (Bool.eq_false_iff.mp hplace)]
  · rw [occurrencesFrom, if_neg (by omega)]

theorem occurrencesFrom_skip {hay : Haystack} {needle : Needle} {place : Nat} {count : Nat}
    (hbetween : ∀ i < count, occursAt hay needle (place + i) = false) :
    occurrencesFrom hay needle place = occurrencesFrom hay needle (place + count) := by
  induction count with
  | zero => rfl
  | succ count ih =>
      rw [ih fun i hi => hbetween i (Nat.lt_succ_of_lt hi),
        occurrencesFrom_succ (hbetween count (Nat.lt_succ_self count)), Nat.add_assoc]

theorem Cursor.On.not_occursAt_within {offset : Nat} {before : Option Char} {c : Char}
    {rest : List Char} (hon : Cursor.On text ⟨offset, before, c :: rest⟩) (hneedle : needle ≠ "")
    (hhere : ¬ needle.toList <+: c :: rest) {i : Nat} (hi : i < c.utf8Size) :
    occursAt (.ofBytes text.toByteArray) (.ofText needle) (offset + i) = false := by
  rw [Needle.ofText, occursAt_ofBytes, Bool.eq_false_iff]
  intro hstands
  obtain ⟨cursor, hcursor, hoffset, hfollows⟩ := exists_cursor_of_standsAt hneedle hstands
  obtain ⟨between, hrest, hbetween⟩ :=
    hon.exists_between hcursor (by simp only [hoffset]; exact Nat.le_add_right _ _)
  cases between with
  | nil =>
      have hsame : c :: rest = cursor.rest := hrest
      exact hhere (by rwa [hsame])
  | cons d between =>
      obtain ⟨rfl, -⟩ := List.cons.inj hrest
      simp only [Text.sizeOf] at hbetween
      omega

/-- The occurrences from a place on: that at the first place behind which the characters follow,
and those behind it. -/
theorem Cursor.On.occurrencesFrom_eq {cursor : Cursor} (hon : Cursor.On text cursor)
    (hneedle : needle ≠ "") :
    occurrencesFrom (.ofBytes text.toByteArray) (.ofText needle) cursor.offset =
      match cursor.seekChars? needle.toList with
      | none => []
      | some place =>
        place.offset :: occurrencesFrom (.ofBytes text.toByteArray) (.ofText needle)
          (place.offset + needle.utf8ByteSize) := by
  have hpositive : 0 < needle.utf8ByteSize :=
    Nat.pos_of_ne_zero fun hzero => hneedle (String.utf8ByteSize_eq_zero_iff.mp hzero)
  have hsize : (Needle.ofText needle).bytes.size = needle.utf8ByteSize := rfl
  obtain ⟨offset, before, rest⟩ := cursor
  simp only [seekChars?, places]
  induction rest generalizing offset before with
  | nil =>
      have hfollows : needle.toList.isPrefixOf [] = false := by
        rw [Bool.eq_false_iff, ne_eq, List.isPrefixOf_iff_prefix, List.prefix_nil]
        exact fun hnil => hneedle (String.toList_eq_nil_iff.mp hnil)
      have hstop : offset = text.utf8ByteSize := hon.stop_eq
      rw [placesFrom, List.find?_cons, hfollows, List.find?_nil, occurrencesFrom, if_neg]
      rw [hsize, hstop]
      exact Nat.not_le_of_lt (Nat.lt_add_of_pos_right hpositive)
  | cons c rest ih =>
      rw [placesFrom, List.find?_cons]
      cases hfollows : needle.toList.isPrefixOf (c :: rest) with
      | true =>
          have hstands := (hon.standsAt_iff hneedle).mpr (List.isPrefixOf_iff_prefix.mp hfollows)
          have hfits : offset + (Needle.ofText needle).bytes.size ≤
              (Haystack.ofBytes text.toByteArray).bytes.size :=
            le_size_of_standsAt hstands
          rw [← occursAt_ofBytes] at hstands
          rw [occurrencesFrom, if_pos hfits]
          refine (if_pos hstands).trans ?_
          rw [hsize, Nat.max_eq_right hpositive]
      | false =>
          -- The bytes are tried one by one, the characters at once: none of the bytes of `c` fits.
          have hhere : ¬ needle.toList <+: c :: rest := by
            rw [← List.isPrefixOf_iff_prefix, hfollows]
            exact Bool.false_ne_true
          rw [occurrencesFrom_skip fun i hi => hon.not_occursAt_within hneedle hhere hi]
          exact ih _ _ hon.behind

theorem occurrences_eq (hay : ByteArray) (needle : Needle) :
    occurrences hay needle = occurrencesFrom (.ofBytes hay) needle 0 := by
  by_cases hlong : needle.bytes.size ≤ hay.size
  · rw [occurrences, if_pos hlong]
  · rw [occurrences, if_neg hlong, occurrencesFrom, if_neg]
    rwa [Nat.zero_add]

theorem occurrencesFromRight_eq (hay : ByteArray) (needle : Needle) :
    occurrencesFromRight hay needle = occurrencesBefore (.ofBytes hay) needle hay.size := by
  by_cases hlong : needle.bytes.size ≤ hay.size
  · rw [occurrencesFromRight, if_pos hlong]
  · rw [occurrencesFromRight, if_neg hlong, occurrencesBefore, if_neg fun hfits => hlong hfits.2]

theorem firstPlace_eq {hay : Haystack} {needle : Needle} {place count : Nat}
    (hcount : place + count + needle.bytes.size = hay.bytes.size + 1) :
    firstPlace hay needle place count = (occurrencesFrom hay needle place).head? := by
  induction count generalizing place with
  | zero =>
      have hlong : ¬ place + needle.bytes.size ≤ hay.bytes.size := by omega
      rw [occurrencesFrom, if_neg hlong]
      rfl
  | succ count ih =>
      have hfits : place + needle.bytes.size ≤ hay.bytes.size := by omega
      rw [firstPlace, occurrencesFrom, if_pos hfits]
      cases occursAt hay needle place with
      | true => rfl
      | false => exact ih (by omega)

theorem findBytes_eq (hay : ByteArray) (needle : Needle) :
    findBytes hay needle = (occurrences hay needle).head? := by
  unfold findBytes occurrences
  split
  · exact firstPlace_eq (by simp only [Haystack.ofBytes]; omega)
  · rfl

theorem any_findBytes_zero (hay needle : ByteArray) :
    (findBytes hay (.ofBytes needle)).any (· == 0) = standsAt hay needle 0 := by
  rw [findBytes_eq, occurrences_eq, occurrencesFrom]
  cases hstands : standsAt hay needle 0 with
  | true =>
      have hfits : 0 + (Needle.ofBytes needle).bytes.size ≤ (Haystack.ofBytes hay).bytes.size :=
        le_size_of_standsAt hstands
      rw [if_pos hfits, if_pos ((occursAt_ofBytes hay needle 0).trans hstands)]
      rfl
  | false =>
      have hfirst : occursAt (.ofBytes hay) (.ofBytes needle) 0 = false :=
        (occursAt_ofBytes hay needle 0).trans hstands
      rw [hfirst]
      split
      · rw [if_neg Bool.false_ne_true]
        cases hhead : (occurrencesFrom (.ofBytes hay) (.ofBytes needle) (0 + 1)).head? with
        | none => rfl
        | some place =>
            have hle := (pairwise_occurrencesFrom _ _ _).2 place (List.mem_of_head? hhead)
            exact beq_false_of_ne (Nat.ne_of_gt hle)
      · rfl

end TextColumns.Text
