import TextColumns.Proofs.Store.Limits
import TextColumns.Proofs.Store.Shared
import TextColumns.Proofs.Text.Position
import TextColumns.Proofs.Transform.Trim

/-!
Positions, offsets and parts of texts by their characters.  Leading bytes are counted, characters
are walked over, and texts of ASCII are not walked over at all; all of these agree about every
position, also beyond the end.
-/

namespace TextColumns

namespace Text

variable {text : String} {offset : Nat}

theorem charCount_eq (text : String) : charCount text = text.length := by
  have hall := charPosition_eq (List.append_nil text.toList).symm
  rwa [sizeOf_toList, charPosition, Nat.min_self, String.length_toList] at hall

/-- Whether an offset stands behind a number of characters. -/
def StandsBehind (text : String) (count offset : Nat) : Prop :=
  ∃ front behind, text.toList = front ++ behind ∧ front.length = count ∧ sizeOf front = offset

theorem byteOffset_eq_iff {position : Nat} :
    byteOffset text position = offset ↔ StandsBehind text (min position text.length) offset := by
  rw [byteOffset_eq, ← String.length_toList]
  constructor
  · rintro rfl
    exact ⟨_, _, (List.take_append_drop position text.toList).symm, List.length_take, rfl⟩
  · rintro ⟨front, behind, htext, hlength, rfl⟩
    rw [List.take_eq_take_min, ← hlength, htext, List.take_left]

theorem charPosition_byteOffset (text : String) (position : Nat) :
    charPosition text (byteOffset text position) = min position text.length := by
  rw [byteOffset_eq, charPosition_eq (List.take_append_drop ..).symm, List.length_take,
    String.length_toList]

theorem byteOffset_charPosition (hoffset : IsBoundary text offset) :
    byteOffset text (charPosition text offset) = offset := by
  obtain ⟨front, behind, htext, rfl⟩ := isBoundary_iff.mp hoffset
  rw [charPosition_eq htext, byteOffset_eq, htext, List.take_left]

def charsOf (text : String) (start : Nat) (length : Option Nat) : List Char :=
  upTo length (text.toList.drop start)

/-- The span of a part when characters are walked over, whether they are ASCII or not. -/
def walkedSpan (text : String) (start : Nat) (length : Option Nat) : Extent :=
  let first := prefixSize text.toList start
  match length with
  | some n => ⟨first, first + prefixSize (between text first text.utf8ByteSize).toList n⟩
  | none => ⟨first, text.utf8ByteSize⟩

theorem byteOffset_eq_prefixSize (text : String) (position : Nat) :
    byteOffset text position = prefixSize text.toList position := by
  rw [byteOffset_eq, prefixSize_eq]

theorem charSpan_eq_walkedSpan (text : String) (start : Nat) (length : Option Nat) :
    charSpan text start length = walkedSpan text start length := by
  cases length <;> simp only [charSpan, walkedSpan, byteOffset_eq_prefixSize]

theorem walkedSpan_eq (text : String) (start : Nat) (length : Option Nat) :
    walkedSpan text start length =
      ⟨sizeOf (text.toList.take start),
        sizeOf (text.toList.take start ++ charsOf text start length)⟩ := by
  have htext := (List.take_append_drop start text.toList).symm
  cases length with
  | none => rw [walkedSpan, prefixSize_eq, charsOf, upTo, ← htext, sizeOf_toList]
  | some n =>
      rw [walkedSpan, prefixSize_eq, prefixSize_eq, toList_between htext, sizeOf_append]
      rfl

theorem charSpan_eq (text : String) (start : Nat) (length : Option Nat) :
    charSpan text start length =
      ⟨sizeOf (text.toList.take start),
        sizeOf (text.toList.take start ++ charsOf text start length)⟩ := by
  rw [charSpan_eq_walkedSpan, walkedSpan_eq]

theorem substring_eq (text : String) (start : Nat) (length : Option Nat) :
    substring text start length = String.ofList (charsOf text start length) := by
  obtain ⟨behind, hbehind⟩ := prefix_upTo length (text.toList.drop start)
  rw [substring, charSpan_eq]
  refine @between_eq_ofList text _ _ behind ?_
  rw [charsOf, hbehind, List.take_append_drop]

end Text

theorem text?_substring {store : Store} (hvalid : store.Valid) (start : Nat)
    (length : Option Nat) (row : Nat) :
    (Transform.substring store start length).text? row =
      (store.text? row).map fun text => String.ofList (Text.charsOf text start length) := by
  rw [Transform.substring,
    hvalid.text?_share_texts fun text => Text.within_charSpan text start length]
  exact Option.map_congr fun text _ => Text.substring_eq text start length

/-- Whatever number stands for a position or a length, offsets and positions of a text are those of
its characters, and a part has the characters that are left when those in front of its start are
dropped and then as many are taken as it is long.  It does not matter that texts of ASCII, and the
rest of a text behind the start of a part, are not walked over. -/
theorem positions_count_chars (text : String) :
    Text.charCount text = text.length ∧
    (∀ position, Text.byteOffset text position = Text.prefixSize text.toList position ∧
      (∀ offset, Text.byteOffset text position = offset ↔
        Text.StandsBehind text (min position text.length) offset) ∧
      Text.IsBoundary text (Text.byteOffset text position) ∧
      Text.charPosition text (Text.byteOffset text position) = min position text.length) ∧
    (∀ offset, Text.IsBoundary text offset →
      Text.byteOffset text (Text.charPosition text offset) = offset) ∧
    (∀ start length, Text.charSpan text start length = Text.walkedSpan text start length ∧
      (∃ behind, text.toList =
          text.toList.take start ++ (Text.charsOf text start length ++ behind) ∧
        Text.charSpan text start length = ⟨Text.sizeOf (text.toList.take start),
          Text.sizeOf (text.toList.take start ++ Text.charsOf text start length)⟩) ∧
      (Text.substring text start length).toList = Text.charsOf text start length) ∧
    ∀ store : Store, store.Valid → ∀ start length row,
      (Transform.substring store start length).text? row =
        (store.text? row).map fun element =>
          String.ofList (Text.charsOf element start length) := by
  refine ⟨Text.charCount_eq text, fun position => ⟨?_, ?_, ?_, ?_⟩,
    fun offset hoffset => Text.byteOffset_charPosition hoffset,
    fun start length => ⟨Text.charSpan_eq_walkedSpan text start length, ?_, ?_⟩,
    fun store hvalid start length row => text?_substring hvalid start length row⟩
  · exact Text.byteOffset_eq_prefixSize text position
  · exact fun offset => Text.byteOffset_eq_iff
  · rw [Text.byteOffset_eq]
    exact Text.isBoundary_of_append (List.take_append_drop _ _).symm
  · exact Text.charPosition_byteOffset text position
  · obtain ⟨behind, hbehind⟩ := Text.prefix_upTo length (text.toList.drop start)
    refine ⟨behind, ?_, Text.charSpan_eq text start length⟩
    rw [Text.charsOf, hbehind, List.take_append_drop]
  · rw [Text.substring_eq, String.toList_ofList]

/-- Characters of one, two and four bytes, and a position far beyond the end. -/
theorem positions_count_chars_widths :
    Text.charCount "aé😀z" = 4 ∧ Text.byteOffset "aé😀z" 18446744073709551615 = 8 ∧
      Text.charPosition "aé😀z" (Text.byteOffset "aé😀z" 2) = 2 ∧
      Text.IsBoundary "aé😀z" 7 ∧ Text.byteOffset "aé😀z" (Text.charPosition "aé😀z" 7) = 7 ∧
      (Text.substring "aé😀z" 1 (some 2)).toList = ['é', '😀'] ∧
      ∃ store, Store.ofTexts [none, some "aé😀z"] = .ok store ∧ store.Valid ∧
        (Transform.substring store 2 (some 18446744073709551615)).text? 1 = some "😀z" := by
  obtain ⟨hcount, hoffsets, hboundary, hparts, hstores⟩ := positions_count_chars "aé😀z"
  have hseven : Text.IsBoundary "aé😀z" 7 :=
    @Text.isBoundary_of_append _ ['a', 'é', '😀'] ['z'] (by decide)
  obtain ⟨store, hstore, hvalid, htexts⟩ :=
    @Store.exists_of_total [none, some "aé😀z"] (by decide)
  refine ⟨hcount.trans (by decide), ?_, (hoffsets 2).2.2.2.trans (by decide), hseven,
    hboundary 7 hseven, (hparts 1 (some 2)).2.2.trans (by decide), store, hstore, hvalid, ?_⟩
  · rw [(hoffsets 18446744073709551615).2.1]
    exact ⟨['a', 'é', '😀', 'z'], [], by decide, by decide, by decide⟩
  · rw [hstores store hvalid, store.text?_eq_getD, htexts]
    decide

end TextColumns
