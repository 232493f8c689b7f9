import TextColumns.Proofs.Pieces.Separators
import TextColumns.Proofs.Propagation
import TextColumns.Proofs.Text.Search

/-!
What is found in a store and cut at what is found.  Searches, counts and pieces go by bytes, and are
about characters all the same: a needle that is a text stands only where its characters do.
-/

namespace TextColumns

open Text (BytesAt CharsAt Extent FindsBackward FindsFirst FindsForward FindsLast IsBoundary)

variable {text needle : String} {store : Store}

/-- What a search that keeps to its contract makes of a text. -/
structure FoundByChars (text needle : String) : Prop where
  first : FindsFirst (CharsAt text needle) (Text.find text (.ofText needle))
  last : FindsLast (CharsAt text needle) (Text.findLast text (.ofText needle))
  contains : Text.contains text (.ofText needle) = true ↔ ∃ position, CharsAt text needle position
  first_of_contract : ∀ search : ByteArray → ByteArray → Option Nat,
    (∀ hay bytes, FindsFirst (BytesAt hay bytes) (search hay bytes)) →
      Text.find text (.ofText needle) =
        (search text.toByteArray needle.toByteArray).map (Text.charPosition text)
  last_of_contract : ∀ search : ByteArray → ByteArray → Option Nat,
    (∀ hay bytes, FindsLast (BytesAt hay bytes) (search hay bytes)) →
      Text.findLast text (.ofText needle) =
        (search text.toByteArray needle.toByteArray).map (Text.charPosition text)

theorem foundByChars (text needle : String) : FoundByChars text needle where
  first := Text.findsFirst_find text needle
  last := Text.findsLast_findLast text needle
  contains := Text.contains_iff text needle
  first_of_contract := fun _ hsearch =>
    congrArg (Option.map (Text.charPosition text))
      ((Text.findsFirst_findBytes _ _).unique (hsearch _ _) fun _ _ => Nat.le_antisymm)
  last_of_contract := fun _ hsearch =>
    congrArg (Option.map (Text.charPosition text))
      ((Text.findsLast_findLastBytes _ _).unique (hsearch _ _) fun _ _ hab hba =>
        Nat.le_antisymm hba hab)

namespace Transform

def writePieces (bytes : ByteArray) (replacement : String) (writer : Writer) :
    List Extent → Writer
  | [] => writer
  | [last] => writer.push (bytes.extract last.start last.stop)
  | piece :: rest =>
    writePieces bytes replacement
      ((writer.push (bytes.extract piece.start piece.stop)).pushText replacement) rest

theorem writeReplaced_eq_writePieces (bytes : ByteArray) (size : Nat) (replacement : String)
    (last : Nat) (writer : Writer) (places : List Nat) :
    writeReplaced bytes size replacement last writer places =
      writePieces bytes replacement writer (Text.piecesFrom size bytes.size last places) := by
  induction places generalizing last writer with
  | nil => rfl
  | cons place rest ih =>
      rw [writeReplaced, ih, Text.piecesFrom, writePieces]
      exact Text.piecesFrom_ne_nil _ _ _ _

theorem write_replaceDraft (target : Text.Needle) (replacement text : String) (limit : Option Nat)
    (writer : Writer) :
    (replaceDraft target replacement limit text).write writer =
      writePieces text.toByteArray replacement writer (Text.splitAt target limit text) :=
  writeReplaced_eq_writePieces ..

end Transform

/-- Whether the bytes of an extent are a text. -/
def HoldsText (text : String) (extent : Extent) : Prop :=
  (text.toByteArray.extract extent.start extent.stop).IsValidUTF8

/-- What is cut where a needle that is not empty stands. -/
structure CutByChars (text needle : String) : Prop where
  boundary : ∀ place, BytesAt text.toByteArray needle.toByteArray place →
    IsBoundary text place ∧ IsBoundary text (place + needle.utf8ByteSize)
  occurrences : (Text.occurrences text.toByteArray (.ofText needle)).map (Text.charPosition text) =
    Text.charOccurrences needle.toList 0 text.toList
  occurrences_of_contract : ∀ search : ByteArray → ByteArray → List Nat,
    (∀ hay bytes, 0 < bytes.size → FindsForward hay bytes 0 (search hay bytes)) →
      Text.occurrences text.toByteArray (.ofText needle) =
        search text.toByteArray needle.toByteArray
  occurrencesFromRight_of_contract : ∀ search : ByteArray → ByteArray → List Nat,
    (∀ hay bytes, 0 < bytes.size → FindsBackward hay bytes hay.size (search hay bytes)) →
      Text.occurrencesFromRight text.toByteArray (.ofText needle) =
        search text.toByteArray needle.toByteArray
  count : Text.count text (.ofText needle) =
    (Text.charOccurrences needle.toList 0 text.toList).length
  pieces : ∀ limit, ∀ extent ∈ Text.splitAt (.ofText needle) limit text, HoldsText text extent
  piecesFromRight : ∀ limit, ∀ extent ∈ Text.splitAtFromRight (.ofText needle) limit text,
    HoldsText text extent
  kept : ∀ replacement limit writer,
    (Transform.replaceDraft (.ofText needle) replacement limit text).write writer =
      Transform.writePieces text.toByteArray replacement writer
        (Text.splitAt (.ofText needle) limit text)

theorem holdsText_of_within {extent : Extent} (hwithin : extent.Within text) :
    HoldsText text extent :=
  Text.isValidUTF8_extract hwithin.start hwithin.stop

theorem cutByChars (hneedle : needle ≠ "") (text : String) : CutByChars text needle where
  boundary := fun place hplace =>
    Text.isBoundary_of_standsAt hneedle (Text.standsAt_iff.mpr hplace)
  occurrences := Text.map_charPosition_occurrences hneedle text
  occurrences_of_contract := fun _ hsearch =>
    Text.occurrences_of_contract (Transform.pos_size_of_ne hneedle)
      (hsearch _ _ (Transform.pos_size_of_ne hneedle))
  occurrencesFromRight_of_contract := fun _ hsearch =>
    Text.occurrencesFromRight_of_contract (Transform.pos_size_of_ne hneedle)
      (hsearch _ _ (Transform.pos_size_of_ne hneedle))
  count := by
    rw [Transform.count_eq_length hneedle, ← Text.map_charPosition_occurrences hneedle,
      List.length_map]
  pieces := fun _ _ hextent => holdsText_of_within (Text.within_of_mem_splitAt hneedle hextent)
  piecesFromRight := fun _ _ hextent =>
    holdsText_of_within (Text.within_of_mem_splitAtFromRight hneedle hextent)
  kept := fun replacement limit writer =>
    Transform.write_replaceDraft (.ofText needle) replacement text limit writer

structure ColumnsByChars (store : Store) (needle : String) : Prop where
  find : ∀ row, (Measure.find store needle).get? row = (store.text? row).map fun text =>
    (Text.find text (.ofText needle)).elim Measure.notFound Nat.cast
  findLast : ∀ row, (Measure.findLast store needle).get? row = (store.text? row).map fun text =>
    (Text.findLast text (.ofText needle)).elim Measure.notFound Nat.cast
  contains : ∀ row, (Measure.contains store needle).get? row = (store.text? row).map fun text =>
    Text.contains text (.ofText needle)
  count : needle ≠ "" → ∀ row, (Measure.count store needle).get? row =
    (store.text? row).map fun text => (Text.count text (.ofText needle) : Int)
  split : needle ≠ "" → ∀ limit column,
    ListColumn.split store (some needle) limit = .ok column → column.Valid
  splitFromRight : needle ≠ "" → ∀ limit column,
    ListColumn.splitFromRight store (some needle) limit = .ok column → column.Valid

theorem get?_numbers [Inhabited α] (hvalid : store.Valid) (f : String → α) (row : Nat) :
    (Measure.numbers store fun text => some (f text)).get? row = (store.text? row).map f := by
  rw [Matching.numbers_eq hvalid, hvalid.get?_answers (Array.toList_map ..)]

theorem get?_positions (hvalid : store.Valid) {f : String → Option Nat}
    (hf : ∀ text, ∀ position ∈ f text, position ≤ text.length) (row : Nat) :
    (Measure.positions store f).get? row =
      (store.text? row).map fun text => (f text).elim Measure.notFound Nat.cast := by
  rw [Matching.positions_eq, get?_numbers hvalid]
  refine Option.map_congr fun text htext => ?_
  cases hfound : f text with
  | none => rfl
  | some position =>
      have hlength := Matching.length_le_sizeOf text.toList
      rw [String.length_toList, Text.sizeOf_toList] at hlength
      have hle := Nat.le_trans (Nat.le_trans (hf text position hfound) hlength)
        (hvalid.size_le_of_text? htext)
      exact Matching.toInt32_of_le hle

theorem columnsByChars (hvalid : store.Valid) (needle : String) : ColumnsByChars store needle where
  find := get?_positions hvalid fun text position hfound => by
    have hfirst := Text.findsFirst_find text needle
    rw [Option.mem_def.mp hfound] at hfirst
    exact hfirst.1.1
  findLast := get?_positions hvalid fun text position hfound => by
    have hlast := Text.findsLast_findLast text needle
    rw [Option.mem_def.mp hfound] at hlast
    exact hlast.1.1
  contains := Measure.get?_answers hvalid _
  count := fun hneedle row => by
    rw [Measure.count, Measure.counts, get?_numbers hvalid]
    refine Option.map_congr fun text htext => Matching.toInt32_of_le ?_
    exact Nat.le_trans (Transform.count_le_size hneedle text) (hvalid.size_le_of_text? htext)
  split := fun _ _ _ => ListColumn.valid_of_split hvalid
  splitFromRight := fun _ _ _ => ListColumn.valid_of_splitFromRight hvalid

/-- In every text a search finds the first or the last position that is followed by the characters
of the needle, and none only if there is none.  A needle that is not empty stands between
characters, wherever its bytes do, so that occurrences are counted as they are by characters and all
pieces between them are texts. -/
theorem searches_by_chars (text needle : String) :
    FoundByChars text needle ∧
    (Text.find text (.ofText "") = some 0 ∧
      Text.findLast text (.ofText "") = some text.length) ∧
    (needle ≠ "" → CutByChars text needle) ∧
    ∀ store : Store, store.Valid → ColumnsByChars store needle :=
  ⟨foundByChars text needle, ⟨Text.find_empty text, Text.findLast_empty text⟩,
    fun hneedle => cutByChars hneedle text, fun _ hvalid => columnsByChars hvalid needle⟩

/-- Behind characters of one and of four bytes, positions are no offsets. -/
theorem searches_by_chars_widths :
    Text.find "a😀éé" (.ofText "é") = some 2 ∧ Text.findLast "a😀éé" (.ofText "é") = some 3 ∧
      Text.findLast "a😀éé" (.ofText "") = some 4 ∧
      "é" ≠ "" ∧ Text.count "a😀éé" (.ofText "é") = 2 ∧
      ∃ store, Store.ofTexts [some "a😀éé", none] = .ok store ∧ store.Valid ∧
        (Measure.find store "é").get? 0 = some 2 ∧ (Measure.find store "é").get? 1 = none := by
  obtain ⟨hfound, ⟨-, hempty⟩, hcut, hcolumns⟩ := searches_by_chars "a😀éé" "é"
  have hfirst : Text.find "a😀éé" (.ofText "é") = some 2 := by
    have hnone : ∀ position < 2, ¬ CharsAt "a😀éé" "é" position := by decide
    refine hfound.first.unique ⟨by decide, ?_⟩ fun _ _ => Nat.le_antisymm
    exact fun other hother => Nat.le_of_not_lt fun hlt => hnone other hlt hother
  have hlast : Text.findLast "a😀éé" (.ofText "é") = some 3 := by
    have hnone : ¬ CharsAt "a😀éé" "é" 4 := by decide
    refine hfound.last.unique ⟨by decide, fun other hother => ?_⟩
      fun _ _ hab hba => Nat.le_antisymm hba hab
    have hle : other ≤ 4 := hother.1
    refine Nat.le_of_lt_succ (Nat.lt_of_le_of_ne hle ?_)
    rintro rfl
    exact hnone hother
  obtain ⟨store, hstore, hvalid, htexts⟩ :=
    @Store.exists_of_total [some "a😀éé", none] (by decide)
  refine ⟨hfirst, hlast, hempty.trans (by decide), by decide, ?_, store, hstore, hvalid, ?_, ?_⟩
  · rw [(hcut (by decide)).count]
    simp [Text.charOccurrences]
  · rw [(hcolumns store hvalid).find, store.text?_eq_getD, htexts]
    exact congrArg (fun found => some (found.elim Measure.notFound Nat.cast)) hfirst
  · rw [(hcolumns store hvalid).find, store.text?_eq_getD, htexts]
    rfl

end TextColumns
