import TextColumns.Proofs.Pieces.Occurrence
import TextColumns.Proofs.Text.Substring

/-!
Searching by characters.  A search looks for the first or the last place at which some bytes stand;
what it finds in a text is the first or the last position that is followed by the characters of the
needle, since the encoding of characters shows where each of them begins.
-/

namespace TextColumns.Text

variable {text needle : String} {place : Nat}

/-- Whether a search gives the place with a property that comes before all others, if there is
one. -/
def Finds (before : Nat → Nat → Prop) (p : Nat → Prop) : Option Nat → Prop
  | some place => p place ∧ ∀ other, p other → before place other
  | none => ∀ place, ¬ p place

abbrev FindsFirst : (Nat → Prop) → Option Nat → Prop :=
  Finds (· ≤ ·)

abbrev FindsLast : (Nat → Prop) → Option Nat → Prop :=
  Finds (· ≥ ·)

namespace Finds

variable {before : Nat → Nat → Prop} {p q : Nat → Prop} {found : Option Nat}

theorem unique {other : Option Nat} (hfound : Finds before p found) (hother : Finds before p other)
    (hantisymm : ∀ a b, before a b → before b a → a = b) : found = other := by
  cases found with
  | none =>
      cases other with
      | none => rfl
      | some place => exact absurd hother.1 (hfound place)
  | some place =>
      cases other with
      | none => exact absurd hfound.1 (hother place)
      | some second =>
          exact congrArg some (hantisymm _ _ (hfound.2 _ hother.1) (hother.2 _ hfound.1))

theorem isSome_iff (hfound : Finds before p found) : found.isSome = true ↔ ∃ place, p place := by
  cases found with
  | none => exact iff_of_false nofun (not_exists.mpr hfound)
  | some place => exact iff_of_true rfl ⟨place, hfound.1⟩

theorem congr (hfound : Finds before p found) (hsame : ∀ place, p place ↔ q place) :
    Finds before q found := by
  obtain rfl : p = q := funext fun place => propext (hsame place)
  exact hfound

/-- What is found stays found when places are named anew, in the same order. -/
theorem map (hfound : Finds before p found) {f : Nat → Nat}
    (hmono : ∀ a b, before a b → before (f a) (f b)) (hnew : ∀ place, p place → q (f place))
    (hold : ∀ place, q place → ∃ old, p old ∧ f old = place) :
    Finds before q (found.map f) := by
  cases found with
  | none =>
      intro place hplace
      obtain ⟨old, hold, -⟩ := hold place hplace
      exact hfound old hold
  | some place =>
      refine ⟨hnew place hfound.1, fun other hother => ?_⟩
      obtain ⟨old, hold, rfl⟩ := hold other hother
      exact hmono _ _ (hfound.2 old hold)

end Finds

def BytesAt (hay needle : ByteArray) (place : Nat) : Prop :=
  ∃ front behind, hay = front ++ (needle ++ behind) ∧ front.size = place

theorem standsAt_iff {hay needle : ByteArray} :
    standsAt hay needle place = true ↔ BytesAt hay needle place := by
  constructor
  · intro hstands
    have hsize := le_size_of_standsAt hstands
    have hbehind : needle ++ hay.extract (place + needle.size) hay.size =
        hay.extract place hay.size := by
      calc
        needle ++ hay.extract (place + needle.size) hay.size
        _ = hay.extract place (place + needle.size) ++
              hay.extract (place + needle.size) hay.size := by rw [extract_of_standsAt hstands]
        _ = hay.extract place hay.size := by
            rw [ByteArray.extract_append_extract, Nat.min_eq_left (Nat.le_add_right _ _),
              Nat.max_eq_right hsize]
    refine ⟨hay.extract 0 place, hay.extract (place + needle.size) hay.size, ?_, ?_⟩
    · rw [hbehind, ByteArray.extract_append_extract, Nat.min_eq_left (Nat.zero_le _),
        Nat.max_eq_right (by omega), ByteArray.extract_zero_size]
    · rw [ByteArray.size_extract]
      omega
  · rintro ⟨front, behind, rfl, rfl⟩
    exact standsAt_append front needle behind

theorem le_size_of_bytesAt {hay needle : ByteArray} (hplace : BytesAt hay needle place) :
    place + needle.size ≤ hay.size :=
  le_size_of_standsAt (standsAt_iff.mpr hplace)

theorem findsFirst_firstPlace (hay : Haystack) (needle : Needle) (place count : Nat) :
    FindsFirst (fun other => place ≤ other ∧ other < place + count ∧
      occursAt hay needle other = true) (firstPlace hay needle place count) := by
  induction count generalizing place with
  | zero =>
      intro other hother
      omega
  | succ count ih =>
      rw [firstPlace]
      cases hoccurs : occursAt hay needle place with
      | true =>
          exact ⟨⟨Nat.le_refl _, by omega, hoccurs⟩, fun other hother => hother.1⟩
      | false =>
          refine (ih (place + 1)).congr fun other => ?_
          constructor
          · rintro ⟨hle, hlt, hother⟩
            exact ⟨by omega, by omega, hother⟩
          · rintro ⟨hle, hlt, hother⟩
            have hne : place ≠ other := fun heq => by simp [← heq, hoccurs] at hother
            exact ⟨by omega, by omega, hother⟩

theorem findsLast_lastPlace (hay : Haystack) (needle : Needle) (count : Nat) :
    FindsLast (fun other => other < count ∧ occursAt hay needle other = true)
      (lastPlace hay needle count) := by
  induction count with
  | zero =>
      intro other hother
      omega
  | succ place ih =>
      rw [lastPlace]
      cases hoccurs : occursAt hay needle place with
      | true =>
          exact ⟨⟨Nat.lt_succ_self _, hoccurs⟩, fun other hother => Nat.le_of_lt_succ hother.1⟩
      | false =>
          refine ih.congr fun other => ?_
          constructor
          · rintro ⟨hlt, hother⟩
            exact ⟨by omega, hother⟩
          · rintro ⟨hlt, hother⟩
            have hne : place ≠ other := fun heq => by simp [← heq, hoccurs] at hother
            exact ⟨by omega, hother⟩

theorem findsFirst_findBytes (hay needle : ByteArray) :
    FindsFirst (BytesAt hay needle) (findBytes hay (.ofBytes needle)) := by
  have hsize : (Needle.ofBytes needle).bytes.size = needle.size := rfl
  by_cases hlong : needle.size ≤ hay.size
  · rw [findBytes, hsize, if_pos hlong]
    refine (findsFirst_firstPlace _ _ _ _).congr fun place => ?_
    rw [occursAt_ofBytes, standsAt_iff]
    refine ⟨fun hplace => hplace.2.2, fun hplace => ⟨Nat.zero_le _, ?_, hplace⟩⟩
    have hle := le_size_of_bytesAt hplace
    omega
  · rw [findBytes, hsize, if_neg hlong]
    exact fun place hplace =>
      hlong (Nat.le_trans (Nat.le_add_left _ _) (le_size_of_bytesAt hplace))

theorem findsLast_findLastBytes (hay needle : ByteArray) :
    FindsLast (BytesAt hay needle) (findLastBytes hay (.ofBytes needle)) := by
  have hsize : (Needle.ofBytes needle).bytes.size = needle.size := rfl
  by_cases hlong : needle.size ≤ hay.size
  · rw [findLastBytes, hsize, if_pos hlong]
    refine (findsLast_lastPlace _ _ _).congr fun place => ?_
    rw [occursAt_ofBytes, standsAt_iff]
    refine ⟨fun hplace => hplace.2, fun hplace => ⟨?_, hplace⟩⟩
    have hle := le_size_of_bytesAt hplace
    omega
  · rw [findLastBytes, hsize, if_neg hlong]
    exact fun place hplace =>
      hlong (Nat.le_trans (Nat.le_add_left _ _) (le_size_of_bytesAt hplace))

/-- Whether a position of a text is followed by the characters of a needle. -/
def CharsAt (text needle : String) (position : Nat) : Prop :=
  position ≤ text.length ∧ needle.toList <+: text.toList.drop position

instance (text needle : String) (position : Nat) : Decidable (CharsAt text needle position) :=
  inferInstanceAs (Decidable (_ ∧ _))

theorem leadsBefore_eq (bytes : ByteArray) (stop : Nat) :
    leadsBefore bytes stop = (bytes.data.toList.take stop).countP isLeadByte := by
  rw [leadsBefore, ByteArray.toList, toList_loop_eq, List.reverse_nil, List.nil_append,
    List.drop_zero, ByteArray.data_extract, Array.toList_extract, List.extract_eq_drop_take',
    List.drop_zero]

theorem leadsBefore_mono (bytes : ByteArray) {a b : Nat} (hle : a ≤ b) :
    leadsBefore bytes a ≤ leadsBefore bytes b := by
  rw [leadsBefore_eq, leadsBefore_eq]
  exact (List.take_sublist_take_left hle).countP_le

theorem charPosition_mono (text : String) {a b : Nat} (hle : a ≤ b) :
    charPosition text a ≤ charPosition text b :=
  leadsBefore_mono _ (by omega)

theorem charPosition_le (text : String) (offset : Nat) :
    charPosition text offset ≤ text.length := by
  rw [← charCount_eq]
  exact leadsBefore_mono _ (Nat.min_le_right _ _)

/-- Bytes of a needle stand where its characters follow; those of the empty one everywhere. -/
theorem charsAt_of_bytesAt (hplace : BytesAt text.toByteArray needle.toByteArray place) :
    CharsAt text needle (charPosition text place) := by
  refine ⟨charPosition_le text place, ?_⟩
  by_cases hneedle : needle = ""
  · rw [hneedle, String.toList_empty]
    exact List.nil_prefix
  · obtain ⟨cursor, ⟨passed, htext, hoffset, -⟩, rfl, hfollows⟩ :=
      exists_cursor_of_standsAt hneedle (standsAt_iff.mpr hplace)
    rw [hoffset, charPosition_eq htext, htext, List.drop_left]
    exact hfollows

theorem bytesAt_of_charsAt {position : Nat} (hposition : CharsAt text needle position) :
    BytesAt text.toByteArray needle.toByteArray (byteOffset text position) := by
  obtain ⟨behind, hbehind⟩ := hposition.2
  refine ⟨(String.ofList (text.toList.take position)).toByteArray,
    (String.ofList behind).toByteArray, ?_, ?_⟩
  · rw [toByteArray_of_append (List.take_append_drop position text.toList).symm, ← hbehind,
      String.ofList_append, String.toByteArray_append, String.ofList_toList]
  · rw [String.size_toByteArray, utf8ByteSize_ofList, byteOffset_eq]

theorem exists_bytesAt {position : Nat} (hposition : CharsAt text needle position) :
    ∃ place, BytesAt text.toByteArray needle.toByteArray place ∧
      charPosition text place = position := by
  refine ⟨_, bytesAt_of_charsAt hposition, ?_⟩
  rw [charPosition_byteOffset, Nat.min_eq_left hposition.1]

theorem findsFirst_find (text needle : String) :
    FindsFirst (CharsAt text needle) (find text (.ofText needle)) :=
  (findsFirst_findBytes text.toByteArray needle.toByteArray).map
    (fun _ _ => charPosition_mono text) (fun _ => charsAt_of_bytesAt) fun _ => exists_bytesAt

theorem findsLast_findLast (text needle : String) :
    FindsLast (CharsAt text needle) (findLast text (.ofText needle)) :=
  (findsLast_findLastBytes text.toByteArray needle.toByteArray).map
    (fun _ _ => charPosition_mono text) (fun _ => charsAt_of_bytesAt) fun _ => exists_bytesAt

theorem charsAt_empty {position : Nat} : CharsAt text "" position ↔ position ≤ text.length := by
  rw [CharsAt, String.toList_empty]
  exact and_iff_left List.nil_prefix

theorem find_empty (text : String) : find text (.ofText "") = some 0 := by
  refine (findsFirst_find text "").unique ⟨?_, ?_⟩ fun _ _ => Nat.le_antisymm
  · exact charsAt_empty.mpr (Nat.zero_le _)
  · exact fun other _ => Nat.zero_le other

theorem findLast_empty (text : String) : findLast text (.ofText "") = some text.length := by
  refine (findsLast_findLast text "").unique ⟨?_, ?_⟩
    fun _ _ hab hba => Nat.le_antisymm hba hab
  · exact charsAt_empty.mpr (Nat.le_refl _)
  · exact fun other hother => (charsAt_empty.mp hother)

theorem contains_iff (text needle : String) :
    contains text (.ofText needle) = true ↔ ∃ position, CharsAt text needle position := by
  rw [← (findsFirst_find text needle).isSome_iff, find, Option.isSome_map]
  rfl

/-- Whether places are found in turn: each comes before all others among those that are left at an
edge, which then moves on, and none is left behind the last one. -/
inductive FindsInTurn (before : Nat → Nat → Prop) (left : Nat → Nat → Prop) (moved : Nat → Nat) :
    Nat → List Nat → Prop
  | done {edge : Nat} (hnone : Finds before (left edge) none) :
      FindsInTurn before left moved edge []
  | found {edge place : Nat} {rest : List Nat} (hfirst : Finds before (left edge) (some place))
      (hrest : FindsInTurn before left moved (moved place) rest) :
      FindsInTurn before left moved edge (place :: rest)

namespace FindsInTurn

variable {before left : Nat → Nat → Prop} {moved : Nat → Nat} {edge : Nat} {places : List Nat}

theorem unique {others : List Nat} (hplaces : FindsInTurn before left moved edge places)
    (hothers : FindsInTurn before left moved edge others)
    (hantisymm : ∀ a b, before a b → before b a → a = b) : places = others := by
  induction hplaces generalizing others with
  | done hnone =>
      cases hothers with
      | done => rfl
      | found hfirst => exact absurd hfirst.1 (hnone _)
  | found hfirst _ ih =>
      cases hothers with
      | done hnone => exact absurd hfirst.1 (hnone _)
      | found hother hrest =>
          obtain rfl := Option.some.inj (hfirst.unique hother hantisymm)
          exact congrArg _ (ih hrest)

theorem move {other : Nat} (hplaces : FindsInTurn before left moved edge places)
    (hsame : ∀ place, left edge place ↔ left other place) :
    FindsInTurn before left moved other places := by
  cases hplaces with
  | done hnone => exact .done (hnone.congr hsame)
  | found hfirst hrest => exact .found (hfirst.congr hsame) hrest

end FindsInTurn

/-- Whether a search goes from left to right, on from the end of each occurrence. -/
abbrev FindsForward (hay needle : ByteArray) : Nat → List Nat → Prop :=
  FindsInTurn (· ≤ ·) (fun start place => start ≤ place ∧ BytesAt hay needle place)
    (· + needle.size)

/-- Whether a search goes from right to left, back from the beginning of each occurrence. -/
abbrev FindsBackward (hay needle : ByteArray) : Nat → List Nat → Prop :=
  FindsInTurn (· ≥ ·) (fun stop place => place + needle.size ≤ stop ∧ BytesAt hay needle place) id

theorem findsForward_occurrencesFrom {hay needle : ByteArray} (hneedle : 0 < needle.size)
    (start : Nat) :
    FindsForward hay needle start (occurrencesFrom (.ofBytes hay) (.ofBytes needle) start) := by
  have hsize : (Needle.ofBytes needle).bytes.size = needle.size := rfl
  fun_induction occurrencesFrom (.ofBytes hay) (.ofBytes needle) start with
  | case1 start _ hoccurs ih =>
      rw [occursAt_ofBytes, standsAt_iff] at hoccurs
      rw [hsize, Nat.max_eq_right hneedle] at ih ⊢
      exact .found ⟨⟨Nat.le_refl _, hoccurs⟩, fun other hother => hother.1⟩ ih
  | case2 start _ hoccurs ih =>
      rw [occursAt_ofBytes, standsAt_iff] at hoccurs
      refine ih.move fun place => and_congr_left fun hplace => ?_
      have hne : start ≠ place := fun heq => hoccurs (heq ▸ hplace)
      omega
  | case3 start hshort =>
      refine .done fun place hplace => hshort ?_
      exact Nat.le_trans (Nat.add_le_add_right hplace.1 _) (le_size_of_bytesAt hplace.2)

theorem findsBackward_occurrencesBefore {hay needle : ByteArray} (hneedle : 0 < needle.size)
    (stop : Nat) :
    FindsBackward hay needle stop (occurrencesBefore (.ofBytes hay) (.ofBytes needle) stop) := by
  have hsize : (Needle.ofBytes needle).bytes.size = needle.size := rfl
  fun_induction occurrencesBefore (.ofBytes hay) (.ofBytes needle) stop with
  | case1 stop hfits last hoccurs ih =>
      rw [occursAt_ofBytes, standsAt_iff] at hoccurs
      refine .found ⟨⟨Nat.le_of_eq (Nat.sub_add_cancel hfits.2), hoccurs⟩, fun other hother => ?_⟩ ih
      exact Nat.le_sub_of_add_le hother.1
  | case2 stop hfits last hoccurs ih =>
      rw [occursAt_ofBytes, standsAt_iff] at hoccurs
      refine ih.move fun place => and_congr_left fun hplace => ?_
      have hne : last ≠ place := fun heq => hoccurs (heq ▸ hplace)
      omega
  | case3 stop hshort =>
      refine .done fun place hplace => hshort ⟨hneedle, ?_⟩
      exact Nat.le_trans (Nat.le_add_left _ _) hplace.1

/-- Any search from left to right gives these occurrences. -/
theorem occurrences_of_contract {hay needle : ByteArray} {places : List Nat}
    (hneedle : 0 < needle.size) (hplaces : FindsForward hay needle 0 places) :
    occurrences hay (.ofBytes needle) = places := by
  rw [occurrences_eq]
  exact (findsForward_occurrencesFrom hneedle 0).unique hplaces fun _ _ => Nat.le_antisymm

/-- Any search from right to left gives these occurrences. -/
theorem occurrencesFromRight_of_contract {hay needle : ByteArray} {places : List Nat}
    (hneedle : 0 < needle.size) (hplaces : FindsBackward hay needle hay.size places) :
    occurrencesFromRight hay (.ofBytes needle) = places := by
  rw [occurrencesFromRight_eq]
  exact (findsBackward_occurrencesBefore hneedle hay.size).unique hplaces
    fun _ _ hab hba => Nat.le_antisymm hba hab

/-- The positions at which a needle occurs, from left to right and each behind the end of the one
before it. -/
def charOccurrences (needle : List Char) (position : Nat) : List Char → List Nat
  | [] => []
  | c :: rest =>
    if needle.isPrefixOf (c :: rest) then
      position :: charOccurrences needle (position + needle.length) (rest.drop (needle.length - 1))
    else
      charOccurrences needle (position + 1) rest
termination_by chars => chars.length

/-- The occurrences that are found in the bytes from a place between characters on are those in the
characters behind it. -/
theorem map_charPosition_occurrencesFrom (hneedle : needle ≠ "") {front chars : List Char}
    (htext : text.toList = front ++ chars) :
    (occurrencesFrom (.ofBytes text.toByteArray) (.ofText needle) (sizeOf front)).map
        (charPosition text) = charOccurrences needle.toList front.length chars := by
  have hsize : (Needle.ofText needle).bytes.size = sizeOf needle.toList := by
    rw [sizeOf_toList]
    rfl
  have hpositive : 0 < sizeOf needle.toList := by
    rw [sizeOf_toList]
    exact Nat.pos_of_ne_zero (mt String.utf8ByteSize_eq_zero_iff.mp hneedle)
  generalize hposition : front.length = position
  fun_induction charOccurrences needle.toList position chars generalizing front with
  | case1 position =>
      rw [List.append_nil] at htext
      rw [occurrencesFrom, if_neg, List.map_nil]
      rw [hsize, ← htext, sizeOf_toList]
      exact Nat.not_le_of_lt (Nat.lt_add_of_pos_right hpositive)
  | case2 position c rest hfollows ih =>
      obtain ⟨behind, hbehind⟩ := List.isPrefixOf_iff_prefix.mp hfollows
      have hon : Cursor.On text ⟨sizeOf front, front.getLast?, c :: rest⟩ :=
        ⟨front, htext, rfl, rfl⟩
      have hstands : standsAt text.toByteArray needle.toByteArray (sizeOf front) = true :=
        (hon.standsAt_iff hneedle).mpr ⟨behind, hbehind⟩
      have hfits : sizeOf front + (Needle.ofText needle).bytes.size ≤
          (Haystack.ofBytes text.toByteArray).bytes.size := le_size_of_standsAt hstands
      have hlength : needle.toList.length - 1 + 1 = needle.toList.length :=
        Nat.sub_add_cancel (List.length_pos_iff.mpr (mt String.toList_eq_nil_iff.mp hneedle))
      have hrest : rest.drop (needle.toList.length - 1) = behind := by
        rw [← List.drop_succ_cons (a := c), hlength, ← hbehind, List.drop_left]
      rw [← occursAt_ofBytes] at hstands
      rw [occurrencesFrom, if_pos hfits, Needle.ofText, if_pos hstands, ← Needle.ofText,
        List.map_cons, charPosition_eq htext, hposition, hsize, Nat.max_eq_right hpositive,
        ← sizeOf_append, ih]
      · rw [htext, hrest, ← hbehind, List.append_assoc]
      · rw [List.length_append, hposition]
  | case3 position c rest hhere ih =>
      have hon : Cursor.On text ⟨sizeOf front, front.getLast?, c :: rest⟩ :=
        ⟨front, htext, rfl, rfl⟩
      rw [List.isPrefixOf_iff_prefix] at hhere
      have hsizeFront : sizeOf front + c.utf8Size = sizeOf (front ++ [c]) := by
        rw [sizeOf_append]
        rfl
      rw [occurrencesFrom_skip fun i hi => hon.not_occursAt_within hneedle hhere hi, hsizeFront, ih]
      · rw [htext, List.append_assoc, List.singleton_append]
      · rw [List.length_append, hposition, List.length_singleton]

theorem map_charPosition_occurrences (hneedle : needle ≠ "") (text : String) :
    (occurrences text.toByteArray (.ofText needle)).map (charPosition text) =
      charOccurrences needle.toList 0 text.toList := by
  rw [occurrences_eq]
  exact map_charPosition_occurrencesFrom hneedle (List.nil_append text.toList).symm

end TextColumns.Text
