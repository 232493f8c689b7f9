import TextColumns.Text.Cursor

namespace TextColumns.Text

theorem sizeOf_append (a b : List Char) : sizeOf (a ++ b) = sizeOf a + sizeOf b := by
  induction a with
  | nil => simp [sizeOf]
  | cons c a ih => simp only [List.cons_append, sizeOf, ih, Nat.add_assoc]

theorem sizeOf_reverse (chars : List Char) : sizeOf chars.reverse = sizeOf chars := by
  induction chars with
  | nil => rfl
  | cons c chars ih =>
      rw [List.reverse_cons, sizeOf_append, ih, sizeOf, sizeOf, sizeOf, Nat.add_zero, Nat.add_comm]

theorem sizeOf_replicate (count : Nat) (c : Char) :
    sizeOf (List.replicate count c) = count * c.utf8Size := by
  induction count with
  | zero => rw [Nat.zero_mul]; rfl
  | succ count ih =>
      rw [List.replicate_succ, sizeOf, ih, Nat.succ_mul, Nat.add_comm]

theorem utf8ByteSize_ofList (chars : List Char) :
    (String.ofList chars).utf8ByteSize = sizeOf chars := by
  induction chars with
  | nil => rfl
  | cons c chars ih =>
      rw [String.ofList_cons, String.utf8ByteSize_append, String.utf8ByteSize_singleton, ih, sizeOf]

theorem sizeOf_toList (text : String) : sizeOf text.toList = text.utf8ByteSize := by
  rw [← utf8ByteSize_ofList, String.ofList_toList]

theorem eq_nil_of_sizeOf_eq_zero {chars : List Char} (hsize : sizeOf chars = 0) : chars = [] := by
  cases chars with
  | nil => rfl
  | cons c chars =>
      have := c.utf8Size_pos
      simp only [sizeOf] at hsize
      omega

/-- Characters at the front of a text are told by the bytes that they take. -/
theorem eq_of_append_eq_append {a b c d : List Char} (happend : a ++ b = c ++ d)
    (hsize : sizeOf a = sizeOf c) : a = c ∧ b = d := by
  induction a generalizing c with
  | nil =>
      cases c with
      | nil => exact ⟨rfl, happend⟩
      | cons x c => cases eq_nil_of_sizeOf_eq_zero hsize.symm
  | cons x a ih =>
      cases c with
      | nil => cases eq_nil_of_sizeOf_eq_zero hsize
      | cons y c =>
          obtain ⟨rfl, htail⟩ := List.cons.inj happend
          obtain ⟨rfl, rfl⟩ := ih htail (Nat.add_left_cancel hsize)
          exact ⟨rfl, rfl⟩

namespace Cursor

theorem offset_lt_of_next? {cursor behind : Cursor} {c : Char}
    (hnext : cursor.next? = some (c, behind)) : cursor.offset < behind.offset := by
  obtain ⟨rest, -, rfl⟩ := next?_eq_some hnext
  exact Nat.lt_add_of_pos_right c.utf8Size_pos

def stop (cursor : Cursor) : Nat :=
  cursor.offset + Text.sizeOf cursor.rest

theorem stop_of_next? {cursor behind : Cursor} {c : Char}
    (hnext : cursor.next? = some (c, behind)) : behind.stop = cursor.stop := by
  obtain ⟨rest, hrest, rfl⟩ := next?_eq_some hnext
  simp only [stop, Cursor.behind, hrest, Text.sizeOf, Nat.add_assoc]

theorem offset_le_stop (cursor : Cursor) : cursor.offset ≤ cursor.stop :=
  Nat.le_add_right _ _

/-- The places from a place on, behind which there are the given characters. -/
def placesFrom (offset : Nat) (before : Option Char) : List Char → List Cursor
  | [] => [⟨offset, before, []⟩]
  | c :: rest =>
    ⟨offset, before, c :: rest⟩ :: placesFrom (offset + c.utf8Size) (some c) rest

def places (cursor : Cursor) : List Cursor :=
  placesFrom cursor.offset cursor.before cursor.rest

def On (text : String) (cursor : Cursor) : Prop :=
  ∃ passed, text.toList = passed ++ cursor.rest ∧ cursor.offset = Text.sizeOf passed ∧
    cursor.before = passed.getLast?

variable {text : String} {cursor : Cursor}

theorem on_start (text : String) : On text (start text) :=
  ⟨[], rfl, rfl, rfl⟩

theorem On.stop_eq (hon : On text cursor) : cursor.stop = text.utf8ByteSize := by
  obtain ⟨passed, htext, hoffset, -⟩ := hon
  rw [stop, hoffset, ← sizeOf_append, ← htext, sizeOf_toList]

theorem On.offset_le (hon : On text cursor) : cursor.offset ≤ text.utf8ByteSize := by
  rw [← hon.stop_eq]
  exact offset_le_stop cursor

theorem On.behind {offset : Nat} {before : Option Char} {c : Char} {rest : List Char}
    (hon : On text ⟨offset, before, c :: rest⟩) :
    On text ⟨offset + c.utf8Size, some c, rest⟩ := by
  obtain ⟨passed, htext, hoffset, -⟩ := hon
  refine ⟨passed ++ [c], by simpa using htext, ?_, by simp⟩
  simp only at hoffset
  rw [sizeOf_append, hoffset]
  rfl

theorem On.next? (hon : On text cursor) {c : Char} {behind : Cursor}
    (hnext : cursor.next? = some (c, behind)) : On text behind := by
  obtain ⟨offset, before, rest⟩ := cursor
  cases rest with
  | nil => cases hnext
  | cons d rest =>
      cases hnext
      exact hon.behind

/-- A place in a text is told by its offset. -/
theorem On.eq_of_offset_eq {other : Cursor} (hon : On text cursor) (hother : On text other)
    (hoffset : cursor.offset = other.offset) : cursor = other := by
  obtain ⟨offset, before, rest⟩ := cursor
  obtain ⟨offset', before', rest'⟩ := other
  obtain ⟨passed, htext, rfl, rfl⟩ := hon
  obtain ⟨passed', htext', rfl, rfl⟩ := hother
  obtain ⟨rfl, rfl⟩ := eq_of_append_eq_append (htext.symm.trans htext') hoffset
  rfl

theorem On.seekFrom {target offset : Nat} {before : Option Char} {rest : List Char}
    (hon : On text ⟨offset, before, rest⟩) : On text (seekFrom target offset before rest) := by
  induction rest generalizing offset before with
  | nil => exact hon
  | cons c rest ih =>
      unfold Cursor.seekFrom
      split
      · exact hon
      · exact ih hon.behind

theorem On.seek (hon : On text cursor) (target : Nat) : On text (cursor.seek target) :=
  hon.seekFrom

theorem On.exists_between {place : Cursor} (hon : On text cursor) (hplace : On text place)
    (hle : cursor.offset ≤ place.offset) :
    ∃ between, cursor.rest = between ++ place.rest ∧
      place.offset = cursor.offset + Text.sizeOf between := by
  obtain ⟨passed, htext, hoffset, -⟩ := hon
  obtain ⟨passed', htext', hoffset', -⟩ := hplace
  rw [hoffset, hoffset'] at hle ⊢
  rcases List.append_eq_append_iff.mp (htext.symm.trans htext') with
    ⟨between, rfl, hrest⟩ | ⟨between, rfl, hrest⟩
  · exact ⟨between, hrest, sizeOf_append passed between⟩
  · have hsize : Text.sizeOf between = 0 := by
      rw [sizeOf_append] at hle
      omega
    obtain rfl := eq_nil_of_sizeOf_eq_zero hsize
    exact ⟨[], by simpa using hrest.symm, by simp [Text.sizeOf]⟩

theorem On.le_of_next? {c : Char} {behind place : Cursor} (hon : On text cursor)
    (hplace : On text place) (hnext : cursor.next? = some (c, behind))
    (hlt : cursor.offset < place.offset) : behind.offset ≤ place.offset := by
  obtain ⟨between, hrest, hoffset⟩ := hon.exists_between hplace (Nat.le_of_lt hlt)
  unfold Cursor.next? at hnext
  cases between with
  | nil => exact absurd hoffset (Nat.ne_of_gt hlt)
  | cons d between =>
      rw [hrest] at hnext
      obtain ⟨rfl, rfl⟩ := Prod.mk.inj (Option.some.inj hnext)
      rw [Text.sizeOf] at hoffset
      show cursor.offset + d.utf8Size ≤ place.offset
      omega

theorem On.le_of_next?_none {place : Cursor} (hon : On text cursor) (hplace : On text place)
    (hnext : cursor.next? = none) : place.offset ≤ cursor.offset := by
  have hrest : cursor.rest = [] := by
    cases hrest : cursor.rest with
    | nil => rfl
    | cons c rest =>
        rw [Cursor.next?, hrest] at hnext
        cases hnext
  have hstop : cursor.stop = cursor.offset := by rw [stop, hrest, Text.sizeOf, Nat.add_zero]
  rw [← hstop, hon.stop_eq]
  exact hplace.offset_le

theorem On.seekFrom_eq {offset : Nat} {before : Option Char} {rest : List Char}
    (hon : On text ⟨offset, before, rest⟩) (hplace : On text cursor)
    (hle : offset ≤ cursor.offset) : Cursor.seekFrom cursor.offset offset before rest = cursor := by
  induction rest generalizing offset before with
  | nil =>
      obtain ⟨between, hrest, hoffset⟩ := hon.exists_between hplace hle
      obtain ⟨rfl, -⟩ := List.append_eq_nil_iff.mp hrest.symm
      exact hon.eq_of_offset_eq hplace hoffset.symm
  | cons c rest ih =>
      by_cases hge : cursor.offset ≤ offset
      · rw [Cursor.seekFrom, if_pos hge]
        exact hon.eq_of_offset_eq hplace (Nat.le_antisymm hle hge)
      · rw [Cursor.seekFrom, if_neg hge]
        refine ih hon.behind ?_
        obtain ⟨between, hrest, hoffset⟩ := hon.exists_between hplace hle
        cases between with
        | nil => exact absurd (Nat.le_of_eq hoffset) hge
        | cons d between =>
            obtain ⟨rfl, -⟩ := List.cons.inj hrest
            simp only [Text.sizeOf] at hoffset
            omega

theorem le_seekFrom (target offset : Nat) (before : Option Char) (rest : List Char)
    (hle : target ≤ offset + Text.sizeOf rest) :
    target ≤ (Cursor.seekFrom target offset before rest).offset := by
  induction rest generalizing offset before with
  | nil => exact hle
  | cons c rest ih =>
      unfold Cursor.seekFrom
      split
      · assumption
      · rw [Text.sizeOf, ← Nat.add_assoc] at hle
        exact ih _ _ hle

theorem On.le_seek (hon : On text cursor) {target : Nat} (hle : target ≤ text.utf8ByteSize) :
    target ≤ (cursor.seek target).offset := by
  rw [← hon.stop_eq] at hle
  exact le_seekFrom target cursor.offset cursor.before cursor.rest hle

theorem at?_eq_some_iff {offset : Nat} :
    at? text offset = some cursor ↔ On text cursor ∧ cursor.offset = offset := by
  simp only [at?, beq_iff_eq, Option.ite_none_right_eq_some, Option.some.injEq]
  constructor
  · intro hoffset
    obtain ⟨hoffset, rfl⟩ := hoffset
    exact ⟨(on_start text).seek offset, hoffset⟩
  · intro hon
    obtain ⟨hon, rfl⟩ := hon
    have hseek : (start text).seek cursor.offset = cursor :=
      (on_start text).seekFrom_eq hon (Nat.zero_le _)
    exact ⟨congrArg Cursor.offset hseek, hseek⟩

theorem mem_placesFrom {offset : Nat} {before : Option Char} {rest : List Char}
    (hon : On text ⟨offset, before, rest⟩) :
    cursor ∈ placesFrom offset before rest ↔ On text cursor ∧ offset ≤ cursor.offset := by
  induction rest generalizing offset before with
  | nil =>
      simp only [placesFrom, List.mem_singleton]
      constructor
      · intro heq
        subst heq
        exact ⟨hon, Nat.le_refl _⟩
      · intro hle
        obtain ⟨hplace, hle⟩ := hle
        exact (hon.seekFrom_eq hplace hle).symm
  | cons c rest ih =>
      have hpositive := c.utf8Size_pos
      simp only [placesFrom, List.mem_cons, ih hon.behind]
      constructor
      · intro hplace
        rcases hplace with rfl | ⟨hplace, hle⟩
        · exact ⟨hon, Nat.le_refl _⟩
        · exact ⟨hplace, by omega⟩
      · intro hle
        obtain ⟨hplace, hle⟩ := hle
        obtain ⟨between, hrest, hoffset⟩ := hon.exists_between hplace hle
        cases between with
        | nil => exact .inl (hplace.eq_of_offset_eq hon hoffset)
        | cons d between =>
            obtain ⟨rfl, -⟩ := List.cons.inj hrest
            simp only [Text.sizeOf] at hoffset
            exact .inr ⟨hplace, by omega⟩

theorem mem_places (hon : On text cursor) {place : Cursor} :
    place ∈ cursor.places ↔ On text place ∧ cursor.offset ≤ place.offset :=
  mem_placesFrom hon

theorem le_of_mem_placesFrom {offset : Nat} {before : Option Char} {rest : List Char}
    {place : Cursor} (hplace : place ∈ placesFrom offset before rest) : offset ≤ place.offset := by
  induction rest generalizing offset before with
  | nil => exact List.mem_singleton.mp hplace ▸ Nat.le_refl _
  | cons c rest ih =>
      rcases List.mem_cons.mp hplace with rfl | hplace
      · exact Nat.le_refl _
      · exact Nat.le_trans (Nat.le_add_right offset c.utf8Size) (ih hplace)

theorem pairwise_placesFrom (offset : Nat) (before : Option Char) (rest : List Char) :
    (placesFrom offset before rest).Pairwise (·.offset < ·.offset) := by
  induction rest generalizing offset before with
  | nil => exact List.pairwise_singleton _ _
  | cons c rest ih =>
      refine List.pairwise_cons.mpr ⟨fun place hplace => ?_, ih _ _⟩
      exact Nat.lt_of_lt_of_le (Nat.lt_add_of_pos_right c.utf8Size_pos)
        (le_of_mem_placesFrom hplace)

theorem pairwise_places (cursor : Cursor) : cursor.places.Pairwise (·.offset < ·.offset) :=
  pairwise_placesFrom _ _ _

/-- The first place from here on behind which the given characters follow. -/
def seekChars? (chars : List Char) (cursor : Cursor) : Option Cursor :=
  cursor.places.find? fun place => chars.isPrefixOf place.rest

theorem On.of_seekChars? {chars : List Char} {place : Cursor} (hon : On text cursor)
    (hplace : cursor.seekChars? chars = some place) :
    On text place ∧ cursor.offset ≤ place.offset ∧ chars <+: place.rest := by
  have hfollows := List.find?_some hplace
  obtain ⟨hon, hle⟩ := (mem_places hon).mp (List.mem_of_find?_eq_some hplace)
  exact ⟨hon, hle, List.isPrefixOf_iff_prefix.mp hfollows⟩

def past (cursor : Cursor) : List Char → Cursor
  | [] => cursor
  | c :: chars => (cursor.behind c cursor.rest.tail).past chars

theorem offset_past (cursor : Cursor) (chars : List Char) :
    (cursor.past chars).offset = cursor.offset + Text.sizeOf chars := by
  induction chars generalizing cursor with
  | nil => rfl
  | cons c chars ih =>
      rw [past, ih, Text.sizeOf, ← Nat.add_assoc]
      rfl

theorem On.past (hon : On text cursor) {chars : List Char} (hfollows : chars <+: cursor.rest) :
    On text (cursor.past chars) := by
  induction chars generalizing cursor with
  | nil => exact hon
  | cons c chars ih =>
      obtain ⟨offset, before, rest⟩ := cursor
      obtain ⟨behind, rfl⟩ := hfollows
      exact ih hon.behind (List.prefix_append chars behind)

end Cursor

end TextColumns.Text
