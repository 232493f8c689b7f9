import TextColumns.Proofs.Text.Cursor
import TextColumns.Text.Position

/-! Offsets between the characters of a text, and the parts of a text that are cut there. -/

namespace TextColumns.Text

/-- Whether no character of a text lies across an offset. -/
def IsBoundary (text : String) (offset : Nat) : Prop :=
  (⟨offset⟩ : String.Pos.Raw).IsValid text

instance (text : String) (offset : Nat) : Decidable (IsBoundary text offset) :=
  inferInstanceAs (Decidable ((⟨offset⟩ : String.Pos.Raw).IsValid text))

structure Extent.Within (text : String) (extent : Extent) : Prop where
  start : IsBoundary text extent.start
  stop : IsBoundary text extent.stop

instance (text : String) (extent : Extent) : Decidable (extent.Within text) :=
  decidable_of_iff (IsBoundary text extent.start ∧ IsBoundary text extent.stop)
    ⟨fun h => ⟨h.1, h.2⟩, fun h => ⟨h.start, h.stop⟩⟩

variable {text : String} {offset start stop : Nat}

theorem isBoundary_iff :
    IsBoundary text offset ↔
      ∃ front behind, text.toList = front ++ behind ∧ offset = sizeOf front := by
  rw [IsBoundary, String.Pos.Raw.isValid_iff_exists_append]
  constructor
  · intro hoffset
    obtain ⟨front, behind, htext, hoffset⟩ := hoffset
    refine ⟨front.toList, behind.toList, ?_, ?_⟩
    · rw [htext, String.toList_append]
    · rw [sizeOf_toList]
      exact congrArg String.Pos.Raw.byteIdx hoffset
  · intro htext
    obtain ⟨front, behind, htext, rfl⟩ := htext
    refine ⟨String.ofList front, String.ofList behind, ?_, ?_⟩
    · rw [← String.ofList_append, ← htext, String.ofList_toList]
    · rw [← utf8ByteSize_ofList]
      rfl

theorem isBoundary_of_append {front behind : List Char} (htext : text.toList = front ++ behind) :
    IsBoundary text (sizeOf front) :=
  isBoundary_iff.mpr ⟨front, behind, htext, rfl⟩

theorem isBoundary_zero (text : String) : IsBoundary text 0 :=
  isBoundary_of_append (List.nil_append _).symm

theorem isBoundary_utf8ByteSize (text : String) : IsBoundary text text.utf8ByteSize := by
  rw [← sizeOf_toList]
  exact isBoundary_of_append (List.append_nil _).symm

theorem IsBoundary.le (hoffset : IsBoundary text offset) : offset ≤ text.utf8ByteSize :=
  hoffset.le_utf8ByteSize

theorem Cursor.On.isBoundary {cursor : Cursor} (hon : Cursor.On text cursor) :
    IsBoundary text cursor.offset := by
  obtain ⟨passed, htext, hoffset, -⟩ := hon
  rw [hoffset]
  exact isBoundary_of_append htext

theorem Cursor.On.offset_seek {cursor : Cursor} (hon : Cursor.On text cursor) {target : Nat}
    (htarget : IsBoundary text target) (hle : cursor.offset ≤ target) :
    (cursor.seek target).offset = target := by
  obtain ⟨front, behind, htext, rfl⟩ := isBoundary_iff.mp htarget
  have hplace : Cursor.On text ⟨sizeOf front, front.getLast?, behind⟩ := ⟨front, htext, rfl, rfl⟩
  exact congrArg Cursor.offset (hon.seekFrom_eq hplace hle)

theorem IsBoundary.exists_at? (hoffset : IsBoundary text offset) :
    ∃ cursor, Cursor.at? text offset = some cursor :=
  ⟨_, Cursor.at?_eq_some_iff.mpr ⟨(Cursor.on_start text).seek offset,
    (Cursor.on_start text).offset_seek hoffset (Nat.zero_le _)⟩⟩

theorem isValidUTF8_extract (hstart : IsBoundary text start) (hstop : IsBoundary text stop) :
    (text.toByteArray.extract start stop).IsValidUTF8 :=
  String.Pos.isValidUTF8_extract ⟨_, hstart⟩ ⟨_, hstop⟩

theorem toByteArray_of_fromUTF8? {bytes : ByteArray} (hbytes : bytes.IsValidUTF8) :
    ((String.fromUTF8? bytes).getD "").toByteArray = bytes := by
  rw [String.fromUTF8?, dif_pos hbytes]
  rfl

theorem toByteArray_between (hstart : IsBoundary text start) (hstop : IsBoundary text stop) :
    (between text start stop).toByteArray = text.toByteArray.extract start stop :=
  toByteArray_of_fromUTF8? (isValidUTF8_extract hstart hstop)

theorem between_all (text : String) : between text 0 text.utf8ByteSize = text := by
  rw [← String.toByteArray_inj,
    toByteArray_between (isBoundary_zero text) (isBoundary_utf8ByteSize text),
    ← String.size_toByteArray, ByteArray.extract_zero_size]

theorem between_append {middle : Nat} (hstart : IsBoundary text start)
    (hmiddle : IsBoundary text middle) (hstop : IsBoundary text stop) (hle : start ≤ middle)
    (hle' : middle ≤ stop) :
    between text start middle ++ between text middle stop = between text start stop := by
  rw [← String.toByteArray_inj, String.toByteArray_append, toByteArray_between hstart hmiddle,
    toByteArray_between hmiddle hstop, toByteArray_between hstart hstop,
    ByteArray.extract_append_extract, Nat.min_eq_left hle, Nat.max_eq_right hle']

theorem toList_between {front behind : List Char} (htext : text.toList = front ++ behind) :
    (between text (sizeOf front) text.utf8ByteSize).toList = behind := by
  suffices hbetween : between text (sizeOf front) text.utf8ByteSize = String.ofList behind by
    rw [hbetween, String.toList_ofList]
  rw [← String.toByteArray_inj, toByteArray_between (isBoundary_of_append htext)
    (isBoundary_utf8ByteSize text)]
  have hsplit : text = String.ofList front ++ String.ofList behind := by
    rw [← String.ofList_append, ← htext, String.ofList_toList]
  rw [hsplit, String.toByteArray_append, String.utf8ByteSize_append, utf8ByteSize_ofList]
  apply ByteArray.extract_append_eq_right
  · rw [String.size_toByteArray, utf8ByteSize_ofList]
  · rw [String.size_toByteArray, String.size_toByteArray, utf8ByteSize_ofList,
      utf8ByteSize_ofList]

theorem splitWhile {kind : Char → Bool} {front rest : List Char} (hfront : ∀ c ∈ front, kind c = true)
    (hrest : ∀ c ∈ rest.head?, kind c = false) :
    (front ++ rest).takeWhile kind = front ∧ (front ++ rest).dropWhile kind = rest := by
  rw [List.takeWhile_append_of_pos hfront, List.dropWhile_append_of_pos hfront]
  cases rest with
  | nil => simp
  | cons c rest =>
      have hc : ¬ kind c = true := by simpa using hrest c rfl
      simp [hc]

theorem prefix_upTo (limit : Option Nat) (found : List α) : upTo limit found <+: found := by
  cases limit with
  | none => exact List.prefix_refl _
  | some n => exact List.take_prefix n found

theorem prefixSize_eq (chars : List Char) (position : Nat) :
    prefixSize chars position = sizeOf (chars.take position) := by
  induction chars generalizing position with
  | nil => simp [prefixSize, sizeOf]
  | cons c rest ih =>
      cases position with
      | zero => rfl
      | succ position => rw [prefixSize, ih, List.take_succ_cons, sizeOf]

theorem sizeOf_eq_length {chars : List Char} (hascii : chars.all Unicode.isAscii = true) :
    sizeOf chars = chars.length := by
  induction chars with
  | nil => rfl
  | cons c rest ih =>
      obtain ⟨hc, hrest⟩ := Bool.and_eq_true_iff.mp hascii
      have hsize : c.utf8Size = 1 := by
        refine Char.utf8Size_eq_one_iff.mpr ?_
        have hlt : c.toNat < 128 := of_decide_eq_true hc
        exact UInt32.le_iff_toNat_le.mpr (Nat.le_of_lt_succ hlt)
      rw [sizeOf, hsize, ih hrest, List.length_cons, Nat.add_comm]

theorem byteOffset_eq (text : String) (position : Nat) :
    byteOffset text position = sizeOf (text.toList.take position) := by
  by_cases hascii : isAscii text = true
  · rw [byteOffset, if_pos hascii]
    have htake : (text.toList.take position).all Unicode.isAscii = true :=
      List.all_eq_true.mpr fun c hc => List.all_eq_true.mp hascii c (List.mem_of_mem_take hc)
    rw [sizeOf_eq_length htake, List.length_take, ← sizeOf_toList, sizeOf_eq_length hascii]
  · rw [byteOffset, if_neg hascii]
    exact prefixSize_eq _ _

theorem within_charSpan (text : String) (start : Nat) (length : Option Nat) :
    (charSpan text start length).Within text := by
  have hfirst : IsBoundary text (byteOffset text start) := by
    rw [byteOffset_eq]
    exact isBoundary_of_append (List.take_append_drop _ _).symm
  cases length with
  | none => exact ⟨hfirst, isBoundary_utf8ByteSize text⟩
  | some n =>
      refine ⟨hfirst, ?_⟩
      have htext : text.toList = text.toList.take start ++ text.toList.drop start :=
        (List.take_append_drop _ _).symm
      rw [charSpan, byteOffset_eq, byteOffset_eq, toList_between htext, ← sizeOf_append]
      refine isBoundary_iff.mpr ⟨_, (text.toList.drop start).drop n, ?_, rfl⟩
      rw [List.append_assoc, List.take_append_drop, List.take_append_drop]

end TextColumns.Text
