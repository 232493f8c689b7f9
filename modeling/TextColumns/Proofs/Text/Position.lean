import TextColumns.Proofs.Text.Boundary
import TextColumns.Proofs.Text.Utf8

/-!
Positions counted by leading bytes are positions in the list of characters, since the encoding of a
character has one leading byte.
-/

namespace TextColumns.Text

theorem isLeadByte_ofNat {n : Nat} (hn : n < 256) :
    isLeadByte (UInt8.ofNat n) = decide (n < 0x80 ∨ 0xC0 ≤ n) := by
  have hall : ∀ k : Fin 256, isLeadByte (UInt8.ofNat k) = decide (k.val < 0x80 ∨ 0xC0 ≤ k.val) := by
    decide +kernel
  exact hall ⟨n, hn⟩

theorem isLeadByte_lead {n : Nat} (hn : n < 256) (hlead : n < 0x80 ∨ 0xC0 ≤ n) :
    isLeadByte (UInt8.ofNat n) = true := by
  rw [isLeadByte_ofNat hn, decide_eq_true hlead]

theorem isLeadByte_follower {n : Nat} (hlow : 0x80 ≤ n) (hhigh : n ≤ 0xBF) :
    isLeadByte (UInt8.ofNat n) = false := by
  rw [isLeadByte_ofNat (by omega), decide_eq_false (by omega)]

theorem countP_isLeadByte_encode (c : Char) :
    (String.utf8EncodeChar c).countP isLeadByte = 1 := by
  have hscalar : c.val.toNat < 0xD800 ∨ (0xDFFF < c.val.toNat ∧ c.val.toNat < 0x110000) := c.valid
  have hone {lead : Nat} (hlead : lead < 256) (hlow : lead < 0x80 ∨ 0xC0 ≤ lead)
      {followers : List UInt8} (hfollowers : ∀ b ∈ followers, isLeadByte b = false) :
      (UInt8.ofNat lead :: followers).countP isLeadByte = 1 := by
    rw [List.countP_cons_of_pos (isLeadByte_lead hlead hlow),
      List.countP_eq_zero.mpr fun b hb => by simp [hfollowers b hb]]
  rw [String.utf8EncodeChar]
  generalize c.val.toNat = v at hscalar
  split
  · exact hone (by omega) (by omega) (List.forall_mem_nil _)
  split
  · exact hone (by omega) (by omega)
      (List.forall_mem_singleton.mpr (isLeadByte_follower (by omega) (by omega)))
  split
  · refine hone (by omega) (by omega) (List.forall_mem_cons.mpr ⟨?_, ?_⟩)
    · exact isLeadByte_follower (by omega) (by omega)
    · exact List.forall_mem_singleton.mpr (isLeadByte_follower (by omega) (by omega))
  · refine hone (by omega) (by omega) (List.forall_mem_cons.mpr ⟨?_, List.forall_mem_cons.mpr
      ⟨?_, List.forall_mem_singleton.mpr ?_⟩⟩)
    · exact isLeadByte_follower (by omega) (by omega)
    · exact isLeadByte_follower (by omega) (by omega)
    · exact isLeadByte_follower (by omega) (by omega)

theorem countP_isLeadByte_ofList (chars : List Char) :
    (String.ofList chars).toByteArray.toList.countP isLeadByte = chars.length := by
  rw [String.toByteArray_ofList, toList_utf8Encode]
  induction chars with
  | nil => rfl
  | cons c rest ih =>
      rw [List.flatMap_cons, List.countP_append, countP_isLeadByte_encode, ih, List.length_cons,
        Nat.add_comm]

theorem toByteArray_of_append {text : String} {front behind : List Char}
    (htext : text.toList = front ++ behind) :
    text.toByteArray = (String.ofList front).toByteArray ++ (String.ofList behind).toByteArray := by
  rw [← String.toByteArray_append, ← String.ofList_append, ← htext, String.ofList_toList]

/-- The characters in front of a place are as many as its position says. -/
theorem charPosition_eq {text : String} {front behind : List Char}
    (htext : text.toList = front ++ behind) : charPosition text (sizeOf front) = front.length := by
  have hle : sizeOf front ≤ text.utf8ByteSize := (isBoundary_of_append htext).le
  have hfront : text.toByteArray.extract 0 (sizeOf front) = (String.ofList front).toByteArray := by
    rw [toByteArray_of_append htext]
    apply ByteArray.extract_append_eq_left
    rw [String.size_toByteArray, utf8ByteSize_ofList]
  rw [charPosition, Nat.min_eq_left hle, leadsBefore, hfront, countP_isLeadByte_ofList]

theorem toList_data (text : String) :
    text.toByteArray.data.toList = text.toList.flatMap String.utf8EncodeChar := by
  have hlist := toList_utf8Encode text.toList
  rw [ByteArray.toList, toList_loop_eq, List.reverse_nil, List.nil_append, List.drop_zero] at hlist
  rw [← hlist, String.utf8Encode_toList]

theorem length_encode (chars : List Char) :
    (chars.flatMap String.utf8EncodeChar).length = sizeOf chars := by
  induction chars with
  | nil => rfl
  | cons c rest ih =>
      rw [List.flatMap_cons, List.length_append, ih, String.length_utf8EncodeChar, sizeOf]

/-- A byte is a line feed only if it is one as a character. -/
theorem beq_lineFeed_of_mem_encode {c : Char} {b : UInt8} (hb : b ∈ String.utf8EncodeChar c) :
    (b == 10) = (c == '\n') := by
  have hscalar : c.val.toNat < 0xD800 ∨ (0xDFFF < c.val.toNat ∧ c.val.toNat < 0x110000) := c.valid
  have hc : (c == '\n') = decide (c.val.toNat = 10) := by
    rw [Bool.beq_eq_decide_eq]
    refine decide_eq_decide.mpr ⟨fun heq => heq ▸ rfl, fun heq => ?_⟩
    exact Char.ext (UInt32.toNat_inj.mp heq)
  have hbyte {n : Nat} (hn : n < 256) : (UInt8.ofNat n == 10) = decide (n = 10) := by
    rw [Bool.beq_eq_decide_eq]
    refine decide_eq_decide.mpr ⟨fun heq => ?_, fun heq => heq ▸ rfl⟩
    rw [← UInt8.toNat_ofNat_of_lt' hn, heq]
    rfl
  rw [String.utf8EncodeChar] at hb
  rw [hc]
  generalize c.val.toNat = v at hscalar hb
  -- All bytes of longer characters are beyond those of ASCII.
  have hlong {n : Nat} (hn : n < 256) (hhigh : 0x80 ≤ n) (hv : 0x80 ≤ v) :
      (UInt8.ofNat n == 10) = decide (v = 10) := by
    rw [hbyte hn, decide_eq_false (by omega), decide_eq_false (by omega)]
  split at hb
  · rw [List.mem_singleton.mp hb]
    exact hbyte (by omega)
  split at hb
  · simp only [List.mem_cons, List.not_mem_nil, or_false] at hb
    rcases hb with rfl | rfl <;> exact hlong (by omega) (by omega) (by omega)
  split at hb
  · simp only [List.mem_cons, List.not_mem_nil, or_false] at hb
    rcases hb with rfl | rfl | rfl <;> exact hlong (by omega) (by omega) (by omega)
  · simp only [List.mem_cons, List.not_mem_nil, or_false] at hb
    rcases hb with rfl | rfl | rfl | rfl <;> exact hlong (by omega) (by omega) (by omega)

theorem Cursor.On.beq_byte_behind {text : String} {offset : Nat} {before : Option Char} {c : Char}
    {rest : List Char} (hon : Cursor.On text ⟨offset, before, c :: rest⟩) :
    text.toByteArray.data[offset]?.map (· == 10) = some (c == '\n') := by
  obtain ⟨passed, htext, rfl, -⟩ := hon
  have hpositive : 0 < (String.utf8EncodeChar c).length := by
    rw [String.length_utf8EncodeChar]
    exact c.utf8Size_pos
  rw [← Array.getElem?_toList, toList_data, htext, List.flatMap_append, List.flatMap_cons,
    ← length_encode, List.getElem?_append_right (Nat.le_refl _), Nat.sub_self,
    List.getElem?_append_left hpositive, List.getElem?_eq_getElem hpositive, Option.map_some,
    beq_lineFeed_of_mem_encode (List.getElem_mem hpositive)]

theorem Cursor.On.beq_byte_before {text : String} {cursor : Cursor} (hon : Cursor.On text cursor)
    {c : Char} (hbefore : cursor.before = some c) :
    text.toByteArray.data[cursor.offset - 1]?.map (· == 10) = some (c == '\n') := by
  obtain ⟨passed, htext, hoffset, hlast⟩ := hon
  obtain ⟨front, rfl⟩ := List.getLast?_eq_some_iff.mp (hlast.symm.trans hbefore)
  have hpositive := c.utf8Size_pos
  have hindex : (String.utf8EncodeChar c).length - 1 < (String.utf8EncodeChar c).length := by
    rw [String.length_utf8EncodeChar]
    omega
  have hlength : cursor.offset - 1 = (front.flatMap String.utf8EncodeChar).length +
      ((String.utf8EncodeChar c).length - 1) := by
    rw [hoffset, sizeOf_append, length_encode, String.length_utf8EncodeChar, sizeOf, sizeOf]
    omega
  rw [← Array.getElem?_toList, toList_data, htext, List.append_assoc, List.flatMap_append, hlength,
    List.getElem?_append_right (Nat.le_add_right _ _), Nat.add_sub_cancel_left,
    List.singleton_append, List.flatMap_cons, List.getElem?_append_left hindex,
    List.getElem?_eq_getElem hindex, Option.map_some,
    beq_lineFeed_of_mem_encode (List.getElem_mem hindex)]

theorem size_between {text : String} {start stop : Nat} (hstart : IsBoundary text start)
    (hstop : IsBoundary text stop) : (between text start stop).utf8ByteSize = stop - start := by
  rw [← String.size_toByteArray, toByteArray_between hstart hstop, ByteArray.size_extract,
    String.size_toByteArray, Nat.min_eq_left hstop.le]

theorem between_eq_ofList {text : String} {front middle behind : List Char}
    (htext : text.toList = front ++ (middle ++ behind)) :
    between text (sizeOf front) (sizeOf (front ++ middle)) = String.ofList middle := by
  have hstop : IsBoundary text (sizeOf (front ++ middle)) :=
    isBoundary_of_append (htext.trans (List.append_assoc ..).symm)
  have hsize (chars : List Char) : (String.ofList chars).toByteArray.size = sizeOf chars := by
    rw [String.size_toByteArray, utf8ByteSize_ofList]
  rw [← String.toByteArray_inj, toByteArray_between (isBoundary_of_append htext) hstop,
    toByteArray_of_append htext, String.ofList_append, String.toByteArray_append, sizeOf_append]
  have hextract := @ByteArray.extract_append_size_add (String.ofList front).toByteArray
    ((String.ofList middle).toByteArray ++ (String.ofList behind).toByteArray) 0 (sizeOf middle)
  rw [hsize, Nat.add_zero] at hextract
  rw [hextract]
  exact ByteArray.extract_append_eq_left (hsize middle).symm

theorem Extent.Within.exists_chars {text : String} {extent : Extent} (hwithin : extent.Within text)
    (hle : extent.start ≤ extent.stop) :
    ∃ front middle behind, text.toList = front ++ (middle ++ behind) ∧
      extent.start = sizeOf front ∧ extent.stop = sizeOf (front ++ middle) := by
  obtain ⟨front, rest, htext, hstart⟩ := isBoundary_iff.mp hwithin.start
  obtain ⟨passed, behind, hpassed, hstop⟩ := isBoundary_iff.mp hwithin.stop
  have honStart : Cursor.On text ⟨sizeOf front, front.getLast?, rest⟩ := ⟨front, htext, rfl, rfl⟩
  have honStop : Cursor.On text ⟨sizeOf passed, passed.getLast?, behind⟩ :=
    ⟨passed, hpassed, rfl, rfl⟩
  obtain ⟨middle, rfl, hsize⟩ := honStart.exists_between honStop (by rwa [← hstart, ← hstop])
  refine ⟨front, middle, behind, htext, hstart, ?_⟩
  rw [hstop, sizeOf_append]
  exact hsize

end TextColumns.Text
