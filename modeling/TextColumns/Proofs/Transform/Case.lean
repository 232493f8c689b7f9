import TextColumns.Proofs.Store.Fills
import TextColumns.Proofs.Text.Utf8
import TextColumns.Transform.Case

/-!
Case conversion.  On texts of ASCII the conversion of bytes gives the encoding of what the conversion
of characters gives, so both ways of converting fill their ranges with the same text.
-/

namespace TextColumns.Transform

open Unicode (isAscii)

theorem forall_ascii {P : Char → Prop} (hall : ∀ n : Fin 128, P (Char.ofNat n)) {c : Char}
    (hc : isAscii c = true) : P c := by
  have hchar := hall ⟨c.toNat, of_decide_eq_true hc⟩
  rwa [Char.ofNat_toNat] at hchar

section Chars

variable {c : Char} (hc : isAscii c = true)
include hc

theorem ofUInt8_toUInt8 : Char.ofUInt8 c.toUInt8 = c :=
  forall_ascii (P := fun c => Char.ofUInt8 c.toUInt8 = c) (by decide +kernel) hc

theorem utf8EncodeChar_ascii : String.utf8EncodeChar c = [c.toUInt8] :=
  forall_ascii (P := fun c => String.utf8EncodeChar c = [c.toUInt8]) (by decide +kernel) hc

theorem upperText_ascii :
    Unicode.upperText c = [Char.ofUInt8 (upperByte c.toUInt8)] ∧
      isAscii (Char.ofUInt8 (upperByte c.toUInt8)) = true :=
  forall_ascii (P := fun c => Unicode.upperText c = [Char.ofUInt8 (upperByte c.toUInt8)] ∧
    isAscii (Char.ofUInt8 (upperByte c.toUInt8)) = true) (by decide +kernel) hc

theorem lowerText_ascii :
    Unicode.lowerText c = [Char.ofUInt8 (lowerByte c.toUInt8)] ∧
      isAscii (Char.ofUInt8 (lowerByte c.toUInt8)) = true :=
  forall_ascii (P := fun c => Unicode.lowerText c = [Char.ofUInt8 (lowerByte c.toUInt8)] ∧
    isAscii (Char.ofUInt8 (lowerByte c.toUInt8)) = true) (by decide +kernel) hc

theorem isUppercase_ascii : Unicode.isUppercase c = isUpperByte c.toUInt8 :=
  forall_ascii (P := fun c => Unicode.isUppercase c = isUpperByte c.toUInt8) (by decide +kernel) hc

theorem isLowercase_ascii : Unicode.isLowercase c = isLowerByte c.toUInt8 :=
  forall_ascii (P := fun c => Unicode.isLowercase c = isLowerByte c.toUInt8) (by decide +kernel) hc

theorem isAlphabetic_ascii :
    Unicode.isAlphabetic c = (isUpperByte c.toUInt8 || isLowerByte c.toUInt8) :=
  forall_ascii (P := fun c => Unicode.isAlphabetic c =
    (isUpperByte c.toUInt8 || isLowerByte c.toUInt8)) (by decide +kernel) hc

theorem CaseMode.convert_ascii (mode : CaseMode) (first afterLetter : Bool) :
    mode.convert first afterLetter c =
        [Char.ofUInt8 (mode.convertByte first afterLetter c.toUInt8)] ∧
      isAscii (Char.ofUInt8 (mode.convertByte first afterLetter c.toUInt8)) = true := by
  have hupper := upperText_ascii hc
  have hlower := lowerText_ascii hc
  cases mode with
  | upper => exact hupper
  | lower => exact hlower
  | capitalize =>
      cases first with
      | true => simpa only [convert, convertByte, if_true] using hupper
      | false => simpa only [convert, convertByte, Bool.false_eq_true, if_false] using hlower
  | title =>
      cases afterLetter with
      | true => simpa only [convert, convertByte, if_true] using hlower
      | false => simpa only [convert, convertByte, Bool.false_eq_true, if_false] using hupper
  | swap =>
      simp only [convert, convertByte, isUppercase_ascii hc, isLowercase_ascii hc]
      split
      · exact hlower
      · split
        next => exact hupper
        next hother =>
          -- A byte that is no letter is the upper case of itself.
          rw [upperByte, if_neg hother, ofUInt8_toUInt8 hc]
          exact ⟨rfl, hc⟩

end Chars

theorem toUInt8_ofUInt8 (b : UInt8) : (Char.ofUInt8 b).toUInt8 = b := by
  have hall : ∀ n : Fin 256, (Char.ofUInt8 (UInt8.ofNat n)).toUInt8 = UInt8.ofNat n := by
    decide +kernel
  have hb := hall ⟨b.toNat, b.toNat_lt⟩
  rwa [UInt8.ofNat_toNat] at hb

theorem flatMap_encode_ascii {chars : List Char} (hchars : ∀ c ∈ chars, isAscii c = true) :
    chars.flatMap String.utf8EncodeChar = chars.map Char.toUInt8 := by
  rw [List.map_eq_flatMap]
  exact List.flatMap_congr fun c hc => utf8EncodeChar_ascii (hchars c hc)

theorem CaseMode.convertFrom_ascii (mode : CaseMode) (first afterLetter : Bool)
    {chars : List Char} (hchars : ∀ c ∈ chars, isAscii c = true) :
    (mode.convertFrom first afterLetter chars).map Char.toUInt8 =
        mode.convertBytesFrom first afterLetter (chars.map Char.toUInt8) ∧
      ∀ c ∈ mode.convertFrom first afterLetter chars, isAscii c = true := by
  induction chars generalizing first afterLetter with
  | nil => exact ⟨rfl, nofun⟩
  | cons c rest ih =>
      obtain ⟨hc, hrest⟩ := List.forall_mem_cons.mp hchars
      obtain ⟨hconvert, hascii⟩ := mode.convert_ascii hc first afterLetter
      obtain ⟨hbytes, hothers⟩ := ih false (isUpperByte c.toUInt8 || isLowerByte c.toUInt8) hrest
      rw [convertFrom, hconvert, isAlphabetic_ascii hc, List.map_append, hbytes]
      refine ⟨?_, List.forall_mem_append.mpr ⟨List.forall_mem_singleton.mpr hascii, hothers⟩⟩
      rw [List.map_singleton, toUInt8_ofUInt8]
      rfl

theorem length_convertBytesFrom (mode : CaseMode) (first afterLetter : Bool)
    (bytes : List UInt8) :
    (mode.convertBytesFrom first afterLetter bytes).length = bytes.length := by
  induction bytes generalizing first afterLetter with
  | nil => rfl
  | cons b rest ih => exact congrArg Nat.succ (ih _ _)

def CaseMode.converted (mode : CaseMode) (text : String) : String :=
  String.ofList (mode.convertChars text.toList)

theorem CaseMode.convertBytes_ascii (mode : CaseMode) {text : String}
    (hascii : Text.isAscii text = true) :
    mode.convertBytes text.toByteArray.toList =
      (mode.convertChars text.toList).flatMap String.utf8EncodeChar := by
  have hchars : ∀ c ∈ text.toList, isAscii c = true := List.all_eq_true.mp hascii
  obtain ⟨hbytes, hconverted⟩ := mode.convertFrom_ascii true false hchars
  rw [convertBytes, convertChars, flatMap_encode_ascii hconverted, hbytes,
    ← flatMap_encode_ascii hchars, ← Text.toList_utf8Encode, String.utf8Encode_toList]

theorem CaseMode.toByteArray_converted (mode : CaseMode) {text : String}
    (hascii : Text.isAscii text = true) :
    (mode.convertBytes text.toByteArray.toList).toByteArray = (mode.converted text).toByteArray := by
  rw [mode.convertBytes_ascii hascii, ← Text.toList_utf8Encode, Text.toByteArray_toList,
    converted, String.toByteArray_ofList]

theorem CaseMode.size_convertBytes (mode : CaseMode) (bytes : ByteArray) :
    (mode.convertBytes bytes.toList).toByteArray.size = bytes.size := by
  rw [List.size_toByteArray, convertBytes, length_convertBytesFrom, ← List.size_toByteArray,
    Text.toByteArray_toList]

/-- A draft that takes the short cut for ASCII only where it may: `counts` says so for the size, and
`writes` for the writing. -/
def CaseMode.draftBy (mode : CaseMode) (counts writes : String → Bool) (text : String) : Draft where
  size :=
    if Text.isAscii text && counts text then text.utf8ByteSize
    else Text.sizeOf (mode.convertChars text.toList)
  write writer :=
    if Text.isAscii text && writes text then
      writer.push ⟨(mode.convertBytes text.toByteArray.toList).toArray⟩
    else (mode.convertChars text.toList).foldl Writer.pushChar writer

theorem CaseMode.draft_eq (mode : CaseMode) :
    mode.draft = mode.draftBy (fun _ => true) (fun _ => true) := by
  funext text
  rw [draft, draftBy, Bool.and_true]
  split <;> rfl

theorem CaseMode.utf8ByteSize_converted (mode : CaseMode) {text : String}
    (hascii : Text.isAscii text = true) : (mode.converted text).utf8ByteSize = text.utf8ByteSize := by
  rw [← String.size_toByteArray, ← mode.toByteArray_converted hascii, mode.size_convertBytes,
    String.size_toByteArray]

/-- Wherever the short cut is taken, the draft asks for the converted text and writes it. -/
theorem CaseMode.fills_draftBy (mode : CaseMode) (counts writes : String → Bool) (text : String) :
    (mode.draftBy counts writes text).Fills (mode.converted text) := by
  have hsize : (mode.draftBy counts writes text).size = (mode.converted text).utf8ByteSize := by
    rw [draftBy]
    split
    next hcounts => exact (mode.utf8ByteSize_converted (Bool.and_eq_true_iff.mp hcounts).1).symm
    next => exact (Text.utf8ByteSize_ofList _).symm
  have hwrite :
      Writer.Appends (mode.draftBy counts writes text).write (mode.converted text) := by
    simp only [draftBy]
    split
    next hwrites =>
      have hbytes := mode.toByteArray_converted (Bool.and_eq_true_iff.mp hwrites).1
      refine Writer.appends_push ?_
      rw [← hbytes]
      exact ByteArray.ext List.data_toByteArray.symm
    next => exact Writer.appends_pushEach _
  exact Draft.fills_of_appends hsize hwrite

theorem CaseMode.fills_draft (mode : CaseMode) (text : String) :
    (mode.draft text).Fills (mode.converted text) := by
  rw [mode.draft_eq]
  exact mode.fills_draftBy _ _ text

/-- What is built does not depend on where the short cut is taken. -/
theorem CaseMode.transform_draftBy (mode : CaseMode) (store : Store)
    (counts writes : String → Bool) :
    store.transform (mode.draftBy counts writes) =
      Store.ofTexts (store.texts.toList.map (·.map mode.converted)) :=
  Store.build_eq_ofTexts (forall₂_map_rows fun text _ => mode.fills_draftBy counts writes text)

/-- The short cut for texts of ASCII gives the encoding of what the characters are converted to,
byte for byte, and a store comes out the same wherever it is taken. -/
theorem converts_ascii_by_bytes (mode : CaseMode) :
    (∀ text, Text.isAscii text = true →
      mode.convertBytes text.toByteArray.toList =
          (mode.convertChars text.toList).flatMap String.utf8EncodeChar ∧
        (mode.convertBytes text.toByteArray.toList).length = text.toByteArray.toList.length) ∧
    ∀ (store : Store) (counts writes : String → Bool),
      store.transform (mode.draftBy counts writes) = convertCase store mode := by
  refine ⟨fun text hascii => ⟨mode.convertBytes_ascii hascii, ?_⟩, fun store counts writes => ?_⟩
  · rw [CaseMode.convertBytes, length_convertBytesFrom]
  · rw [convertCase, mode.draft_eq, mode.transform_draftBy, mode.transform_draftBy]

theorem converts_ascii_by_bytes_title :
    let text := "ab-CD e2f"
    let store := Store.ofCells ⟨text.toByteArray, none⟩ #[⟨0, some 9⟩, ⟨9, none⟩, ⟨6, some 2⟩]
    Text.isAscii text = true ∧
      CaseMode.title.convertBytes text.toByteArray.toList = "Ab-Cd E2F".toByteArray.toList ∧
      (CaseMode.title.convertChars text.toList).flatMap String.utf8EncodeChar =
        "Ab-Cd E2F".toByteArray.toList ∧
      (CaseMode.title.convertBytes text.toByteArray.toList).length = 9 ∧
      store.transform (CaseMode.title.draftBy (fun _ => true) (fun text => text == "e2")) =
        convertCase store .title := by
  intro text store
  have hascii : Text.isAscii text = true := by decide +kernel
  have hvalue : CaseMode.title.convertBytes text.toByteArray.toList =
      "Ab-Cd E2F".toByteArray.toList := by decide +kernel
  obtain ⟨hconverts, htransform⟩ := converts_ascii_by_bytes .title
  obtain ⟨hbytes, hlength⟩ := hconverts text hascii
  have hnine : text.toByteArray.toList.length = 9 := by decide +kernel
  exact ⟨hascii, hvalue, hbytes ▸ hvalue, hlength.trans hnine, htransform store _ _⟩

end TextColumns.Transform
