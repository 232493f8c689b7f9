import TextColumns.Proofs.Transform.Pad

/-!
Columns brought to any width at all.  As long as the size of every text that comes out fits a
machine word, the texts are stored, or they are refused as too large.  In wider columns the sizes
wrap: the checks pass, and the texts are written beyond their ranges.
-/

namespace TextColumns.Transform

open Store (maxElementSize)

theorem sizeOf_le_mul_length (chars : List Char) : Text.sizeOf chars ≤ 4 * chars.length := by
  induction chars with
  | nil => exact Nat.zero_le _
  | cons c chars ih =>
      have hsize := c.utf8Size_le_four
      rw [List.length_cons, Text.sizeOf]
      omega

variable {width : Nat} {text : String}

theorem left_add_right_padPlan (width : Nat) (side : Side) (policy : PadPolicy) (text : String) :
    (padPlan width side policy text).left + (padPlan width side policy text).right =
      width - text.toList.length := by
  by_cases hwidth : width ≤ text.toList.length
  · rw [padPlan, if_pos hwidth]
    exact (Nat.sub_eq_zero_of_le hwidth).symm
  · rw [padPlan, if_neg hwidth]
    cases side with
    | left => rfl
    | right => exact Nat.zero_add _
    | both => exact Nat.add_sub_of_le (Nat.div_le_self _ 2)

theorem utf8ByteSize_padded (width : Nat) (side : Side) (fill : Char) (policy : PadPolicy)
    (text : String) :
    (padded width side (String.singleton fill) policy text).utf8ByteSize =
      (width - text.toList.length) * fill.utf8Size + Text.sizeOf (keptChars width policy text) := by
  rw [padded_eq, String.utf8ByteSize_append, String.utf8ByteSize_append, Text.utf8ByteSize_copies,
    Text.utf8ByteSize_copies, String.utf8ByteSize_singleton, Text.utf8ByteSize_ofList,
    Nat.add_right_comm, ← Nat.add_mul, left_add_right_padPlan]

theorem utf8ByteSize_zeroFilled (width : Nat) (text : String) :
    (zeroFilled width text).utf8ByteSize = text.utf8ByteSize + (width - text.toList.length) := by
  have hsize := congrArg String.utf8ByteSize (append_splitSign text)
  have hzero : "0".utf8ByteSize = 1 := rfl
  rw [String.utf8ByteSize_append] at hsize
  rw [zeroFilled, String.utf8ByteSize_append, String.utf8ByteSize_append,
    Text.utf8ByteSize_copies, hzero]
  omega

/-- Below a quarter of the words no fill makes a size wrap. -/
theorem utf8ByteSize_padded_lt (hwidth : 4 * width < Word.count)
    (htext : text.utf8ByteSize < Word.count) (side : Side) (fill : Char) (policy : PadPolicy) :
    (padded width side (String.singleton fill) policy text).utf8ByteSize < Word.count := by
  rw [utf8ByteSize_padded]
  obtain ⟨behind, hbehind⟩ := exists_append_keptChars width policy text
  have hkept := congrArg Text.sizeOf hbehind
  rw [Text.sizeOf_append, Text.sizeOf_toList] at hkept
  by_cases hshort : width ≤ text.toList.length
  · rw [Nat.sub_eq_zero_of_le hshort]
    omega
  · have hfill := Nat.mul_le_mul_left (width - text.toList.length) fill.utf8Size_le_four
    have hlength := sizeOf_le_mul_length text.toList
    rw [Text.sizeOf_toList] at hlength
    omega

theorem utf8ByteSize_zeroFilled_lt (hwidth : width + text.utf8ByteSize < Word.count) :
    (zeroFilled width text).utf8ByteSize < Word.count := by
  rw [utf8ByteSize_zeroFilled]
  omega

theorem counted_pad (store : Store) (width : Nat) (side : Side) (fill : Char) (policy : PadPolicy) :
    Store.Counted (store.texts.toList.map
        (·.map (padded width side (String.singleton fill) policy)))
      (pad store width side (String.singleton fill) policy) := by
  rw [pad, singleChar, String.toList_singleton]
  exact Store.counted_of_counts (counts_padDraft width side policy fill)

theorem counted_zeroFill (store : Store) (width : Nat) :
    Store.Counted (store.texts.toList.map (·.map (zeroFilled width))) (zeroFill store width) :=
  Store.counted_of_counts (counts_zeroFillDraft width)

/-- Bringing the texts of a column to a width, with one character on the sides that are asked for or
with zeros, counts the bytes of what comes out in machine words.  The counts do not wrap in columns
that are narrow enough. -/
theorem counted_at_width (store : Store) (width : Nat) :
    (∀ (side : Side) (fill : Char) (policy : PadPolicy),
      let output := padded width side (String.singleton fill) policy
      (∀ text, (padDraft width side policy fill text).size =
        Word.wrap (output text).utf8ByteSize) ∧
      (4 * width < Word.count → ∀ text, text.utf8ByteSize < Word.count →
        (output text).utf8ByteSize < Word.count) ∧
      Store.Counted (store.texts.toList.map (·.map output))
        (pad store width side (String.singleton fill) policy)) ∧
    (∀ text, (zeroFillDraft width text).size =
      Word.wrap (zeroFilled width text).utf8ByteSize) ∧
    (∀ text, width + text.utf8ByteSize < Word.count →
      (zeroFilled width text).utf8ByteSize < Word.count) ∧
    Store.Counted (store.texts.toList.map (·.map (zeroFilled width))) (zeroFill store width) := by
  refine ⟨fun side fill policy => ⟨fun text => ?_, fun hwidth text htext => ?_,
      counted_pad store width side fill policy⟩,
    fun text => ?_, fun text hwidth => ?_, counted_zeroFill store width⟩
  · exact (counts_padDraft width side policy fill text).size_eq
  · exact utf8ByteSize_padded_lt hwidth htext side fill policy
  · exact (counts_zeroFillDraft width text).size_eq
  · exact utf8ByteSize_zeroFilled_lt hwidth

theorem counted_at_width_narrow :
    let store := Store.ofCells ⟨⟨#[195, 169, 45, 55]⟩, none⟩ #[⟨0, some 2⟩, ⟨2, none⟩, ⟨2, some 2⟩]
    Store.ofTexts [some "é", none, some "-7"] = .ok store ∧
      (∃ filled, zeroFill store 4 = .ok filled ∧
        filled.texts.toList = [some "000é", none, some "-007"]) ∧
      pad store 3000000000 .left "0" .keep =
        .error (.elementTooLong 0 3000000001 maxElementSize) := by
  intro store
  have hbuild : Store.ofTexts [some "é", none, some "-7"] = .ok store := by with_unfolding_all rfl
  have htexts : store.texts.toList = [some "é", none, some "-7"] := Store.texts_ofTexts hbuild
  obtain ⟨-, -, -, hzeros⟩ := counted_at_width store 4
  have hfilled : store.texts.toList.map (·.map (zeroFilled 4)) =
      [some "000é", none, some "-007"] := by
    rw [htexts]
    decide +kernel
  rw [hfilled] at hzeros
  have hfits : FitsLimits [some "000é", none, some "-007"] := ⟨by simp; decide, by decide⟩
  obtain ⟨hpadded, -⟩ := counted_at_width store 3000000000
  obtain ⟨-, -, hpadded⟩ := hpadded .left '0' .keep
  have hsize : (padded 3000000000 .left (String.singleton '0') .keep "é").utf8ByteSize =
      3000000001 := by
    rw [utf8ByteSize_padded]
    decide +kernel
  have hlong := hpadded.elementTooLong 0 (padded 3000000000 .left (String.singleton '0') .keep "é")
    (by rw [htexts]; rfl) (by rw [hsize]; decide) (by rw [hsize]; decide) nofun
  rw [hsize] at hlong
  exact ⟨hbuild, hzeros.stored hfits, hlong⟩

/-- Texts that are far too long, and are written beyond their ranges because their sizes wrap. -/
theorem writtenBeyond_at_wide_widths :
    let store := Store.ofCells ⟨⟨#[195, 169]⟩, none⟩ #[⟨0, some 2⟩]
    store.texts = #[some "é"] ∧
      maxElementSize <
        (padded 4611686018427387905 .left "😀" .keep "é").utf8ByteSize ∧
      pad store 4611686018427387905 .left "😀" .keep = .error (.writtenBeyond 0) ∧
      maxElementSize < (zeroFilled 18446744073709551615 "é").utf8ByteSize ∧
      zeroFill store 18446744073709551615 = .error (.writtenBeyond 0) ∧
      (Failure.writtenBeyond 0).kind ≠ .overflow := by
  intro store
  have hfails {result : Result Store} {failure : Failure}
      (hresult : result.casesOn some (fun _ => none) = some failure) : result = .error failure := by
    cases result with
    | ok store => cases hresult
    | error other => exact congrArg Except.error (Option.some.inj hresult)
  have hpad : pad store 4611686018427387905 .left "😀" .keep = .error (.writtenBeyond 0) :=
    hfails (by decide +kernel)
  have hzeroFill : zeroFill store 18446744073709551615 = .error (.writtenBeyond 0) :=
    hfails (by decide +kernel)
  have hfill : "😀" = String.singleton '😀' := rfl
  refine ⟨by decide +kernel, ?_, hpad, ?_, hzeroFill, nofun⟩
  · rw [hfill, utf8ByteSize_padded]
    decide +kernel
  · rw [utf8ByteSize_zeroFilled]
    decide +kernel

end TextColumns.Transform
