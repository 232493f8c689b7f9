import TextColumns.Measure.Occurrence
import TextColumns.Proofs.Number.Integer
import TextColumns.Proofs.Transform.Width

/-!
Columns of integers written as texts and read again.  Each integer comes back, also when zeros are
put behind its sign or spaces around it to bring the texts to a width.
-/

namespace TextColumns

open Number (IntegerKind numeral readInteger writeInteger)
open Transform (Side pad padded padded_eq splitSign zeroFill zeroFilled)

namespace Number

variable {kind : IntegerKind} {n : Int}

theorem sizeOf_numeral (n : Int) (zeros : Nat) :
    Text.sizeOf (numeral n zeros) = (numeral n zeros).length := by
  refine Text.sizeOf_eq_length (List.all_eq_true.mpr fun c hmem => decide_eq_true ?_)
  rcases mem_numeral hmem with rfl | hdigit
  · decide
  · have hle : c.toNat ≤ '9'.toNat :=
      UInt32.le_iff_toNat_le.mp (of_decide_eq_true (Bool.and_eq_true_iff.mp hdigit).2)
    exact Nat.lt_of_le_of_lt hle (by decide)

theorem utf8ByteSize_writeInteger (n : Int) :
    (writeInteger n).utf8ByteSize = (writeInteger n).toList.length := by
  rw [← Text.sizeOf_toList, toList_writeInteger, sizeOf_numeral]

theorem splitSign_writeInteger (n : Int) :
    (splitSign (writeInteger n)).1.toList = signOf n ∧
      (splitSign (writeInteger n)).2.toList = decimalDigits n.natAbs := by
  rw [writeInteger, signOf]
  split
  · simp [splitSign]
  · rw [splitSign, String.toList_ofList]
    have hdigit {c : Char} {rest : List Char} (hdigits : decimalDigits n.natAbs = c :: rest) :
        c.isDigit = true :=
      Nat.isDigit_of_mem_toDigits (by decide) (by decide) (hdigits ▸ List.mem_cons_self)
    split
    · cases hdigit ‹_›
    · cases hdigit ‹_›
    · exact ⟨rfl, String.toList_ofList⟩

theorem toList_copies (count : Nat) (c : Char) :
    (Text.copies count (String.singleton c)).toList = List.replicate count c := by
  induction count with
  | zero => rfl
  | succ count ih =>
      rw [Text.copies, List.replicate_succ, String.join_cons, String.toList_append,
        String.toList_singleton, List.singleton_append, List.replicate_succ, ← ih]
      rfl

theorem toList_zeroFilled (width : Nat) (n : Int) :
    (zeroFilled width (writeInteger n)).toList =
      numeral n (width - (writeInteger n).toList.length) := by
  obtain ⟨hsign, hdigits⟩ := splitSign_writeInteger n
  have hzeros := toList_copies (width - (writeInteger n).toList.length) '0'
  rw [zeroFilled, String.toList_append, String.toList_append, hsign, hdigits, List.append_assoc]
  exact congrArg (fun zeros => signOf n ++ (zeros ++ _)) hzeros

theorem toList_padded (width : Nat) (side : Side) (text : String) :
    ∃ front behind, (∀ c ∈ front, isAsciiBlank c = true) ∧ (∀ c ∈ behind, isAsciiBlank c = true) ∧
      (padded width side " " .keep text).toList = front ++ (text.toList ++ behind) := by
  have hblanks (count : Nat) : ∀ c ∈ List.replicate count ' ', isAsciiBlank c = true := by
    intro c hmem
    rw [(List.mem_replicate.mp hmem).2]
    rfl
  let plan := Transform.padPlan width side .keep text
  refine ⟨List.replicate plan.left ' ', List.replicate plan.right ' ', hblanks _, hblanks _, ?_⟩
  have hfill : " " = String.singleton ' ' := rfl
  rw [hfill, padded_eq, String.toList_append, String.toList_append, String.toList_ofList,
    List.append_assoc, toList_copies, toList_copies]
  rfl

theorem readInteger_writeInteger (hholds : kind.holds n = true) :
    readInteger kind 10 (writeInteger n) = some n :=
  readInteger_numeral hholds (toList_writeInteger n)

theorem readInteger_zeroFilled (hholds : kind.holds n = true) (width : Nat) :
    readInteger kind 10 (zeroFilled width (writeInteger n)) = some n :=
  readInteger_numeral hholds (toList_zeroFilled width n)

theorem readInteger_padded (hholds : kind.holds n = true) (width : Nat) (side : Side) :
    readInteger kind 10 (padded width side " " .keep (writeInteger n)) = some n := by
  obtain ⟨front, behind, hfront, hbehind, htext⟩ := toList_padded width side (writeInteger n)
  rw [toList_writeInteger] at htext
  exact readInteger_between hholds hfront hbehind htext

end Number

def Number.sizeAtWidth (width : Nat) (n : Int) : Nat :=
  max width (writeInteger n).utf8ByteSize

open Number (sizeAtWidth)

theorem utf8ByteSize_zeroFilled_writeInteger (width : Nat) (n : Int) :
    (zeroFilled width (writeInteger n)).utf8ByteSize = sizeAtWidth width n := by
  rw [Transform.utf8ByteSize_zeroFilled, sizeAtWidth, Number.utf8ByteSize_writeInteger]
  omega

theorem utf8ByteSize_padded_writeInteger (width : Nat) (side : Side) (n : Int) :
    (padded width side " " .keep (writeInteger n)).utf8ByteSize = sizeAtWidth width n := by
  have hfill : " " = String.singleton ' ' := rfl
  have hspace : ' '.utf8Size = 1 := rfl
  have hkept : Transform.keptChars width .keep (writeInteger n) = (writeInteger n).toList := rfl
  rw [hfill, Transform.utf8ByteSize_padded, hkept, hspace, Text.sizeOf_toList, sizeAtWidth,
    Number.utf8ByteSize_writeInteger]
  omega

/-- Whether the texts of a column of integers fit into a store once they are brought to a width. -/
structure Column.FitsAtWidth (column : Column Int) (width : Nat) : Prop where
  each : ∀ n, some n ∈ column.toOptions → sizeAtWidth width n ≤ Store.maxElementSize
  all : total (column.toOptions.toList.map fun n => (n.map (sizeAtWidth width)).getD 0) ≤
    Store.maxBufferSize

theorem Column.FitsAtWidth.fitsLimits {column : Column Int} {width : Nat}
    (hfits : column.FitsAtWidth width) {output : Int → String}
    (hsize : ∀ n, (output n).utf8ByteSize ≤ sizeAtWidth width n) :
    FitsLimits (column.toOptions.toList.map (·.map output)) where
  each text hmem := by
    obtain ⟨row, hrow, htext⟩ := List.mem_map.mp hmem
    obtain ⟨n, rfl, rfl⟩ := Option.map_eq_some_iff.mp htext
    exact Nat.le_trans (hsize n) (hfits.each n (Array.mem_toList_iff.mp hrow))
  all := by
    refine Nat.le_trans ?_ hfits.all
    rw [textSizes, List.map_map]
    refine total_map_le (fun row => ?_) _
    cases row with
    | none => exact Nat.le_refl 0
    | some n => exact hsize n

theorem Column.toOptions_ofOptions {α : Type} [Inhabited α] (rows : Array (Option α)) :
    (Column.ofOptions rows).toOptions = rows := by
  refine Array.ext_getElem? fun row => ?_
  rw [toOptions, Array.getElem?_mapIdx, ofOptions, Array.getElem?_map]
  cases hrow : rows[row]? with
  | none => rfl
  | some value =>
      have hmark : (rows.map (·.isSome))[row]? = some value.isSome := by
        rw [Array.getElem?_map, hrow, Option.map_some]
      simp only [Option.map_some, Validity.isValid_ofMarks hmark]
      cases value <;> rfl

namespace Measure

/-- Whether the integers of a column are read from a store, row by row, and missing where the
column is. -/
structure ReadsBack (kind : IntegerKind) (column : Column Int) (store : Store) : Prop where
  rows : (integers store kind).toOptions = column.toOptions
  /-- A row without a value holds a default one. -/
  filled : integers store kind = .ofOptions column.toOptions

variable {kind : IntegerKind} {column : Column Int} {store : Store}

theorem readsBack_of_texts {output : Int → String}
    (htexts : store.texts.toList = column.toOptions.toList.map (·.map output))
    (hread : ∀ n, some n ∈ column.toOptions → readInteger kind 10 (output n) = some n) :
    ReadsBack kind column store := by
  have hrows : store.texts.map (fun text => text.bind (readInteger kind 10)) =
      column.toOptions := by
    rw [← Array.toList_inj, Array.toList_map, htexts, List.map_map]
    refine (List.map_congr_left fun row hrow => ?_).trans (List.map_id _)
    cases row with
    | none => rfl
    | some n => exact hread n (Array.mem_toList_iff.mp hrow)
  have hfilled : integers store kind = .ofOptions column.toOptions := by
    rw [integers, numbers, hrows]
  exact ⟨by rw [hfilled, Column.toOptions_ofOptions], hfilled⟩

/-- A column of integers that a kind holds comes back when its texts are read, also when they have
been brought to any width at which they fit into a store, with zeros or with spaces.  The texts are
those of any routine that writes integers as usual. -/
theorem integers_come_back (hheld : ∀ n, some n ∈ column.toOptions → kind.holds n = true)
    {width : Nat} (hfits : column.FitsAtWidth width) :
    (∀ write : Int → String, (∀ n, Number.IsWritten n (write n)) →
      writtenIntegers column = Store.ofTexts (column.toOptions.toList.map (·.map write))) ∧
    ∃ store, writtenIntegers column = .ok store ∧ ReadsBack kind column store ∧
      (∃ filled, zeroFill store width = .ok filled ∧ ReadsBack kind column filled) ∧
      ∀ side, ∃ wide, pad store width side " " .keep = .ok wide ∧ ReadsBack kind column wide := by
  obtain ⟨store, hwritten, htexts⟩ :=
    (Store.builds_ofTexts _).stored (hfits.fitsLimits fun n => Nat.le_max_right width _)
  -- The texts of what is made of the store, each made of the text of an integer.
  have houtput (output : String → String) : store.texts.toList.map (·.map output) =
      column.toOptions.toList.map (·.map (output ∘ writeInteger)) := by
    rw [htexts, List.map_map]
    exact List.map_congr_left fun row _ => Option.map_map _ _ row
  refine ⟨fun write hwrite => ?_, store, hwritten, readsBack_of_texts htexts fun n hn =>
    Number.readInteger_writeInteger (hheld n hn), ?_, fun side => ?_⟩
  · rw [writtenIntegers, Number.writeInteger_of_contract hwrite]
  · have hzeros := Transform.counted_zeroFill store width
    rw [houtput] at hzeros
    obtain ⟨filled, hfilled, hfilledTexts⟩ := hzeros.stored
      (hfits.fitsLimits fun n => Nat.le_of_eq (utf8ByteSize_zeroFilled_writeInteger width n))
    exact ⟨filled, hfilled, readsBack_of_texts hfilledTexts fun n hn =>
      Number.readInteger_zeroFilled (hheld n hn) width⟩
  · have hspaces := Transform.counted_pad store width side ' ' .keep
    rw [houtput] at hspaces
    obtain ⟨wide, hwide, hwideTexts⟩ := hspaces.stored
      (hfits.fitsLimits fun n => Nat.le_of_eq (utf8ByteSize_padded_writeInteger width side n))
    exact ⟨wide, hwide, readsBack_of_texts hwideTexts fun n hn =>
      Number.readInteger_padded (hheld n hn) width side⟩

/-- The least and the greatest integer of 128 bits, at a width beyond that of their texts. -/
theorem integers_come_back_extremes :
    let kind : IntegerKind := ⟨true, 128⟩
    let rows : Array (Option Int) := #[some (-170141183460469231731687303715884105728), none,
      some 170141183460469231731687303715884105727, some (-7)]
    let column : Column Int := .ofOptions rows
    (∀ n, some n ∈ column.toOptions → kind.holds n = true) ∧ column.FitsAtWidth 45 ∧
      ∃ store filled wide, writtenIntegers column = .ok store ∧ zeroFill store 45 = .ok filled ∧
        pad store 45 .both " " .keep = .ok wide ∧ (integers store kind).toOptions = rows ∧
        (integers filled kind).toOptions = rows ∧ (integers wide kind).toOptions = rows := by
  intro kind rows column
  have hrows : column.toOptions = rows := Column.toOptions_ofOptions rows
  have hmem (n : Int) (hn : some n ∈ column.toOptions) :
      n = -170141183460469231731687303715884105728 ∨
        n = 170141183460469231731687303715884105727 ∨ n = -7 := by
    rw [hrows] at hn
    simpa [rows] using hn
  have hheld (n : Int) (hn : some n ∈ column.toOptions) : kind.holds n = true := by
    rcases hmem n hn with rfl | rfl | rfl <;> decide +kernel
  have hfits : column.FitsAtWidth 45 := by
    constructor
    · intro n hn
      rcases hmem n hn with rfl | rfl | rfl <;> decide +kernel
    · decide +kernel
  obtain ⟨-, store, hstore, hread, ⟨filled, hfilled, hzeros⟩, hpadded⟩ :=
    integers_come_back hheld hfits
  obtain ⟨wide, hwide, hspaces⟩ := hpadded .both
  exact ⟨hheld, hfits, store, filled, wide, hstore, hfilled, hwide, hread.rows.trans hrows,
    hzeros.rows.trans hrows, hspaces.rows.trans hrows⟩

end Measure

end TextColumns
