import TextColumns.Proofs.Store.Contents
import TextColumns.Proofs.Store.Parts

/-!
Which tables are accepted for a buffer.  The offsets start from zero and do not decrease, and every
length is that of a missing element or of a text that stands in the buffer; a store of such tables
reads back just these elements.  The check can be done in words of fixed size: the words that it
converts are not negative, and no sum of them is too great.
-/

namespace TextColumns.Store

variable {bytes : ByteArray} {offset length : Int} {cell : Cell} {entries : List (Int × Int)}
  {cells : List Cell} {row : Nat}

/-- Whether an entry is one of a missing element, or of a text in the buffer. -/
def EntryFits (bytes : ByteArray) (offset length : Int) : Prop :=
  length = -1 ∨ 0 ≤ length ∧ offset + length ≤ bytes.size ∧
    (bytes.extract offset.toNat (offset + length).toNat).IsValidUTF8

/-- Whether tables describe elements of a buffer, one behind the start of the other. -/
structure TablesFit (bytes : ByteArray) (offsets lengths : List Int) : Prop where
  length_eq : offsets.length = lengths.length
  nonneg : ∀ offset ∈ offsets, 0 ≤ offset
  rising : offsets.Pairwise (· ≤ ·)
  entry : ∀ entry ∈ offsets.zip lengths, EntryFits bytes entry.1 entry.2

structure ReadsTables (store : Store) (bytes : ByteArray) (offsets lengths : List Int) : Prop where
  size_eq : store.size = lengths.length
  nullCount_eq : store.nullCount = lengths.count (-1)
  bytes?_eq : ∀ row offset length, offsets[row]? = some offset → lengths[row]? = some length →
    store.bytes? row =
      if length = -1 then none else some (bytes.extract offset.toNat (offset + length).toNat)
  text?_eq : ∀ row, (store.text? row).map String.toByteArray = store.bytes? row

theorem exists_accepted_iff :
    (∃ cell, Accepted bytes offset length cell) ↔ EntryFits bytes offset length := by
  constructor
  · rintro ⟨cell, haccepted⟩
    cases haccepted with
    | missing => exact .inl rfl
    | present hlength hinside hfault =>
        exact .inr ⟨hlength, Int.toNat_le.mp hinside, Text.isValidUTF8_of_utf8Fault? hfault⟩
  · rintro (rfl | ⟨hlength, hinside, hwellFormed⟩)
    · exact ⟨_, .missing⟩
    · exact ⟨_, .present hlength (Int.toNat_le.mpr hinside) (Text.utf8Fault?_eq_none hwellFormed)⟩

theorem exists_forall₂_accepted_iff :
    (∃ cells, List.Forall₂ (fun entry cell => Accepted bytes entry.1 entry.2 cell) entries cells) ↔
      ∀ entry ∈ entries, EntryFits bytes entry.1 entry.2 := by
  induction entries with
  | nil => exact iff_of_true ⟨[], .nil⟩ (List.forall_mem_nil _)
  | cons entry entries ih =>
      rw [List.forall_mem_cons, ← ih, ← exists_accepted_iff]
      constructor
      · rintro ⟨_, haccepted | ⟨hfirst, hrest⟩⟩
        exact ⟨⟨_, hfirst⟩, _, hrest⟩
      · rintro ⟨⟨cell, hfirst⟩, cells, hrest⟩
        exact ⟨cell :: cells, .cons hfirst hrest⟩

theorem ofParts_ok_iff {offsets lengths : List Int} :
    (∃ store, ofParts bytes offsets lengths = .ok store) ↔ TablesFit bytes offsets lengths := by
  rw [ofParts]
  by_cases hsizes : offsets.length = lengths.length
  case neg =>
    rw [if_pos hsizes]
    apply iff_of_false
    · rintro ⟨store, hstore⟩
      cases hstore
    · exact fun hfit => hsizes hfit.length_eq
  case pos =>
    rw [if_neg (not_not_intro hsizes)]
    have hchecked : (∃ cells count, checkEntries bytes 0 0 0 (offsets.zip lengths) =
        .ok (cells, count)) ↔ TablesFit bytes offsets lengths := by
      simp only [checkEntries_eq_ok_iff, exists_and_left, exists_eq, and_true,
        exists_forall₂_accepted_iff]
      rw [List.map_fst_zip (Nat.le_of_eq hsizes), List.isChain_iff_pairwise, List.pairwise_cons]
      constructor
      · rintro ⟨⟨hnonneg, hrising⟩, hentry⟩
        exact ⟨hsizes, hnonneg, hrising, hentry⟩
      · intro hfit
        exact ⟨⟨hfit.nonneg, hfit.rising⟩, hfit.entry⟩
    rw [← hchecked]
    cases checkEntries bytes 0 0 0 (offsets.zip lengths) with
    | error fault =>
        apply iff_of_false
        · rintro ⟨store, hstore⟩
          cases hstore
        · rintro ⟨cells, count, hcells⟩
          cases hcells
    | ok found => exact iff_of_true ⟨_, rfl⟩ ⟨_, _, rfl⟩

theorem kind_of_ofParts {offsets lengths : List Int} {failure : Failure}
    (hparts : ofParts bytes offsets lengths = .error failure) :
    failure.kind = .invalidArguments := by
  rw [ofParts] at hparts
  split at hparts
  · cases hparts
    rfl
  · split at hparts
    · cases hparts
      rfl
    · cases hparts

theorem Accepted.isNone_length (haccepted : Accepted bytes offset length cell) :
    cell.length.isNone = (length == -1) := by
  cases haccepted with
  | missing => rfl
  | present hlength =>
      symm
      rw [Option.isNone_some, beq_eq_false_iff_ne]
      omega

theorem Accepted.cellBytes_eq {buffer : Buffer} {cells : Array Cell}
    (haccepted : Accepted buffer.bytes offset length cell) (hoffset : 0 ≤ offset) :
    (ofCells buffer cells).cellBytes cell = if length = -1 then none
      else some (buffer.bytes.extract offset.toNat (offset + length).toNat) := by
  cases haccepted with
  | missing => rfl
  | present hlength =>
      rw [if_neg (by omega), Int.toNat_add hoffset hlength]
      rfl

theorem countNulls_of_forall₂
    (haccepted : List.Forall₂ (fun entry cell => Accepted bytes entry.1 entry.2 cell)
      entries cells) : countNulls cells.toArray = (entries.map Prod.snd).count (-1) := by
  rw [countNulls, List.countP_toArray]
  induction haccepted with
  | nil => rfl
  | cons hfirst _ ih =>
      rw [List.countP_cons, List.map_cons, List.count_cons, ih, hfirst.isNone_length]

theorem exists_cell_of_forall₂
    (haccepted : List.Forall₂ (fun entry cell => Accepted bytes entry.1 entry.2 cell) entries cells)
    {entry : Int × Int} (hentry : entries[row]? = some entry) :
    ∃ cell, cells[row]? = some cell ∧ Accepted bytes entry.1 entry.2 cell := by
  induction haccepted generalizing row with
  | nil => cases hentry
  | @cons _ cell _ _ hfirst _ ih =>
      cases row with
      | zero =>
          cases hentry
          exact ⟨cell, rfl, hfirst⟩
      | succ row => exact ih hentry

theorem readsTables_of_ofParts {offsets lengths : List Int} {store : Store}
    (hparts : ofParts bytes offsets lengths = .ok store)
    (hfits : ∀ length ∈ lengths, length ≤ maxInt32) :
    store.ReadsTables bytes offsets lengths := by
  have hvalid := valid_of_ofParts hparts hfits
  have htables := ofParts_ok_iff.mp ⟨store, hparts⟩
  obtain ⟨cells, count, hcheck, rfl⟩ := ofParts_eq_ok hparts
  obtain ⟨-, haccepted, -⟩ := checkEntries_eq_ok_iff.mp hcheck
  refine ⟨?_, ?_, ?_, fun row => (hvalid.bytes?_eq row).symm⟩
  · rw [size, ofCells, List.size_toArray, ← haccepted.length_eq, List.length_zip,
      htables.length_eq, Nat.min_self]
  · rw [ofCells, countNulls_of_forall₂ haccepted,
      List.map_snd_zip (Nat.le_of_eq htables.length_eq.symm)]
  · intro row offset length hoffset hlength
    obtain ⟨cell, hcell, hentry⟩ := @exists_cell_of_forall₂ _ _ _ row haccepted (offset, length)
      (List.getElem?_zip_eq_some.mpr ⟨hoffset, hlength⟩)
    have hnonneg := htables.nonneg offset (List.mem_of_getElem? hoffset)
    rw [← @Accepted.cellBytes_eq _ _ _ ⟨bytes, none⟩ cells.toArray hentry hnonneg, bytes?]
    simp only [ofCells, List.getElem?_toArray, hcell, Option.bind_some]

/-- A word as one without a sign, if it is not negative. -/
def unsigned? (word : Int64) : Option UInt64 :=
  if 0 ≤ word then some word.toUInt64 else none

/-- The sum of two words, if a word can hold it. -/
def sum? (a b : UInt64) : Option UInt64 :=
  if a.toNat + b.toNat < UInt64.size then some (a + b) else none

/-- The check of one entry in words; it gives up where a word cannot hold what it should. -/
def checkEntryInWords? (bytes : ByteArray) (previous offset : Int64) (length : Int32) (row : Nat) :
    Option (Except PartsFault Cell) :=
  if offset < previous then some (.error (.decreasingOffset offset.toInt row))
  else if length = -1 then some (.ok ⟨offset.toInt.toNat, none⟩)
  else if length < 0 then some (.error (.negativeLength length.toInt row))
  else do
    let start ← unsigned? offset
    let stop ← sum? start (← unsigned? length.toInt64)
    if bytes.size < stop.toNat then some (.error (.beyondBuffer row stop.toNat bytes.size))
    else
      match Text.utf8Fault? (bytes.extract start.toNat stop.toNat) with
      | some fault => some (.error (.notUtf8 row fault))
      | none => some (.ok ⟨start.toNat, some length.toInt.toNat⟩)

def checkInWords? (bytes : ByteArray) (previous : Int64) (row nullCount : Nat) :
    List (Int64 × Int32) → Option (Except PartsFault (List Cell × Nat))
  | [] => some (.ok ([], nullCount))
  | (offset, length) :: rest =>
    match checkEntryInWords? bytes previous offset length row with
    | none => none
    | some (.error fault) => some (.error fault)
    | some (.ok cell) =>
      (checkInWords? bytes offset (row + 1) (nullCount + cell.nulls) rest).map
        (·.map (Prod.map (cell :: ·) id))

def ofPartsInWords? (bytes : ByteArray) (offsets : List Int64) (lengths : List Int32) :
    Option (Result Store) :=
  if offsets.length ≠ lengths.length then
    some (.error (.parts (.tableSizes offsets.length lengths.length)))
  else
    (checkInWords? bytes 0 0 0 (offsets.zip lengths)).map fun
      | .error fault => .error (.parts fault)
      | .ok (cells, nullCount) => .ok ⟨⟨bytes, none⟩, cells.toArray, nullCount⟩

theorem unsigned?_of_nonneg {word : Int64} (hword : 0 ≤ word.toInt) :
    ∃ value, unsigned? word = some value ∧ value.toNat = word.toInt.toNat := by
  have hnonneg : 0 ≤ word := Int64.le_iff_toInt_le.mpr hword
  refine ⟨word.toUInt64, if_pos hnonneg, ?_⟩
  have hsigned : word.toInt = word.toBitVec.toInt := rfl
  have hvalue : word.toUInt64.toNat = word.toBitVec.toNat := rfl
  have hcond := BitVec.toInt_eq_toNat_cond word.toBitVec
  have hlt := word.toBitVec.isLt
  rw [hvalue]
  omega

theorem sum?_of_lt {a b : UInt64} (hlt : a.toNat + b.toNat < UInt64.size) :
    ∃ value, sum? a b = some value ∧ value.toNat = a.toNat + b.toNat := by
  refine ⟨a + b, if_pos hlt, ?_⟩
  rw [UInt64.toNat_add]
  exact Nat.mod_eq_of_lt hlt

theorem checkEntryInWords?_eq {previous offset : Int64} {length : Int32}
    (hprevious : 0 ≤ previous.toInt) :
    checkEntryInWords? bytes previous offset length row =
      some (checkEntry bytes previous.toInt offset.toInt length.toInt row) := by
  have hmissing : length = -1 ↔ length.toInt = nullLength := Int32.toInt_inj.symm
  have hnegative : length < 0 ↔ length.toInt < 0 := Int32.lt_iff_toInt_lt
  rw [checkEntryInWords?, checkEntry]
  simp only [Int64.lt_iff_toInt_lt, hmissing, hnegative]
  by_cases hback : offset.toInt < previous.toInt
  · rw [if_pos hback, if_pos hback]
  by_cases hnull : length.toInt = nullLength
  · rw [if_neg hback, if_neg hback, if_pos hnull, if_pos hnull]
  by_cases hbelow : length.toInt < 0
  · rw [if_neg hback, if_neg hback, if_neg hnull, if_neg hnull, if_pos hbelow, if_pos hbelow]
  have hoffset : 0 ≤ offset.toInt := by omega
  have hlength : 0 ≤ length.toInt64.toInt := by rw [Int32.toInt_toInt64]; omega
  obtain ⟨start, hstart, hstartNat⟩ := unsigned?_of_nonneg hoffset
  obtain ⟨size, hsize, hsizeNat⟩ := unsigned?_of_nonneg hlength
  -- An offset has 63 bits and a length 31, so that the sum of them has no more than 64.
  obtain ⟨stop, hstop, hstopNat⟩ := @sum?_of_lt start size (by
    have hoffsetLt := offset.toInt_lt
    have hlengthLt := length.toInt_lt
    rw [hstartNat, hsizeNat, Int32.toInt_toInt64]
    simp only [UInt64.size]
    omega)
  rw [hstartNat, hsizeNat, Int32.toInt_toInt64, ← Int.toNat_add hoffset (by omega)] at hstopNat
  rw [if_neg hback, if_neg hback, if_neg hnull, if_neg hnull, if_neg hbelow, if_neg hbelow]
  simp only [hstart, hsize, hstop, hstartNat, hstopNat, Option.bind_eq_bind, Option.bind_some]
  split
  · rfl
  · cases Text.utf8Fault? (bytes.extract offset.toInt.toNat
      (offset.toInt + length.toInt).toNat) <;> rfl

theorem checkInWords?_eq {previous : Int64} {nullCount : Nat} {entries : List (Int64 × Int32)}
    (hprevious : 0 ≤ previous.toInt) :
    checkInWords? bytes previous row nullCount entries =
      some (checkEntries bytes previous.toInt row nullCount
        (entries.map fun entry => (entry.1.toInt, entry.2.toInt))) := by
  induction entries generalizing previous row nullCount with
  | nil => rfl
  | cons entry entries ih =>
      obtain ⟨offset, length⟩ := entry
      rw [checkInWords?, checkEntryInWords?_eq hprevious, List.map_cons, checkEntries_cons_eq]
      cases hentry : checkEntry bytes previous.toInt offset.toInt length.toInt row with
      | error fault => rfl
      | ok cell =>
          obtain ⟨hoffset, -⟩ := checkEntry_eq_ok_iff.mp hentry
          dsimp only
          rw [ih (Int.le_trans hprevious hoffset)]
          rfl

theorem ofPartsInWords?_eq (bytes : ByteArray) (offsets : List Int64) (lengths : List Int32) :
    ofPartsInWords? bytes offsets lengths =
      some (ofParts bytes (offsets.map (·.toInt)) (lengths.map (·.toInt))) := by
  have hzero : (0 : Int64).toInt = 0 := rfl
  rw [ofPartsInWords?, ofParts, List.length_map, List.length_map]
  split
  · rfl
  · rw [checkInWords?_eq (Int.le_of_eq hzero.symm), hzero, Option.map_some, List.zip_map]
    rfl

/-- Tables of words make a store exactly if they fit the buffer, and the elements of the store are
those that they describe; other tables are refused as invalid.  No word that the check computes is
another number than it should be. -/
theorem ofParts_accepts (bytes : ByteArray) (offsets : List Int64) (lengths : List Int32) :
    let starts := offsets.map (·.toInt)
    let sizes := lengths.map (·.toInt)
    ((∃ store, ofParts bytes starts sizes = .ok store) ↔ TablesFit bytes starts sizes) ∧
      (∀ store, ofParts bytes starts sizes = .ok store →
        store.ReadsTables bytes starts sizes) ∧
      (¬ TablesFit bytes starts sizes → ∃ failure,
        ofParts bytes starts sizes = .error failure ∧ failure.kind = .invalidArguments) ∧
      ofPartsInWords? bytes offsets lengths = some (ofParts bytes starts sizes) := by
  intro starts sizes
  refine ⟨ofParts_ok_iff, ?_, ?_, ofPartsInWords?_eq bytes offsets lengths⟩
  · intro store hstore
    apply readsTables_of_ofParts hstore
    rw [List.forall_mem_map]
    exact fun length _ => length.toInt_le
  · intro hrefused
    cases hparts : ofParts bytes starts sizes with
    | ok store => exact absurd (ofParts_ok_iff.mp ⟨store, hparts⟩) hrefused
    | error failure => exact ⟨failure, rfl, kind_of_ofParts hparts⟩

/-- A missing element between texts, and one whose offset is too small. -/
theorem ofParts_accepts_missing :
    let bytes := "abcd".toByteArray
    (∃ store, ofParts bytes [0, 1, 1] [1, -1, 3] = .ok store ∧ store.nullCount = 1 ∧
      store.bytes? 1 = none ∧ store.bytes? 2 = some "bcd".toByteArray) ∧
    ∃ failure, ofParts bytes [2, 1] [1, -1] = .error failure ∧
      failure.kind = .invalidArguments := by
  intro bytes
  have hfirst : bytes.extract 0 1 = "a".toByteArray := by decide
  have hlast : bytes.extract 1 4 = "bcd".toByteArray := by decide
  obtain ⟨haccepted, hreads, -⟩ := ofParts_accepts bytes [0, 1, 1] [1, -1, 3]
  obtain ⟨-, -, hrefused, -⟩ := ofParts_accepts bytes [2, 1] [1, -1]
  obtain ⟨store, hstore⟩ := haccepted.mpr ⟨rfl, by decide, by decide, by
    simp only [List.map_cons, List.map_nil, List.zip_cons_cons, List.zip_nil_right,
      List.forall_mem_cons]
    exact ⟨.inr ⟨by decide, by decide, hfirst ▸ "a".isValidUTF8⟩, .inl rfl,
      .inr ⟨by decide, by decide, hlast ▸ "bcd".isValidUTF8⟩, List.forall_mem_nil _⟩⟩
  obtain ⟨-, hcount, hbytes, -⟩ := hreads store hstore
  refine ⟨⟨store, hstore, hcount, ?_, ?_⟩, hrefused fun hfit => ?_⟩
  · exact (hbytes 1 1 (-1) rfl rfl).trans (if_pos rfl)
  · exact (hbytes 2 1 3 rfl rfl).trans (congrArg some hlast)
  · exact absurd hfit.rising (by decide)

end TextColumns.Store
