import TextColumns.Proofs.Store.Valid
import TextColumns.Proofs.Text.Utf8
import Mathlib.Data.List.Forall2

namespace TextColumns.Store

inductive Accepted (bytes : ByteArray) (offset : Int) : Int → Cell → Prop
  | missing : Accepted bytes offset nullLength ⟨offset.toNat, none⟩
  | present {length : Int} (hlength : 0 ≤ length)
      (hinside : (offset + length).toNat ≤ bytes.size)
      (hfault : Text.utf8Fault? (bytes.extract offset.toNat (offset + length).toNat) = none) :
      Accepted bytes offset length ⟨offset.toNat, some length.toNat⟩

def checkEntry (bytes : ByteArray) (previous offset length : Int) (row : Nat) :
    Except PartsFault Cell :=
  if offset < previous then .error (.decreasingOffset offset row)
  else if length = nullLength then .ok ⟨offset.toNat, none⟩
  else if length < 0 then .error (.negativeLength length row)
  else if bytes.size < (offset + length).toNat then
    .error (.beyondBuffer row (offset + length).toNat bytes.size)
  else
    match Text.utf8Fault? (bytes.extract offset.toNat (offset + length).toNat) with
    | some fault => .error (.notUtf8 row fault)
    | none => .ok ⟨offset.toNat, some length.toNat⟩

section Entries

variable {bytes : ByteArray} {previous offset length : Int} {row nullCount count : Nat} {cell : Cell}
  {entries : List (Int × Int)} {cells : List Cell}

theorem checkEntries_cons_eq :
    checkEntries bytes previous row nullCount ((offset, length) :: entries) =
      (checkEntry bytes previous offset length row).bind fun cell =>
        (checkEntries bytes offset (row + 1) (nullCount + cell.nulls) entries).map
          (Prod.map (cell :: ·) id) := by
  rw [checkEntries, checkEntry]
  by_cases hoffset : offset < previous
  · rw [if_pos hoffset, if_pos hoffset]
    rfl
  rw [if_neg hoffset, if_neg hoffset]
  by_cases hnull : length = nullLength
  · rw [if_pos hnull, if_pos hnull]
    simp only [Except.bind, Cell.nulls, Option.isNone_none, if_true]
    cases checkEntries bytes offset (row + 1) (nullCount + 1) entries <;> rfl
  rw [if_neg hnull, if_neg hnull]
  by_cases hnegative : length < 0
  · rw [if_pos hnegative, if_pos hnegative]
    rfl
  rw [if_neg hnegative, if_neg hnegative]
  by_cases hinside : bytes.size < (offset + length).toNat
  · rw [if_pos hinside, if_pos hinside]
    rfl
  rw [if_neg hinside, if_neg hinside]
  cases Text.utf8Fault? (bytes.extract offset.toNat (offset + length).toNat) with
  | some fault => rfl
  | none =>
      simp only [Except.bind, Cell.nulls, Option.isNone_some, Bool.false_eq_true, if_false,
        Nat.add_zero]
      cases checkEntries bytes offset (row + 1) nullCount entries <;> rfl

theorem checkEntry_eq_ok_iff :
    checkEntry bytes previous offset length row = .ok cell ↔
      previous ≤ offset ∧ Accepted bytes offset length cell := by
  rw [checkEntry]
  constructor
  · intro hcheck
    by_cases hoffset : offset < previous
    · rw [if_pos hoffset] at hcheck
      cases hcheck
    refine ⟨Int.not_lt.mp hoffset, ?_⟩
    rw [if_neg hoffset] at hcheck
    by_cases hnull : length = nullLength
    · rw [if_pos hnull] at hcheck
      cases hcheck
      exact hnull ▸ .missing
    rw [if_neg hnull] at hcheck
    by_cases hnegative : length < 0
    · rw [if_pos hnegative] at hcheck
      cases hcheck
    rw [if_neg hnegative] at hcheck
    by_cases hinside : bytes.size < (offset + length).toNat
    · rw [if_pos hinside] at hcheck
      cases hcheck
    rw [if_neg hinside] at hcheck
    cases hfault : Text.utf8Fault? (bytes.extract offset.toNat (offset + length).toNat) with
    | some fault =>
        rw [hfault] at hcheck
        cases hcheck
    | none =>
        rw [hfault] at hcheck
        cases hcheck
        exact .present (Int.not_lt.mp hnegative) (Nat.le_of_not_lt hinside) hfault
  · rintro ⟨hoffset, haccepted⟩
    rw [if_neg (Int.not_lt.mpr hoffset)]
    cases haccepted with
    | missing => exact if_pos rfl
    | present hlength hinside hfault =>
        have hpresent : length ≠ nullLength := by
          rintro rfl
          exact absurd hlength (by decide)
        rw [if_neg hpresent, if_neg (Int.not_lt.mpr hlength), if_neg (Nat.not_lt.mpr hinside),
          hfault]

theorem checkEntries_cons_eq_ok_iff :
    checkEntries bytes previous row nullCount ((offset, length) :: entries) = .ok (cells, count) ↔
      previous ≤ offset ∧ ∃ cell others, cells = cell :: others ∧
        Accepted bytes offset length cell ∧
        checkEntries bytes offset (row + 1) (nullCount + cell.nulls) entries =
          .ok (others, count) := by
  rw [checkEntries_cons_eq]
  constructor
  · intro hcheck
    cases hentry : checkEntry bytes previous offset length row with
    | error fault =>
        rw [hentry] at hcheck
        cases hcheck
    | ok cell =>
        obtain ⟨hoffset, haccepted⟩ := checkEntry_eq_ok_iff.mp hentry
        rw [hentry, Except.bind] at hcheck
        cases hothers : checkEntries bytes offset (row + 1) (nullCount + cell.nulls) entries with
        | error fault =>
            rw [hothers] at hcheck
            cases hcheck
        | ok others =>
            rw [hothers] at hcheck
            cases hcheck
            exact ⟨hoffset, cell, others.1, rfl, haccepted, hothers⟩
  · rintro ⟨hoffset, cell, others, rfl, haccepted, hothers⟩
    rw [checkEntry_eq_ok_iff.mpr ⟨hoffset, haccepted⟩, Except.bind, hothers]
    rfl

/-- Entries are accepted exactly if their offsets do not decrease and each of them is; those of
missing elements are counted. -/
theorem checkEntries_eq_ok_iff :
    checkEntries bytes previous row nullCount entries = .ok (cells, count) ↔
      (previous :: entries.map Prod.fst).IsChain (· ≤ ·) ∧
        List.Forall₂ (fun entry cell => Accepted bytes entry.1 entry.2 cell) entries cells ∧
        count = nullCount + countNulls cells.toArray := by
  induction entries generalizing previous row nullCount cells with
  | nil =>
      rw [checkEntries, List.forall₂_nil_left_iff]
      constructor
      · intro hcells
        cases hcells
        exact ⟨.singleton _, rfl, rfl⟩
      · rintro ⟨-, rfl, rfl⟩
        rfl
  | cons entry entries ih =>
      obtain ⟨offset, length⟩ := entry
      rw [checkEntries_cons_eq_ok_iff, List.map_cons, List.isChain_cons_cons,
        List.forall₂_cons_left_iff]
      constructor
      · rintro ⟨hoffset, cell, others, rfl, haccepted, hothers⟩
        obtain ⟨hchain, hrest, rfl⟩ := ih.mp hothers
        refine ⟨⟨hoffset, hchain⟩, ⟨cell, others, haccepted, hrest, rfl⟩, ?_⟩
        rw [countNulls_cons, Nat.add_assoc]
      · rintro ⟨⟨hoffset, hchain⟩, ⟨cell, others, haccepted, hrest, rfl⟩, rfl⟩
        refine ⟨hoffset, cell, others, rfl, haccepted, ih.mpr ⟨hchain, hrest, ?_⟩⟩
        rw [countNulls_cons, Nat.add_assoc]

end Entries

theorem Accepted.holds {buffer : Buffer} {offset length : Int} {cell : Cell}
    (haccepted : Accepted buffer.bytes offset length cell) (hoffset : 0 ≤ offset)
    (hfits : length ≤ maxInt32) {size : Nat} (hsize : cell.length = some size) :
    buffer.Holds cell.offset size := by
  cases haccepted with
  | missing => cases hsize
  | present hlength hinside hfault =>
      cases hsize
      rw [Int.toNat_add hoffset hlength] at hinside hfault
      exact ⟨Int.toNat_le.mpr hfits, hinside, Text.isValidUTF8_of_utf8Fault? hfault⟩

theorem holds_of_checkEntries {buffer : Buffer} {previous : Int} {row nullCount count : Nat}
    {entries : List (Int × Int)} {cells : List Cell}
    (hcheck : checkEntries buffer.bytes previous row nullCount entries = .ok (cells, count))
    (hprevious : 0 ≤ previous) (hfits : ∀ entry ∈ entries, entry.2 ≤ maxInt32) {cell : Cell}
    (hcell : cell ∈ cells) {size : Nat} (hsize : cell.length = some size) :
    buffer.Holds cell.offset size := by
  induction entries generalizing previous row nullCount cells with
  | nil =>
      cases hcheck
      cases hcell
  | cons entry entries ih =>
      obtain ⟨hfirst, hrest⟩ := List.forall_mem_cons.mp hfits
      obtain ⟨hoffset, first, others, rfl, haccepted, hothers⟩ := checkEntries_cons_eq_ok_iff.mp hcheck
      have hnext : 0 ≤ entry.1 := Int.le_trans hprevious hoffset
      cases hcell with
      | head => exact haccepted.holds hnext hfirst hsize
      | tail _ hcell => exact ih hothers hnext hrest hcell

theorem ofParts_eq_ok {bytes : ByteArray} {offsets lengths : List Int} {store : Store}
    (hparts : ofParts bytes offsets lengths = .ok store) :
    ∃ cells count, checkEntries bytes 0 0 0 (offsets.zip lengths) = .ok (cells, count) ∧
      store = ofCells ⟨bytes, none⟩ cells.toArray := by
  rw [ofParts] at hparts
  by_cases hsizes : offsets.length ≠ lengths.length
  · rw [if_pos hsizes] at hparts
    cases hparts
  rw [if_neg hsizes] at hparts
  cases hcheck : checkEntries bytes 0 0 0 (offsets.zip lengths) with
  | error fault =>
      rw [hcheck] at hparts
      cases hparts
  | ok found =>
      obtain ⟨cells, count⟩ := found
      obtain ⟨-, -, hcount⟩ := checkEntries_eq_ok_iff.mp hcheck
      rw [hcheck] at hparts
      cases hparts
      refine ⟨cells, count, rfl, ?_⟩
      rw [ofCells, hcount, Nat.zero_add]

theorem valid_of_ofParts {bytes : ByteArray} {offsets lengths : List Int} {store : Store}
    (hparts : ofParts bytes offsets lengths = .ok store)
    (hfits : ∀ length ∈ lengths, length ≤ maxInt32) : store.Valid := by
  obtain ⟨cells, count, hcheck, rfl⟩ := ofParts_eq_ok hparts
  apply valid_ofCells
  intro cell hcell size hsize
  have hentries : ∀ entry ∈ offsets.zip lengths, entry.2 ≤ maxInt32 :=
    fun entry hentry => hfits entry.2 (List.of_mem_zip hentry).2
  exact @holds_of_checkEntries ⟨bytes, none⟩ _ _ _ _ _ _ hcheck (Int.le_refl 0) hentries _
    (List.mem_toArray.mp hcell) _ hsize

theorem valid_of_ofParts_words {bytes : ByteArray} {offsets : List Int64} {lengths : List Int32}
    {store : Store}
    (hparts : ofParts bytes (offsets.map (·.toInt)) (lengths.map (·.toInt)) = .ok store) :
    store.Valid := by
  refine valid_of_ofParts hparts ?_
  intro length hlength
  obtain ⟨entry, -, rfl⟩ := List.mem_map.mp hlength
  exact entry.toInt_le

end TextColumns.Store
