import TextColumns.Proofs.PrefixSum
import TextColumns.Proofs.Store.Valid
import TextColumns.Store.Build

/-!
What is built holds what was drafted: the buffer is the drafted elements one behind the other, and
the prefix sums of their sizes tell where each of them lies.
-/

namespace TextColumns

open PrefixSum (startsFrom)

def Draft.bytes (draft : Draft) : ByteArray :=
  draft.written.range 0

/-- Whether a draft writes a text of the size that it asks for. -/
structure Draft.Sound (draft : Draft) : Prop where
  size_eq : draft.bytes.size = draft.size
  wellFormed : draft.bytes.IsValidUTF8

namespace Store

def sizes (drafts : List (Option Draft)) : List Nat :=
  drafts.map fun draft => (draft.map (·.size)).getD 0

def contents : List (Option Draft) → ByteArray
  | [] => ByteArray.empty
  | none :: rest => contents rest
  | some draft :: rest => draft.bytes ++ contents rest

variable {drafts : List (Option Draft)} {store : Store}

def firstTooLong? (row : Nat) : List (Option Draft) → Option (Nat × Nat)
  | [] => none
  | none :: rest => firstTooLong? (row + 1) rest
  | some draft :: rest =>
    if maxElementSize < draft.size then some (row, draft.size)
    else firstTooLong? (row + 1) rest

theorem sizing_of_some {row : Nat} {drafts : List (Option Draft)} {found : Nat × Nat}
    (hfirst : firstTooLong? row drafts = some found) (known : Array Nat) (nullCount : Nat) :
    sizing row known nullCount drafts = .error found := by
  induction drafts generalizing row known nullCount with
  | nil => cases hfirst
  | cons first rest ih =>
      cases first with
      | none => exact ih hfirst _ _
      | some draft =>
          rw [firstTooLong?] at hfirst
          rw [sizing]
          by_cases hsize : maxElementSize < draft.size
          · rw [if_pos hsize] at hfirst ⊢
            exact congrArg Except.error (Option.some.inj hfirst)
          · rw [if_neg hsize] at hfirst ⊢
            exact ih hfirst _ _

theorem sizing_of_none {row : Nat} {drafts : List (Option Draft)}
    (hfirst : firstTooLong? row drafts = none) (known : Array Nat) (nullCount : Nat) :
    sizing row known nullCount drafts =
      .ok (known ++ (sizes drafts).toArray, nullCount + drafts.countP (·.isNone)) := by
  induction drafts generalizing row known nullCount with
  | nil => simp [sizing, sizes]
  | cons first rest ih =>
      cases first with
      | none =>
          rw [sizing, ih hfirst]
          simp [sizes, Nat.add_assoc, Nat.add_comm 1]
      | some draft =>
          rw [firstTooLong?] at hfirst
          by_cases hsize : maxElementSize < draft.size
          · rw [if_pos hsize] at hfirst
            cases hfirst
          · rw [if_neg hsize] at hfirst
            rw [sizing, if_neg hsize, ih hfirst]
            simp [sizes]

theorem build_of_some {row size : Nat} (hfirst : firstTooLong? 0 drafts = some (row, size)) :
    build drafts = .error (.elementTooLong row size maxElementSize) := by
  rw [build, sizing_of_some hfirst]

theorem build_of_none (hfirst : firstTooLong? 0 drafts = none) :
    build drafts = placed drafts (sizes drafts).toArray (drafts.countP (·.isNone)) := by
  rw [build, sizing_of_none hfirst, Array.empty_append, Nat.zero_add]

theorem size_le_of_firstTooLong? {row : Nat} (hfirst : firstTooLong? row drafts = none)
    {draft : Draft} (hdraft : some draft ∈ drafts) : draft.size ≤ maxElementSize := by
  induction drafts generalizing row with
  | nil => cases hdraft
  | cons first rest ih =>
      cases first with
      | none =>
          cases hdraft with
          | tail _ hrest => exact ih hfirst hrest
      | some other =>
          rw [firstTooLong?] at hfirst
          by_cases hsize : maxElementSize < other.size
          · rw [if_pos hsize] at hfirst
            cases hfirst
          · rw [if_neg hsize] at hfirst
            cases hdraft with
            | head => exact Nat.le_of_not_lt hsize
            | tail _ hrest => exact ih hfirst hrest

theorem Filling.add_eq {filling : Filling} {row : Nat} {draft : Draft}
    (hoverrun : (filling.add row draft).overrun = none)
    (hutf8 : (filling.add row draft).notUtf8 = none) :
    filling.overrun = none ∧ filling.notUtf8 = none ∧ draft.Sound ∧
      (filling.add row draft).bytes = filling.bytes ++ draft.bytes := by
  obtain ⟨bytes, overrun, notUtf8⟩ := filling
  simp only [Filling.add, Option.orElse_eq_orElse, Option.orElse_eq_or,
    Option.or_eq_none_iff] at hoverrun hutf8
  obtain ⟨rfl, hbeyond⟩ := hoverrun
  obtain ⟨rfl, hwellFormed⟩ := hutf8
  have hsize : draft.bytes.size = draft.size := by
    split at hbeyond
    next => cases hbeyond
    next hfits =>
      rw [Bool.or_eq_true, not_or, bne_iff_ne] at hfits
      exact Decidable.not_not.mp hfits.2
  have hvalid : draft.bytes.IsValidUTF8 := by
    split at hwellFormed
    next hchecked => exact ByteArray.validateUTF8_eq_true_iff.mp hchecked
    next => cases hwellFormed
  exact ⟨rfl, rfl, ⟨hsize, hvalid⟩, rfl⟩

theorem fill_eq {filling : Filling} {row : Nat}
    (hoverrun : (fill filling row drafts).overrun = none)
    (hutf8 : (fill filling row drafts).notUtf8 = none) :
    filling.overrun = none ∧ filling.notUtf8 = none ∧
      (fill filling row drafts).bytes = filling.bytes ++ contents drafts ∧
      ∀ draft, some draft ∈ drafts → draft.Sound := by
  induction drafts generalizing filling row with
  | nil => exact ⟨hoverrun, hutf8, ByteArray.append_empty.symm, nofun⟩
  | cons first rest ih =>
      cases first with
      | none =>
          obtain ⟨hbefore, hbefore', hbytes, hsound⟩ := ih hoverrun hutf8
          refine ⟨hbefore, hbefore', hbytes, ?_⟩
          intro draft hdraft
          cases hdraft with
          | tail _ hrest => exact hsound draft hrest
      | some draft =>
          obtain ⟨hadd, hadd', hbytes, hsound⟩ := ih hoverrun hutf8
          obtain ⟨hbefore, hbefore', hdraft, hbytes'⟩ := Filling.add_eq hadd hadd'
          refine ⟨hbefore, hbefore', ?_, ?_⟩
          · rw [fill, hbytes, hbytes', contents, ByteArray.append_assoc]
          · intro other hother
            cases hother with
            | head => exact hdraft
            | tail _ hrest => exact hsound other hrest

/-- An element lies where the sizes in front of it end. -/
theorem extract_contents (hsound : ∀ draft, some draft ∈ drafts → draft.Sound)
    (before : ByteArray) {row : Nat} {draft : Draft} (hdraft : drafts[row]? = some (some draft)) :
    ∃ start, (startsFrom before.size (sizes drafts))[row]? = some start ∧
      start + draft.size ≤ (before ++ contents drafts).size ∧
      (before ++ contents drafts).extract start (start + draft.size) = draft.bytes := by
  induction drafts generalizing before row with
  | nil => cases hdraft
  | cons first rest ih =>
      have hrest : ∀ draft, some draft ∈ rest → draft.Sound :=
        fun draft hdraft => hsound draft (.tail _ hdraft)
      cases row with
      | zero =>
          obtain rfl : first = some draft := Option.some.inj hdraft
          have hsize := (hsound draft (.head _)).size_eq
          refine ⟨before.size, rfl, ?_, ?_⟩
          · rw [contents, ByteArray.size_append, ByteArray.size_append, hsize]
            omega
          · have hextract := @ByteArray.extract_append_size_add before
              (draft.bytes ++ contents rest) 0 draft.size
            rw [Nat.add_zero] at hextract
            rw [contents, hextract]
            exact ByteArray.extract_append_eq_left hsize.symm
      | succ row =>
          cases first with
          | none => exact ih hrest before hdraft
          | some other =>
              have hsize := (hsound other (.head _)).size_eq
              have hnext := ih hrest (before ++ other.bytes) hdraft
              rw [ByteArray.size_append, hsize, ByteArray.append_assoc] at hnext
              exact hnext

theorem layOut_getElem? {starts : List Nat} (hstarts : starts.length = drafts.length) (row : Nat) :
    (layOut drafts starts.toArray)[row]? =
      drafts[row]?.map fun draft => ⟨(starts[row]?).getD 0, draft.map (·.size)⟩ := by
  rw [layOut, List.zipWith_toArray, List.getElem?_toArray, List.getElem?_zipWith]
  cases hrow : drafts[row]? with
  | none => cases starts[row]? <;> rfl
  | some draft =>
      obtain ⟨hlt, -⟩ := List.getElem?_eq_some_iff.mp hrow
      rw [List.getElem?_eq_getElem (hstarts ▸ hlt)]
      rfl

def filling (drafts : List (Option Draft)) : Filling :=
  fill ⟨ByteArray.empty, none, none⟩ 0 drafts

/-- Where an element is overrun, it does not matter what else is written. -/
theorem placed_of_overrun {row : Nat} (hoverrun : (filling drafts).overrun = some row)
    (sizes : Array Nat) (nullCount : Nat) :
    placed drafts sizes nullCount =
      (PrefixSum.exclusive PrefixSum.workers sizes).bind fun starts =>
        if maxBufferSize < starts.2 then .error (.storeTooLarge starts.2)
        else .error (.writtenBeyond row) := by
  rw [filling] at hoverrun
  rw [placed]
  cases PrefixSum.exclusive PrefixSum.workers sizes with
  | error failure => rfl
  | ok starts =>
      simp only [hoverrun]
      rfl

/-- How a build can end: the first check that is not passed decides. -/
inductive Built (drafts : List (Option Draft)) : Result Store → Prop where
  | elementTooLong {row size : Nat} (hfirst : firstTooLong? 0 drafts = some (row, size)) :
      Built drafts (.error (.elementTooLong row size maxElementSize))
  | prefixSum (hfirst : firstTooLong? 0 drafts = none)
      (htotal : Word.greatest < total (sizes drafts)) :
      Built drafts (.error (.prefixSum drafts.length))
  | storeTooLarge (hfirst : firstTooLong? 0 drafts = none)
      (htotal : maxBufferSize < total (sizes drafts)) :
      Built drafts (.error (.storeTooLarge (total (sizes drafts))))
  | writtenBeyond {row : Nat} (hfirst : firstTooLong? 0 drafts = none)
      (htotal : total (sizes drafts) ≤ maxBufferSize)
      (hoverrun : (filling drafts).overrun = some row) :
      Built drafts (.error (.writtenBeyond row))
  | writtenNotUtf8 {row : Nat} (hoverrun : (filling drafts).overrun = none)
      (hutf8 : (filling drafts).notUtf8 = some row) :
      Built drafts (.error (.writtenNotUtf8 row))
  | stored (hfirst : firstTooLong? 0 drafts = none)
      (htotal : total (sizes drafts) ≤ maxBufferSize)
      (hoverrun : (filling drafts).overrun = none) (hutf8 : (filling drafts).notUtf8 = none) :
      Built drafts (.ok (ofCells ⟨(filling drafts).bytes, none⟩
        (layOut drafts (startsFrom 0 (sizes drafts)).toArray)))

theorem countNulls_layOut {starts : List Nat} (hstarts : starts.length = drafts.length) :
    countNulls (layOut drafts starts.toArray) = drafts.countP (·.isNone) := by
  induction drafts generalizing starts with
  | nil => simp [layOut, countNulls]
  | cons first rest ih =>
      cases starts with
      | nil => cases hstarts
      | cons start starts =>
          have hrest := ih (Nat.succ.inj hstarts)
          simp only [layOut, countNulls, List.zipWith_toArray, List.countP_toArray] at hrest ⊢
          rw [List.zipWith_cons_cons, List.countP_cons, List.countP_cons, hrest, Option.isNone_map]

theorem built (drafts : List (Option Draft)) : Built drafts (build drafts) := by
  have hsums := PrefixSum.exclusive_eq PrefixSum.workers (sizes drafts).toArray
  have hcount : (sizes drafts).toArray.size = drafts.length := List.length_map _
  rw [hcount] at hsums
  cases hfirst : firstTooLong? 0 drafts with
  | some found =>
      rw [build_of_some hfirst]
      exact .elementTooLong hfirst
  | none =>
      rw [build_of_none hfirst, placed, hsums]
      by_cases hword : total (sizes drafts) ≤ Word.greatest
      · rw [if_pos hword]
        by_cases htotal : maxBufferSize < total (sizes drafts)
        · simp only [if_pos htotal]
          exact .storeTooLarge hfirst htotal
        · simp only [if_neg htotal]
          have htotal := Nat.le_of_not_lt htotal
          cases hoverrun : (filling drafts).overrun with
          | some row =>
              rw [filling] at hoverrun
              rw [hoverrun]
              exact .writtenBeyond hfirst htotal hoverrun
          | none =>
              cases hutf8 : (filling drafts).notUtf8 with
              | some row =>
                  rw [filling] at hoverrun hutf8
                  rw [hoverrun, hutf8]
                  exact .writtenNotUtf8 hoverrun hutf8
              | none =>
                  have hstored := Built.stored hfirst htotal hoverrun hutf8
                  rw [ofCells, countNulls_layOut ((PrefixSum.length_startsFrom ..).trans hcount),
                    filling] at hstored
                  rw [filling] at hoverrun hutf8
                  rw [hoverrun, hutf8]
                  exact hstored
      · rw [if_neg hword]
        exact .prefixSum hfirst (Nat.lt_of_not_le hword)

theorem build_eq (hbuild : build drafts = .ok store) :
    (∀ draft, some draft ∈ drafts → draft.size ≤ maxElementSize ∧ draft.Sound) ∧
      store = ofCells ⟨contents drafts, none⟩
        (layOut drafts (startsFrom 0 (sizes drafts)).toArray) := by
  have hbuilt := built drafts
  rw [hbuild] at hbuilt
  cases hbuilt with
  | stored hfirst _ hoverrun hutf8 =>
      obtain ⟨-, -, hbytes, hsound⟩ := fill_eq hoverrun hutf8
      rw [filling, hbytes, ByteArray.empty_append]
      refine ⟨?_, rfl⟩
      intro draft hdraft
      exact ⟨size_le_of_firstTooLong? hfirst hdraft, hsound draft hdraft⟩

theorem valid_of_build (hbuild : build drafts = .ok store) : store.Valid := by
  obtain ⟨hdrafts, rfl⟩ := build_eq hbuild
  have hcount : (startsFrom 0 (sizes drafts)).length = drafts.length := by
    rw [PrefixSum.length_startsFrom, sizes, List.length_map]
  apply valid_ofCells
  intro cell hcell length hlength
  obtain ⟨row, hrow⟩ := Array.mem_iff_getElem?.mp hcell
  rw [layOut_getElem? hcount, Option.map_eq_some_iff] at hrow
  obtain ⟨draft?, hdraft?, rfl⟩ := hrow
  obtain ⟨draft, rfl, rfl⟩ := Option.map_eq_some_iff.mp hlength
  obtain ⟨hsize, hsound⟩ := hdrafts draft (List.mem_of_getElem? hdraft?)
  obtain ⟨start, hstart, hinside, hextract⟩ :=
    extract_contents (fun draft hdraft => (hdrafts draft hdraft).2) ByteArray.empty hdraft?
  rw [ByteArray.empty_append] at hinside hextract
  rw [ByteArray.size_empty] at hstart
  rw [hstart, Option.getD_some]
  refine ⟨hsize, hinside, ?_⟩
  rw [hextract]
  exact hsound.wellFormed

end Store

end TextColumns
