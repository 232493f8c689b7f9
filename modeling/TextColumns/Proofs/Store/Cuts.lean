import TextColumns.Proofs.Matching.Rows
import TextColumns.Proofs.Store.Parts
import TextColumns.Proofs.Transform.Trim
import Mathlib.Logic.Relation

/-!
Stores that are cut from others over the same buffer.  Their offsets do not decrease as long as the
elements they are cut from lie one behind the other; where elements share bytes, the parts of a
later one can lie in front of those of an earlier one.
-/

namespace TextColumns

open Pattern (Flags)
open Transform (Side)

variable {store : Store}

inductive ListColumn.CutFrom (store : Store) : ListColumn → Prop
  | split {separator : Option String} {limit : Option Nat} {column : ListColumn} :
      ListColumn.split store separator limit = .ok column → CutFrom store column
  | splitFromRight {separator : Option String} {limit : Option Nat} {column : ListColumn} :
      ListColumn.splitFromRight store separator limit = .ok column → CutFrom store column
  | findAll {pattern : String} {flags : Flags} {regex : Regex} {column : ListColumn} :
      Regex.compile pattern flags = .ok regex → Matching.findAll store regex = .ok column →
      CutFrom store column
  | splitAtMatches {pattern : String} {flags : Flags} {regex : Regex} {limit : Option Nat}
      {column : ListColumn} :
      Regex.compile pattern flags = .ok regex → Matching.split store regex limit = .ok column →
      CutFrom store column

theorem ListColumn.CutFrom.valid {column : ListColumn} (hcut : CutFrom store column)
    (hvalid : store.Valid) : column.Valid := by
  cases hcut with
  | split hsplit => exact valid_of_split hvalid hsplit
  | splitFromRight hsplit => exact valid_of_splitFromRight hvalid hsplit
  | findAll hcompile hfound => exact Matching.valid_of_findAll hvalid hcompile hfound
  | splitAtMatches hcompile hsplit => exact Matching.valid_of_split hvalid hcompile hsplit

theorem ListColumn.CutFrom.laidOut {column : ListColumn} (hcut : CutFrom store column)
    (hvalid : store.Valid) (hlaidOut : store.LaidOut) : column.LaidOut := by
  cases hcut with
  | split hsplit => exact laidOut_of_split hlaidOut hvalid hsplit
  | splitFromRight hsplit => exact laidOut_of_splitFromRight hlaidOut hvalid hsplit
  | findAll hcompile hfound =>
      exact Matching.laidOut_of_findAll hlaidOut hvalid hcompile hfound
  | splitAtMatches hcompile hsplit =>
      exact Matching.laidOut_of_split hlaidOut hvalid hcompile hsplit

namespace Store

/-- The stores that one operation cuts from a store, with its pieces as one store or as one store
for each place in a row. -/
inductive CutFrom (store : Store) : Store → Prop
  | trim (side : Side) (set : Option String) : CutFrom store (Transform.trim store side set)
  | substring (start : Nat) (length : Option Nat) :
      CutFrom store (Transform.substring store start length)
  | extract {pattern : String} {flags : Flags} {regex : Regex} {parts : List Store}
      {part : Store} :
      Regex.compile pattern flags = .ok regex → Matching.extract store regex = .ok parts →
      part ∈ parts → CutFrom store part
  | values {column : ListColumn} : ListColumn.CutFrom store column → CutFrom store column.values
  | place {column : ListColumn} {part : Store} : ListColumn.CutFrom store column →
      part ∈ column.transpose → CutFrom store part

variable {part : Store}

theorem CutFrom.valid (hcut : CutFrom store part) (hvalid : store.Valid) : part.Valid := by
  cases hcut with
  | trim side set => exact hvalid.trim side set
  | substring start length => exact hvalid.substring start length
  | extract hcompile hextract hpart =>
      exact Matching.valid_of_extract hvalid hcompile hextract hpart
  | values hcolumn => exact (hcolumn.valid hvalid).values
  | place hcolumn hpart => exact (hcolumn.valid hvalid).transpose hpart

theorem CutFrom.laidOut (hcut : CutFrom store part) (hvalid : store.Valid)
    (hlaidOut : store.LaidOut) : part.LaidOut ∧ part.Ordered := by
  cases hcut with
  | trim side set =>
      exact hlaidOut.share_texts hvalid
        (Transform.within_trimmed side (Transform.TrimSet.ofText set))
  | substring start length =>
      exact hlaidOut.share_texts hvalid fun text => Text.within_charSpan text start length
  | extract hcompile hextract hpart =>
      obtain ⟨k, rfl⟩ := Matching.exists_of_mem_extract hextract hpart
      exact hlaidOut.share_rows hvalid fun _ _ => Matching.within_groupSpan hcompile
  | values hcolumn =>
      have hlaidOut := hcolumn.laidOut hvalid hlaidOut
      exact ⟨hlaidOut.values, hlaidOut.ordered⟩
  | place hcolumn hpart =>
      obtain ⟨k, -, rfl⟩ := List.mem_map.mp hpart
      exact (hcolumn.laidOut hvalid hlaidOut).nth (hcolumn.valid hvalid) k

theorem laidOut_of_cuts (hcuts : Relation.TransGen CutFrom store part) (hvalid : store.Valid)
    (hlaidOut : store.LaidOut) : part.Valid ∧ part.LaidOut ∧ part.Ordered := by
  induction hcuts with
  | single hcut => exact ⟨hcut.valid hvalid, hcut.laidOut hvalid hlaidOut⟩
  | tail _ hcut ih =>
      obtain ⟨hvalid, hlaidOut, -⟩ := ih
      exact ⟨hcut.valid hvalid, hcut.laidOut hvalid hlaidOut⟩

/-- What is cut from a store of accepted parts has its offsets in order, and is accepted when it is
put together again, if the elements of that store do not share any bytes. -/
theorem reassembles_of_cuts {bytes : ByteArray} {offsets : List Int64} {lengths : List Int32}
    (hparts : ofParts bytes (offsets.map (·.toInt)) (lengths.map (·.toInt)) = .ok store)
    (hlaidOut : store.LaidOut) (hcuts : Relation.TransGen CutFrom store part) :
    part.Ordered ∧ part.Reassembles := by
  obtain ⟨hvalid, -, hordered⟩ :=
    laidOut_of_cuts hcuts (valid_of_ofParts_words hparts) hlaidOut
  exact ⟨hordered, hvalid.reassembles hordered⟩

/-- The elements are blanks and `a,b`, nothing, and a blank and `c`. -/
theorem reassembles_of_cuts_trimmedPieces :
    ∃ store column,
      ofParts ⟨#[32, 97, 44, 98, 32, 99]⟩ (List.map Int64.toInt [0, 2, 4])
        (List.map Int32.toInt [4, -1, 2]) = .ok store ∧
      store.LaidOut ∧
      ListColumn.split (Transform.trim store .both none) (some ",") none = .ok column ∧
      column.values.cells = #[⟨1, some 1⟩, ⟨3, some 1⟩, ⟨5, some 1⟩] ∧
      column.values.Ordered ∧ column.values.Reassembles := by
  have hparts : ofParts ⟨#[32, 97, 44, 98, 32, 99]⟩ (List.map Int64.toInt [0, 2, 4])
      (List.map Int32.toInt [4, -1, 2]) =
        .ok (ofCells ⟨⟨#[32, 97, 44, 98, 32, 99]⟩, none⟩
          #[⟨0, some 4⟩, ⟨2, none⟩, ⟨4, some 2⟩]) := by
    with_unfolding_all rfl
  have hlaidOut : (ofCells ⟨⟨#[32, 97, 44, 98, 32, 99]⟩, none⟩
      #[⟨0, some 4⟩, ⟨2, none⟩, ⟨4, some 2⟩]).LaidOut := by
    simp [LaidOut, ofCells, Cell.Apart]
  have hsplit : ListColumn.split (Transform.trim
      (ofCells ⟨⟨#[32, 97, 44, 98, 32, 99]⟩, none⟩
        #[⟨0, some 4⟩, ⟨2, none⟩, ⟨4, some 2⟩]) .both none) (some ",") none =
        .ok ⟨ofCells ⟨⟨#[32, 97, 44, 98, 32, 99]⟩, none⟩
          #[⟨1, some 1⟩, ⟨3, some 1⟩, ⟨5, some 1⟩], #[0, 2, 2, 3],
          some #[true, false, true]⟩ := by
    with_unfolding_all rfl
  exact ⟨_, _, hparts, hlaidOut, hsplit, rfl, reassembles_of_cuts hparts hlaidOut
    (.tail (.single (.trim .both none)) (.values (.split hsplit)))⟩

/-- Where the second element lies within the first one, what is left of it lies in front. -/
theorem not_reassembles_sharedBytes :
    ∃ store,
      ofParts ⟨#[32, 32, 97]⟩ (List.map Int64.toInt [0, 0]) (List.map Int32.toInt [3, 1]) =
        .ok store ∧
      CutFrom store (Transform.trim store .both none) ∧
      ¬ (Transform.trim store .both none).Ordered ∧
      ¬ (Transform.trim store .both none).Reassembles := by
  have hparts : ofParts ⟨#[32, 32, 97]⟩ (List.map Int64.toInt [0, 0])
      (List.map Int32.toInt [3, 1]) =
        .ok (ofCells ⟨⟨#[32, 32, 97]⟩, none⟩ #[⟨0, some 3⟩, ⟨0, some 1⟩]) := by
    with_unfolding_all rfl
  have htrim : Transform.trim
      (ofCells ⟨⟨#[32, 32, 97]⟩, none⟩ #[⟨0, some 3⟩, ⟨0, some 1⟩]) .both none =
        ofCells ⟨⟨#[32, 32, 97]⟩, none⟩ #[⟨2, some 1⟩, ⟨1, some 0⟩] := by
    with_unfolding_all rfl
  refine ⟨_, hparts, .trim .both none, ?_, ?_⟩
  · rw [htrim]
    simp [Ordered, ofCells]
  · have hrefused : ofParts ⟨#[32, 32, 97]⟩ [2, 1] [1, 0] =
        .error (.parts (.decreasingOffset 1 1)) := by
      with_unfolding_all rfl
    rw [htrim]
    intro hreassembles
    cases hrefused.symm.trans hreassembles

end Store

end TextColumns
