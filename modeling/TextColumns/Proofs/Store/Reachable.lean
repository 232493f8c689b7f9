import TextColumns.Operation
import TextColumns.Proofs.Matching.Rows
import TextColumns.Proofs.Store.Build
import TextColumns.Proofs.Store.Parts
import TextColumns.Proofs.Transform.Trim

/-!
The stores that operations lead to.  Every one of them is valid, however many operations came
before and whichever buffers are shared.
-/

namespace TextColumns.Store

open Pattern (Flags)
open Transform (CaseMode CharTable PadPolicy Side)

/-- The stores to which operations lead from new ones and from parts that are accepted. -/
inductive Reachable : Store → Prop
  | build {drafts : List (Option Draft)} {store : Store} :
      Store.build drafts = .ok store → Reachable store
  | ofTexts {texts : List (Option String)} {store : Store} :
      Store.ofTexts texts = .ok store → Reachable store
  | nulls (count : Nat) : Reachable (Store.nulls count)
  | ofParts {bytes : ByteArray} {offsets : List Int64} {lengths : List Int32} {store : Store} :
      Store.ofParts bytes (offsets.map (·.toInt)) (lengths.map (·.toInt)) = .ok store →
      Reachable store
  | label {store : Store} (label : Option Nat) : Reachable store →
      Reachable { store with buffer := { store.buffer with label } }
  | slice {store part : Store} {start count : Nat} : Reachable store →
      store.slice start count = .ok part → Reachable part
  | gather {store picked : Store} {indices : List Nat} : Reachable store →
      store.gather indices = .ok picked → Reachable picked
  | gatherOptional {store picked : Store} {indices : List (Option Nat)} : Reachable store →
      store.gatherOptional indices = .ok picked → Reachable picked
  | concat {stores : List Store} {joined : Store} : (∀ store ∈ stores, Reachable store) →
      Store.concat stores = .ok joined → Reachable joined
  | compact {store result : Store} : Reachable store → store.compact = .ok result →
      Reachable result
  | sorted {store result : Store} {order : SortOrder} : Reachable store →
      TextColumns.sorted store order = .ok result → Reachable result
  | convertCase {store result : Store} {mode : CaseMode} : Reachable store →
      Transform.convertCase store mode = .ok result → Reachable result
  | trim {store : Store} (side : Side) (set : Option String) : Reachable store →
      Reachable (Transform.trim store side set)
  | pad {store result : Store} {width : Nat} {side : Side} {fill : String} {policy : PadPolicy} :
      Reachable store → Transform.pad store width side fill policy = .ok result →
      Reachable result
  | zeroFill {store result : Store} {width : Nat} : Reachable store →
      Transform.zeroFill store width = .ok result → Reachable result
  | replace {store result : Store} {target replacement : String} {limit : Option Nat} :
      Reachable store → Transform.replace store target replacement limit = .ok result →
      Reachable result
  | substring {store : Store} (start : Nat) (length : Option Nat) : Reachable store →
      Reachable (Transform.substring store start length)
  | repeatTexts {store result : Store} {times : Nat} : Reachable store →
      Transform.repeatTexts store times = .ok result → Reachable result
  | mapChars {store result : Store} {table : CharTable} : Reachable store →
      Transform.mapChars store table = .ok result → Reachable result
  | joinRows {left right result : Store} {separator : String} : Reachable left →
      Reachable right → Transform.joinRows left right separator = .ok result → Reachable result
  | joinAll {store result : Store} {separator : String} : Reachable store →
      Transform.joinAll store separator = .ok result → Reachable result
  | split {store : Store} {separator : Option String} {limit : Option Nat}
      {column : ListColumn} : Reachable store →
      ListColumn.split store separator limit = .ok column → Reachable column.values
  | splitFromRight {store : Store} {separator : Option String} {limit : Option Nat}
      {column : ListColumn} : Reachable store →
      ListColumn.splitFromRight store separator limit = .ok column → Reachable column.values
  | splitColumns {store part : Store} {separator : Option String} {limit : Option Nat}
      {column : ListColumn} : Reachable store →
      ListColumn.split store separator limit = .ok column → part ∈ column.transpose →
      Reachable part
  | extract {store part : Store} {parts : List Store} {pattern : String} {flags : Flags}
      {regex : Regex} : Reachable store → Regex.compile pattern flags = .ok regex →
      Matching.extract store regex = .ok parts → part ∈ parts → Reachable part
  | findAll {store : Store} {column : ListColumn} {pattern : String} {flags : Flags}
      {regex : Regex} : Reachable store → Regex.compile pattern flags = .ok regex →
      Matching.findAll store regex = .ok column → Reachable column.values
  | replaceMatches {store result : Store} {replacement : String} {limit : Option Nat}
      {pattern : String} {flags : Flags} {regex : Regex} : Reachable store →
      Regex.compile pattern flags = .ok regex →
      Matching.replace store regex replacement limit = .ok result → Reachable result
  | replaceByTemplate {store result : Store} {template : String} {limit : Option Nat}
      {pattern : String} {flags : Flags} {regex : Regex} : Reachable store →
      Regex.compile pattern flags = .ok regex →
      Matching.replaceByTemplate store regex template limit = .ok result → Reachable result
  | splitAtMatches {store : Store} {limit : Option Nat} {column : ListColumn}
      {pattern : String} {flags : Flags} {regex : Regex} : Reachable store →
      Regex.compile pattern flags = .ok regex →
      Matching.split store regex limit = .ok column → Reachable column.values
  | splitColumnsAtMatches {store part : Store} {limit : Option Nat} {column : ListColumn}
      {pattern : String} {flags : Flags} {regex : Regex} : Reachable store →
      Regex.compile pattern flags = .ok regex →
      Matching.split store regex limit = .ok column → part ∈ column.transpose → Reachable part

variable {store result : Store}

theorem valid_of_gather {indices : List Nat} (hgather : store.gather indices = .ok result) :
    result.Valid := by
  unfold gather at hgather
  split at hgather
  · cases hgather
  · exact valid_of_build hgather

theorem valid_of_gatherOptional {indices : List (Option Nat)}
    (hgather : store.gatherOptional indices = .ok result) : result.Valid := by
  unfold gatherOptional at hgather
  split at hgather
  · cases hgather
  · exact valid_of_build hgather

theorem valid_of_pad {width : Nat} {side : Side} {fill : String} {policy : PadPolicy}
    (hpad : Transform.pad store width side fill policy = .ok result) : result.Valid := by
  unfold Transform.pad at hpad
  split at hpad
  · cases hpad
  · exact valid_of_build hpad

theorem valid_of_repeatTexts {times : Nat}
    (hrepeat : Transform.repeatTexts store times = .ok result) : result.Valid := by
  unfold Transform.repeatTexts at hrepeat
  split at hrepeat
  · cases hrepeat
  · exact valid_of_build hrepeat

theorem valid_of_joinRows {right : Store} {separator : String}
    (hjoin : Transform.joinRows store right separator = .ok result) : result.Valid := by
  unfold Transform.joinRows at hjoin
  split at hjoin
  · cases hjoin
  · exact valid_of_build hjoin

theorem Valid.replace (hvalid : store.Valid) {target replacement : String} {limit : Option Nat}
    (hreplace : Transform.replace store target replacement limit = .ok result) :
    result.Valid := by
  unfold Transform.replace at hreplace
  split at hreplace
  · cases hreplace
    exact hvalid
  · exact valid_of_build hreplace

theorem Valid.replaceMatches (hvalid : store.Valid) {regex : Regex} {replacement : String}
    {limit : Option Nat} (hreplace : Matching.replace store regex replacement limit = .ok result) :
    result.Valid := by
  unfold Matching.replace at hreplace
  split at hreplace
  · cases hreplace
    exact hvalid
  · exact valid_of_build hreplace

theorem Valid.replaceByTemplate (hvalid : store.Valid) {regex : Regex} {template : String}
    {limit : Option Nat}
    (hreplace : Matching.replaceByTemplate store regex template limit = .ok result) :
    result.Valid := by
  unfold Matching.replaceByTemplate at hreplace
  split at hreplace
  · cases hreplace
  · split at hreplace
    · cases hreplace
      exact hvalid
    · exact valid_of_build hreplace

theorem Reachable.valid (hreachable : Reachable store) : store.Valid := by
  induction hreachable with
  | build hbuild => exact valid_of_build hbuild
  | ofTexts hbuild => exact valid_of_build hbuild
  | nulls count => exact valid_nulls count
  | ofParts hparts => exact valid_of_ofParts_words hparts
  | label _ _ ih =>
      refine ⟨?_, ih.nullCount_eq⟩
      intro cell hcell length hlength
      obtain ⟨hfits, hinside, hwellFormed⟩ := ih.holds cell hcell length hlength
      exact ⟨hfits, hinside, hwellFormed⟩
  | slice _ hslice ih => exact ih.slice hslice
  | gather _ hgather => exact valid_of_gather hgather
  | gatherOptional _ hgather => exact valid_of_gatherOptional hgather
  | concat _ hbuild => exact valid_of_build hbuild
  | compact _ hbuild => exact valid_of_build hbuild
  | sorted _ hgather => exact valid_of_gather hgather
  | convertCase _ hbuild => exact valid_of_build hbuild
  | trim side set _ ih => exact ih.trim side set
  | pad _ hpad => exact valid_of_pad hpad
  | zeroFill _ hbuild => exact valid_of_build hbuild
  | replace _ hreplace ih => exact ih.replace hreplace
  | substring start length _ ih => exact ih.substring start length
  | repeatTexts _ hrepeat => exact valid_of_repeatTexts hrepeat
  | mapChars _ hbuild => exact valid_of_build hbuild
  | joinRows _ _ hjoin => exact valid_of_joinRows hjoin
  | joinAll _ hbuild => exact valid_of_build hbuild
  | split _ hsplit ih => exact (ListColumn.valid_of_split ih hsplit).values
  | splitFromRight _ hsplit ih => exact (ListColumn.valid_of_splitFromRight ih hsplit).values
  | splitColumns _ hsplit hpart ih => exact (ListColumn.valid_of_split ih hsplit).transpose hpart
  | extract _ hcompile hextract hpart ih =>
      exact Matching.valid_of_extract ih hcompile hextract hpart
  | findAll _ hcompile hfound ih => exact (Matching.valid_of_findAll ih hcompile hfound).values
  | replaceMatches _ _ hreplace ih => exact ih.replaceMatches hreplace
  | replaceByTemplate _ _ hreplace ih => exact ih.replaceByTemplate hreplace
  | splitAtMatches _ hcompile hsplit ih =>
      exact (Matching.valid_of_split ih hcompile hsplit).values
  | splitColumnsAtMatches _ hcompile hsplit hpart ih =>
      exact (Matching.valid_of_split ih hcompile hsplit).transpose hpart

/-- Whatever operations a store has gone through, its texts can be read without a check. -/
theorem readable_of_reachable (hreachable : Reachable store) : store.Readable :=
  hreachable.valid.readable

/-- Both elements are `bä`, and they share its bytes. -/
theorem readable_sharedPieces :
    ∃ store column,
      ofParts ⟨#[195, 164, 32, 98, 195, 164]⟩ (List.map Int64.toInt [0, 0, 2])
        (List.map Int32.toInt [6, -1, 4]) = .ok store ∧
      ListColumn.split (Transform.substring store 1 (some 3)) none none = .ok column ∧
      column.values.cells = #[⟨3, some 3⟩, ⟨3, some 3⟩] ∧ column.values.Readable := by
  have hparts : ofParts ⟨#[195, 164, 32, 98, 195, 164]⟩ (List.map Int64.toInt [0, 0, 2])
      (List.map Int32.toInt [6, -1, 4]) =
        .ok (ofCells ⟨⟨#[195, 164, 32, 98, 195, 164]⟩, none⟩
          #[⟨0, some 6⟩, ⟨0, none⟩, ⟨2, some 4⟩]) := by
    with_unfolding_all rfl
  have hsplit : ListColumn.split
      (Transform.substring (ofCells ⟨⟨#[195, 164, 32, 98, 195, 164]⟩, none⟩
        #[⟨0, some 6⟩, ⟨0, none⟩, ⟨2, some 4⟩]) 1 (some 3)) none none =
        .ok ⟨ofCells ⟨⟨#[195, 164, 32, 98, 195, 164]⟩, none⟩ #[⟨3, some 3⟩, ⟨3, some 3⟩],
          #[0, 1, 1, 2], some #[true, false, true]⟩ := by
    with_unfolding_all rfl
  exact ⟨_, _, hparts, hsplit, rfl,
    readable_of_reachable (.split (.substring 1 (some 3) (.ofParts hparts)) hsplit)⟩

end TextColumns.Store
