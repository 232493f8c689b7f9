import TextColumns.Matching.Rows
import TextColumns.Proofs.Pieces.ListColumn
import TextColumns.Proofs.Regex.Order
import TextColumns.Proofs.Regex.Slots

/-!
What matches tell of the elements of a store lies between characters, row by row, and comes in
order.
-/

namespace TextColumns.Matching

open Matcher (OrderedUpTo)
open Pattern (Flags)
open Search (Slots)
open Text (Ascending Extent)

variable {program : Program} {store : Store} {pattern : String} {flags : Flags} {regex : Regex}

/-- What holds of the results for all texts, whatever the matcher has been used for. -/
def Gives (program : Program) (f : Matcher → String → β × Matcher) (Q : String → β → Prop) :
    Prop :=
  ∀ matcher text, matcher.Ready program →
    Q text (f matcher text).1 ∧ (f matcher text).2.Ready program

theorem mapTexts_getElem? {f : Matcher → String → β × Matcher} {Q : String → β → Prop}
    (hf : Gives program f Q) {matcher : Matcher} (hready : matcher.Ready program)
    {texts : List (Option String)} {row : Nat} {result : β}
    (hrow : (mapTexts matcher f texts)[row]? = some (some result)) :
    ∃ text, texts[row]? = some (some text) ∧ Q text result := by
  induction texts generalizing matcher row with
  | nil => cases hrow
  | cons first rest ih =>
      cases first with
      | none =>
          cases row with
          | zero => cases hrow
          | succ row => exact ih hready hrow
      | some text =>
          obtain ⟨hresult, hnext⟩ := hf matcher text hready
          cases row with
          | zero =>
              cases hrow
              exact ⟨text, rfl, hresult⟩
          | succ row => exact ih hnext hrow

theorem mapRows_getElem? {f : Matcher → String → β × Matcher} {Q : String → β → Prop}
    (hf : Gives regex.program f Q) {row : Nat} {result : β}
    (hrow : (mapRows store regex f)[row]? = some (some result)) :
    ∃ text, store.text? row = some text ∧ Q text result := by
  obtain ⟨text, htext, hresult⟩ :=
    mapTexts_getElem? hf (Matcher.ready_ofProgram regex.program) hrow
  exact ⟨text, (Store.texts_getElem? row text).mp htext, hresult⟩

theorem rowsWithin_extents (hcompile : Regex.compile pattern flags = .ok regex)
    (limit : Option Nat) : ListColumn.RowsWithin store (extents store regex limit) := by
  have hgives : Gives regex.program (fun matcher text => matcher.findAll limit text)
      fun text found => ∀ extent ∈ found, extent.Within text :=
    fun _ text hready => hready.findAll (Regex.check_of_compile hcompile) limit text
  intro row found hrow
  exact mapRows_getElem? hgives hrow

theorem valid_of_findAll (hvalid : store.Valid)
    (hcompile : Regex.compile pattern flags = .ok regex) {column : ListColumn}
    (hfound : findAll store regex = .ok column) : column.Valid :=
  ListColumn.valid_of_ofExtents hvalid (rowsWithin_extents hcompile none) hfound

theorem within_of_mem_between {text : String} {start : Nat} (hstart : Text.IsBoundary text start)
    {extents : List Extent} (hextents : ∀ extent ∈ extents, extent.Within text) {piece : Extent}
    (hpiece : piece ∈ between text.utf8ByteSize start extents) : piece.Within text := by
  induction extents generalizing start with
  | nil =>
      obtain rfl := List.mem_singleton.mp hpiece
      exact ⟨hstart, Text.isBoundary_utf8ByteSize text⟩
  | cons extent rest ih =>
      obtain ⟨hextent, hrest⟩ := List.forall_mem_cons.mp hextents
      cases hpiece with
      | head => exact ⟨hstart, hextent.start⟩
      | tail _ hpiece => exact ih hextent.stop hrest hpiece

theorem rowsWithin_between (hcompile : Regex.compile pattern flags = .ok regex)
    (limit : Option Nat) : ListColumn.RowsWithin store
      ((extents store regex limit).zipWith
        (fun found text => found.map (between ((text.map String.utf8ByteSize).getD 0) 0))
        store.texts.toList) := by
  intro row pieces hrow
  obtain ⟨found?, text?, hfound, htext, hpieces⟩ := List.getElem?_zipWith_eq_some.mp hrow
  obtain ⟨found, rfl, rfl⟩ := Option.map_eq_some_iff.mp hpieces
  obtain ⟨text, hrowText, hwithin⟩ := rowsWithin_extents hcompile limit row found hfound
  rw [(Store.texts_getElem? row text).mpr hrowText] at htext
  cases htext
  refine ⟨text, hrowText, ?_⟩
  intro piece
  exact within_of_mem_between (Text.isBoundary_zero text) hwithin

theorem valid_of_split (hvalid : store.Valid)
    (hcompile : Regex.compile pattern flags = .ok regex) {limit : Option Nat}
    {column : ListColumn} (hsplit : split store regex limit = .ok column) : column.Valid :=
  ListColumn.valid_of_ofExtents hvalid (rowsWithin_between hcompile limit) hsplit

theorem groupSpan_eq_some {k row : Nat} {groups : Option (Option (List (Option Extent)))}
    {span : Span} (hspan : groupSpan k row groups = some span) :
    ∃ found extent, groups = some (some found) ∧ some extent ∈ found ∧
      span = ⟨row, extent.start, extent.stop⟩ := by
  match groups with
  | none | some none => cases hspan
  | some (some found) =>
      obtain ⟨extent, hextent, rfl⟩ := Option.map_eq_some_iff.mp hspan
      refine ⟨found, extent, rfl, ?_, rfl⟩
      cases hgroup : found[k]? with
      | none =>
          rw [hgroup] at hextent
          cases hextent
      | some group =>
          rw [hgroup] at hextent
          obtain rfl : group = some extent := hextent
          exact List.mem_of_getElem? hgroup

theorem gives_captureRow (hcheck : program.check = .ok ()) :
    Gives program captureRow fun text groups => ∀ found, groups = some found →
      ∀ extent, some extent ∈ found → extent.Within text := by
  intro matcher text hready
  obtain ⟨hnext, hslots⟩ := hready.capturesFrom hcheck (Text.Cursor.on_start text) rfl
  refine ⟨?_, hnext⟩
  intro found hfound extent hextent
  obtain ⟨slots, hcaptures, rfl⟩ := Option.map_eq_some_iff.mp hfound
  exact (hslots slots hcaptures).within.groups hextent

theorem within_groupSpan (hcompile : Regex.compile pattern flags = .ok regex) {k row : Nat}
    {span : Span} (hrow : ((mapRows store regex captureRow).mapIdx fun row groups =>
      groupSpan k row groups)[row]? = some (some span)) : span.row = row ∧ span.Within store := by
  rw [List.getElem?_mapIdx, Option.map_eq_some_iff] at hrow
  obtain ⟨groups, hgroups, hgroup⟩ := hrow
  obtain ⟨found, extent, rfl, hextent, rfl⟩ := groupSpan_eq_some hgroup
  obtain ⟨text, htext, hwithin⟩ :=
    mapRows_getElem? (gives_captureRow (Regex.check_of_compile hcompile)) hgroups
  exact ⟨rfl, text, htext, hwithin found rfl extent hextent⟩

theorem exists_of_mem_extract {parts : List Store} (hextract : extract store regex = .ok parts)
    {part : Store} (hpart : part ∈ parts) :
    ∃ k, part = store.share ((mapRows store regex captureRow).mapIdx fun row groups =>
      groupSpan k row groups) := by
  unfold extract at hextract
  split at hextract
  · cases hextract
  · cases hextract
    obtain ⟨k, -, rfl⟩ := List.mem_map.mp hpart
    exact ⟨k + 1, rfl⟩

theorem valid_of_extract (hvalid : store.Valid)
    (hcompile : Regex.compile pattern flags = .ok regex) {parts : List Store}
    (hextract : extract store regex = .ok parts) {part : Store} (hpart : part ∈ parts) :
    part.Valid := by
  obtain ⟨k, rfl⟩ := exists_of_mem_extract hextract hpart
  apply hvalid.share
  intro span hspan
  obtain ⟨row, hrow⟩ := List.mem_iff_getElem?.mp hspan
  exact (within_groupSpan hcompile hrow).2

theorem orderedUpTo_of_mem_extents (hcompile : Regex.compile pattern flags = .ok regex)
    {limit : Option Nat} {found : List Extent} (hfound : some found ∈ extents store regex limit) :
    ∃ offset, OrderedUpTo offset found := by
  have hcheck := Regex.check_of_compile hcompile
  have hprogram := Pattern.startsOnce_of_compile (Regex.program_of_compile hcompile)
  have hgives : Gives regex.program (fun matcher text => matcher.findAll limit text)
      fun _ found => ∃ offset, OrderedUpTo offset found := fun _ text hready =>
    ⟨hready.findAll_ordered hcheck hprogram limit text, (hready.findAll hcheck limit text).2⟩
  obtain ⟨row, hrow⟩ := List.mem_iff_getElem?.mp hfound
  obtain ⟨-, -, hordered⟩ := mapRows_getElem? hgives hrow
  exact hordered

theorem laidOut_of_findAll (hlaidOut : store.LaidOut) (hvalid : store.Valid)
    (hcompile : Regex.compile pattern flags = .ok regex) {column : ListColumn}
    (hfound : findAll store regex = .ok column) : column.LaidOut := by
  refine ListColumn.laidOut_of_ofExtents hlaidOut hvalid (rowsWithin_extents hcompile none) ?_
    hfound
  intro found hmem
  obtain ⟨_, hordered⟩ := orderedUpTo_of_mem_extents hcompile hmem
  exact hordered.ascending

theorem ascending_between {offset start : Nat} {found : List Extent}
    (hfound : OrderedUpTo offset found) (hstart : ∀ extent ∈ found, start ≤ extent.start)
    (size : Nat) : Ascending (between size start found) ∧
      ∀ piece ∈ between size start found, start ≤ piece.start := by
  induction found generalizing start with
  | nil => exact ⟨List.pairwise_singleton _ _, List.forall_mem_singleton.mpr (Nat.le_refl _)⟩
  | cons extent rest ih =>
      obtain ⟨hbefore, hascending⟩ := List.pairwise_cons.mp hfound.ascending
      obtain ⟨hextent, hproper⟩ := List.forall_mem_cons.mp hfound.proper
      obtain ⟨hpieces, hbehind⟩ :=
        ih ⟨hascending, hproper, (List.forall_mem_cons.mp hfound.behind).2⟩
          fun next hnext => (hbefore next hnext).2
      exact Text.ascending_cons_of_le (hstart extent (.head _)) hpieces fun piece hpiece =>
        Nat.le_trans hextent (hbehind piece hpiece)

theorem laidOut_of_split (hlaidOut : store.LaidOut) (hvalid : store.Valid)
    (hcompile : Regex.compile pattern flags = .ok regex) {limit : Option Nat}
    {column : ListColumn} (hsplit : split store regex limit = .ok column) : column.LaidOut := by
  refine ListColumn.laidOut_of_ofExtents hlaidOut hvalid ?_ ?_ hsplit
  · exact rowsWithin_between hcompile limit
  · intro pieces hmem
    obtain ⟨row, hrow⟩ := List.mem_iff_getElem?.mp hmem
    obtain ⟨found?, text?, hfound, -, hpieces⟩ := List.getElem?_zipWith_eq_some.mp hrow
    obtain ⟨found, rfl, rfl⟩ := Option.map_eq_some_iff.mp hpieces
    obtain ⟨_, hordered⟩ := orderedUpTo_of_mem_extents hcompile (List.mem_of_getElem? hfound)
    exact (ascending_between hordered (fun _ _ => Nat.zero_le _) _).1

end TextColumns.Matching
