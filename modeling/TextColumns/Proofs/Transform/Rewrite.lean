import TextColumns.Proofs.Transform.Case
import TextColumns.Proofs.Transform.Passes
import TextColumns.Proofs.Transform.Replace

/-!
The operations that write all elements anew.  Each of them counts the bytes of an element in one pass
and writes them in another; the two agree on every element, so no byte of an element is left as it
was, and the store that is asked for is built whenever its texts fit.
-/

namespace TextColumns

open Matching (Groups Template expandedFrom foundGroups joinedFrom)
open Text (Extent)
open Transform

inductive Rewrite where
  | convertCase (mode : CaseMode)
  | pad (width : Nat) (side : Side) (fill : String) (policy : PadPolicy)
  | zeroFill (width : Nat)
  | replace (target replacement : String) (limit : Option Nat)
  | repeatTexts (times : Nat)
  | mapChars (table : CharTable)
  | joinRows (right : Store) (separator : String)
  | joinAll (separator : String)
  | replaceMatches (regex : Regex) (replacement : String) (limit : Option Nat)
  | replaceByTemplate (regex : Regex) (template : String) (limit : Option Nat)

namespace Rewrite

def run (store : Store) : Rewrite → Result Store
  | .convertCase mode => Transform.convertCase store mode
  | .pad width side fill policy => Transform.pad store width side fill policy
  | .zeroFill width => Transform.zeroFill store width
  | .replace target replacement limit => Transform.replace store target replacement limit
  | .repeatTexts times => Transform.repeatTexts store times
  | .mapChars table => Transform.mapChars store table
  | .joinRows right separator => Transform.joinRows store right separator
  | .joinAll separator => Transform.joinAll store separator
  | .replaceMatches regex replacement limit => Matching.replace store regex replacement limit
  | .replaceByTemplate regex template limit => Matching.replaceByTemplate store regex template limit

def IsCompiled (regex : Regex) : Prop :=
  ∃ pattern flags, Regex.compile pattern flags = .ok regex

/-- Whether the arguments pass the checks that an operation makes of them. -/
def Accepted (store : Store) : Rewrite → Prop
  | .pad _ _ fill _ => ∃ c, fill.toList = [c]
  | .repeatTexts times => times ≤ repeatLimit
  | .joinRows right _ => right.Valid ∧ store.size = right.size
  | .replaceMatches regex _ _ => IsCompiled regex
  | .replaceByTemplate regex template _ =>
    IsCompiled regex ∧ ∃ parsed, Template.parse template regex.groupCount = .ok parsed
  | _ => True

/-- Whether the store is handed back as it is. -/
def keepsStore : Rewrite → Bool
  | .replace target _ limit => target.isEmpty || limit == some 0
  | .replaceMatches _ _ limit => limit == some 0
  | .replaceByTemplate _ _ limit => limit == some 0
  | _ => false

def mapTexts (store : Store) (f : String → α) : List (Option α) :=
  store.texts.toList.map (·.map f)

/-- What is drafted for the elements of the result. -/
def drafts (store : Store) : Rewrite → List (Option Draft)
  | .convertCase mode => mapTexts store mode.draft
  | .pad width side fill policy =>
    match singleChar Subject.pad.name fill with
    | .ok fill => mapTexts store (padDraft width side policy fill)
    | .error _ => []
  | .zeroFill width => mapTexts store (zeroFillDraft width)
  | .replace target replacement limit =>
    mapTexts store (replaceDraft (.ofText target) replacement limit)
  | .repeatTexts times => mapTexts store (repeatDraft times)
  | .mapChars table => mapTexts store (mapCharsDraft (.ofTable table))
  | .joinRows right separator =>
    store.texts.toList.zipWith (joinedDraft? separator) right.texts.toList
  | .joinAll separator => [some (joinAllDraft store separator)]
  | .replaceMatches regex replacement limit =>
    Matching.drafts store (Matching.extents store regex limit) (Matching.replaceDraft replacement)
  | .replaceByTemplate regex template limit =>
    match Template.parse template regex.groupCount with
    | .ok template =>
      Matching.drafts store (Matching.mapRows store regex (Matching.groupsOfMatches limit))
        (Matching.expandDraft template)
    | .error _ => []

/-- The texts that the result is to have. -/
def output (store : Store) : Rewrite → List (Option String)
  | .convertCase mode => mapTexts store mode.converted
  | .pad width side fill policy => mapTexts store (padded width side fill policy)
  | .zeroFill width => mapTexts store (zeroFilled width)
  | .replace target replacement limit =>
    if target.isEmpty then store.texts.toList
    else mapTexts store fun text =>
      joinedFrom replacement text 0 (foundOccurrences target limit text)
  | .repeatTexts times => mapTexts store (Text.copies times)
  | .mapChars table => mapTexts store (mapped table)
  | .joinRows right separator =>
    store.texts.toList.zipWith (joined? separator) right.texts.toList
  | .joinAll separator => [some (separator.intercalate (store.texts.toList.filterMap id))]
  | .replaceMatches regex replacement limit => mapTexts store fun text =>
      joinedFrom replacement text 0 (Text.upTo limit (regex.program.extentsIn text))
  | .replaceByTemplate regex template limit =>
    match Template.parse template regex.groupCount with
    | .ok template => mapTexts store fun text =>
        expandedFrom template text 0 (foundGroups regex limit text)
    | .error _ => []

def eachText (store : Store) (steps : String → List PartialStep) : List PartialStep :=
  (store.texts.toList.filterMap id).flatMap steps

/-- The steps of both passes that could go wrong. -/
def steps (store : Store) : Rewrite → List PartialStep
  | .pad width side _ policy => eachText store (padSteps width side policy)
  | .zeroFill _ => eachText store zeroFillSteps
  | .replace target _ limit =>
    if target.isEmpty then []
    else eachText store fun text =>
      replaceSteps ((replacedPlaces (.ofText target) limit text).length * target.utf8ByteSize)
        (foundOccurrences target limit text) text
  | .joinAll _ => [.subtract store.size store.nullCount]
  | .replaceMatches regex _ limit => eachText store fun text =>
      let found := Text.upTo limit (regex.program.extentsIn text)
      replaceSteps (total (found.map Extent.size)) found text
  | .replaceByTemplate regex template limit =>
    match Template.parse template regex.groupCount with
    | .ok template => eachText store fun text =>
        templateSteps template (foundGroups regex limit text) text
    | .error _ => []
  | .convertCase _ | .repeatTexts _ | .mapChars _ | .joinRows _ _ => []

/-- What is drafted, with every step that could go wrong guarded. -/
def guardedDrafts (store : Store) : Rewrite → List (Option GuardedDraft)
  | .pad width side fill policy =>
    match singleChar Subject.pad.name fill with
    | .ok fill => mapTexts store (padDraft? width side policy fill)
    | .error _ => []
  | .zeroFill width => mapTexts store (zeroFillDraft? width)
  | .replace target replacement limit => mapTexts store fun text =>
      replaceDraft? replacement
        ((replacedPlaces (.ofText target) limit text).length * target.utf8ByteSize)
        (foundOccurrences target limit text) text
  | .joinAll separator => [some (joinAllDraft? store separator)]
  | .replaceMatches regex replacement limit => mapTexts store fun text =>
      let found := Text.upTo limit (regex.program.extentsIn text)
      replaceDraft? replacement (total (found.map Extent.size)) found text
  | .replaceByTemplate regex template limit =>
    match Template.parse template regex.groupCount with
    | .ok template => mapTexts store fun text =>
        expandDraft? template (foundGroups regex limit text) text
    | .error _ => []
  | rewrite => (rewrite.drafts store).map (·.map GuardedDraft.ofDraft)

variable {store : Store} {rewrite : Rewrite}

theorem singleChar_of_toList {label fill : String} {c : Char} (hfill : fill.toList = [c]) :
    singleChar label fill = .ok c := by
  rw [singleChar, hfill]

theorem fill_eq_singleton {fill : String} {c : Char} (hfill : fill.toList = [c]) :
    fill = String.singleton c := by
  rw [← String.toList_inj, hfill, String.toList_singleton]

theorem run_eq (haccepted : rewrite.Accepted store) :
    rewrite.run store =
      if rewrite.keepsStore then .ok store else Store.build (rewrite.drafts store) := by
  cases rewrite with
  | convertCase mode => rfl
  | pad width side fill policy =>
      obtain ⟨c, hfill⟩ := haccepted
      simp only [run, Transform.pad, drafts, singleChar_of_toList hfill]
      rfl
  | zeroFill width => rfl
  | replace target replacement limit => rfl
  | repeatTexts times =>
      simp only [run, Transform.repeatTexts, if_neg (Nat.not_lt.mpr haccepted)]
      rfl
  | mapChars table => rfl
  | joinRows right separator =>
      simp only [run, Transform.joinRows, haccepted.2, ne_eq, not_true_eq_false, if_false]
      rfl
  | joinAll separator => rfl
  | replaceMatches regex replacement limit => rfl
  | replaceByTemplate regex template limit =>
      obtain ⟨-, parsed, hparse⟩ := haccepted
      simp only [run, Matching.replaceByTemplate, drafts, hparse]
      rfl

theorem mapTexts_congr {f g : String → α}
    (hfg : ∀ text, some text ∈ store.texts.toList → f text = g text) :
    mapTexts store f = mapTexts store g := by
  refine List.map_congr_left fun text? htext => ?_
  cases text? with
  | none => rfl
  | some text => exact congrArg some (hfg text htext)

theorem mapTexts_self : mapTexts store (fun text => text) = store.texts.toList := by
  rw [mapTexts, Option.map_id_fun']
  exact List.map_id _

theorem output_of_keepsStore (haccepted : rewrite.Accepted store)
    (hkeeps : rewrite.keepsStore = true) : rewrite.output store = store.texts.toList := by
  cases rewrite with
  | replace target replacement limit =>
      by_cases htarget : target.isEmpty = true
      · rw [output, if_pos htarget]
      · rw [output, if_neg htarget]
        -- No occurrence is asked for, so the one piece is the whole text.
        obtain rfl : limit = some 0 := by simpa [keepsStore, htarget] using hkeeps
        rw [← @mapTexts_self store]
        refine mapTexts_congr fun text _ => ?_
        rw [foundOccurrences, Text.upTo, List.take_zero, Matching.joinedFrom_nil,
          Text.between_all]
  | replaceMatches regex replacement limit =>
      obtain rfl : limit = some 0 := by simpa [keepsStore] using hkeeps
      rw [output, ← @mapTexts_self store]
      refine mapTexts_congr fun text _ => ?_
      rw [Text.upTo, List.take_zero, Matching.joinedFrom_nil, Text.between_all]
  | replaceByTemplate regex template limit =>
      obtain ⟨-, parsed, hparse⟩ := haccepted
      obtain rfl : limit = some 0 := by simpa [keepsStore] using hkeeps
      simp only [output, hparse]
      rw [← @mapTexts_self store]
      exact mapTexts_congr fun text _ => Text.between_all text
  | _ => cases hkeeps

/-- Every draft fills its range with the text that the result is to have there. -/
theorem fills_drafts (hvalid : store.Valid) (haccepted : rewrite.Accepted store)
    (hfits : FitsLimits (rewrite.output store)) (hkeeps : rewrite.keepsStore = false) :
    List.Forall₂ (Option.Rel Draft.Fills) (rewrite.drafts store) (rewrite.output store) := by
  have hshort {f : String → String} (houtput : rewrite.output store = mapTexts store f)
      {text : String} (htext : some text ∈ store.texts.toList) :
      (f text).utf8ByteSize ≤ Store.maxElementSize :=
    hfits.each _ (houtput ▸ List.mem_map.mpr ⟨some text, htext, rfl⟩)
  cases rewrite with
  | convertCase mode => exact forall₂_map_rows fun text _ => mode.fills_draft text
  | pad width side fill policy =>
      obtain ⟨c, hfill⟩ := haccepted
      have hsingle := fill_eq_singleton hfill
      simp only [drafts, singleChar_of_toList hfill]
      rw [output, hsingle]
      exact forall₂_map_rows fun text htext => fills_padDraft (hsingle ▸ hshort rfl htext)
  | zeroFill width => exact forall₂_map_rows fun text htext => fills_zeroFillDraft (hshort rfl htext)
  | replace target replacement limit =>
      obtain ⟨htarget, -⟩ := Bool.or_eq_false_iff.mp hkeeps
      have hne : target ≠ "" := fun hempty => by simp [hempty] at htarget
      have houtput : output store (.replace target replacement limit) = mapTexts store fun text =>
          Matching.joinedFrom replacement text 0 (foundOccurrences target limit text) := by
        rw [output, if_neg (by rw [htarget]; exact Bool.false_ne_true)]
      rw [houtput]
      exact forall₂_map_rows fun text htext =>
        (counts_replaceDraft hne replacement limit text).fills (lt_count_of_le (hshort houtput htext))
  | repeatTexts times =>
      exact forall₂_map_rows fun text htext => fills_repeatDraft (hshort rfl htext)
  | mapChars table => exact forall₂_map_rows fun text _ => fills_mapCharsDraft table text
  | joinRows right separator => exact fills_joinRows separator _ _
  | joinAll separator =>
      exact .cons (.some ((counts_joinAllDraft hvalid separator).fills (hfits.lt_count (.head _))))
        .nil
  | replaceMatches regex replacement limit =>
      obtain ⟨pattern, flags, hcompile⟩ := haccepted
      rw [drafts, Matching.extents_eq hcompile, Matching.drafts_eq]
      exact forall₂_map_rows fun text htext =>
        ((Matching.orderedIn_extentsIn hcompile limit text).counts_replaceDraft replacement).fills
          (lt_count_of_le (hshort rfl htext))
  | replaceByTemplate regex template limit =>
      obtain ⟨⟨pattern, flags, hcompile⟩, parsed, hparse⟩ := haccepted
      have hlimit : limit ≠ some 0 := by simpa [keepsStore] using hkeeps
      have houtput : output store (.replaceByTemplate regex template limit) =
          mapTexts store fun text => expandedFrom parsed text 0 (foundGroups regex limit text) := by
        simp only [output, hparse]
      rw [houtput]
      simp only [drafts, hparse]
      rw [Matching.mapRows_eq hcompile (.replaceByTemplate limit), Matching.drafts_eq]
      refine forall₂_map_rows fun text htext => ?_
      rw [Matching.groupsOfMatches_eq hcompile hlimit]
      exact ((Matching.groupsIn_foundGroups hcompile limit text).counts_expandDraft parsed).fills
        (lt_count_of_le (hshort houtput htext))

theorem defined_eachText_iff {steps : String → List PartialStep} :
    (∀ step ∈ eachText store steps, step.Defined) ↔
      ∀ text, some text ∈ store.texts.toList → ∀ step ∈ steps text, step.Defined := by
  simp only [eachText, List.forall_mem_flatMap, List.mem_filterMap, id_eq, exists_eq_right]

theorem defined_eachText {steps : String → List PartialStep}
    (hsteps : ∀ text, ∀ step ∈ steps text, step.Defined) :
    ∀ step ∈ eachText store steps, step.Defined :=
  defined_eachText_iff.mpr fun text _ => hsteps text

theorem defined_replaceSteps {text : String} {found : List Extent}
    (hfound : Matching.OrderedIn text 0 found) :
    ∀ step ∈ replaceSteps (total (found.map Extent.size)) found text, step.Defined := by
  refine List.forall_mem_cons.mpr ⟨?_, List.forall_mem_map.mpr hfound.defined_between⟩
  have hle := (hfound.size_joinedFrom "").1
  rwa [Nat.zero_add] at hle

theorem total_foundOccurrences (target : String) (limit : Option Nat) (text : String) :
    total ((foundOccurrences target limit text).map Extent.size) =
      (replacedPlaces (.ofText target) limit text).length * target.utf8ByteSize := by
  rw [foundOccurrences, Matching.upTo_map, Matching.total_sizes, replacedPlaces]

theorem defined_steps (hvalid : store.Valid) (haccepted : rewrite.Accepted store)
    (hfits : FitsLimits (rewrite.output store)) :
    ∀ step ∈ rewrite.steps store, step.Defined := by
  cases rewrite with
  | pad width side fill policy => exact defined_eachText (defined_padSteps width side policy)
  | zeroFill width => exact defined_eachText defined_zeroFillSteps
  | replace target replacement limit =>
      rw [steps]
      cases htarget : target.isEmpty with
      | true => exact List.forall_mem_nil _
      | false =>
        have hne : target ≠ "" := fun hempty => by simp [hempty] at htarget
        refine defined_eachText fun text => ?_
        rw [← total_foundOccurrences]
        exact defined_replaceSteps (orderedIn_foundOccurrences hne limit text)
  | joinAll separator => exact List.forall_mem_singleton.mpr (nullCount_le_size hvalid)
  | replaceMatches regex replacement limit =>
      obtain ⟨pattern, flags, hcompile⟩ := haccepted
      exact defined_eachText fun text =>
        defined_replaceSteps (Matching.orderedIn_extentsIn hcompile limit text)
  | replaceByTemplate regex template limit =>
      obtain ⟨⟨pattern, flags, hcompile⟩, parsed, hparse⟩ := haccepted
      simp only [steps, hparse]
      refine defined_eachText_iff.mpr fun text htext => ?_
      have hfound := Matching.groupsIn_foundGroups hcompile limit text
      have hrefers := Matching.refersInto_foundGroups hcompile hparse limit text
      have hwritten : (expandedFrom parsed text 0 (foundGroups regex limit text)).utf8ByteSize ≤
          Store.maxElementSize := by
        simp only [output, hparse] at hfits
        exact hfits.each _ (List.mem_map.mpr ⟨some text, htext, rfl⟩)
      have hshort : text.utf8ByteSize ≤ maxInt32 :=
        hvalid.size_le_of_text (Array.mem_toList_iff.mp htext)
      have hcount : 0 + (expandedFrom parsed text 0 (foundGroups regex limit text)).utf8ByteSize +
          text.utf8ByteSize < Word.count := by
        simp only [Store.maxElementSize, maxInt32, Word.count] at hwritten hshort ⊢
        omega
      -- Before the first match nothing is written, and the whole text is still to come.
      have hsizing := hfound.defined_sizingSteps hrefers 0 hcount
      rw [Nat.zero_add, Nat.sub_zero] at hsizing
      exact List.forall_mem_append.mpr ⟨hsizing, hfound.defined_fillingSteps hrefers⟩
  | convertCase _ | repeatTexts _ | mapChars _ | joinRows _ _ => exact List.forall_mem_nil _

/-- The guarded passes give the drafts, since each of their guards is one of the steps. -/
theorem gives_guardedDrafts (haccepted : rewrite.Accepted store)
    (hkeeps : rewrite.keepsStore = false) (hsteps : ∀ step ∈ rewrite.steps store, step.Defined) :
    List.Forall₂ (Option.Rel GuardedDraft.Gives) (rewrite.guardedDrafts store)
      (rewrite.drafts store) := by
  have hofDrafts (drafts : List (Option Draft)) : List.Forall₂ (Option.Rel GuardedDraft.Gives)
      (drafts.map (·.map GuardedDraft.ofDraft)) drafts := by
    simpa using @forall₂_map_rows _ _ _ GuardedDraft.Gives drafts _ id
      fun draft _ => GuardedDraft.gives_ofDraft draft
  cases rewrite with
  | pad width side fill policy =>
      obtain ⟨c, hfill⟩ := haccepted
      simp only [guardedDrafts, drafts, singleChar_of_toList hfill]
      exact forall₂_map_rows fun text htext =>
        gives_padDraft? c (defined_eachText_iff.mp hsteps text htext)
  | zeroFill width =>
      exact forall₂_map_rows fun text htext =>
        gives_zeroFillDraft? width (defined_eachText_iff.mp hsteps text htext)
  | replace target replacement limit =>
      obtain ⟨htarget, -⟩ := Bool.or_eq_false_iff.mp hkeeps
      rw [steps, if_neg (by rw [htarget]; exact Bool.false_ne_true)] at hsteps
      refine forall₂_map_rows fun text htext => ?_
      rw [Matching.replaceDraft_eq]
      exact gives_replaceDraft? replacement (total_foundOccurrences target limit text).symm
        (defined_eachText_iff.mp hsteps text htext)
  | joinAll separator =>
      exact .cons (.some (gives_joinAllDraft? separator (List.forall_mem_singleton.mp hsteps))) .nil
  | replaceMatches regex replacement limit =>
      obtain ⟨pattern, flags, hcompile⟩ := haccepted
      rw [drafts, Matching.extents_eq hcompile, Matching.drafts_eq]
      exact forall₂_map_rows fun text htext =>
        gives_replaceDraft? replacement rfl (defined_eachText_iff.mp hsteps text htext)
  | replaceByTemplate regex template limit =>
      obtain ⟨⟨pattern, flags, hcompile⟩, parsed, hparse⟩ := haccepted
      have hlimit : limit ≠ some 0 := by simpa [keepsStore] using hkeeps
      simp only [steps, hparse] at hsteps
      simp only [guardedDrafts, drafts, hparse]
      rw [Matching.mapRows_eq hcompile (.replaceByTemplate limit), Matching.drafts_eq]
      refine forall₂_map_rows fun text htext => ?_
      rw [Matching.groupsOfMatches_eq hcompile hlimit]
      exact gives_expandDraft? (defined_eachText_iff.mp hsteps text htext)
  | convertCase _ | repeatTexts _ | mapChars _ | joinRows _ _ => exact hofDrafts _

/-- Every element is written as it is counted: an operation that is asked for texts that fit gives
the store of them, and nothing that it relies on for it fails, so that it gives the same with every
step guarded. -/
theorem writes_what_it_counts (hvalid : store.Valid) (haccepted : rewrite.Accepted store)
    (hfits : FitsLimits (rewrite.output store)) :
    (∀ step ∈ rewrite.steps store, step.Defined) ∧
      (rewrite.keepsStore = false → List.Forall₂ (Option.Rel GuardedDraft.Gives)
        (rewrite.guardedDrafts store) (rewrite.drafts store)) ∧
      (rewrite.run store =
        if rewrite.keepsStore then .ok store else Store.build (rewrite.drafts store)) ∧
      (rewrite.keepsStore = false →
        List.Forall₂ (Option.Rel Draft.Fills) (rewrite.drafts store) (rewrite.output store)) ∧
      ∃ result, rewrite.run store = .ok result ∧
        result.texts.toList = rewrite.output store := by
  have hrun := run_eq haccepted
  have hsteps := defined_steps hvalid haccepted hfits
  refine ⟨hsteps, fun hkeeps => gives_guardedDrafts haccepted hkeeps hsteps, hrun,
    fills_drafts hvalid haccepted hfits, ?_⟩
  rw [hrun]
  cases hkeeps : rewrite.keepsStore with
  | true => exact ⟨store, rfl, (output_of_keepsStore haccepted hkeeps).symm⟩
  | false => exact Store.exists_build_of_fills (fills_drafts hvalid haccepted hfits hkeeps) hfits

theorem writes_what_it_counts_groups :
    let store := Store.ofCells ⟨⟨#[97, 195, 164, 98]⟩, none⟩ #[⟨0, some 4⟩, ⟨4, none⟩]
    let regex : Regex := ⟨"(ä)?b*", Pattern.Flags.none,
      ⟨#[.save 0, .split 2 5, .save 2, .char 'ä' false, .save 3, .split 6 8, .char 'b' false,
        .jump 5, .save 1, .accept], #[], 4, 0⟩⟩
    let rewrite := Rewrite.replaceByTemplate regex "<\\1>" none
    store.Valid ∧ rewrite.Accepted store ∧ FitsLimits (rewrite.output store) ∧
      store.texts.toList = [some "aäb", none] ∧
      rewrite.output store = [some "<>a<ä>", none] ∧
      (∀ step ∈ rewrite.steps store, step.Defined) ∧
      List.Forall₂ (Option.Rel GuardedDraft.Gives) (rewrite.guardedDrafts store)
        (rewrite.drafts store) ∧
      List.Forall₂ (Option.Rel Draft.Fills) (rewrite.drafts store) (rewrite.output store) ∧
      ∃ result, rewrite.run store = .ok result ∧
        result.texts.toList = [some "<>a<ä>", none] := by
  intro store regex rewrite
  have hbuild : Store.ofTexts [some "aäb", none] = .ok store := by with_unfolding_all rfl
  have hvalid : store.Valid := Store.valid_of_build hbuild
  have hcompile : Regex.compile "(ä)?b*" Pattern.Flags.none = .ok regex := by decide +kernel
  have hparse : Template.parse "<\\1>" regex.groupCount = .ok [.char '<', .group 1, .char '>'] := by
    decide +kernel
  have haccepted : rewrite.Accepted store := ⟨⟨_, _, hcompile⟩, _, hparse⟩
  have houtput : rewrite.output store = [some "<>a<ä>", none] := by decide +kernel
  have hfits : FitsLimits (rewrite.output store) := by
    rw [houtput]
    refine ⟨fun text htext => ?_, by decide⟩
    obtain rfl : text = "<>a<ä>" := by simpa using htext
    decide
  obtain ⟨hsteps, hguarded, -, hfills, hresult⟩ := writes_what_it_counts hvalid haccepted hfits
  refine ⟨hvalid, haccepted, hfits, Store.texts_ofTexts hbuild, houtput, hsteps,
    hguarded rfl, hfills rfl, ?_⟩
  rwa [← houtput]

end Rewrite

end TextColumns
