import TextColumns.Proofs.Marks
import TextColumns.Matching.Replacement
import TextColumns.Measure.Occurrence
import TextColumns.Pieces.Split
import TextColumns.Transform.Case
import TextColumns.Transform.Join
import TextColumns.Transform.Pad
import TextColumns.Transform.Replace

/-!
The rows of what is made from a store, function by function: missing where the element is, and
where a text gives no value.
-/

namespace TextColumns

open Text (Extent)

namespace Transform

variable {store result : Store}

theorem tells_pad {width : Nat} {side : Side} {fill : String} {policy : PadPolicy}
    (hpad : pad store width side fill policy = .ok result) : result.marks.Tells store.present := by
  unfold pad at hpad
  split at hpad
  · cases hpad
  · exact Store.tells_transform hpad

theorem tells_repeatTexts {times : Nat} (hrepeat : repeatTexts store times = .ok result) :
    result.marks.Tells store.present := by
  unfold repeatTexts at hrepeat
  split at hrepeat
  · cases hrepeat
  · exact Store.tells_transform hrepeat

theorem tells_replace (hvalid : store.Valid) {target replacement : String} {limit : Option Nat}
    (hreplace : replace store target replacement limit = .ok result) :
    result.marks.Tells store.present := by
  unfold replace at hreplace
  split at hreplace
  · obtain rfl := Except.ok.inj hreplace
    exact hvalid.tells
  · exact Store.tells_transform hreplace

theorem tells_joinRows {right : Store} {separator : String}
    (hjoin : joinRows store right separator = .ok result) :
    result.marks.Tells (store.presentIf false fun row _ => (right.text? row).isSome) := by
  by_cases hsize : store.size = right.size
  · rw [joinRows, if_neg (not_not_intro hsize)] at hjoin
    have htells := Store.tells_of_build hjoin
    rw [List.map_zipWith, Store.zipWith_texts_eq hsize fun _ => rfl] at htells
    convert htells using 2
    funext row text
    cases right.text? row <;> rfl
  · rw [joinRows, if_pos hsize] at hjoin
    cases hjoin

end Transform

namespace Measure

variable {store : Store}

theorem get?_answers (hvalid : store.Valid) (p : String → Bool) (row : Nat) :
    (answers store p).get? row = (store.text? row).map p := by
  refine @Store.Valid.get?_answers store _ hvalid _ p false ?_ row
  rw [Array.toList_map]
  exact List.map_congr_left fun text _ => by cases text <;> rfl

theorem tells_answers (hvalid : store.Valid) (p : String → Bool) :
    (answers store p).marks.Tells store.present :=
  hvalid.tells_validity (by rw [Array.size_map, Store.size_texts])

theorem tells_numbers [Inhabited α] (store : Store) (f : String → Option α) :
    (numbers store f).marks.Tells (store.presentIf false fun _ text => (f text).isSome) := by
  have htells : (numbers store f).marks.Tells _ := Column.tells_ofOptions _
  rwa [Array.toList_map, List.map_map, Store.map_texts_eq] at htells

theorem tells_total [Inhabited α] {f : String → Option α}
    (hf : ∀ row text, store.text? row = some text → (f text).isSome = true) :
    (numbers store f).marks.Tells store.present := by
  rw [store.present_eq, ← Store.presentIf_congr hf]
  exact tells_numbers store f

theorem tells_integersInRadix {kind : Number.IntegerKind} {radix : Nat} {column : Column Int}
    (hcolumn : integersInRadix store kind radix = .ok column) :
    column.marks.Tells
      (store.presentIf false fun _ text => (Number.readInteger kind radix text).isSome) := by
  unfold integersInRadix at hcolumn
  split at hcolumn
  · obtain rfl := Except.ok.inj hcolumn
    exact tells_numbers store _
  · cases hcolumn

theorem tells_positions (store : Store) (f : String → Option Nat) :
    (positions store f).marks.Tells store.present :=
  tells_total fun _ text _ => by cases f text <;> rfl

end Measure

theorem tells_nullAnswers (store : Store) (whenNull : Bool) :
    (nullAnswers store whenNull).marks.Tells (store.presentIf true fun _ _ => true) := by
  have hpresent : (store.presentIf true fun _ _ => true) =
      List.replicate store.cells.size true := by
    rw [← store.map_texts_eq fun _ => true, List.map_const', Array.length_toList, Store.size_texts,
      Store.size]
  have htells : (nullAnswers store whenNull).marks.Tells _ := Column.tells_all _
  rwa [Array.size_map, ← hpresent] at htells

theorem tells_compareText {store : Store} (hvalid : store.Valid) (comparison : Comparison)
    (text : String) :
    (compareText store comparison text).marks.Tells
      (store.presentIf comparison.asksForNull?.isSome fun _ _ => true) := by
  unfold compareText
  cases comparison.asksForNull? with
  | none =>
      rw [Option.isSome_none, ← store.present_eq]
      exact Measure.tells_answers hvalid _
  | some whenNull => exact tells_nullAnswers store whenNull

theorem tells_compareRows {left right : Store} (hleft : left.Valid) (hright : right.Valid)
    {comparison : Comparison} {column : Column Bool}
    (hcompare : compareRows left right comparison = .ok column) :
    column.marks.Tells <| left.presentIf comparison.asksForNull?.isSome fun row _ =>
      comparison.asksForNull?.isSome || (right.text? row).isSome := by
  by_cases hsize : left.size = right.size
  case neg =>
    rw [compareRows, if_pos hsize] at hcompare
    cases hcompare
  case pos =>
    rw [compareRows, if_neg (not_not_intro hsize)] at hcompare
    cases hasks : comparison.asksForNull? with
    | some whenNull =>
        rw [hasks] at hcompare
        obtain rfl := Except.ok.inj hcompare
        exact tells_nullAnswers left whenNull
    | none =>
        rw [hasks] at hcompare
        obtain rfl := Except.ok.inj hcompare
        have hmarks : (left.texts.map (·.isSome)).size = (right.texts.map (·.isSome)).size := by
          rw [Array.size_map, Array.size_map, Store.size_texts, Store.size_texts, hsize]
        have hvalidity := Validity.merge_ofMarks hmarks
        rw [← hleft.validity_eq, ← hright.validity_eq] at hvalidity
        have htells : (⟨left.texts.zipWith (bothHold comparison) right.texts,
            Validity.merge left.validity right.validity⟩ : Column Bool).marks.Tells _ :=
          Column.tells_ofMarks hvalidity (by simp)
        rwa [Array.toList_zipWith, Array.toList_map, Array.toList_map, List.zipWith_map,
          Store.zipWith_texts_eq hsize fun _ => rfl] at htells

namespace ListColumn

variable {store : Store} {column : ListColumn}

section Pieces

variable {pieces : String → List Extent}
  (hcolumn : ofExtents store (store.texts.toList.map (·.map pieces)) = .ok column)
include hcolumn

theorem tells_pieces : column.marks.Tells store.present := by
  have htells := tells_ofExtents hcolumn
  rw [List.map_map] at htells
  convert htells using 1
  exact List.map_congr_left fun text _ => Option.isSome_map.symm

theorem tells_transpose {k : Nat} {part : Store} (hpart : column.transpose[k]? = some part) :
    part.marks.Tells (store.presentIf false fun _ text => k < (pieces text).length) := by
  obtain ⟨i, hi, rfl⟩ := Option.map_eq_some_iff.mp (List.getElem?_map ▸ hpart)
  obtain ⟨-, rfl⟩ := List.getElem?_eq_some_iff.mp hi
  rw [List.getElem_range]
  have htells := tells_nth hcolumn k
  rwa [List.map_map, Store.map_texts_eq] at htells

end Pieces

theorem ofExtents_of_split {separator : Option String} {limit : Option Nat}
    (hsplit : split store separator limit = .ok column) :
    ofExtents store (store.texts.toList.map
      (·.map ((Text.Cut.ofText separator).pieces limit))) = .ok column := by
  unfold split at hsplit
  split at hsplit
  · cases hsplit
  · exact hsplit

theorem tells_splitFromRight {separator : Option String} {limit : Option Nat}
    (hsplit : splitFromRight store separator limit = .ok column) :
    column.marks.Tells store.present ∧ column.values.marks.Counted := by
  unfold splitFromRight at hsplit
  split at hsplit
  · cases hsplit
  · exact ⟨tells_pieces hsplit, counted_values hsplit⟩

end ListColumn

namespace Matching

variable {store : Store} {regex : Regex}

theorem isSome_mapTexts (matcher : Matcher) (f : Matcher → String → β × Matcher)
    (texts : List (Option String)) :
    (mapTexts matcher f texts).map (·.isSome) = texts.map (·.isSome) := by
  induction texts generalizing matcher with
  | nil => rfl
  | cons text rest ih =>
      cases text with
      | none => exact congrArg (false :: ·) (ih matcher)
      | some text => exact congrArg (true :: ·) (ih (f matcher text).2)

theorem length_mapRows (store : Store) (regex : Regex) (f : Matcher → String → β × Matcher) :
    (mapRows store regex f).length = store.size := by
  have hlength := congrArg List.length (isSome_mapTexts regex.matcher f store.texts.toList)
  rw [List.length_map, List.length_map] at hlength
  exact hlength.trans (Array.length_toList.trans store.size_texts)

theorem isSome_drafts {found : List (Option β)}
    (hfound : found.map (·.isSome) = store.present) (draft : String → β → Draft) :
    (drafts store found draft).map (·.isSome) = store.present := by
  rw [Store.present] at hfound ⊢
  rw [drafts]
  generalize store.texts.toList = texts at hfound ⊢
  induction texts generalizing found with
  | nil => rfl
  | cons text rest ih =>
      cases found with
      | nil => cases hfound
      | cons first others =>
          obtain ⟨hfirst, hothers⟩ := List.cons.inj hfound
          rw [List.zipWith_cons_cons, List.map_cons, List.map_cons, ih hothers]
          cases text <;> cases first <;> first | rfl | cases hfirst

theorem tells_drafts {f : Matcher → String → β × Matcher} {draft : String → β → Draft}
    {result : Store}
    (hbuild : Store.build (drafts store (mapRows store regex f) draft) = .ok result) :
    result.marks.Tells store.present := by
  rw [← isSome_drafts (isSome_mapTexts regex.matcher f store.texts.toList) draft]
  exact Store.tells_of_build hbuild

theorem tells_replace (hvalid : store.Valid) {replacement : String} {limit : Option Nat}
    {result : Store} (hreplace : replace store regex replacement limit = .ok result) :
    result.marks.Tells store.present := by
  unfold replace at hreplace
  split at hreplace
  · obtain rfl := Except.ok.inj hreplace
    exact hvalid.tells
  · exact tells_drafts hreplace

theorem tells_replaceByTemplate (hvalid : store.Valid) {template : String} {limit : Option Nat}
    {result : Store} (hreplace : replaceByTemplate store regex template limit = .ok result) :
    result.marks.Tells store.present := by
  unfold replaceByTemplate at hreplace
  split at hreplace
  · cases hreplace
  · split at hreplace
    · obtain rfl := Except.ok.inj hreplace
      exact hvalid.tells
    · exact tells_drafts hreplace

theorem tells_mapRows (hvalid : store.Valid) (f : Matcher → String → β × Matcher)
    (post : Option β → γ) :
    (⟨((mapRows store regex f).map post).toArray, store.validity⟩ : Column γ).marks.Tells
      store.present :=
  hvalid.tells_validity (by rw [List.size_toArray, List.length_map, length_mapRows])

theorem tells_extract (hvalid : store.Valid)
    (hcompile : ∃ pattern flags, Regex.compile pattern flags = .ok regex) {parts : List Store}
    (hextract : extract store regex = .ok parts) {k : Nat} {part : Store}
    (hpart : parts[k]? = some part) :
    part.marks.Tells <| store.presentIf false fun _ text =>
      ((regex.captures text).bind fun groups => groups[k + 1]?.join).isSome := by
  obtain ⟨pattern, flags, hcompile⟩ := hcompile
  have hsize : part.size = store.size := by
    rw [extract_eq_ok hextract hpart, Store.size_share, List.length_mapIdx, length_mapRows]
  rw [← Store.present_of_text? hsize fun row hrow => ?_]
  · exact (valid_of_extract hvalid hcompile hextract (List.mem_of_getElem? hpart)).tells
  · rw [extract_text? hvalid hcompile hextract hpart hrow]
    cases store.text? row with
    | none => rfl
    | some text =>
        show ((regex.captures text).bind fun groups => _).isSome = Option.isSome _
        cases regex.captures text with
        | none => rfl
        | some groups => exact Option.isSome_map

theorem tells_findAll (hcompile : ∃ pattern flags, Regex.compile pattern flags = .ok regex)
    {column : ListColumn} (hfound : findAll store regex = .ok column) :
    column.marks.Tells store.present ∧ column.values.marks.Counted := by
  obtain ⟨pattern, flags, hcompile⟩ := hcompile
  rw [findAll, extents_eq hcompile] at hfound
  exact ⟨ListColumn.tells_pieces hfound, ListColumn.counted_values hfound⟩

theorem split_eq_ofExtents (hcompile : ∃ pattern flags, Regex.compile pattern flags = .ok regex)
    (store : Store) (limit : Option Nat) :
    split store regex limit = ListColumn.ofExtents store (store.texts.toList.map
      (·.map fun text => between text.utf8ByteSize 0 (regex.matcher.findAll limit text).1)) := by
  obtain ⟨pattern, flags, hcompile⟩ := hcompile
  have hfound (text : String) : (regex.matcher.findAll limit text).1 =
      Text.upTo limit (regex.program.extentsIn text) :=
    (Matcher.ready_ofProgram regex.program).findAll_eq (Regex.check_of_compile hcompile)
      (Regex.advances_of_compile hcompile) limit text
  simp only [split, pieces_eq hcompile, hfound]

end Matching

end TextColumns
