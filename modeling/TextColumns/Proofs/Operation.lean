import TextColumns.Operation
import TextColumns.Proofs.Propagation
import TextColumns.Proofs.Regex.Registry

/-!
What becomes of missing elements.  An operation that works row by row gives a result with as many
rows as the store has, missing where the element is; which of the others are missing is said by
`Operation.keeps`.
-/

namespace TextColumns

open Pattern (Flags)

def Outcome.marks : Outcome → List RowMarks
  | .store result => [result.marks]
  | .stores results => results.map (·.marks)
  | .answers column => [column.marks]
  | .counts column => [column.marks]
  | .integers column => [column.marks]
  | .hashes column => [column.marks]
  | .floats column => [column.marks]
  | .list column => [column.marks]
  | .found column => [column.marks]
  | .category table => [table.marks]
  | .rows indices => [⟨indices.map fun _ => true, 0⟩]

/-- The rows of the stores inside of an outcome, which are not those of the outcome itself. -/
def Outcome.innerMarks : Outcome → List RowMarks
  | .list column => [column.values.marks]
  | .category table => [table.keys.marks]
  | _ => []

/-- Whether the rows that hold a value are the given ones in each part of an outcome, and all that
are missing are counted. -/
structure Outcome.Tells (outcome : Outcome) (present : Nat → List Bool) : Prop where
  outer : ∀ k marks, outcome.marks[k]? = some marks → RowMarks.Tells marks (present k)
  inner : ∀ marks ∈ outcome.innerMarks, RowMarks.Counted marks

def Outcome.Counted (outcome : Outcome) : Prop :=
  ∀ marks ∈ outcome.marks ++ outcome.innerMarks, RowMarks.Counted marks

theorem Outcome.Tells.counted {outcome : Outcome} {present : Nat → List Bool}
    (htells : outcome.Tells present) : outcome.Counted := by
  intro marks hmarks
  rcases List.mem_append.mp hmarks with hmarks | hmarks
  · obtain ⟨k, hk⟩ := List.mem_iff_getElem?.mp hmarks
    exact (htells.outer k marks hk).counted
  · exact htells.inner marks hmarks

theorem Outcome.tells_one {outcome : Outcome} {present : Nat → List Bool} {marks : RowMarks}
    (houtcome : outcome.marks = [marks])
    (hinner : ∀ marks ∈ outcome.innerMarks, RowMarks.Counted marks)
    (htells : marks.Tells (present 0)) : outcome.Tells present where
  outer := by
    intro k other hother
    rw [houtcome, List.getElem?_singleton] at hother
    by_cases hk : k = 0
    · rw [if_pos hk] at hother
      obtain rfl := Option.some.inj hother
      exact hk ▸ htells
    · rw [if_neg hk] at hother
      cases hother
  inner := hinner

theorem Outcome.tells_stores {present : Nat → List Bool} {stores : List Store}
    (hstores : ∀ k part, stores[k]? = some part → (Store.marks part).Tells (present k)) :
    (Outcome.stores stores).Tells present where
  outer := by
    intro k marks hmarks
    obtain ⟨store, hstore, rfl⟩ := Option.map_eq_some_iff.mp (List.getElem?_map ▸ hmarks)
    exact hstores k store hstore
  inner := nofun

namespace Operation

def isElementwise : Operation → Bool
  | .joinAll _ | .sortedRows _ | .sorted _ => false
  | _ => true

/-- Whether the result asks for what is missing, so that nothing is missing in the result. -/
def asksForNull : Operation → Bool
  | .compareText comparison _ | .compareRows comparison _ => comparison.asksForNull?.isSome
  | _ => false

/-- Whether the row of a text holds a value in the `k`-th part of the result. -/
def keeps (registry : Registry) (k row : Nat) (text : String) : Operation → Bool
  | .joinRows right _ => (right.text? row).isSome
  | .compareRows comparison right =>
    comparison.asksForNull?.isSome || (right.text? row).isSome
  | .integers => (Number.readInteger .int64 10 text).isSome
  | .integersInRadix radix => (Number.readInteger .int64 radix text).isSome
  | .floats => (Number.readFloat .double text).isSome
  | .extract handle => (registry.regex? handle).any fun regex =>
      ((regex.captures text).bind fun groups => groups[k + 1]?.join).isSome
  | .splitColumns separator limit => k < ((Text.Cut.ofText separator).pieces limit text).length
  | .splitColumnsAtMatches handle limit => (registry.regex? handle).any fun regex =>
      k < (Matching.between text.utf8ByteSize 0 (regex.matcher.findAll limit text).1).length
  | _ => true

def StoresValid : Operation → Prop
  | .joinRows right _ | .compareRows _ right | .isIn right => right.Valid
  | _ => True

def present (store : Store) (registry : Registry) (operation : Operation) (k : Nat) : List Bool :=
  store.presentIf operation.asksForNull fun row text => operation.keeps registry k row text

end Operation

theorem exists_of_map {f : α → β} {result : Result α} {b : β} (hmap : result.map f = .ok b) :
    ∃ a, result = .ok a ∧ f a = b := by
  cases result with
  | error e => cases hmap
  | ok a => exact ⟨a, rfl, Except.ok.inj hmap⟩

namespace Operation

variable {hash : ByteArray → UInt64} {store : Store} {registry : Registry} {operation : Operation}
  {outcome : Outcome}

theorem exists_of_withPattern {handle : Nat} {run : Regex → Result α} {result : α}
    (hrun : withPattern registry handle run = .ok result) :
    ∃ regex, registry.regex? handle = some regex ∧ run regex = .ok result := by
  cases hregex : registry.regex? handle with
  | none =>
      rw [withPattern, Registry.get_of_none hregex] at hrun
      cases hrun
  | some regex =>
      rw [withPattern, Registry.get_of_some hregex] at hrun
      exact ⟨regex, rfl, hrun⟩

/-- In most operations exactly the missing elements are missing in the result. -/
theorem tells_plain {marks : RowMarks} (hasks : operation.asksForNull = false)
    (hkeeps : ∀ row text, operation.keeps registry 0 row text = true)
    (houtcome : outcome.marks = [marks])
    (hinner : ∀ marks ∈ outcome.innerMarks, RowMarks.Counted marks)
    (htells : marks.Tells store.present) : outcome.Tells (operation.present store registry) := by
  refine Outcome.tells_one houtcome hinner ?_
  simp only [present, hasks, hkeeps]
  rwa [← store.present_eq]

theorem tells_apply (hvalid : store.Valid) (hstores : operation.StoresValid)
    (hregistry : registry.Compiled) (helementwise : operation.isElementwise = true)
    (happly : operation.apply hash store registry = .ok outcome) :
    outcome.Tells (operation.present store registry) := by
  cases operation with
  | joinAll _ | sortedRows _ | sorted _ => cases helementwise
  -- Stores that are written anew, or handed back.
  | convertCase _ | zeroFill _ | mapChars _ =>
      obtain ⟨result, hresult, rfl⟩ := exists_of_map happly
      exact tells_plain rfl (fun _ _ => rfl) rfl nofun (Store.tells_transform hresult)
  | pad _ _ _ _ =>
      obtain ⟨result, hresult, rfl⟩ := exists_of_map happly
      exact tells_plain rfl (fun _ _ => rfl) rfl nofun (Transform.tells_pad hresult)
  | repeatTexts _ =>
      obtain ⟨result, hresult, rfl⟩ := exists_of_map happly
      exact tells_plain rfl (fun _ _ => rfl) rfl nofun (Transform.tells_repeatTexts hresult)
  | replace _ _ _ =>
      obtain ⟨result, hresult, rfl⟩ := exists_of_map happly
      exact tells_plain rfl (fun _ _ => rfl) rfl nofun (Transform.tells_replace hvalid hresult)
  | joinRows _ _ =>
      obtain ⟨result, hresult, rfl⟩ := exists_of_map happly
      exact Outcome.tells_one rfl nofun (Transform.tells_joinRows hresult)
  | replaceMatches handle _ _ =>
      obtain ⟨regex, -, hrun⟩ := exists_of_withPattern happly
      obtain ⟨result, hresult, rfl⟩ := exists_of_map hrun
      exact tells_plain rfl (fun _ _ => rfl) rfl nofun (Matching.tells_replace hvalid hresult)
  | replaceByTemplate handle _ _ =>
      obtain ⟨regex, -, hrun⟩ := exists_of_withPattern happly
      obtain ⟨result, hresult, rfl⟩ := exists_of_map hrun
      exact tells_plain rfl (fun _ _ => rfl) rfl nofun
        (Matching.tells_replaceByTemplate hvalid hresult)
  -- Stores of parts.
  | trim side set =>
      obtain rfl := Except.ok.inj happly
      exact tells_plain rfl (fun _ _ => rfl) rfl nofun (store.tells_share_texts _)
  | substring start length =>
      obtain rfl := Except.ok.inj happly
      exact tells_plain rfl (fun _ _ => rfl) rfl nofun (store.tells_share_texts _)
  | extract handle =>
      obtain ⟨regex, hregex, hrun⟩ := exists_of_withPattern happly
      obtain ⟨parts, hparts, rfl⟩ := exists_of_map hrun
      refine Outcome.tells_stores fun k part hpart => ?_
      simp only [present, asksForNull, keeps, hregex, Option.any_some]
      exact Matching.tells_extract hvalid (hregistry handle regex hregex) hparts hpart
  | splitColumns _ _ =>
      obtain ⟨column, hcolumn, rfl⟩ := exists_of_map happly
      exact Outcome.tells_stores fun k part hpart =>
        ListColumn.tells_transpose (ListColumn.ofExtents_of_split hcolumn) hpart
  | splitColumnsAtMatches handle limit =>
      obtain ⟨regex, hregex, hrun⟩ := exists_of_withPattern happly
      obtain ⟨column, hcolumn, rfl⟩ := exists_of_map hrun
      rw [Matching.split_eq_ofExtents (hregistry handle regex hregex)] at hcolumn
      refine Outcome.tells_stores fun k part hpart => ?_
      simp only [present, asksForNull, keeps, hregex, Option.any_some]
      exact ListColumn.tells_transpose hcolumn hpart
  -- Lists.
  | split _ _ =>
      obtain ⟨column, hcolumn, rfl⟩ := exists_of_map happly
      have hpieces := ListColumn.ofExtents_of_split hcolumn
      exact tells_plain rfl (fun _ _ => rfl) rfl
        (List.forall_mem_singleton.mpr (ListColumn.counted_values hpieces))
        (ListColumn.tells_pieces hpieces)
  | splitFromRight _ _ =>
      obtain ⟨column, hcolumn, rfl⟩ := exists_of_map happly
      obtain ⟨htells, hcounted⟩ := ListColumn.tells_splitFromRight hcolumn
      exact tells_plain rfl (fun _ _ => rfl) rfl (List.forall_mem_singleton.mpr hcounted) htells
  | findAll handle =>
      obtain ⟨regex, hregex, hrun⟩ := exists_of_withPattern happly
      obtain ⟨column, hcolumn, rfl⟩ := exists_of_map hrun
      obtain ⟨htells, hcounted⟩ :=
        Matching.tells_findAll (hregistry handle regex hregex) hcolumn
      exact tells_plain rfl (fun _ _ => rfl) rfl (List.forall_mem_singleton.mpr hcounted) htells
  | splitAtMatches handle limit =>
      obtain ⟨regex, hregex, hrun⟩ := exists_of_withPattern happly
      obtain ⟨column, hcolumn, rfl⟩ := exists_of_map hrun
      rw [Matching.split_eq_ofExtents (hregistry handle regex hregex)] at hcolumn
      exact tells_plain rfl (fun _ _ => rfl) rfl
        (List.forall_mem_singleton.mpr (ListColumn.counted_values hcolumn))
        (ListColumn.tells_pieces hcolumn)
  -- Columns of answers.
  | contains _ | startsWith _ | endsWith _ | isKind _ | isIn _ =>
      obtain rfl := Except.ok.inj happly
      exact tells_plain rfl (fun _ _ => rfl) rfl nofun (Measure.tells_answers hvalid _)
  | compareText comparison _ =>
      obtain rfl := Except.ok.inj happly
      exact Outcome.tells_one rfl nofun (tells_compareText hvalid comparison _)
  | compareRows _ _ =>
      obtain ⟨column, hcolumn, rfl⟩ := exists_of_map happly
      exact Outcome.tells_one rfl nofun (tells_compareRows hvalid hstores hcolumn)
  | containsMatch _ | matchesStart _ | findMatch _ | countMatches _ =>
      obtain ⟨regex, -, hrun⟩ := exists_of_withPattern happly
      obtain rfl := Except.ok.inj hrun
      exact tells_plain rfl (fun _ _ => rfl) rfl nofun (Matching.tells_mapRows hvalid _ _)
  -- Columns of numbers.
  | find _ | findLast _ =>
      obtain rfl := Except.ok.inj happly
      exact tells_plain rfl (fun _ _ => rfl) rfl nofun (Measure.tells_positions store _)
  | count _ | charLength | byteLength | hash =>
      obtain rfl := Except.ok.inj happly
      exact tells_plain rfl (fun _ _ => rfl) rfl nofun (Measure.tells_total fun _ _ _ => rfl)
  | integers | floats =>
      obtain rfl := Except.ok.inj happly
      exact Outcome.tells_one rfl nofun (Measure.tells_numbers store _)
  | integersInRadix radix =>
      obtain ⟨column, hcolumn, rfl⟩ := exists_of_map happly
      exact Outcome.tells_one rfl nofun (Measure.tells_integersInRadix hcolumn)
  | encode =>
      obtain ⟨table, htable, rfl⟩ := exists_of_map happly
      have hencodes := CategoryTable.encodes_of_ofStore hvalid htable
      exact tells_plain rfl (fun _ _ => rfl) rfl
        (List.forall_mem_singleton.mpr hencodes.keys_valid.tells.counted) hencodes.tells

def givesStores : Operation → Bool
  | .extract _ | .splitColumns _ _ | .splitColumnsAtMatches _ _ => true
  | _ => false

theorem length_marks (hone : operation.givesStores = false)
    (happly : operation.apply hash store registry = .ok outcome) : outcome.marks.length = 1 := by
  cases operation with
  | extract _ | splitColumns _ _ | splitColumnsAtMatches _ _ => cases hone
  | trim _ _ | substring _ _ | find _ | findLast _ | count _ | contains _ | startsWith _
  | endsWith _ | charLength | byteLength | isKind _ | integers | floats | hash
  | compareText _ _ | isIn _ | sortedRows _ =>
      obtain rfl := Except.ok.inj happly
      rfl
  | containsMatch _ | matchesStart _ | findMatch _ | countMatches _ =>
      obtain ⟨regex, -, hrun⟩ := exists_of_withPattern happly
      obtain rfl := Except.ok.inj hrun
      rfl
  | findAll _ | replaceMatches _ _ _ | replaceByTemplate _ _ _ | splitAtMatches _ _ =>
      obtain ⟨regex, -, hrun⟩ := exists_of_withPattern happly
      obtain ⟨result, -, rfl⟩ := exists_of_map hrun
      rfl
  | _ =>
      obtain ⟨result, -, rfl⟩ := exists_of_map happly
      rfl

theorem eq_encode_of_category {table : CategoryTable}
    (happly : operation.apply hash store registry = .ok (.category table)) :
    operation = .encode ∧ CategoryTable.ofStore store = .ok table := by
  cases operation with
  | encode =>
      obtain ⟨other, hother, heq⟩ := exists_of_map happly
      exact ⟨rfl, Outcome.category.inj heq ▸ hother⟩
  | trim _ _ | substring _ _ | find _ | findLast _ | count _ | contains _ | startsWith _
  | endsWith _ | charLength | byteLength | isKind _ | integers | floats | hash
  | compareText _ _ | isIn _ | sortedRows _ => cases happly
  | containsMatch _ | matchesStart _ | findMatch _ | countMatches _ =>
      obtain ⟨regex, -, hrun⟩ := exists_of_withPattern happly
      cases hrun
  | extract _ | findAll _ | replaceMatches _ _ _ | replaceByTemplate _ _ _ | splitAtMatches _ _
  | splitColumnsAtMatches _ _ =>
      obtain ⟨regex, -, hrun⟩ := exists_of_withPattern happly
      obtain ⟨result, -, heq⟩ := exists_of_map hrun
      cases heq
  | _ =>
      obtain ⟨result, -, heq⟩ := exists_of_map happly
      cases heq

theorem counted_apply (hvalid : store.Valid) (hstores : operation.StoresValid)
    (hregistry : registry.Compiled) (happly : operation.apply hash store registry = .ok outcome) :
    outcome.Counted := by
  by_cases helementwise : operation.isElementwise = true
  · exact (tells_apply hvalid hstores hregistry helementwise happly).counted
  · cases operation with
    | joinAll _ =>
        obtain ⟨result, hresult, rfl⟩ := exists_of_map happly
        exact List.forall_mem_singleton.mpr (Store.tells_of_build hresult).counted
    | sortedRows _ =>
        obtain rfl := Except.ok.inj happly
        exact List.forall_mem_singleton.mpr (List.count_eq_zero.mpr (by simp)).symm
    | sorted _ =>
        obtain ⟨result, hresult, rfl⟩ := exists_of_map happly
        exact List.forall_mem_singleton.mpr (hvalid.gather hresult).2.1.tells.counted
    | _ => exact absurd rfl helementwise

/-- A result has the rows of the store wherever an operation works row by row.  What is missing in
the store is missing in the result, except that the comparisons that ask for it always have an
answer.  What is there gives a value, except for texts that spell no number, groups and pieces that
a text does not have, and rows that are missing in another store.  Whatever the operation, as many
rows are counted as missing as are read so, and the code of a row is that of missing rows exactly
if the row is missing. -/
theorem apply_propagates_missing (hvalid : store.Valid) (hstores : operation.StoresValid)
    (hregistry : registry.Compiled) (happly : operation.apply hash store registry = .ok outcome) :
    (operation.isElementwise = true → ∀ k marks, outcome.marks[k]? = some marks →
      marks.present.length = store.size ∧ ∀ row < store.size,
        (store.text? row = none → marks.present[row]? = some operation.asksForNull) ∧
        ∀ text, store.text? row = some text →
          marks.present[row]? = some (operation.keeps registry k row text)) ∧
    (operation.givesStores = false → outcome.marks.length = 1) ∧
    (∀ marks ∈ outcome.marks ++ outcome.innerMarks,
      marks.nullCount = marks.present.count false) ∧
    ∀ table, outcome = .category table → ∀ row < store.size,
      (table.codes[row]? = some CategoryTable.missing ↔ store.text? row = none) := by
  refine ⟨fun helementwise k marks hmarks => ?_, fun hone => length_marks hone happly,
    counted_apply hvalid hstores hregistry happly, fun table houtcome row hrow => ?_⟩
  · have htells := (tells_apply hvalid hstores hregistry helementwise happly).outer k marks hmarks
    rw [htells.present_eq, present, Store.presentIf]
    refine ⟨by rw [List.length_map, List.length_range], fun row hrow => ?_⟩
    rw [List.getElem?_map, List.getElem?_range hrow, Option.map_some]
    refine ⟨fun htext => ?_, fun text htext => ?_⟩ <;> rw [htext] <;> rfl
  · obtain ⟨rfl, htable⟩ := eq_encode_of_category (houtcome ▸ happly)
    exact (CategoryTable.encodes_of_ofStore hvalid htable).code_eq_missing row hrow

/-- Neither a missing text nor a group that takes no part in the match gives a part. -/
theorem apply_propagates_missing_groups :
    let hash : ByteArray → UInt64 := fun bytes => bytes.data.foldl
      (fun sum byte => (sum ^^^ byte.toUInt64) * 1099511628211) 14695981039346656037
    let store := Store.ofCells ⟨⟨#[97, 98]⟩, none⟩ #[⟨0, some 2⟩, ⟨0, none⟩, ⟨1, some 1⟩]
    let regex : Regex := ⟨"(a)|b", Flags.none,
      ⟨#[.save 0, .split 2 6, .save 2, .char 'a' false, .save 3, .jump 7, .char 'b' false, .save 1,
        .accept], #[], 4, 0⟩⟩
    let registry := (Registry.empty.insert ⟨"(a)|b", Flags.none⟩ regex).2
    let part := store.share [some ⟨0, 0, 1⟩, none, none]
    store.Valid ∧ registry.Compiled ∧ store.texts.toList = [some "ab", none, some "b"] ∧
      (extract 0).apply hash store registry = .ok (.stores [part]) ∧
      part.marks.present.length = 3 ∧ part.marks.present[0]? = some true ∧
      part.marks.present[1]? = some false ∧ part.marks.present[2]? = some false ∧
      part.marks.nullCount = part.marks.present.count false := by
  intro hash store regex registry part
  have hparts : Store.ofParts ⟨#[97, 98]⟩ (List.map Int64.toInt [0, 0, 1])
      (List.map Int32.toInt [2, -1, 1]) = .ok store := by with_unfolding_all rfl
  have hvalid : store.Valid := Store.valid_of_ofParts_words hparts
  have hcompile : Regex.compile "(a)|b" Flags.none = .ok regex := by decide +kernel
  have hregistry : registry.Compiled := Registry.compiled_empty.insert hcompile _
  have htexts : store.texts.toList = [some "ab", none, some "b"] := by decide +kernel
  have hgroups : Matching.mapRows store regex Matching.captureRow =
      [some (some [some ⟨0, 1⟩, some ⟨0, 1⟩]), none, some (some [some ⟨0, 1⟩, none])] := by
    decide +kernel
  have hextract : Matching.extract store regex = .ok [part] := by
    rw [Matching.extract, if_neg (by decide), hgroups]
    with_unfolding_all rfl
  have happly : (extract 0).apply hash store registry = .ok (.stores [part]) := by
    show (Matching.extract store regex).map Outcome.stores = _
    rw [hextract]
    rfl
  have hkept : (extract 0).keeps registry 0 0 "ab" = true := by decide +kernel
  have hlost : (extract 0).keeps registry 0 2 "b" = false := by decide +kernel
  have hstores : (extract 0).StoresValid := trivial
  obtain ⟨hrows, -, hcounted, -⟩ := apply_propagates_missing hvalid hstores hregistry happly
  obtain ⟨hsize, hrows⟩ := hrows rfl 0 part.marks rfl
  have hfirst := (hrows 0 (by decide)).2 "ab" (by decide +kernel)
  have hthird := (hrows 2 (by decide)).2 "b" (by decide +kernel)
  rw [hkept] at hfirst
  rw [hlost] at hthird
  have hsecond := (hrows 1 (by decide)).1 (by decide +kernel)
  exact ⟨hvalid, hregistry, htexts, happly, hsize, hfirst, hsecond, hthird,
    hcounted part.marks (List.mem_singleton_self _)⟩

end Operation

end TextColumns
