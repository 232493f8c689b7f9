import TextColumns.Proofs.Category.Canonical

/-!
Edits that undo one another.  Keys that no row has are removed and added again, or keys are added
and removed again, and the table is the one that it was, its codes too.  On the way the table can
only be refused for its size.
-/

namespace TextColumns

theorem bind_eq_ok {α β : Type} {first : Result α} {next : α → Result β} {result : β}
    (hresult : (do next (← first)) = .ok result) :
    ∃ value, first = .ok value ∧ next value = .ok result := by
  cases first with
  | error failure => cases hresult
  | ok value => exact ⟨value, rfl, hresult⟩

namespace Store

variable {store : Store}

theorem Valid.limitedBy_gather (hvalid : store.Valid) {indices : List Nat}
    (hinside : ∀ index ∈ indices, index < store.size) :
    LimitedBy (total (textSizes (indices.map store.text?)) ≤ maxBufferSize)
      (store.gather indices) := by
  rw [hvalid.gather_eq hinside]
  apply (limitedBy_ofTexts _).of_iff
  refine ⟨fun hfits => hfits.all, hvalid.fitsLimits_of_subset fun text htext => ?_⟩
  obtain ⟨index, -, hindex⟩ := List.mem_map.mp htext
  exact some_mem_texts.mpr ⟨index, hindex⟩

end Store

namespace CategoryTable

variable {table result : CategoryTable} {keys new removed : Store}

theorem limitedBy_ofStore {store : Store} (hvalid : store.Valid) :
    LimitedBy (store.distinct.card ≤ maxKeys) (ofStore store) where
  done hcard := by
    obtain ⟨table, htable, -⟩ := exists_ofStore hvalid hcard
    exact ⟨table, htable⟩
  refused hcard := by
    rw [ofStore_eq hvalid]
    split
    · exact ⟨_, rfl, rfl⟩
    · rw [if_pos (Nat.lt_of_not_le hcard)]
      exact ⟨_, rfl, rfl⟩

theorem distinctTexts_eq (stores : List Store) :
    distinctTexts stores = (do ofStore (← Store.concat stores)).map CategoryTable.keys := by
  rw [distinctTexts]
  cases Store.concat stores with
  | error failure => rfl
  | ok all =>
      cases hencoded : ofStore all <;> simp [hencoded, bind, Except.bind, Except.map]

theorem addKeys_eq (table : CategoryTable) (new : Store) :
    table.addKeys new = (distinctTexts [table.keys, new]).map table.withKeys := by
  rw [addKeys]
  cases distinctTexts [table.keys, new] <;> rfl

theorem keepKeys_eq (table : CategoryTable) (places : List Nat) :
    table.keepKeys places = (table.keys.gather places).map table.withKeys := by
  rw [keepKeys]
  cases table.keys.gather places <;> rfl

/-- Whether keys and the texts that are added to them are not too long and not too many. -/
structure AddFits (keys new : Store) : Prop where
  bytes : keys.valueBytes + new.valueBytes ≤ Store.maxBufferSize
  card : (keys.distinct ∪ new.distinct).card ≤ maxKeys

theorem addFits_iff : AddFits keys new ↔
    keys.valueBytes + new.valueBytes ≤ Store.maxBufferSize ∧
      (keys.distinct ∪ new.distinct).card ≤ maxKeys := by
  constructor
  · intro hfits
    exact ⟨hfits.bytes, hfits.card⟩
  · intro hfits
    exact ⟨hfits.1, hfits.2⟩

theorem limitedBy_addKeys (hchecked : table.Checked) (hnew : new.Valid) :
    LimitedBy (AddFits table.keys new) (table.addKeys new) := by
  have htable : LimitedBy (table.keys.valueBytes + new.valueBytes ≤ Store.maxBufferSize ∧
      (table.keys.distinct ∪ new.distinct).card ≤ maxKeys)
      (do ofStore (← Store.concat [table.keys, new])) := by
    apply (Store.limitedBy_concat hchecked.keys.valid hnew).bind
    intro all hall
    obtain ⟨hvalid, hset, -⟩ := Store.texts_of_concat hchecked.keys.valid hnew hall
    exact Store.distinct_union hset ▸ limitedBy_ofStore hvalid
  rw [addKeys_eq, distinctTexts_eq]
  exact ((htable.map CategoryTable.keys).map table.withKeys).of_iff addFits_iff.symm

def keptKeys (table : CategoryTable) (removed : Store) : List (Option String) :=
  table.keys.texts.toList.filter fun key => key ∉ removed.texts

theorem Checked.removeKeys_eq (hchecked : table.Checked) (removed : Store) :
    ∃ places, table.removeKeys removed = table.keepKeys places ∧
      (∀ place ∈ places, place < table.keys.size) ∧
      places.map table.keys.text? = table.keptKeys removed := by
  refine ⟨_, rfl, fun place hplace => ?_, ?_⟩
  · exact List.mem_range.mp (List.mem_of_mem_filter hplace)
  · rw [keptKeys, Store.toList_texts, List.filter_map]
    refine congrArg (List.map _) (List.filter_congr fun place hplace => ?_)
    obtain ⟨key, hkey⟩ := hchecked.keys.exists_text (List.mem_range.mp hplace)
    rw [Function.comp_apply, hkey, Option.getD_some, Bool.eq_iff_iff, Bool.not_eq_true',
      ← Bool.not_eq_true, Store.contains_members, decide_eq_true_iff]

theorem limitedBy_removeKeys (hchecked : table.Checked) (removed : Store) :
    LimitedBy (total (textSizes (table.keptKeys removed)) ≤ Store.maxBufferSize)
      (table.removeKeys removed) := by
  obtain ⟨places, hremove, hinside, hkept⟩ := hchecked.removeKeys_eq removed
  rw [hremove, keepKeys_eq, ← hkept]
  exact (hchecked.keys.valid.limitedBy_gather hinside).map _

theorem texts_of_removeKeys (hchecked : table.Checked)
    (hremove : table.removeKeys removed = .ok result) :
    result.keys.texts.toList = table.keptKeys removed := by
  obtain ⟨places, hplaces, -, hkept⟩ := hchecked.removeKeys_eq removed
  rw [hplaces, keepKeys] at hremove
  split at hremove
  next => cases hremove
  next keys hkeys =>
    cases hremove
    exact (hchecked.keys.valid.gather hkeys).2.2.trans hkept

/-- Whether edits of a table lead back to it where they fit, and are otherwise refused. -/
structure Restores (table : CategoryTable) (fits : Prop) (edited : Result CategoryTable) : Prop
    extends LimitedBy fits edited where
  same : ∀ after, edited = .ok after → after.sameTable table = true

theorem Checked.addFits_of_removeKeys (hchecked : table.Checked) {unused : Store}
    (hkeys : unused.textSet ⊆ table.keys.textSet)
    (hremove : table.removeKeys unused = .ok result) :
    AddFits result.keys unused ↔
      total (textSizes (table.keptKeys unused)) + unused.valueBytes ≤ Store.maxBufferSize ∧
        table.keyCount ≤ maxKeys := by
  obtain ⟨hresult, hview⟩ := removeKeys_refines hchecked hremove
  have hset : table.keys.textSet = result.keys.textSet ∪ unused.textSet := by
    have hkept : result.keys.textSet = table.keys.textSet \ unused.textSet :=
      congrArg View.keys hview
    rw [hkept, Set.sdiff_union_of_subset hkeys]
  have hbytes : result.keys.valueBytes = total (textSizes (table.keptKeys unused)) := by
    rw [hresult.keys.valid.valueBytes_eq, texts_of_removeKeys hchecked hremove]
  have hcard : (result.keys.distinct ∪ unused.distinct).card = table.keyCount := by
    rw [← Store.distinct_union hset, hchecked.keys.card_distinct, keyCount]
  rw [addFits_iff, hbytes, hcard]

theorem Checked.restores_removed (hchecked : table.Checked) {unused : Store} (hvalid : unused.Valid)
    (hkeys : unused.textSet ⊆ table.keys.textSet)
    (hunused : ∀ text ∈ unused.textSet, some text ∉ table.decoded) :
    Restores table (table.keyCount ≤ maxKeys ∧
      total (textSizes (table.keptKeys unused)) + unused.valueBytes ≤ Store.maxBufferSize)
      (do (← table.removeKeys unused).addKeys unused) where
  toLimitedBy := by
    have hboth := (limitedBy_removeKeys hchecked unused).bind fun front hfront =>
      (limitedBy_addKeys (removeKeys_refines hchecked hfront).1 hvalid).of_iff
        (hchecked.addFits_of_removeKeys hkeys hfront)
    apply hboth.of_iff
    constructor
    · rintro ⟨-, hbytes, hcard⟩
      exact ⟨hcard, hbytes⟩
    · rintro ⟨hcard, hbytes⟩
      exact ⟨(Nat.le_add_right _ _).trans hbytes, hbytes, hcard⟩
  same := by
    intro after hafter
    obtain ⟨front, hfront, hback⟩ := bind_eq_ok hafter
    obtain ⟨hfrontChecked, hfrontView⟩ := removeKeys_refines hchecked hfront
    obtain ⟨hafterChecked, hafterView⟩ := addKeys_refines hfrontChecked hvalid hback
    apply hafterChecked.sameTable_of_view hchecked
    rw [hafterView, hfrontView]
    apply View.ext
    · exact Set.sdiff_union_of_subset hkeys
    · exact map_restrict_eq_self fun text htext hremoved => hunused text hremoved htext

/-- A table that keys could be added to is not too large for removing some. -/
theorem Checked.bytes_keptKeys_le (hchecked : table.Checked) (hvalid : new.Valid)
    (hadd : table.addKeys new = .ok result) (removed : Store) :
    total (textSizes (result.keptKeys removed)) ≤ Store.maxBufferSize := by
  obtain ⟨hresult, hview⟩ := addKeys_refines hchecked hvalid hadd
  have hset : result.keys.textSet = table.keys.textSet ∪ new.textSet := congrArg View.keys hview
  have hcard : result.keys.distinct.card ≤ maxKeys := by
    rw [Store.distinct_union hset]
    exact ((limitedBy_addKeys hchecked hvalid).of_ok hadd).card
  calc total (textSizes (result.keptKeys removed))
    _ ≤ total (textSizes result.keys.texts.toList) :=
        total_le_of_sublist (List.filter_sublist.map _)
    _ = result.keys.valueBytes := hresult.keys.valid.valueBytes_eq.symm
    _ ≤ maxKeys * Store.maxElementSize := hresult.keys.valueBytes_le hcard
    _ ≤ Store.maxBufferSize := by decide

theorem Checked.restores_added (hchecked : table.Checked) {new added : Store} (hvalid : new.Valid)
    (hadded : added.textSet = new.textSet \ table.keys.textSet) :
    Restores table (AddFits table.keys new) (do (← table.addKeys new).removeKeys added) where
  toLimitedBy := by
    -- Once the texts are added, nothing can go wrong in removing them.
    have hboth := (limitedBy_addKeys hchecked hvalid).bind fun wide hwide =>
      (limitedBy_removeKeys (addKeys_refines hchecked hvalid hwide).1 added).of_iff
        (iff_true_intro (hchecked.bytes_keptKeys_le hvalid hwide added))
    exact hboth.of_iff (and_iff_left trivial)
  same := by
    intro after hafter
    obtain ⟨wide, hwide, hback⟩ := bind_eq_ok hafter
    obtain ⟨hwideChecked, hwideView⟩ := addKeys_refines hchecked hvalid hwide
    obtain ⟨hafterChecked, hafterView⟩ := removeKeys_refines hwideChecked hback
    apply hafterChecked.sameTable_of_view hchecked
    rw [hafterView, hwideView]
    apply View.ext
    · change (table.keys.textSet ∪ new.textSet) \ added.textSet = table.keys.textSet
      ext text
      rw [hadded]
      simp only [Set.mem_sdiff, Set.mem_union]
      tauto
    · apply map_restrict_eq_self
      intro text htext hmem
      rw [hadded] at hmem
      exact hmem.2 (mem_textSet_of_decoded htext)

/-- Removing keys that no row has and adding them again leads back to the table, and so does adding
texts and removing those that were no keys.  Either is only refused for its size. -/
theorem edits_restore (hkeys : table.keys.Valid) (hcheck : table.check = .ok ()) :
    (∀ unused : Store, unused.Valid → unused.textSet ⊆ table.keys.textSet →
      (∀ text ∈ unused.textSet, some text ∉ table.decoded) →
      Restores table (table.keyCount ≤ maxKeys ∧
        total (textSizes (table.keptKeys unused)) + unused.valueBytes ≤ Store.maxBufferSize)
        (do (← table.removeKeys unused).addKeys unused)) ∧
    ∀ new added : Store, new.Valid → added.textSet = new.textSet \ table.keys.textSet →
      Restores table (AddFits table.keys new) (do (← table.addKeys new).removeKeys added) := by
  have hchecked := (check_eq_ok_iff hkeys).mp hcheck
  constructor
  · intro unused hvalid hsubset hunused
    exact hchecked.restores_removed hvalid hsubset hunused
  · intro new added hvalid hadded
    exact hchecked.restores_added hvalid hadded

/-- The unused key stands between the others and is given twice, and of the texts that are added one
is a key already. -/
theorem edits_restore_between :
    ∃ keys unused new added, Store.ofTexts [some "a", some "c", some "d"] = .ok keys ∧
      Store.ofTexts [some "c", none, some "c"] = .ok unused ∧
      Store.ofTexts [some "b", some "a"] = .ok new ∧ Store.ofTexts [some "b"] = .ok added ∧
      (∃ back, (do (← removeKeys ⟨keys, #[2, -1, 0]⟩ unused).addKeys unused) = .ok back ∧
        back.sameTable ⟨keys, #[2, -1, 0]⟩ = true) ∧
      ∃ back, (do (← addKeys ⟨keys, #[2, -1, 0]⟩ new).removeKeys added) = .ok back ∧
        back.sameTable ⟨keys, #[2, -1, 0]⟩ = true := by
  obtain ⟨keys, hkeys, hkeyTexts, hchecked⟩ :=
    @exists_checked [some "a", some "c", some "d"] #[2, -1, 0]
      (by decide) (by simp only [Rising, Text.compareOptional, Text.compare_eq]; decide) (by decide)
      (by decide)
  obtain ⟨unused, hunused⟩ := Store.ofTexts_ok_iff.mpr
    (@fitsLimits_of_total [some "c", none, some "c"] (by decide))
  obtain ⟨new, hnew⟩ := Store.ofTexts_ok_iff.mpr
    (@fitsLimits_of_total [some "b", some "a"] (by decide))
  obtain ⟨added, hadded⟩ := Store.ofTexts_ok_iff.mpr (@fitsLimits_of_total [some "b"] (by decide))
  have hunusedValid := Store.valid_of_build hunused
  have hnewValid := Store.valid_of_build hnew
  have hunusedTexts := Store.texts_ofTexts hunused
  have hnewTexts := Store.texts_ofTexts hnew
  have hkeySize : keys.size = 3 := by
    rw [← keys.length_toList_texts, hkeyTexts]
    rfl
  obtain ⟨hremoved, hadd⟩ := edits_restore hchecked.keys.valid
    ((check_eq_ok_iff hchecked.keys.valid).mpr hchecked)
  have hback := hremoved unused hunusedValid
    (by
      intro text htext
      rw [Store.mem_textSet, hunusedTexts] at htext
      obtain rfl : text = "c" := by simpa using htext
      rw [Store.mem_textSet, hkeyTexts]
      decide)
    (by
      intro text htext
      rw [Store.mem_textSet, hunusedTexts] at htext
      obtain rfl : text = "c" := by simpa using htext
      simp only [decoded, List.map_cons, List.map_nil, textOfCode, Store.text?_eq_getD, hkeyTexts]
      decide)
  have hforth := hadd new added hnewValid (by
    ext text
    rw [Set.mem_sdiff, Store.mem_textSet, Store.mem_textSet, Store.mem_textSet, hnewTexts,
      hkeyTexts, Store.texts_ofTexts hadded]
    constructor
    · intro htext
      obtain rfl : text = "b" := by simpa using htext
      decide
    · rintro ⟨htext, hother⟩
      have hcases : text = "b" ∨ text = "a" := by simpa using htext
      rcases hcases with rfl | rfl
      · decide
      · exact absurd (by decide) hother)
  obtain ⟨first, hfirst⟩ := hback.done ⟨by rw [keyCount, hkeySize]; decide, by
    rw [keptKeys, hkeyTexts, hunusedValid.valueBytes_eq, hunusedTexts]
    simp only [← Array.mem_toList_iff, hunusedTexts]
    decide⟩
  obtain ⟨second, hsecond⟩ := hforth.done ⟨by
    rw [hchecked.keys.valid.valueBytes_eq, hnewValid.valueBytes_eq, hkeyTexts, hnewTexts]
    decide, by
    rw [Store.distinct, Store.distinct, hkeyTexts, hnewTexts]
    decide⟩
  exact ⟨keys, unused, new, added, hkeys, hunused, hnew, hadded,
    ⟨first, hfirst, hback.same first hfirst⟩, second, hsecond, hforth.same second hsecond⟩

end CategoryTable

end TextColumns
