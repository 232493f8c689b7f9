import TextColumns.Proofs.Category.Edits
import TextColumns.Proofs.Store.Reading
import Mathlib.Data.List.Perm.Subperm
import Mathlib.Data.List.Sort

/-!
Tables of stores are canonical: a table that the check accepts is determined by the set of its keys
and the texts of its rows.  Encoding rows from scratch therefore gives the same table as changing
the tables of stores that hold them, and tables of stores are merged in any grouping.
-/

namespace TextColumns

namespace Store

variable {store first second : Store}

theorem mem_distinct {text : String} : text ∈ store.distinct ↔ text ∈ store.textSet := by
  rw [distinct, List.mem_toFinset, List.mem_filterMap]
  simp [textSet]

theorem mem_textSet {text : String} : text ∈ store.textSet ↔ some text ∈ store.texts.toList :=
  Array.mem_toList_iff.symm

theorem distinct_subset_of_textSet {other : Store} (hsubset : store.textSet ⊆ other.textSet) :
    store.distinct ⊆ other.distinct :=
  fun _ htext => mem_distinct.mpr (hsubset (mem_distinct.mp htext))

theorem distinct_union
    (hset : store.textSet = first.textSet ∪ second.textSet) :
    store.distinct = first.distinct ∪ second.distinct := by
  ext text
  rw [Finset.mem_union, mem_distinct, mem_distinct, mem_distinct, hset, Set.mem_union]

theorem limitedBy_concat (hfirst : first.Valid) (hsecond : second.Valid) :
    LimitedBy (first.valueBytes + second.valueBytes ≤ maxBufferSize) (concat [first, second]) := by
  have hvalid := forall_mem_pair hfirst hsecond
  rw [concat_eq hvalid]
  apply (limitedBy_ofTexts _).of_iff
  have htotal : total (textSizes ([first, second].flatMap (·.texts.toList))) =
      first.valueBytes + second.valueBytes := by
    rw [hfirst.valueBytes_eq, hsecond.valueBytes_eq, ← total_append]
    simp [textSizes]
  constructor
  · exact fun hfits => htotal ▸ hfits.all
  · intro hbytes
    refine ⟨fun text htext => ?_, htotal ▸ hbytes⟩
    obtain ⟨store, hstore, htext⟩ := List.mem_flatMap.mp htext
    exact (hvalid store hstore).size_le_of_text (Array.mem_toList_iff.mp htext)

theorem texts_of_concat {all : Store} (hfirst : first.Valid) (hsecond : second.Valid)
    (hall : concat [first, second] = .ok all) :
    all.Valid ∧ all.textSet = first.textSet ∪ second.textSet ∧
      all.texts.toList = first.texts.toList ++ second.texts.toList := by
  obtain ⟨hvalid, hrows⟩ := valid_concat (forall_mem_pair hfirst hsecond) hall
  rw [List.flatMap_cons, List.flatMap_singleton] at hrows
  refine ⟨hvalid, Set.ext fun text => ?_, hrows⟩
  rw [Set.mem_union, mem_textSet, mem_textSet, mem_textSet, hrows, List.mem_append]

theorem exists_joined (hfirst : first.Valid) (hsecond : second.Valid)
    (hbytes : first.valueBytes + second.valueBytes ≤ maxBufferSize) :
    ∃ both, concat [first, second] = .ok both ∧ both.Valid ∧
      both.textSet = first.textSet ∪ second.textSet ∧
      both.texts.toList = first.texts.toList ++ second.texts.toList := by
  obtain ⟨both, hboth⟩ := (limitedBy_concat hfirst hsecond).done hbytes
  exact ⟨both, hboth, texts_of_concat hfirst hsecond hboth⟩

theorem Valid.exists_picked (hvalid : store.Valid) {indices : List Nat}
    (hinside : ∀ index ∈ indices, index < store.size)
    (hbytes : total (textSizes (indices.map store.text?)) ≤ maxBufferSize) :
    ∃ picked, store.gather indices = .ok picked ∧ picked.Valid ∧
      picked.textSet ⊆ store.textSet ∧ picked.texts.toList = indices.map store.text? := by
  have hsubset : ∀ text, some text ∈ indices.map store.text? → some text ∈ store.texts := by
    intro text htext
    obtain ⟨index, -, hindex⟩ := List.mem_map.mp htext
    exact some_mem_texts.mpr ⟨index, hindex⟩
  obtain ⟨picked, hpicked⟩ :=
    (hvalid.gather_ok_iff indices).mpr ⟨hinside, hvalid.fitsLimits_of_subset hsubset hbytes⟩
  obtain ⟨-, hpickedValid, hrows⟩ := hvalid.gather hpicked
  exact ⟨picked, hpicked, hpickedValid,
    fun text htext => hsubset text (hrows ▸ mem_textSet.mp htext), hrows⟩

end Store

namespace CategoryTable

variable {table other : CategoryTable} {keys newKeys : Store}

instance : Std.Irrefl fun a b : Option String => Text.compareOptional a b = .lt where
  irrefl text hless := by
    have hself : Text.compareOptional text text = .eq := Std.ReflCmp.compare_self
    rw [hself] at hless
    cases hless

instance : Std.Antisymm fun a b : Option String => Text.compareOptional a b = .lt where
  antisymm a b hless hgreater := by
    rw [Std.OrientedCmp.gt_of_lt hless] at hgreater
    cases hgreater

theorem SortedKeys.mem_texts (hkeys : SortedKeys keys) (key : Option String) :
    key ∈ keys.texts.toList ↔ ∃ text ∈ keys.textSet, key = some text := by
  rw [Array.mem_toList_iff]
  constructor
  · intro hkey
    cases key with
    | none => exact absurd hkey hkeys.ne_none
    | some text => exact ⟨text, hkey, rfl⟩
  · rintro ⟨text, htext, rfl⟩
    exact htext

theorem SortedKeys.texts_eq (hkeys : SortedKeys keys) (hnew : SortedKeys newKeys)
    (hset : keys.textSet = newKeys.textSet) : keys.texts.toList = newKeys.texts.toList := by
  refine List.Pairwise.eq_of_mem_iff hkeys.rising hnew.rising fun key => ?_
  rw [hkeys.mem_texts, hnew.mem_texts, hset]

theorem textOfCode_injective (hkeys : SortedKeys keys) {a b : Int32}
    (ha : CodeInside keys.size a) (hb : CodeInside keys.size b)
    (htext : textOfCode keys a = textOfCode keys b) : a = b := by
  rcases ha with rfl | ⟨i, ha, hi⟩ <;> rcases hb with rfl | ⟨j, hb, hj⟩
  · rfl
  · obtain ⟨text, hkey⟩ := hkeys.exists_text hj
    rw [textOfCode_missing, textOfCode_of_toInt _ hb, hkey] at htext
    cases htext
  · obtain ⟨text, hkey⟩ := hkeys.exists_text hi
    rw [textOfCode_missing, textOfCode_of_toInt _ ha, hkey] at htext
    cases htext
  · obtain ⟨text, hkey⟩ := hkeys.exists_text hi
    rw [textOfCode_of_toInt _ ha, textOfCode_of_toInt _ hb] at htext
    have hplace := hkeys.indexOf?_eq_some.mpr hkey
    rw [hkeys.indexOf?_eq_some.mpr (htext ▸ hkey), Option.some_inj] at hplace
    exact Int32.toInt.inj (by rw [ha, hb, hplace])

theorem Checked.sameTable_of_view (hchecked : table.Checked) (hother : other.Checked)
    (hview : table.view = other.view) : table.sameTable other = true := by
  have hkeys := hchecked.keys.texts_eq hother.keys (congrArg View.keys hview)
  have hsize : table.keys.size = other.keys.size := by
    rw [← Store.length_toList_texts, hkeys, Store.length_toList_texts]
  have htext : textOfCode other.keys = textOfCode table.keys := by
    funext code
    rw [textOfCode, textOfCode, Store.text?_eq_getD, Store.text?_eq_getD, hkeys]
  have hrows : table.codes.toList.map (textOfCode table.keys) =
      other.codes.toList.map (textOfCode table.keys) :=
    (congrArg View.rows hview).trans (congrArg (other.codes.toList.map ·) htext)
  have hcodes : table.codes.toList = other.codes.toList := by
    refine List.ext_getElem ?_ fun row hrow hrow' => ?_
    · simpa using congrArg List.length hrows
    · have htexts := List.getElem_of_eq hrows (by simpa using hrow)
      rw [List.getElem_map, List.getElem_map] at htexts
      refine textOfCode_injective hchecked.keys ?_ ?_ htexts
      · exact hchecked.code_inside _ (Array.mem_toList_iff.mp (List.getElem_mem hrow))
      · rw [hsize]
        exact hother.code_inside _ (Array.mem_toList_iff.mp (List.getElem_mem hrow'))
  rw [sameTable, Bool.and_eq_true, Store.sameTexts_iff, beq_iff_eq]
  exact ⟨hkeys, Array.toList_inj.mp hcodes⟩

theorem SortedKeys.card_distinct (hkeys : SortedKeys keys) : keys.distinct.card = keys.size := by
  have htexts : keys.distinct.map Function.Embedding.some = keys.texts.toList.toFinset := by
    ext key
    rw [List.mem_toFinset, hkeys.mem_texts, Finset.mem_map]
    apply exists_congr
    intro text
    rw [Store.mem_distinct, eq_comm]
    rfl
  rw [← Finset.card_map Function.Embedding.some, htexts,
    List.toFinset_card_of_nodup hkeys.rising.nodup, keys.length_toList_texts]

/-- No more keys than codes can count are too many bytes. -/
theorem SortedKeys.valueBytes_le (hkeys : SortedKeys keys) (hcard : keys.distinct.card ≤ maxKeys) :
    keys.valueBytes ≤ maxKeys * Store.maxElementSize := by
  rw [hkeys.valid.valueBytes_eq]
  calc total (textSizes keys.texts.toList)
    _ ≤ keys.texts.toList.length * Store.maxElementSize := total_textSizes_le fun text htext =>
        hkeys.valid.size_le_of_text (Array.mem_toList_iff.mp htext)
    _ ≤ maxKeys * Store.maxElementSize := by
        rw [keys.length_toList_texts, ← hkeys.card_distinct]
        exact Nat.mul_le_mul_right _ hcard

theorem exists_encoding {store : Store} (hvalid : store.Valid)
    (hcard : store.distinct.card ≤ maxKeys) :
    ∃ table, ofStore store = .ok table ∧ table.Checked ∧
      table.view = ⟨store.textSet, store.texts.toList⟩ := by
  obtain ⟨table, htable, -⟩ := exists_ofStore hvalid hcard
  have hencodes := encodes_of_ofStore hvalid htable
  refine ⟨table, htable, hencodes.checked, View.ext ?_ hencodes.decoded_eq⟩
  ext text
  exact (hencodes.mem_keys (some text)).trans (and_iff_left nofun)

theorem exists_merge (hchecked : table.Checked) (hother : other.Checked)
    (hcard : (table.keys.distinct ∪ other.keys.distinct).card ≤ maxKeys) :
    ∃ result, table.merge other = .ok result ∧ result.Checked ∧
      result.view = ⟨table.view.keys ∪ other.view.keys, table.view.rows ++ other.view.rows⟩ := by
  have hkeys := hchecked.keys.valueBytes_le
    ((Finset.card_le_card Finset.subset_union_left).trans hcard)
  have hkeys' := hother.keys.valueBytes_le
    ((Finset.card_le_card Finset.subset_union_right).trans hcard)
  obtain ⟨keys, hdistinct⟩ := @exists_distinctTexts_of_card [table.keys, other.keys]
    (Store.forall_mem_pair hchecked.keys.valid hother.keys.valid)
    (by
      have hfits : maxKeys * Store.maxElementSize + maxKeys * Store.maxElementSize ≤
          Store.maxBufferSize := by decide
      simp only [List.map_cons, List.map_nil, total_cons, total_nil]
      omega)
    (by simpa [Store.distinct] using hcard)
  have hmerge : table.merge other =
      .ok ⟨keys, table.recode keys ++ other.recode keys⟩ := by rw [merge, hdistinct]
  obtain ⟨hresult, hview⟩ := merge_refines hchecked hother hmerge
  exact ⟨_, hmerge, hresult, hview⟩

theorem total_textSizes_le_of_subset {texts rows : List (Option String)} (hnodup : texts.Nodup)
    (hsubset : texts ⊆ rows) : total (textSizes texts) ≤ total (textSizes rows) := by
  obtain ⟨found, hperm, hsublist⟩ := hnodup.subperm hsubset
  calc total (textSizes texts)
    _ = total (textSizes found) := (total_textSizes_perm hperm).symm
    _ ≤ total (textSizes rows) := total_le_of_sublist (hsublist.map _)

theorem exists_gather_used (hchecked : table.Checked)
    (hbytes : total (textSizes table.decoded) ≤ Store.maxBufferSize) :
    ∃ kept, table.keys.gather
      ((List.range table.keyCount).filter fun k : Nat => decide ((k : Int) ∈ table.usedPlaces)) =
        .ok kept := by
  have hsublist : (((List.range table.keyCount).filter fun k : Nat =>
      decide ((k : Int) ∈ table.usedPlaces)).map table.keys.text?).Sublist table.keys.texts.toList := by
    rw [Store.toList_texts]
    exact List.filter_sublist.map _
  refine (hchecked.keys.valid.gather_ok_iff _).mpr ⟨fun k hk => ?_, ?_⟩
  · exact List.mem_range.mp (List.mem_of_mem_filter hk)
  · refine hchecked.keys.valid.fitsLimits_of_subset (fun text htext => ?_) (le_trans ?_ hbytes)
    · exact Array.mem_toList_iff.mp (hsublist.mem htext)
    · refine total_textSizes_le_of_subset (hsublist.nodup hchecked.keys.rising.nodup) ?_
      intro text htext
      obtain ⟨k, hk, rfl⟩ := List.mem_map.mp htext
      obtain ⟨code, hcode, hplace⟩ := mem_usedPlaces.mp (of_decide_eq_true (List.mem_filter.mp hk).2)
      rw [← textOfCode_of_toInt _ hplace]
      exact List.mem_map.mpr ⟨code, Array.mem_toList_iff.mpr hcode, rfl⟩

theorem exists_removeUnusedKeys (hchecked : table.Checked)
    (hbytes : total (textSizes table.decoded) ≤ Store.maxBufferSize) :
    ∃ result, table.removeUnusedKeys = .ok result ∧ result.Checked ∧
      result.view = ⟨{text | some text ∈ table.view.rows}, table.view.rows⟩ := by
  suffices hok : ∃ result, table.removeUnusedKeys = .ok result by
    obtain ⟨result, hremove⟩ := hok
    obtain ⟨hresult, hview⟩ := removeUnusedKeys_refines hchecked hremove
    exact ⟨result, hremove, hresult, hview⟩
  rw [removeUnusedKeys]
  simp only [beq_eq_decide, hchecked.used_iff]
  split
  · exact ⟨table, rfl⟩
  · obtain ⟨kept, hkept⟩ := exists_gather_used hchecked hbytes
    exact ⟨table.withKeys kept, by rw [keepKeys, hkept]⟩

def Agree (first second : Result CategoryTable) : Prop :=
  ∃ a b, first = .ok a ∧ second = .ok b ∧ a.sameTable b = true

theorem agree_of_view {first second : Result CategoryTable} (hfirst : first = .ok table)
    (hsecond : second = .ok other) (hchecked : table.Checked) (hother : other.Checked)
    (hview : table.view = other.view) : Agree first second :=
  ⟨table, other, hfirst, hsecond, hchecked.sameTable_of_view hother hview⟩

section Laws

variable {a b c : Store}

theorem mem_distinct_keys {text : String} :
    text ∈ table.keys.distinct ↔ text ∈ table.view.keys :=
  Store.mem_distinct

theorem distinct_keys_of_view {store : Store}
    (hview : table.view = ⟨store.textSet, store.texts.toList⟩) :
    table.keys.distinct = store.distinct := by
  ext text
  rw [mem_distinct_keys, hview, Store.mem_distinct]

theorem exists_merged (ha : a.Valid) (hb : b.Valid)
    (hcard : (a.distinct ∪ b.distinct).card ≤ maxKeys) :
    ∃ first second result, ofStore a = .ok first ∧ ofStore b = .ok second ∧
      first.merge second = .ok result ∧ result.Checked ∧
      result.view = ⟨a.textSet ∪ b.textSet, a.texts.toList ++ b.texts.toList⟩ := by
  obtain ⟨first, hfirst, hcheckedA, hviewA⟩ :=
    exists_encoding ha ((Finset.card_le_card Finset.subset_union_left).trans hcard)
  obtain ⟨second, hsecond, hcheckedB, hviewB⟩ :=
    exists_encoding hb ((Finset.card_le_card Finset.subset_union_right).trans hcard)
  obtain ⟨result, hmerge, hresult, hview⟩ := exists_merge hcheckedA hcheckedB (by
    rwa [distinct_keys_of_view hviewA, distinct_keys_of_view hviewB])
  rw [hviewA, hviewB] at hview
  exact ⟨first, second, result, hfirst, hsecond, hmerge, hresult, hview⟩

theorem ofStore_concat (ha : a.Valid) (hb : b.Valid)
    (hbytes : a.valueBytes + b.valueBytes ≤ Store.maxBufferSize)
    (hcard : (a.distinct ∪ b.distinct).card ≤ maxKeys) :
    Agree (do ofStore (← Store.concat [a, b])) (do (← ofStore a).merge (← ofStore b)) := by
  obtain ⟨both, hboth, hbothValid, hset, hrows⟩ := Store.exists_joined ha hb hbytes
  obtain ⟨whole, hwhole, hchecked, hview⟩ :=
    exists_encoding hbothValid (Store.distinct_union hset ▸ hcard)
  obtain ⟨first, second, merged, hfirst, hsecond, hmerge, hmerged, hmergedView⟩ :=
    exists_merged ha hb hcard
  refine @agree_of_view whole merged _ _ ?_ ?_ hchecked hmerged ?_
  · rw [hboth]
    exact hwhole
  · rw [hfirst, hsecond]
    exact hmerge
  · rw [hview, hmergedView, hset, hrows]

theorem ofStore_toStore (hkeys : table.keys.Valid) (hcheck : table.check = .ok ())
    (hbytes : total (textSizes table.decoded) ≤ Store.maxBufferSize)
    (hcard : (table.decoded.filterMap id).toFinset.card ≤ maxKeys) :
    Agree (do ofStore (← table.toStore)) table.removeUnusedKeys := by
  have hchecked := (check_eq_ok_iff hkeys).mp hcheck
  obtain ⟨rows, hrows⟩ : ∃ rows, table.toStore = .ok rows := by
    rw [hchecked.toStore_eq]
    refine Store.exists_ofTexts (fun text htext => ?_) hbytes
    exact hkeys.size_le_of_text (mem_textSet_of_decoded htext)
  have htexts := hchecked.texts_of_toStore hrows
  have hvalid : rows.Valid := by
    rw [hchecked.toStore_eq] at hrows
    exact Store.valid_of_build hrows
  obtain ⟨encoded, hencoded, hencodedChecked, hview⟩ := exists_encoding hvalid (by
    rwa [Store.distinct, htexts])
  obtain ⟨cleaned, hcleaned, hcleanedChecked, hcleanedView⟩ :=
    exists_removeUnusedKeys hchecked hbytes
  refine @agree_of_view encoded cleaned _ _ ?_ hcleaned hencodedChecked hcleanedChecked ?_
  · rw [hrows]
    exact hencoded
  · rw [hview, hcleanedView, htexts]
    refine View.ext (Set.ext fun text => ?_) rfl
    exact Store.mem_textSet.trans (htexts ▸ Iff.rfl)

theorem exists_gathered (ha : a.Valid) (hcard : a.distinct.card ≤ maxKeys) {indices : List Nat}
    (hinside : ∀ index ∈ indices, index < a.size) :
    ∃ whole gathered, ofStore a = .ok whole ∧ whole.gather indices = .ok gathered ∧
      gathered.Checked ∧ gathered.view.rows = indices.map a.text? := by
  obtain ⟨whole, hwhole, hwholeChecked, hwholeView⟩ := exists_encoding ha hcard
  have hsize : whole.size = a.size := by
    have hlength := congrArg (fun view => view.rows.length) hwholeView
    rwa [view, decoded, List.length_map, Array.length_toList, Array.length_toList,
      Store.size_texts] at hlength
  obtain ⟨gathered, hgathered⟩ := (whole.gather_ok_iff indices).mpr (hsize ▸ hinside)
  obtain ⟨hchecked, hview⟩ := gather_refines hwholeChecked hgathered
  refine ⟨whole, gathered, hwhole, hgathered, hchecked, ?_⟩
  rw [hview, hwholeView]
  refine List.map_congr_left fun index _ => ?_
  rw [Array.getElem?_toList, Store.text?_eq]

theorem ofStore_gather (ha : a.Valid) {indices : List Nat}
    (hinside : ∀ index ∈ indices, index < a.size)
    (hbytes : total (textSizes (indices.map a.text?)) ≤ Store.maxBufferSize)
    (hcard : a.distinct.card ≤ maxKeys) :
    Agree (do ofStore (← a.gather indices))
      (do (← (← ofStore a).gather indices).removeUnusedKeys) := by
  obtain ⟨picked, hpicked, hpickedValid, hset, hrows⟩ := ha.exists_picked hinside hbytes
  obtain ⟨encoded, hencoded, hencodedChecked, hencodedView⟩ := exists_encoding hpickedValid
    ((Finset.card_le_card (Store.distinct_subset_of_textSet hset)).trans hcard)
  obtain ⟨whole, gathered, hwhole, hgathered, hgatheredChecked, hgatheredRows⟩ :=
    exists_gathered ha hcard hinside
  rw [← hgatheredRows] at hbytes
  obtain ⟨cleaned, hcleaned, hcleanedChecked, hcleanedView⟩ :=
    exists_removeUnusedKeys hgatheredChecked hbytes
  refine @agree_of_view encoded cleaned _ _ ?_ ?_ hencodedChecked hcleanedChecked ?_
  · rw [hpicked]
    exact hencoded
  · rw [hwhole]
    exact (congrArg (· >>= removeUnusedKeys) hgathered).trans hcleaned
  · rw [hencodedView, hcleanedView, hgatheredRows, ← hrows]
    exact View.ext (Set.ext fun text => Store.mem_textSet) rfl

theorem distinct_keys_of_union {first second : CategoryTable} {rows : List (Option String)}
    (hview : table.view = ⟨first.view.keys ∪ second.view.keys, rows⟩) :
    table.keys.distinct = first.keys.distinct ∪ second.keys.distinct := by
  ext text
  rw [mem_distinct_keys, hview, Finset.mem_union, mem_distinct_keys, mem_distinct_keys]
  rfl

theorem Checked.merge_assoc {first second third : CategoryTable} (hfirst : first.Checked)
    (hsecond : second.Checked) (hthird : third.Checked)
    (hcard : (first.keys.distinct ∪ second.keys.distinct ∪ third.keys.distinct).card ≤ maxKeys) :
    Agree (do (← first.merge second).merge third) (do first.merge (← second.merge third)) := by
  have hcard' : (first.keys.distinct ∪ (second.keys.distinct ∪ third.keys.distinct)).card ≤
      maxKeys := by rwa [← Finset.union_assoc]
  obtain ⟨front, hfront, hfrontChecked, hfrontView⟩ := exists_merge hfirst hsecond
    ((Finset.card_le_card Finset.subset_union_left).trans hcard)
  obtain ⟨back, hback, hbackChecked, hbackView⟩ := exists_merge hsecond hthird
    ((Finset.card_le_card Finset.subset_union_right).trans hcard')
  obtain ⟨left, hleft, hleftChecked, hleftView⟩ := exists_merge hfrontChecked hthird (by
    rwa [distinct_keys_of_union hfrontView])
  obtain ⟨right, hright, hrightChecked, hrightView⟩ := exists_merge hfirst hbackChecked (by
    rwa [distinct_keys_of_union hbackView])
  refine @agree_of_view left right _ _ ?_ ?_ hleftChecked hrightChecked ?_
  · rw [hfront]
    exact hleft
  · rw [hback]
    exact hright
  · rw [hleftView, hrightView, hfrontView, hbackView]
    exact View.ext (Set.union_assoc ..) (List.append_assoc ..)

theorem merge_assoc (ha : a.Valid) (hb : b.Valid) (hc : c.Valid)
    (hcard : (a.distinct ∪ b.distinct ∪ c.distinct).card ≤ maxKeys) :
    Agree (do (← (← ofStore a).merge (← ofStore b)).merge (← ofStore c))
      (do (← ofStore a).merge (← (← ofStore b).merge (← ofStore c))) := by
  obtain ⟨first, hfirst, hfirstChecked, hfirstView⟩ := exists_encoding ha
    ((Finset.card_le_card (Finset.subset_union_left.trans Finset.subset_union_left)).trans hcard)
  obtain ⟨second, hsecond, hsecondChecked, hsecondView⟩ := exists_encoding hb
    ((Finset.card_le_card (Finset.subset_union_right.trans Finset.subset_union_left)).trans hcard)
  obtain ⟨third, hthird, hthirdChecked, hthirdView⟩ := exists_encoding hc
    ((Finset.card_le_card Finset.subset_union_right).trans hcard)
  rw [← distinct_keys_of_view hfirstView, ← distinct_keys_of_view hsecondView,
    ← distinct_keys_of_view hthirdView] at hcard
  rw [hfirst, hsecond, hthird]
  exact hfirstChecked.merge_assoc hsecondChecked hthirdChecked hcard

end Laws

/-- Encoding rows from scratch agrees with what is made of tables that there are: joined rows with
merged tables, the rows of a table with that table when its unused keys are gone, and picked rows
with picked codes when the unused keys are gone.  Merging is associative on tables of stores. -/
theorem encodings_agree :
    (∀ a b : Store, a.Valid → b.Valid →
      a.valueBytes + b.valueBytes ≤ Store.maxBufferSize →
      (a.distinct ∪ b.distinct).card ≤ maxKeys →
      Agree (do ofStore (← Store.concat [a, b])) (do (← ofStore a).merge (← ofStore b))) ∧
    (∀ table : CategoryTable, table.keys.Valid → table.check = .ok () →
      total (textSizes table.decoded) ≤ Store.maxBufferSize →
      (table.decoded.filterMap id).toFinset.card ≤ maxKeys →
      Agree (do ofStore (← table.toStore)) table.removeUnusedKeys) ∧
    (∀ (a : Store) (indices : List Nat), a.Valid → (∀ index ∈ indices, index < a.size) →
      total (textSizes (indices.map a.text?)) ≤ Store.maxBufferSize →
      a.distinct.card ≤ maxKeys →
      Agree (do ofStore (← a.gather indices))
        (do (← (← ofStore a).gather indices).removeUnusedKeys)) ∧
    (∀ a b c : Store, a.Valid → b.Valid → c.Valid →
      (a.distinct ∪ b.distinct ∪ c.distinct).card ≤ maxKeys →
      Agree (do (← (← ofStore a).merge (← ofStore b)).merge (← ofStore c))
        (do (← ofStore a).merge (← (← ofStore b).merge (← ofStore c)))) := by
  refine ⟨?_, ?_, ?_, ?_⟩
  · intro a b ha hb hbytes hcard
    exact ofStore_concat ha hb hbytes hcard
  · intro table hkeys hcheck hbytes hcard
    exact ofStore_toStore hkeys hcheck hbytes hcard
  · intro a indices ha hinside hbytes hcard
    exact ofStore_gather ha hinside hbytes hcard
  · intro a b c ha hb hc hcard
    exact merge_assoc ha hb hc hcard

theorem encodings_agree_repeated :
    ∃ a b table, Store.ofTexts [some "b", none, some "b"] = .ok a ∧
      Store.ofTexts [some "a", some "b"] = .ok b ∧ ofStore b = .ok table ∧
      Agree (do ofStore (← Store.concat [a, b])) (do (← ofStore a).merge (← ofStore b)) ∧
      Agree (do ofStore (← table.toStore)) table.removeUnusedKeys ∧
      Agree (do ofStore (← b.gather [1, 1])) (do (← (← ofStore b).gather [1, 1]).removeUnusedKeys) ∧
      Agree (do (← (← ofStore a).merge (← ofStore b)).merge (← ofStore a))
        (do (← ofStore a).merge (← (← ofStore b).merge (← ofStore a))) := by
  obtain ⟨a, ha⟩ := @Store.exists_ofTexts [some "b", none, some "b"] (by simp; decide) (by decide)
  obtain ⟨b, hb⟩ := @Store.exists_ofTexts [some "a", some "b"] (by simp; decide) (by decide)
  have haValid := Store.valid_of_build ha
  have hbValid := Store.valid_of_build hb
  have haTexts := Store.texts_ofTexts ha
  have hbTexts := Store.texts_ofTexts hb
  have haDistinct : a.distinct = {"b"} := by
    rw [Store.distinct, haTexts]
    decide
  have hbDistinct : b.distinct = {"a", "b"} := by
    rw [Store.distinct, hbTexts]
    decide
  have hbSize : b.size = 2 := by
    rw [← b.size_texts, ← Array.length_toList, hbTexts]
    rfl
  have hbRow : b.text? 1 = some "b" := by
    rw [← Store.text?_eq, ← Array.getElem?_toList, hbTexts]
    rfl
  obtain ⟨table, htable, hchecked, hview⟩ := exists_encoding hbValid (by
    rw [hbDistinct]
    decide)
  have hrows : table.decoded = [some "a", some "b"] := (congrArg View.rows hview).trans hbTexts
  obtain ⟨hconcat, htoStore, hgather, hmerge⟩ := encodings_agree
  refine ⟨a, b, table, ha, hb, htable, ?_, ?_, ?_, ?_⟩
  · apply hconcat a b haValid hbValid
    · rw [haValid.valueBytes_eq, hbValid.valueBytes_eq, haTexts, hbTexts]
      decide
    · rw [haDistinct, hbDistinct]
      decide
  · apply htoStore table hchecked.keys.valid ((check_eq_ok_iff hchecked.keys.valid).mpr hchecked)
    · rw [hrows]
      decide
    · rw [hrows]
      decide
  · apply hgather b [1, 1] hbValid
    · rw [hbSize]
      decide
    · rw [List.map_cons, List.map_singleton, hbRow]
      decide
    · rw [hbDistinct]
      decide
  · apply hmerge a b a haValid hbValid haValid
    rw [haDistinct, hbDistinct]
    decide

end CategoryTable

end TextColumns
