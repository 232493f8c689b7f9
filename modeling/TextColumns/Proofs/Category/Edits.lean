import TextColumns.Proofs.Category.Keys
import Mathlib.Data.Set.Lattice

/-!
Edits of a table.  A table stands for the set of its keys and for the texts of its rows.  Every edit
that succeeds leaves a table that the check accepts, and does to the set and to the texts what it is
meant to do; so does every sequence of edits.
-/

namespace TextColumns.CategoryTable

/-- What a table stands for. -/
@[ext]
structure View where
  keys : Set String
  rows : List (Option String)

def view (table : CategoryTable) : View :=
  ⟨table.keys.textSet, table.decoded⟩

inductive Edit where
  | addKeys (new : Store)
  | removeKeys (removed : Store)
  | removeUnusedKeys
  | setKeys (keys : Store)
  | merge (other : CategoryTable)
  | gather (indices : List Nat)

namespace Edit

def run (table : CategoryTable) : Edit → Result CategoryTable
  | addKeys new => table.addKeys new
  | removeKeys removed => table.removeKeys removed
  | removeUnusedKeys => table.removeUnusedKeys
  | setKeys keys => table.setKeys keys
  | merge other => table.merge other
  | gather indices => table.gather indices

def runAll (table : CategoryTable) : List Edit → Result CategoryTable
  | [] => .ok table
  | edit :: rest =>
    match edit.run table with
    | .error e => .error e
    | .ok next => runAll next rest

/-- Whether the stores and tables that an edit is given are as they should be. -/
def Sound : Edit → Prop
  | addKeys store | removeKeys store | setKeys store => store.Valid
  | removeUnusedKeys | gather _ => True
  | merge other => other.keys.Valid ∧ other.check = .ok ()

/-- What an edit is meant to do. -/
noncomputable def apply (view : View) : Edit → View
  | addKeys new => ⟨view.keys ∪ new.textSet, view.rows⟩
  | removeKeys removed =>
    ⟨view.keys \ removed.textSet, view.rows.map (restrict removed.textSetᶜ)⟩
  | removeUnusedKeys => ⟨{text | some text ∈ view.rows}, view.rows⟩
  | setKeys keys => ⟨keys.textSet, view.rows.map (restrict keys.textSet)⟩
  | merge other => ⟨view.keys ∪ other.view.keys, view.rows ++ other.view.rows⟩
  | gather indices => ⟨view.keys, indices.map fun index => view.rows[index]?.getD none⟩

end Edit

variable {table result : CategoryTable}

theorem addKeys_refines {new : Store} (hchecked : table.Checked) (hnew : new.Valid)
    (hadd : table.addKeys new = .ok result) :
    result.Checked ∧ result.view = (Edit.addKeys new).apply table.view := by
  rw [addKeys] at hadd
  cases hkeys : distinctTexts [table.keys, new] with
  | error failure =>
      rw [hkeys] at hadd
      cases hadd
  | ok keys =>
      rw [hkeys] at hadd
      cases hadd
      obtain ⟨hsorted, hsize, hmem⟩ :=
        distinctTexts_spec (Store.forall_mem_pair hchecked.keys.valid hnew) hkeys
      have hset : keys.textSet = table.keys.textSet ∪ new.textSet := by
        ext text
        simp [hmem]
      obtain ⟨hresult, hrows⟩ := hchecked.withKeys hsorted (inReach_of_size hsize)
      refine ⟨hresult, View.ext hset ?_⟩
      rw [view, hrows, hset]
      exact map_restrict_eq_self fun text htext => .inl (mem_textSet_of_decoded htext)

theorem setKeys_refines {keys : Store} (hchecked : table.Checked) (hkeys : keys.Valid)
    (hset : table.setKeys keys = .ok result) :
    result.Checked ∧ result.view = (Edit.setKeys keys).apply table.view := by
  rw [setKeys] at hset
  cases hdistinct : distinctTexts [keys] with
  | error failure =>
      rw [hdistinct] at hset
      cases hset
  | ok distinct =>
      rw [hdistinct] at hset
      cases hset
      obtain ⟨hsorted, hsize, hmem⟩ :=
        distinctTexts_spec (List.forall_mem_singleton.mpr hkeys) hdistinct
      have hset : distinct.textSet = keys.textSet := by
        ext text
        simp [hmem]
      obtain ⟨hresult, hrows⟩ := hchecked.withKeys hsorted (inReach_of_size hsize)
      refine ⟨hresult, View.ext hset ?_⟩
      rw [view, hrows, hset]
      rfl

theorem merge_refines {other : CategoryTable} (hchecked : table.Checked) (hother : other.Checked)
    (hmerge : table.merge other = .ok result) :
    result.Checked ∧ result.view = (Edit.merge other).apply table.view := by
  rw [merge] at hmerge
  cases hkeys : distinctTexts [table.keys, other.keys] with
  | error failure =>
      rw [hkeys] at hmerge
      cases hmerge
  | ok keys =>
      rw [hkeys] at hmerge
      cases hmerge
      obtain ⟨hsorted, hsize, hmem⟩ :=
        distinctTexts_spec (Store.forall_mem_pair hchecked.keys.valid hother.keys.valid) hkeys
      have hset : keys.textSet = table.keys.textSet ∪ other.keys.textSet := by
        ext text
        simp [hmem]
      obtain ⟨hinside, hrows⟩ := hchecked.recode hsorted (inReach_of_size hsize)
      obtain ⟨hinside', hrows'⟩ := hother.recode hsorted (inReach_of_size hsize)
      refine ⟨⟨hsorted, fun code hcode => ?_⟩, View.ext hset ?_⟩
      · rcases Array.mem_append.mp hcode with hcode | hcode
        · exact hinside code hcode
        · exact hinside' code hcode
      · rw [view, decoded, Array.toList_append, List.map_append, hrows, hrows', hset]
        exact congrArg₂ _
          (map_restrict_eq_self fun text htext => .inl (mem_textSet_of_decoded htext))
          (map_restrict_eq_self fun text htext => .inr (mem_textSet_of_decoded htext))

theorem keepKeys_refines {keep : Nat → Bool} (hchecked : table.Checked)
    (hkeep : table.keepKeys ((List.range table.keyCount).filter keep) = .ok result) :
    result.Checked ∧
      (∀ text, text ∈ result.keys.textSet ↔
        ∃ k, keep k = true ∧ table.keys.text? k = some text) ∧
      result.decoded = table.decoded.map (restrict result.keys.textSet) := by
  rw [keepKeys] at hkeep
  cases hkeys : table.keys.gather ((List.range table.keyCount).filter keep) with
  | error failure =>
      rw [hkeys] at hkeep
      cases hkeep
  | ok keys =>
      rw [hkeys] at hkeep
      cases hkeep
      obtain ⟨hsorted, hreach, hmem⟩ := hchecked.keys.gather hkeys
      obtain ⟨hresult, hrows⟩ := hchecked.withKeys hsorted hreach
      exact ⟨hresult, hmem, hrows⟩

theorem removeKeys_refines {removed : Store} (hchecked : table.Checked)
    (hremove : table.removeKeys removed = .ok result) :
    result.Checked ∧ result.view = (Edit.removeKeys removed).apply table.view := by
  obtain ⟨hresult, hmem, hrows⟩ := keepKeys_refines hchecked hremove
  have hset : result.keys.textSet = table.keys.textSet \ removed.textSet := by
    ext text
    rw [hmem]
    constructor
    · intro hkept
      obtain ⟨k, hkeep, htext⟩ := hkept
      rw [htext, Option.getD_some, Bool.not_eq_true', ← Bool.not_eq_true,
        Store.contains_members] at hkeep
      exact ⟨Store.some_mem_texts.mpr ⟨k, htext⟩, hkeep⟩
    · intro hkept
      obtain ⟨k, htext⟩ := Store.some_mem_texts.mp hkept.1
      refine ⟨k, ?_, htext⟩
      rw [htext, Option.getD_some, Bool.not_eq_true', ← Bool.not_eq_true,
        Store.contains_members]
      exact hkept.2
  refine ⟨hresult, View.ext hset ?_⟩
  rw [view, hrows, hset]
  exact map_restrict_congr fun text htext => and_iff_right (mem_textSet_of_decoded htext)

/-- After a walk over codes those places are marked that were before, or that a code names. -/
theorem foldl_used (used : Array Bool) (codes : List Int32) (k : Nat) :
    (codes.foldl (fun used code =>
      if code = missing then used else used.setIfInBounds code.toNatClampNeg true) used)[k]? =
        some true ↔
      used[k]? = some true ∨
        k < used.size ∧ ∃ code ∈ codes, code ≠ missing ∧ code.toNatClampNeg = k := by
  induction codes generalizing used with
  | nil => simp
  | cons code rest ih =>
      rw [List.foldl_cons, ih]
      by_cases hcode : code = missing
      · simp [hcode]
      · rw [if_neg hcode, Array.size_setIfInBounds, Array.getElem?_setIfInBounds]
        by_cases hk : code.toNatClampNeg = k
        · subst hk
          rw [if_pos rfl]
          constructor
          · intro hused
            refine .inr ⟨?_, code, .head _, hcode, rfl⟩
            rcases hused with hused | hused
            · by_contra hsize
              rw [if_neg hsize] at hused
              cases hused
            · exact hused.1
          · intro hused
            refine .inl (if_pos ?_)
            rcases hused with hused | hused
            · exact (Array.getElem?_eq_some_iff.mp hused).1
            · exact hused.1
        · simp [hk, hcode]

def usedPlaces (table : CategoryTable) : Array Int :=
  table.codes.map Int32.toInt

theorem mem_usedPlaces {k : Nat} :
    (k : Int) ∈ table.usedPlaces ↔ ∃ code ∈ table.codes, code.toInt = k :=
  Array.mem_map

theorem Checked.used_iff (hchecked : table.Checked) (k : Nat) :
    (table.codes.foldl (fun used code =>
      if code = missing then used else used.setIfInBounds code.toNatClampNeg true)
      (Array.replicate table.keyCount false))[k]? = some true ↔ (k : Int) ∈ table.usedPlaces := by
  rw [← Array.foldl_toList, foldl_used, Array.size_replicate, Array.getElem?_replicate,
    mem_usedPlaces]
  constructor
  · rintro (hfalse | ⟨-, code, hcode, hne, rfl⟩)
    · by_cases hk : k < table.keyCount
      · rw [if_pos hk] at hfalse
        cases hfalse
      · rw [if_neg hk] at hfalse
        cases hfalse
    · have hmem := Array.mem_toList_iff.mp hcode
      rcases hchecked.code_inside code hmem with hmissing | ⟨k, hk, -⟩
      · exact absurd hmissing hne
      · exact ⟨code, hmem, by rw [toNatClampNeg_of_toInt hk, hk]⟩
  · rintro ⟨code, hmem, hcode⟩
    rcases hchecked.code_inside code hmem with rfl | ⟨other, hother, hlt⟩
    · exact absurd rfl (ne_missing_of_toInt hcode)
    · obtain rfl : other = k := Int.ofNat_inj.mp (hother.symm.trans hcode)
      exact .inr ⟨hlt, code, Array.mem_toList_iff.mpr hmem, ne_missing_of_toInt hcode,
        toNatClampNeg_of_toInt hcode⟩

theorem Checked.mem_decoded (hchecked : table.Checked) (text : String) :
    some text ∈ table.decoded ↔
      ∃ k : Nat, (k : Int) ∈ table.usedPlaces ∧ table.keys.text? k = some text := by
  rw [decoded, List.mem_map]
  constructor
  · rintro ⟨code, hcode, htext⟩
    have hcode := Array.mem_toList_iff.mp hcode
    rcases hchecked.code_inside code hcode with rfl | ⟨k, hk, -⟩
    · rw [textOfCode_missing] at htext
      cases htext
    · rw [textOfCode_of_toInt _ hk] at htext
      exact ⟨k, mem_usedPlaces.mpr ⟨code, hcode, hk⟩, htext⟩
  · rintro ⟨k, hused, htext⟩
    obtain ⟨code, hcode, hk⟩ := mem_usedPlaces.mp hused
    exact ⟨code, Array.mem_toList_iff.mpr hcode, (textOfCode_of_toInt _ hk).trans htext⟩

theorem removeUnusedKeys_refines (hchecked : table.Checked)
    (hremove : table.removeUnusedKeys = .ok result) :
    result.Checked ∧ result.view = Edit.removeUnusedKeys.apply table.view := by
  rw [removeUnusedKeys] at hremove
  simp only [beq_eq_decide, hchecked.used_iff] at hremove
  by_cases hall : ((List.range table.keyCount).filter fun k : Nat =>
      decide ((k : Int) ∈ table.usedPlaces)).length = table.keyCount
  · rw [if_pos hall] at hremove
    cases hremove
    refine ⟨hchecked, View.ext (Set.ext fun text => ?_) rfl⟩
    refine Store.some_mem_texts.trans ((exists_congr fun k => ?_).trans
      (hchecked.mem_decoded text).symm)
    refine (and_iff_right_of_imp fun htext => ?_).symm
    have hkept := List.length_filter_eq_length_iff.mp (hall.trans List.length_range.symm)
    exact of_decide_eq_true (hkept k (List.mem_range.mpr (Store.lt_size_of_text? htext)))
  · rw [if_neg hall] at hremove
    obtain ⟨hresult, hmem, hrows⟩ := keepKeys_refines hchecked hremove
    have hset : ∀ text, text ∈ result.keys.textSet ↔ some text ∈ table.decoded := by
      intro text
      rw [hmem, hchecked.mem_decoded]
      exact exists_congr fun k => and_congr_left fun _ => decide_eq_true_iff
    refine ⟨hresult, View.ext (Set.ext hset) ?_⟩
    rw [view, hrows]
    exact map_restrict_eq_self fun text htext => (hset text).mpr htext

theorem gather_cases (table : CategoryTable) (indices : List Nat) :
    (∃ index ∈ indices, table.size ≤ index ∧
      table.gather indices = .error (.tableGatherOutside index table.size)) ∨
    (∀ index ∈ indices, index < table.size) ∧ table.gather indices =
      .ok ⟨table.keys, (indices.map fun index => table.codes[index]?.getD missing).toArray⟩ := by
  rw [gather]
  cases houtside : indices.find? fun index => table.size ≤ index with
  | some index =>
      have hle := List.find?_some houtside
      rw [decide_eq_true_iff] at hle
      exact .inl ⟨index, List.mem_of_find?_eq_some houtside, hle, rfl⟩
  | none =>
      refine .inr ⟨fun index hindex => ?_, rfl⟩
      simpa using List.find?_eq_none.mp houtside index hindex

theorem gather_outOfBounds_iff (table : CategoryTable) (indices : List Nat) :
    (∃ failure, table.gather indices = .error failure ∧ failure.kind = .outOfBounds) ↔
      ∃ index ∈ indices, table.size ≤ index := by
  rcases table.gather_cases indices with ⟨index, hindex, hle, herror⟩ | ⟨hinside, hok⟩
  · exact iff_of_true ⟨_, herror, rfl⟩ ⟨index, hindex, hle⟩
  · refine iff_of_false (fun hfailure => ?_) (fun houtside => ?_)
    · obtain ⟨failure, herror, -⟩ := hfailure
      rw [hok] at herror
      cases herror
    · obtain ⟨index, hindex, hle⟩ := houtside
      exact Nat.not_lt.mpr hle (hinside index hindex)

theorem gather_ok_iff (table : CategoryTable) (indices : List Nat) :
    (∃ result, table.gather indices = .ok result) ↔ ∀ index ∈ indices, index < table.size := by
  rcases table.gather_cases indices with ⟨index, hindex, hle, herror⟩ | ⟨hinside, hok⟩
  · refine iff_of_false (fun hresult => ?_) (fun hinside => ?_)
    · obtain ⟨result, hok⟩ := hresult
      rw [herror] at hok
      cases hok
    · exact Nat.not_lt.mpr hle (hinside index hindex)
  · exact iff_of_true ⟨_, hok⟩ hinside

theorem gather_refines {indices : List Nat} (hchecked : table.Checked)
    (hgather : table.gather indices = .ok result) :
    result.Checked ∧ result.view = (Edit.gather indices).apply table.view := by
  rcases table.gather_cases indices with ⟨index, -, -, herror⟩ | ⟨-, hok⟩
  · rw [herror] at hgather
    cases hgather
  · rw [hok] at hgather
    cases hgather
    refine ⟨⟨hchecked.keys, fun code hcode => ?_⟩, View.ext rfl ?_⟩
    · obtain ⟨index, -, rfl⟩ := List.mem_map.mp (List.mem_toArray.mp hcode)
      cases hentry : table.codes[index]? with
      | none => exact .inl rfl
      | some code => exact hchecked.code_inside code (Array.mem_of_getElem? hentry)
    · rw [view, decoded, List.map_map]
      refine List.map_congr_left fun index _ => ?_
      rw [view, decoded, Function.comp_apply, List.getElem?_map, Array.getElem?_toList]
      cases table.codes[index]? with
      | none => exact textOfCode_missing table.keys
      | some code => rfl

namespace Edit

theorem run_refines {edit : Edit} (hchecked : table.Checked) (hsound : edit.Sound)
    (hrun : edit.run table = .ok result) :
    result.Checked ∧ result.view = edit.apply table.view := by
  cases edit with
  | addKeys new => exact addKeys_refines hchecked hsound hrun
  | removeKeys removed => exact removeKeys_refines hchecked hrun
  | removeUnusedKeys => exact removeUnusedKeys_refines hchecked hrun
  | setKeys keys => exact setKeys_refines hchecked hsound hrun
  | merge other =>
      exact merge_refines hchecked ((check_eq_ok_iff hsound.1).mp hsound.2) hrun
  | gather indices => exact gather_refines hchecked hrun

/-- Every sequence of edits that succeeds leaves a table that the check accepts, and does what the
edits are meant to do one after the other.  A gathering from that table fails just when an index is
out of range. -/
theorem runAll_refines {edits : List Edit} (hkeys : table.keys.Valid)
    (hcheck : table.check = .ok ()) (hsound : ∀ edit ∈ edits, edit.Sound)
    (hrun : runAll table edits = .ok result) :
    result.keys.Valid ∧ result.check = .ok () ∧
      result.view = edits.foldl Edit.apply table.view ∧
      ∀ indices, ((∃ failure, result.gather indices = .error failure ∧
          failure.kind = .outOfBounds) ↔ ∃ index ∈ indices, result.size ≤ index) ∧
        ((∃ gathered, result.gather indices = .ok gathered) ↔
          ∀ index ∈ indices, index < result.size) := by
  induction edits generalizing table with
  | nil =>
      cases hrun
      exact ⟨hkeys, hcheck, rfl, fun indices =>
        ⟨gather_outOfBounds_iff result indices, gather_ok_iff result indices⟩⟩
  | cons edit rest ih =>
      rw [runAll] at hrun
      cases hnext : edit.run table with
      | error failure =>
          rw [hnext] at hrun
          cases hrun
      | ok next =>
          rw [hnext] at hrun
          obtain ⟨hchecked, hview⟩ :=
            run_refines ((check_eq_ok_iff hkeys).mp hcheck) (hsound edit (.head _)) hnext
          rw [List.foldl_cons, ← hview]
          exact ih hchecked.keys.valid ((check_eq_ok_iff hchecked.keys.valid).mpr hchecked)
            (fun other hother => hsound other (.tail _ hother)) hrun

/-- Rows are picked, and then a key is added that stands between the others. -/
theorem runAll_refines_addBetween :
    ∃ keys new result, Store.ofTexts [some "a", some "c"] = .ok keys ∧
      Store.ofTexts [some "b", none] = .ok new ∧
      runAll ⟨keys, #[1, -1, 0]⟩ [.gather [2, 0, 1], .addKeys new] = .ok result ∧
      result.check = .ok () ∧ result.view =
        [gather [2, 0, 1], addKeys new].foldl Edit.apply (view ⟨keys, #[1, -1, 0]⟩) := by
  obtain ⟨keys, hkeys⟩ := @Store.exists_ofTexts [some "a", some "c"] (by simp; decide) (by decide)
  obtain ⟨new, hnew⟩ := @Store.exists_ofTexts [some "b", none] (by simp; decide) (by decide)
  have hkeysValid := Store.valid_of_build hkeys
  have hnewValid := Store.valid_of_build hnew
  have hkeysTexts := Store.texts_ofTexts hkeys
  have hnewTexts := Store.texts_ofTexts hnew
  have hsize : keys.size = 2 := by
    rw [← keys.size_texts, ← Array.length_toList, hkeysTexts]
    rfl
  have hcheck : check ⟨keys, #[1, -1, 0]⟩ = .ok () := by
    refine (check_eq_ok_iff hkeysValid).mpr ⟨⟨hkeysValid, ?_, ?_⟩, fun code hcode => ?_⟩
    · rw [hkeysTexts]
      simp only [Rising, Text.compareOptional, Text.compare_eq, List.pairwise_pair]
      decide
    · rw [← Array.mem_toList_iff, hkeysTexts]
      decide
    · rw [keyCount, hsize]
      simp only [List.mem_toArray, List.mem_cons, List.not_mem_nil, or_false] at hcode
      rcases hcode with rfl | rfl | rfl
      · exact .inr ⟨1, rfl, by decide⟩
      · exact .inl rfl
      · exact .inr ⟨0, rfl, by decide⟩
  obtain ⟨distinct, hdistinct⟩ := @exists_distinctTexts [keys, new]
    (by
      intro store hstore
      rcases List.mem_pair.mp hstore with rfl | rfl
      · exact hkeysValid
      · exact hnewValid)
    (by
      simp only [List.map_cons, List.map_nil, hkeysValid.valueBytes_eq, hnewValid.valueBytes_eq,
        hkeysTexts, hnewTexts]
      decide)
    (by
      simp only [List.map_cons, List.map_nil, ← Store.size_texts, ← Array.length_toList,
        hkeysTexts, hnewTexts]
      decide)
  have hrun : runAll ⟨keys, #[1, -1, 0]⟩ [.gather [2, 0, 1], .addKeys new] =
      .ok (withKeys ⟨keys, #[0, 1, -1]⟩ distinct) := by
    have hgather : (gather [2, 0, 1]).run ⟨keys, #[1, -1, 0]⟩ = .ok ⟨keys, #[0, 1, -1]⟩ := rfl
    have hadd : (addKeys new).run ⟨keys, #[0, 1, -1]⟩ =
        .ok (withKeys ⟨keys, #[0, 1, -1]⟩ distinct) := by
      rw [run, CategoryTable.addKeys, hdistinct]
    rw [runAll, hgather]
    dsimp only
    rw [runAll, hadd]
    rfl
  obtain ⟨-, hresult, hview, -⟩ := runAll_refines hkeysValid hcheck (by
    intro edit hedit
    rcases List.mem_pair.mp hedit with rfl | rfl
    · trivial
    · exact hnewValid) hrun
  exact ⟨keys, new, _, hkeys, hnew, hrun, hresult, hview⟩

end Edit

end TextColumns.CategoryTable
