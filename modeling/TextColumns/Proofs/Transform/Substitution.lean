import TextColumns.Proofs.Pieces.Separators
import TextColumns.Proofs.Store.Reading

/-!
Replacing a text is cutting at it and joining the pieces with the replacement.  Where the replacement
can be no part of an occurrence, nothing is left to be replaced a second time.
-/

namespace TextColumns

namespace Transform

open Text (Extent)

variable {target replacement text : String} {limit : Option Nat}

/-- A text with what stands between its pieces replaced. -/
def replaced (target replacement : String) (limit : Option Nat) (text : String) : String :=
  replacement.intercalate (pieceTexts text (Text.splitAt (.ofText target) limit text))

theorem joinedFrom_foundOccurrences (target replacement : String) (limit : Option Nat)
    (text : String) :
    Matching.joinedFrom replacement text 0 (foundOccurrences target limit text) =
      replaced target replacement limit text := by
  rw [Matching.joinedFrom, foundOccurrences, Matching.upTo_map, ← Matching.piecesFrom_eq]
  rfl

theorem counts_replaced (htarget : target ≠ "") (replacement : String) (limit : Option Nat)
    (text : String) : (replaceDraft (.ofText target) replacement limit text).Counts
      (replaced target replacement limit text) := by
  rw [← joinedFrom_foundOccurrences]
  exact counts_replaceDraft htarget replacement limit text

theorem replace_eq_build (htarget : target ≠ "") (store : Store) (replacement : String)
    (hlimit : limit ≠ some 0) :
    replace store target replacement limit =
      Store.build (store.texts.toList.map (·.map (replaceDraft (.ofText target) replacement limit))) :=
  if_neg (by simpa [String.isEmpty_iff] using And.intro htarget hlimit)

theorem counted_replace (htarget : target ≠ "") (store : Store) (replacement : String)
    (hlimit : limit ≠ some 0) :
    Store.Counted (store.texts.toList.map (·.map (replaced target replacement limit)))
      (replace store target replacement limit) := by
  rw [replace_eq_build htarget store replacement hlimit]
  exact Store.counted_of_counts (counts_replaced htarget replacement limit)

theorem replace_eq_ofTexts (htarget : target ≠ "") (store : Store) (replacement : String)
    (hlimit : limit ≠ some 0)
    (hsizes : ∀ text, some text ∈ store.texts.toList.map (·.map (replaced target replacement limit)) →
      text.utf8ByteSize < Word.count) :
    replace store target replacement limit =
      Store.ofTexts (store.texts.toList.map (·.map (replaced target replacement limit))) := by
  rw [replace_eq_build htarget store replacement hlimit]
  exact Store.build_eq_ofTexts
    (Store.fills_of_counts (counts_replaced htarget replacement limit) hsizes)

theorem replaced_zero (target replacement text : String) :
    replaced target replacement (some 0) text = text := by
  rw [← joinedFrom_foundOccurrences, foundOccurrences, Text.upTo, List.take_zero,
    Matching.joinedFrom_nil, Text.between_all]

theorem replaced_self (htarget : target ≠ "") (limit : Option Nat) (text : String) :
    replaced target target limit text = text :=
  (splitsInto_splitAt htarget limit text).joined

/-- Whether a replacement has no part in any occurrence of a text, neither as a whole nor with one of
its ends.  The empty text is inside every text, so it does not keep out. -/
structure KeepsOut (target replacement : String) : Prop where
  absent : ¬ target.toList <:+: replacement.toList
  notInside : ¬ replacement.toList <:+: target.toList
  noOverlap : ∀ front behind, front ≠ [] → behind ≠ [] → front ++ behind = target.toList →
    ¬ front <:+ replacement.toList ∧ ¬ behind <+: replacement.toList

/-- What is in neither of two lists can only be where they meet, with a part in each. -/
theorem not_infix_append {part left right : List α} (hleft : ¬ part <:+: left)
    (hright : ¬ part <:+: right)
    (hmeet : ∀ front behind, front ≠ [] → behind ≠ [] → front ++ behind = part →
      front <:+ left → ¬ behind <+: right) :
    ¬ part <:+: left ++ right := by
  rw [List.infix_append_iff]
  rintro (hcontains | hcontains | ⟨front, behind, rfl, hfront, hbehind⟩)
  · exact hleft hcontains
  · exact hright hcontains
  · rcases eq_or_ne front [] with rfl | hfrontNe
    · exact hright hbehind.isInfix
    rcases eq_or_ne behind [] with rfl | hbehindNe
    · rw [List.append_nil] at hleft
      exact hleft hfront.isInfix
    · exact hmeet front behind hfrontNe hbehindNe rfl hfront hbehind

section KeepsOut

variable (hkeepsOut : KeepsOut target replacement)
include hkeepsOut

theorem KeepsOut.not_prefix_append {front behind : List Char} (hfront : front ≠ [])
    (hbehind : behind ≠ []) (htarget : front ++ behind = target.toList) (joined : List Char) :
    ¬ behind <+: replacement.toList ++ joined := by
  intro hprefix
  rcases List.prefix_or_prefix_of_prefix hprefix (List.prefix_append _ _) with hinside | hinside
  · exact (hkeepsOut.noOverlap front behind hfront hbehind htarget).2 hinside
  · refine hkeepsOut.notInside (hinside.isInfix.trans ?_)
    exact htarget ▸ (List.suffix_append front behind).isInfix

theorem KeepsOut.not_infix_intercalate {pieces : List (List Char)}
    (hpieces : ∀ piece ∈ pieces, ¬ target.toList <:+: piece) :
    ¬ target.toList <:+: replacement.toList.intercalate pieces := by
  induction pieces with
  | nil =>
      intro hcontains
      have hempty : target.toList = [] := List.infix_nil.mp hcontains
      exact hkeepsOut.absent (hempty ▸ List.nil_infix)
  | cons piece rest ih =>
      obtain ⟨hpiece, hrest⟩ := List.forall_mem_cons.mp hpieces
      cases rest with
      | nil => rwa [List.intercalate_singleton]
      | cons next rest =>
          have hjoined := ih hrest
          rw [List.intercalate_cons_cons, List.append_assoc]
          generalize replacement.toList.intercalate (next :: rest) = joined at hjoined ⊢
          have hbehind : ¬ target.toList <:+: replacement.toList ++ joined :=
            not_infix_append hkeepsOut.absent hjoined fun front behind hfront hne htarget hsuffix =>
              absurd hsuffix (hkeepsOut.noOverlap front behind hfront hne htarget).1
          exact not_infix_append hpiece hbehind fun front behind hfront hne htarget _ =>
            hkeepsOut.not_prefix_append hfront hne htarget joined

theorem KeepsOut.not_infix_replaced (htarget : target ≠ "") (text : String) :
    ¬ target.toList <:+: (replaced target replacement none text).toList := by
  rw [replaced, String.toList_intercalate]
  refine hkeepsOut.not_infix_intercalate (List.forall_mem_map.mpr ?_)
  exact (splitsInto_splitAt htarget none text).clear nofun

end KeepsOut

/-- A replacement that shares no character with a text keeps out of it. -/
theorem keepsOut_of_disjoint (htarget : target ≠ "") (hreplacement : replacement ≠ "")
    (hdisjoint : target.toList.Disjoint replacement.toList) : KeepsOut target replacement := by
  have happart {chars : List Char} (hne : chars ≠ []) (hinTarget : chars ⊆ target.toList) :
      ¬ chars ⊆ replacement.toList := fun hinReplacement => by
    obtain ⟨c, hc⟩ := List.exists_mem_of_ne_nil chars hne
    exact hdisjoint (hinTarget hc) (hinReplacement hc)
  constructor
  · exact fun hinside =>
      happart (mt String.toList_eq_nil_iff.mp htarget) (List.Subset.refl _) hinside.subset
  · exact fun hinside =>
      happart (mt String.toList_eq_nil_iff.mp hreplacement) hinside.subset (List.Subset.refl _)
  · intro front behind hfront hbehind hcut
    have hfrontSubset : front ⊆ target.toList := hcut ▸ List.subset_append_left front behind
    have hbehindSubset : behind ⊆ target.toList := hcut ▸ List.subset_append_right front behind
    exact ⟨fun hsuffix => happart hfront hfrontSubset hsuffix.subset,
      fun hprefix => happart hbehind hbehindSubset hprefix.subset⟩

theorem replaced_of_not_infix (htarget : target ≠ "") (replacement : String) (limit : Option Nat)
    (habsent : ¬ target.toList <:+: text.toList) : replaced target replacement limit text = text := by
  have hnone : Text.occurrences text.toByteArray (.ofText target) = [] := by
    refine List.eq_nil_iff_forall_not_mem.mpr fun place hplace => habsent ?_
    obtain ⟨cursor, ⟨front, htext, -, -⟩, -, hfollows⟩ :=
      Text.exists_cursor_of_standsAt htarget (Text.standsAt_of_mem_occurrences hplace)
    exact htext ▸ hfollows.isInfix.trans (List.suffix_append _ _).isInfix
  have hupTo : Text.upTo limit ([] : List Extent) = [] :=
    List.sublist_nil.mp (Text.upTo_sublist _ _)
  rw [← joinedFrom_foundOccurrences, foundOccurrences, hnone, List.map_nil, hupTo,
    Matching.joinedFrom_nil, Text.between_all]

theorem KeepsOut.replaced_replaced (hkeepsOut : KeepsOut target replacement) (htarget : target ≠ "")
    (text : String) :
    replaced target replacement none (replaced target replacement none text) =
      replaced target replacement none text :=
  replaced_of_not_infix htarget replacement none (hkeepsOut.not_infix_replaced htarget text)

variable {store result : Store}

theorem replace_zero (store : Store) (target replacement : String) :
    replace store target replacement (some 0) = .ok store :=
  if_pos (Bool.or_true _)

theorem texts_replace (htarget : target ≠ "")
    (hresult : replace store target replacement limit = .ok result) :
    result.texts.toList = store.texts.toList.map (·.map (replaced target replacement limit)) := by
  rcases eq_or_ne limit (some 0) with rfl | hlimit
  · rw [replace_zero] at hresult
    cases hresult
    exact (Store.map_texts_eq_self fun text _ => replaced_zero target replacement text).symm
  · exact (counted_replace htarget store replacement hlimit).texts_eq hresult

theorem replace_replace (htarget : target ≠ "") (hkeepsOut : KeepsOut target replacement)
    (hresult : replace store target replacement none = .ok result) :
    replace result target replacement none = .ok result := by
  have htexts := texts_replace htarget hresult
  have hagain : result.texts.toList.map (·.map (replaced target replacement none)) =
      result.texts.toList := by
    refine Store.map_texts_eq_self fun text htext => ?_
    rw [htexts] at htext
    obtain ⟨text?, -, hmap⟩ := List.mem_map.mp htext
    obtain ⟨text, rfl, rfl⟩ := Option.map_eq_some_iff.mp hmap
    exact hkeepsOut.replaced_replaced htarget text
  have hlimit : (none : Option Nat) ≠ some 0 := nofun
  have hfits := (counted_replace htarget store replacement hlimit).fits hresult
  rw [replace_eq_ofTexts htarget store replacement hlimit fun _ => hfits.lt_count] at hresult
  rw [← htexts] at hfits
  rw [replace_eq_ofTexts htarget result replacement hlimit
    fun _ htext => hfits.lt_count (hagain ▸ htext), hagain, htexts, hresult]

/-- Replacing a text is cutting at it and joining the pieces with the replacement.  So putting a text
in its own place changes nothing, and neither does replacing all of it once more if no occurrence
can come from the replacement. -/
theorem replace_joins_pieces (htarget : target ≠ "") (hvalid : store.Valid) :
    (∀ replacement limit,
      (limit = some 0 → replace store target replacement limit = .ok store) ∧
      (limit ≠ some 0 →
        Store.Counted (store.texts.toList.map (·.map (replaced target replacement limit)))
          (replace store target replacement limit)) ∧
      (store.size ≤ Matching.maxRows →
        ∃ column, ListColumn.split store (some target) limit = .ok column) ∧
      ∀ result column, replace store target replacement limit = .ok result →
        ListColumn.split store (some target) limit = .ok column →
          result.size = store.size ∧ ∀ row < store.size,
            (store.text? row = none ↔ column.row? row = none) ∧
              result.text? row = (column.row? row).map replacement.intercalate) ∧
    (∀ limit,
      (limit ≠ some 0 → Store.Builds store.texts.toList (replace store target target limit)) ∧
      ∀ result, replace store target target limit = .ok result →
        result.sameTexts store = true) ∧
    ∀ replacement, KeepsOut target replacement →
      ∀ once, replace store target replacement none = .ok once →
        replace once target replacement none = .ok once := by
  refine ⟨fun replacement limit => ⟨?_, fun hlimit => ?_, fun hsize => ?_, ?_⟩,
    fun limit => ⟨fun hlimit => ?_, fun result hresult => ?_⟩,
    fun replacement hkeepsOut once hresult => replace_replace htarget hkeepsOut hresult⟩
  · rintro rfl
    exact replace_zero store target replacement
  · exact counted_replace htarget store replacement hlimit
  · exact ListColumn.exists_split hvalid htarget limit hsize
  · intro result column hresult hcolumn
    have htexts := texts_replace htarget hresult
    rw [ListColumn.split_eq_ofExtents htarget] at hcolumn
    have hsize : result.size = store.size := by
      have hlength := congrArg List.length htexts
      simpa only [List.length_map, Array.length_toList, Store.size_texts] using hlength
    refine ⟨hsize, fun row hrow => ?_⟩
    have hpieces := ListColumn.row?_eq_map hvalid
      (fun _ _ => Text.within_of_mem_splitAt htarget) hcolumn hrow
    have htext := congrArg (·[row]?) htexts
    rw [List.getElem?_map, store.getElem?_toList_texts hrow,
      result.getElem?_toList_texts (hsize ▸ hrow), Option.map_some, Option.some_inj] at htext
    rw [htext, hpieces, Option.map_map, Option.map_eq_none_iff]
    exact ⟨Iff.rfl, rfl⟩
  · have hself := Store.map_texts_eq_self fun text (_ : some text ∈ store.texts.toList) =>
      replaced_self htarget limit text
    rw [replace_eq_ofTexts htarget store target hlimit, hself]
    · exact Store.builds_ofTexts _
    · intro text htext
      rw [hself] at htext
      exact Nat.lt_of_le_of_lt (hvalid.size_le_of_text (Array.mem_toList_iff.mp htext)) (by decide)
  · rw [Store.sameTexts_iff, texts_replace htarget hresult]
    exact Store.map_texts_eq_self fun text _ => replaced_self htarget limit text

theorem replace_joins_pieces_adjacent :
    ∃ (store once same : Store) (column : ListColumn), store.Valid ∧
      store.texts.toList = [some "ababc", none] ∧
      ListColumn.split store (some "ab") none = .ok column ∧ column.row? 0 = some ["", "", "c"] ∧
      replace store "ab" "-" none = .ok once ∧ once.text? 0 = some "--c" ∧ once.text? 1 = none ∧
      replace once "ab" "-" none = .ok once ∧
      replace store "ab" "ab" none = .ok same ∧ same.sameTexts store = true := by
  have htarget : "ab" ≠ "" := by decide
  have hdisjoint : ∀ c ∈ "ab".toList, c ∉ "-".toList := by simp
  have hkeepsOut : KeepsOut "ab" "-" :=
    keepsOut_of_disjoint htarget (by decide) fun c => hdisjoint c
  have hfits : FitsLimits [some "ababc", none] := fitsLimits_of_total (by decide)
  obtain ⟨store, hbuild⟩ := Store.ofTexts_ok_iff.mpr hfits
  have htexts := Store.texts_ofTexts hbuild
  have hvalid : store.Valid := Store.valid_of_build hbuild
  have hsize : store.size = 2 := by
    rw [← Store.size_texts, ← Array.length_toList, htexts]
    rfl
  have htext : store.text? 0 = some "ababc" := by
    rw [← Store.texts_getElem?, htexts]
    rfl
  have hmissing : store.text? 1 = none := by
    have hrow := @Store.getElem?_toList_texts store 1 (by rw [hsize]; decide)
    rw [htexts] at hrow
    exact (Option.some.inj hrow).symm
  obtain ⟨hjoins, hself, hagain⟩ := replace_joins_pieces htarget hvalid
  obtain ⟨-, hbuilds, hsplit, hrows⟩ := hjoins "-" none
  obtain ⟨column, hcolumn⟩ := hsplit (by rw [hsize]; decide)
  have hreplaced : replaced "ab" "-" none "ababc" = "--c" := by decide +kernel
  obtain ⟨once, honce, -⟩ := (hbuilds nofun).stored (by
    rw [htexts, List.map_cons, Option.map_some, hreplaced]
    exact fitsLimits_of_total (by decide))
  obtain ⟨same, hsame, -⟩ := ((hself none).1 nofun).stored (htexts ▸ hfits)
  obtain ⟨-, hrow⟩ := hrows once column honce hcolumn
  have hpieces : column.row? 0 = some ["", "", "c"] := by
    rw [ListColumn.split_eq_ofExtents htarget] at hcolumn
    rw [ListColumn.row?_of_text? hvalid (fun _ _ => Text.within_of_mem_splitAt htarget) hcolumn
      htext]
    decide +kernel
  obtain ⟨-, hfirst⟩ := hrow 0 (by rw [hsize]; decide)
  obtain ⟨hmissingRow, hsecond⟩ := hrow 1 (by rw [hsize]; decide)
  rw [hpieces] at hfirst
  rw [hmissingRow.mp hmissing] at hsecond
  exact ⟨store, once, same, column, hvalid, htexts, hcolumn, hpieces, honce, hfirst, hsecond,
    hagain "-" hkeepsOut once honce, hsame, (hself none).2 same hsame⟩

end Transform

end TextColumns
