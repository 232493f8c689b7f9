import TextColumns.Proofs.Store.Fills

/-!
Drafts that count the bytes of their texts in machine words.  A text of so many bytes that the
count wraps is given a range that it does not fit into, and what is written then runs past the
range.
-/

namespace TextColumns

/-- A difference that is wrapped once more counts as if it had not been wrapped before. -/
theorem Word.wrap_difference_add {a b : Nat} (hle : b ≤ a) (c : Nat) :
    wrap (difference (wrap a) b + c) = wrap (a - b + c) := by
  simp only [difference, wrap, count]
  omega

theorem Word.difference_wrap (a b : Nat) : difference (wrap a) b = difference a b := by
  simp only [difference, wrap, count]
  omega

namespace Writer

/-- Whether a way of writing puts a text behind what is written wherever there is room for it, and
runs past the range wherever there is not. -/
structure Writes (write : Writer → Writer) (text : String) : Prop extends Appends write text where
  overruns : ∀ {capacity : Nat} {written : ByteArray}, written.size ≤ capacity →
    capacity < written.size + text.utf8ByteSize → (write ⟨capacity, written, false⟩).overrun = true
  keeps : ∀ {writer : Writer}, writer.overrun = true → (write writer).overrun = true

theorem overrun_push {writer : Writer} (bytes : ByteArray) (hoverrun : writer.overrun = true) :
    (writer.push bytes).overrun = true := by
  obtain ⟨capacity, written, _⟩ := writer
  rw [push, if_pos hoverrun]

theorem overrun_pushCopies {writer : Writer} (text : String) (n : Nat)
    (hoverrun : writer.overrun = true) : (writer.pushCopies text n).overrun = true := by
  induction n generalizing writer with
  | zero => exact hoverrun
  | succ n ih => exact ih (overrun_push _ hoverrun)

theorem writes_nothing : Writes (fun writer => writer) "" where
  toAppends := appends_nothing
  overruns hinside hroom := absurd hinside (Nat.not_le.mpr hroom)
  keeps hoverrun := hoverrun

theorem writes_push {bytes : ByteArray} {text : String} (hbytes : bytes = text.toByteArray) :
    Writes (·.push bytes) text where
  toAppends := appends_push hbytes
  overruns _ hroom := by
    rw [← String.size_toByteArray, ← hbytes] at hroom
    simp [push, Nat.not_le.mpr hroom]
  keeps := overrun_push bytes

theorem writes_pushText (text : String) : Writes (·.pushText text) text :=
  writes_push rfl

theorem writes_pushChar (c : Char) : Writes (·.pushChar c) (String.singleton c) :=
  writes_pushText (String.singleton c)

theorem writes_pushChars (c : Char) (n : Nat) :
    Writes (·.pushChars c n) (Text.copies n (String.singleton c)) where
  toAppends := appends_pushChars c n
  overruns _ hroom := by
    rw [Text.utf8ByteSize_copies, String.utf8ByteSize_singleton] at hroom
    rw [pushChars, if_neg (Nat.not_le.mpr hroom)]
  keeps hoverrun := by
    rw [pushChars]
    split
    · exact overrun_pushCopies _ n hoverrun
    · rfl

theorem Writes.append {first second : Writer → Writer} {text other : String}
    (hfirst : Writes first text) (hsecond : Writes second other) :
    Writes (fun writer => second (first writer)) (text ++ other) where
  toAppends := hfirst.toAppends.append hsecond.toAppends
  overruns {capacity written} hinside hroom := by
    rw [String.utf8ByteSize_append] at hroom
    by_cases hfits : written.size + text.utf8ByteSize ≤ capacity
    · rw [hfirst.eq hfits]
      apply hsecond.overruns <;>
        · rw [ByteArray.size_append, String.size_toByteArray]
          omega
    · exact hsecond.keeps (hfirst.overruns hinside (Nat.lt_of_not_le hfits))
  keeps hoverrun := hsecond.keeps (hfirst.keeps hoverrun)

theorem writes_foldl {write : Writer → α → Writer} {text : α → String} {items : List α}
    (hwrite : ∀ item ∈ items, Writes (write · item) (text item)) :
    Writes (fun writer => items.foldl write writer) (String.join (items.map text)) := by
  induction items with
  | nil => exact writes_nothing
  | cons item items ih =>
      obtain ⟨hitem, hitems⟩ := List.forall_mem_cons.mp hwrite
      rw [List.map_cons, String.join_cons]
      exact hitem.append (ih hitems)

end Writer

namespace Draft

/-- Whether a draft writes a text, and asks for the word that is left of its size. -/
structure Counts (draft : Draft) (text : String) : Prop where
  size_eq : draft.size = Word.wrap text.utf8ByteSize
  writes : Writer.Writes draft.write text

def beyond (draft : Draft) : Bool :=
  draft.written.overrun || draft.bytes.size != draft.size

variable {draft : Draft} {text : String}

theorem Counts.fills (hcounts : draft.Counts text) (hsize : text.utf8ByteSize < Word.count) :
    draft.Fills text :=
  fills_of_appends (hcounts.size_eq.trans (Nat.mod_eq_of_lt hsize)) hcounts.writes.toAppends

theorem Counts.beyond (hcounts : draft.Counts text) (hsize : Word.count ≤ text.utf8ByteSize) :
    draft.beyond = true := by
  have hwrap : Word.wrap text.utf8ByteSize < text.utf8ByteSize :=
    Nat.lt_of_lt_of_le (Nat.mod_lt _ (by decide)) hsize
  have hroom : draft.size < ByteArray.empty.size + text.utf8ByteSize := by
    rwa [hcounts.size_eq, ByteArray.size_empty, Nat.zero_add]
  rw [Draft.beyond, written, Writer.ofCapacity,
    hcounts.writes.overruns (Nat.zero_le _) hroom, Bool.true_or]

theorem Fills.beyond (hfills : draft.Fills text) : draft.beyond = false := by
  rw [Draft.beyond, hfills.inside, bytes, hfills.range_eq, hfills.size_eq,
    String.size_toByteArray, bne_self_eq_false, Bool.or_false]

end Draft

theorem FitsLimits.lt_count {texts : List (Option String)} (hfits : FitsLimits texts) {text : String}
    (htext : some text ∈ texts) : text.utf8ByteSize < Word.count :=
  Nat.lt_of_le_of_lt (hfits.each text htext) (by decide)

namespace Store

variable {drafts : List (Option Draft)} {texts : List (Option String)}

theorem firstTooLong?_eq_some {row index : Nat} {draft : Draft}
    (hdraft : drafts[index]? = some (some draft)) (hsize : maxElementSize < draft.size)
    (hbefore : ∀ earlier < index, ∀ other, drafts[earlier]? = some (some other) →
      other.size ≤ maxElementSize) :
    firstTooLong? row drafts = some (row + index, draft.size) := by
  induction drafts generalizing row index with
  | nil => cases hdraft
  | cons first rest ih =>
      cases index with
      | zero =>
          obtain rfl : first = some draft := Option.some.inj hdraft
          rw [firstTooLong?, if_pos hsize, Nat.add_zero]
      | succ index =>
          have hrest : firstTooLong? (row + 1) rest = some (row + 1 + index, draft.size) :=
            ih hdraft fun earlier hearlier other hother =>
              hbefore (earlier + 1) (Nat.succ_lt_succ hearlier) other hother
          rw [Nat.add_right_comm, Nat.add_assoc] at hrest
          cases first with
          | none => exact hrest
          | some other =>
              have hother := hbefore 0 (Nat.succ_pos index) other rfl
              rw [firstTooLong?, if_neg (Nat.not_lt.mpr hother), hrest]

theorem Filling.overrun_add (filling : Filling) (row : Nat) (draft : Draft) :
    (filling.add row draft).overrun =
      filling.overrun.or (if draft.beyond then some row else none) := by
  obtain ⟨bytes, overrun, notUtf8⟩ := filling
  exact Option.orElse_eq_or

/-- The first element that fails a test of its draft, when filling keeps the first such element. -/
theorem first_fill {first : Filling → Option Nat} {fails : Draft → Bool}
    (hadd : ∀ filling row draft,
      first (filling.add row draft) = (first filling).or (if fails draft then some row else none))
    (filling : Filling) (row : Nat) (drafts : List (Option Draft)) :
    first (fill filling row drafts) =
      (first filling).or ((drafts.findIdx? (·.any fails)).map (row + ·)) := by
  induction drafts generalizing filling row with
  | nil => simp [fill]
  | cons draft? rest ih =>
      rw [List.findIdx?_cons]
      cases draft? with
      | none =>
          rw [fill, ih, Option.any_none, if_neg Bool.false_ne_true, Option.map_map]
          congr 2
          funext index
          exact Nat.add_right_comm row 1 index
      | some draft =>
          rw [fill, ih, hadd, Option.any_some, Option.or_assoc]
          cases fails draft with
          | true => rfl
          | false =>
              simp only [Option.none_or, Option.map_map, Bool.false_eq_true, if_false]
              congr 2
              funext index
              exact Nat.add_right_comm row 1 index

theorem overrun_filling (drafts : List (Option Draft)) :
    (filling drafts).overrun = drafts.findIdx? (·.any Draft.beyond) := by
  rw [filling, first_fill Filling.overrun_add, Option.none_or]
  simp

theorem Filling.notUtf8_add (filling : Filling) (row : Nat) (draft : Draft) :
    (filling.add row draft).notUtf8 =
      filling.notUtf8.or (if !draft.bytes.validateUTF8 then some row else none) := by
  obtain ⟨bytes, overrun, notUtf8⟩ := filling
  have hadd : (add ⟨bytes, overrun, notUtf8⟩ row draft).notUtf8 =
      notUtf8.or (if draft.bytes.validateUTF8 then none else some row) := Option.orElse_eq_or
  rw [hadd]
  cases draft.bytes.validateUTF8 <;> rfl

theorem notUtf8_filling (drafts : List (Option Draft)) :
    (filling drafts).notUtf8 = drafts.findIdx? (·.any (!·.bytes.validateUTF8)) := by
  rw [filling, first_fill Filling.notUtf8_add, Option.none_or]
  simp

/-- What building texts comes to whose bytes are counted in machine words.  The texts are stored if
they fit, and refused if they do not.  They are refused as too large unless the count of one of them
wraps, and only a text whose count wraps is written beyond the bytes that are set aside for it. -/
structure Counted (texts : List (Option String)) (result : Result Store) : Prop where
  stored : FitsLimits texts → ∃ store, result = .ok store ∧ store.texts.toList = texts
  refused : ¬ FitsLimits texts → ∃ failure, result = .error failure ∧
    (failure.kind = .overflow ∨ failure.kind = .overrun)
  overflow : (∀ text, some text ∈ texts → text.utf8ByteSize < Word.count) →
    ∀ failure, result = .error failure → failure.kind = .overflow
  elementTooLong : ∀ row text, texts[row]? = some (some text) →
    maxElementSize < text.utf8ByteSize → text.utf8ByteSize < Word.count →
    (∀ earlier < row, ∀ other, texts[earlier]? = some (some other) →
      other.utf8ByteSize ≤ maxElementSize) →
    result = .error (.elementTooLong row text.utf8ByteSize maxElementSize)
  writtenBeyond : ∀ row, result = .error (.writtenBeyond row) →
    ∃ text, texts[row]? = some (some text) ∧ Word.count ≤ text.utf8ByteSize

theorem Counted.texts_eq {result : Result Store} (hcounted : Counted texts result) {store : Store}
    (hresult : result = .ok store) : store.texts.toList = texts := by
  by_cases hfits : FitsLimits texts
  · obtain ⟨other, hother, htexts⟩ := hcounted.stored hfits
    obtain rfl : store = other := Except.ok.inj (hresult.symm.trans hother)
    exact htexts
  · obtain ⟨failure, hfailure, -⟩ := hcounted.refused hfits
    cases hresult.symm.trans hfailure

theorem Counted.kind_of_error {result : Result Store} (hcounted : Counted texts result)
    {failure : Failure} (hresult : result = .error failure) :
    failure.kind = .overflow ∨ failure.kind = .overrun := by
  by_cases hfits : FitsLimits texts
  · obtain ⟨store, hstore, -⟩ := hcounted.stored hfits
    cases hresult.symm.trans hstore
  · obtain ⟨other, hother, hkind⟩ := hcounted.refused hfits
    obtain rfl : failure = other := Except.error.inj (hresult.symm.trans hother)
    exact hkind

theorem Counted.fits {result : Result Store} (hcounted : Counted texts result) {store : Store}
    (hresult : result = .ok store) : FitsLimits texts := by
  by_contra hfits
  obtain ⟨failure, hfailure, -⟩ := hcounted.refused hfits
  cases hresult.symm.trans hfailure

section Counted

variable {draft : String → Draft} {output : String → String}

theorem getElem?_map_some {α β : Type} {items : List (Option α)} {f : α → β} {index : Nat} {b : β} :
    (items.map (·.map f))[index]? = some (some b) ↔
      ∃ a, items[index]? = some (some a) ∧ f a = b := by
  simp [List.getElem?_map, Option.map_eq_some_iff]

theorem fills_of_counts (hcounts : ∀ text, (draft text).Counts (output text))
    (hsizes : ∀ text, some text ∈ texts.map (·.map output) → text.utf8ByteSize < Word.count) :
    List.Forall₂ (Option.Rel Draft.Fills) (texts.map (·.map draft))
      (texts.map (·.map output)) :=
  forall₂_map_rows fun text htext =>
    (hcounts text).fills (hsizes _ (List.mem_map.mpr ⟨some text, htext, rfl⟩))

/-- Where nothing is overrun, no count of a text wraps. -/
theorem lt_count_of_overrun_filling (hcounts : ∀ text, (draft text).Counts (output text))
    (hoverrun : (filling (texts.map (·.map draft))).overrun = none) :
    ∀ text, some text ∈ texts.map (·.map output) → text.utf8ByteSize < Word.count := by
  intro written hwritten
  obtain ⟨text?, htext?, hoption⟩ := List.mem_map.mp hwritten
  obtain ⟨text, rfl, rfl⟩ := Option.map_eq_some_iff.mp hoption
  rw [overrun_filling, List.findIdx?_eq_none_iff] at hoverrun
  have hinside := hoverrun (some (draft text)) (List.mem_map.mpr ⟨some text, htext?, rfl⟩)
  by_contra hsize
  exact absurd hinside (ne_true_of_eq_false · ((hcounts text).beyond (Nat.le_of_not_lt hsize)))

theorem counted_of_counts (hcounts : ∀ text, (draft text).Counts (output text)) :
    Counted (texts.map (·.map output)) (build (texts.map (·.map draft))) where
  stored hfits :=
    exists_build_of_fills (fills_of_counts hcounts fun _ htext => hfits.lt_count htext) hfits
  refused hfits := by
    have hbuilt := built (texts.map (·.map draft))
    have hnone (hoverrun : (filling (texts.map (·.map draft))).overrun = none) :
        ∃ failure, build (texts.map (·.map draft)) = .error failure ∧ failure.kind = .overflow := by
      have hsizes := lt_count_of_overrun_filling hcounts hoverrun
      rw [build_eq_ofTexts (fills_of_counts hcounts hsizes)]
      cases hresult : ofTexts (texts.map (·.map output)) with
      | ok store => exact absurd (ofTexts_ok_iff.mp ⟨store, hresult⟩) hfits
      | error failure => exact ⟨failure, rfl, kind_of_ofTexts hresult⟩
    generalize build (texts.map (·.map draft)) = result at hbuilt hnone ⊢
    cases hbuilt with
    | elementTooLong => exact ⟨_, rfl, .inl rfl⟩
    | prefixSum => exact ⟨_, rfl, .inl rfl⟩
    | storeTooLarge => exact ⟨_, rfl, .inl rfl⟩
    | writtenBeyond => exact ⟨_, rfl, .inr rfl⟩
    | writtenNotUtf8 hoverrun =>
        obtain ⟨failure, hfailure, hkind⟩ := hnone hoverrun
        exact ⟨failure, hfailure, .inl hkind⟩
    | stored _ _ hoverrun =>
        obtain ⟨failure, hfailure, -⟩ := hnone hoverrun
        cases hfailure
  overflow hsizes failure hfailure := by
    rw [build_eq_ofTexts (fills_of_counts hcounts hsizes)] at hfailure
    exact kind_of_ofTexts hfailure
  elementTooLong row written hwritten hlong hsize hbefore := by
    obtain ⟨text, htext, rfl⟩ := getElem?_map_some.mp hwritten
    have hexact {text : String} (hsize : (output text).utf8ByteSize < Word.count) :
        (draft text).size = (output text).utf8ByteSize :=
      (hcounts text).size_eq.trans (Nat.mod_eq_of_lt hsize)
    have hfirst : firstTooLong? 0 (texts.map (·.map draft)) =
        some (0 + row, (draft text).size) := by
      refine firstTooLong?_eq_some (getElem?_map_some.mpr ⟨text, htext, rfl⟩) ?_ ?_
      · rwa [hexact hsize]
      · intro earlier hearlier other hother
        obtain ⟨before, htext, rfl⟩ := getElem?_map_some.mp hother
        have hshort := hbefore earlier hearlier _ (getElem?_map_some.mpr ⟨before, htext, rfl⟩)
        rwa [hexact (Nat.lt_of_le_of_lt hshort (by decide))]
    rw [build_of_some hfirst, Nat.zero_add, hexact hsize]
  writtenBeyond row hbeyond := by
    have hbuilt := built (texts.map (·.map draft))
    rw [hbeyond] at hbuilt
    cases hbuilt with
    | writtenBeyond _ _ hoverrun =>
        rw [overrun_filling, List.findIdx?_eq_some_iff_getElem] at hoverrun
        obtain ⟨hrow, hany, -⟩ := hoverrun
        obtain ⟨other, hother, hbeyond⟩ := (Option.any_eq_true _ _).mp hany
        obtain ⟨text, htext, rfl⟩ := getElem?_map_some.mp
          (List.getElem?_eq_some_iff.mpr ⟨hrow, hother⟩)
        refine ⟨output text, getElem?_map_some.mpr ⟨text, htext, rfl⟩, ?_⟩
        by_contra hsize
        have hinside := ((hcounts text).fills (Nat.lt_of_not_le hsize)).beyond
        exact absurd hbeyond (ne_true_of_eq_false hinside)

theorem beyond_eq_of_counts {draft other : Draft} {text : String} (hcounts : draft.Counts text)
    (hother : other.Counts text) : draft.beyond = other.beyond := by
  by_cases hsize : text.utf8ByteSize < Word.count
  · rw [(hcounts.fills hsize).beyond, (hother.fills hsize).beyond]
  · rw [hcounts.beyond (Nat.le_of_not_lt hsize), hother.beyond (Nat.le_of_not_lt hsize)]

theorem firstTooLong?_congr {draft other : String → Draft}
    (hsize : ∀ text, (draft text).size = (other text).size) (row : Nat) :
    firstTooLong? row (texts.map (·.map draft)) = firstTooLong? row (texts.map (·.map other)) := by
  induction texts generalizing row with
  | nil => rfl
  | cons first rest ih =>
      cases first with
      | none => exact ih (row + 1)
      | some text =>
          simp only [List.map_cons, Option.map_some, firstTooLong?, hsize, ih]

/-- What is built depends only on the texts that are counted, even where one of them is written
beyond its range. -/
theorem build_eq_of_counts {other : String → Draft}
    (hcounts : ∀ text, (draft text).Counts (output text))
    (hother : ∀ text, (other text).Counts (output text)) :
    build (texts.map (·.map draft)) = build (texts.map (·.map other)) := by
  by_cases hsmall : ∀ text, some text ∈ texts.map (·.map output) → text.utf8ByteSize < Word.count
  · rw [build_eq_ofTexts (fills_of_counts hcounts hsmall),
      build_eq_ofTexts (fills_of_counts hother hsmall)]
  · have hsize (text : String) : (draft text).size = (other text).size :=
      (hcounts text).size_eq.trans (hother text).size_eq.symm
    have hsizes : sizes (texts.map (·.map draft)) = sizes (texts.map (·.map other)) := by
      rw [sizes, sizes, List.map_map, List.map_map]
      refine List.map_congr_left fun text? _ => ?_
      cases text? with
      | none => rfl
      | some text => exact hsize text
    have hnulls : (texts.map (·.map draft)).countP (·.isNone) =
        (texts.map (·.map other)).countP (·.isNone) := by
      simp only [List.countP_map, Function.comp_def, Option.isNone_map]
    have hbeyond : (filling (texts.map (·.map draft))).overrun =
        (filling (texts.map (·.map other))).overrun := by
      simp only [overrun_filling, List.findIdx?_map, Function.comp_def, Option.any_map,
        fun text => beyond_eq_of_counts (hcounts text) (hother text)]
    cases hfirst : firstTooLong? 0 (texts.map (·.map other)) with
    | some found =>
        rw [build_of_some hfirst, build_of_some ((firstTooLong?_congr hsize 0).trans hfirst)]
    | none =>
        rw [build_of_none hfirst, build_of_none ((firstTooLong?_congr hsize 0).trans hfirst), hsizes,
          hnulls]
        cases hoverrun : (filling (texts.map (·.map other))).overrun with
        | none => exact absurd (lt_count_of_overrun_filling hother hoverrun) hsmall
        | some row =>
            rw [hoverrun] at hbeyond
            rw [placed_of_overrun hbeyond, placed_of_overrun hoverrun]

end Counted

end Store

end TextColumns
