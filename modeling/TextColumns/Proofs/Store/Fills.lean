import TextColumns.Proofs.Store.Limits
import TextColumns.Proofs.Text.Boundary
import Mathlib.Data.List.Forall2

/-!
Drafts that fill their range.  What is built depends only on what the drafts ask for and write, and
drafts that write texts of the size that they ask for build the store of these texts.
-/

namespace TextColumns

def Text.copies (n : Nat) (text : String) : String :=
  String.join (List.replicate n text)

theorem Text.utf8ByteSize_copies (n : Nat) (text : String) :
    (copies n text).utf8ByteSize = n * text.utf8ByteSize := by
  induction n with
  | zero => exact (Nat.zero_mul _).symm
  | succ n ih =>
      rw [copies, List.replicate_succ, String.join_cons, String.utf8ByteSize_append, Nat.succ_mul,
        Nat.add_comm]
      exact congrArg (· + _) ih

namespace Writer

/-- Whether a way of writing puts a text behind what is written, wherever there is room for it. -/
structure Appends (write : Writer → Writer) (text : String) : Prop where
  eq : ∀ {capacity : Nat} {written : ByteArray}, written.size + text.utf8ByteSize ≤ capacity →
    write ⟨capacity, written, false⟩ = ⟨capacity, written ++ text.toByteArray, false⟩

theorem appends_nothing : Appends (fun writer => writer) "" where
  eq _ := congrArg (Writer.mk _ · false) ByteArray.append_empty.symm

theorem appends_push {bytes : ByteArray} {text : String} (hbytes : bytes = text.toByteArray) :
    Appends (·.push bytes) text where
  eq hfits := by
    rw [← String.size_toByteArray, ← hbytes] at hfits
    simp [Writer.push, hfits, ← hbytes]

theorem appends_pushText (text : String) : Appends (·.pushText text) text :=
  appends_push rfl

theorem appends_pushChar (c : Char) : Appends (·.pushChar c) (String.singleton c) :=
  appends_pushText (String.singleton c)

theorem Appends.append {first second : Writer → Writer} {text other : String}
    (hfirst : Appends first text) (hsecond : Appends second other) :
    Appends (fun writer => second (first writer)) (text ++ other) where
  eq hfits := by
    rw [String.utf8ByteSize_append] at hfits
    rw [hfirst.eq (by omega),
      hsecond.eq (by rw [ByteArray.size_append, String.size_toByteArray]; omega),
      String.toByteArray_append, ByteArray.append_assoc]

theorem appends_pushCopies (text : String) (n : Nat) :
    Appends (·.pushCopies text n) (Text.copies n text) := by
  induction n with
  | zero => exact appends_nothing
  | succ n ih =>
      rw [Text.copies, List.replicate_succ, String.join_cons]
      exact (appends_pushText text).append ih

theorem appends_pushChars (c : Char) (n : Nat) :
    Appends (·.pushChars c n) (Text.copies n (String.singleton c)) where
  eq {capacity written} hfits := by
    have hroom : written.size + n * c.utf8Size ≤ capacity := by
      rwa [Text.utf8ByteSize_copies, String.utf8ByteSize_singleton] at hfits
    simp only [pushChars, hroom, if_true]
    exact (appends_pushCopies (String.singleton c) n).eq hfits

theorem appends_foldl {write : Writer → α → Writer} {text : α → String} {items : List α}
    (hwrite : ∀ item ∈ items, Appends (write · item) (text item)) :
    Appends (fun writer => items.foldl write writer) (String.join (items.map text)) := by
  induction items with
  | nil => exact appends_nothing
  | cons item items ih =>
      obtain ⟨hitem, hitems⟩ := List.forall_mem_cons.mp hwrite
      rw [List.map_cons, String.join_cons]
      exact hitem.append (ih hitems)

theorem appends_pushEach (chars : List Char) :
    Appends (fun writer => chars.foldl pushChar writer) (String.ofList chars) := by
  have hchars : String.join (chars.map String.singleton) = String.ofList chars := by
    rw [← String.toList_inj, String.toList_join, String.toList_ofList, List.flatMap_map]
    simp only [String.toList_singleton, List.flatMap_singleton']
  rw [← hchars]
  exact appends_foldl fun c _ => appends_pushChar c

end Writer

/-- A step for which something has to be so: a difference, a part of a text, or an entry of a
list. -/
inductive PartialStep where
  | subtract (minuend subtrahend : Nat)
  | cut (text : String) (extent : Text.Extent)
  | entry (index size : Nat)

def PartialStep.Defined : PartialStep → Prop
  | .subtract minuend subtrahend => subtrahend ≤ minuend
  | .cut text extent => extent.Within text ∧ extent.start ≤ extent.stop
  | .entry index size => index < size

namespace Draft

/-- Whether a draft asks for the size of a text and fills its range with the text: the writer does
not run past the range, and it leaves nothing of the range as it was. -/
structure Fills (draft : Draft) (text : String) : Prop where
  size_eq : draft.size = text.utf8ByteSize
  written_eq : draft.written.written = text.toByteArray
  inside : draft.written.overrun = false
  full : draft.written.isFull = true
  range_eq : ∀ background, draft.written.range background = text.toByteArray

/-- A draft that writes at once what another one has written. -/
def settled (draft : Draft) : Draft :=
  ⟨draft.size, fun _ => draft.written⟩

variable {draft : Draft} {text : String}

theorem fills_of_appends (hsize : draft.size = text.utf8ByteSize)
    (hwrite : Writer.Appends draft.write text) : draft.Fills text := by
  have hempty : ByteArray.empty.size + text.utf8ByteSize ≤ text.utf8ByteSize := by simp
  have hwritten : draft.written = ⟨text.utf8ByteSize, text.toByteArray, false⟩ := by
    rw [written, Writer.ofCapacity, hsize, hwrite.eq hempty, ByteArray.empty_append]
  exact ⟨hsize, by rw [hwritten], by rw [hwritten], by simp [hwritten, Writer.isFull],
    fun background => by simp [hwritten, Writer.range]⟩

theorem Fills.settled_eq (hfills : draft.Fills text) : draft.settled = (ofText text).settled := by
  have hcapacity : draft.written.capacity = text.utf8ByteSize := by
    have hfull := hfills.full
    rw [Writer.isFull, hfills.written_eq, Bool.and_eq_true, beq_iff_eq,
      String.size_toByteArray] at hfull
    exact hfull.2.symm
  have hwritten : draft.written = (ofText text).written := by
    rw [written_ofText, ← hcapacity, ← hfills.written_eq, ← hfills.inside]
  rw [settled, settled, hwritten, hfills.size_eq, size_ofText]

end Draft

namespace Store

variable {drafts : List (Option Draft)} {texts : List (Option String)}

theorem fill_settled (filling : Filling) (row : Nat) :
    fill filling row (drafts.map (·.map Draft.settled)) = fill filling row drafts := by
  induction drafts generalizing filling row with
  | nil => rfl
  | cons first rest ih =>
      cases first with
      | none => exact ih filling (row + 1)
      | some draft => exact ih (filling.add row draft) (row + 1)

theorem layOut_settled (starts : Array Nat) :
    layOut (drafts.map (·.map Draft.settled)) starts = layOut drafts starts := by
  rw [layOut, ← List.map_toArray, Array.zipWith_map_right]
  congr 1
  funext start draft
  cases draft <;> rfl

theorem sizing_settled (row : Nat) (known : Array Nat) (nullCount : Nat) :
    sizing row known nullCount (drafts.map (·.map Draft.settled)) =
      sizing row known nullCount drafts := by
  induction drafts generalizing row known nullCount with
  | nil => rfl
  | cons first rest ih =>
      cases first with
      | none => exact ih (row + 1) _ _
      | some draft => simp only [List.map_cons, Option.map_some, sizing, ih, Draft.settled]

theorem build_settled : build (drafts.map (·.map Draft.settled)) = build drafts := by
  simp only [build, placed, sizing_settled, fill_settled, layOut_settled]

theorem build_eq_ofTexts (hfills : List.Forall₂ (Option.Rel Draft.Fills) drafts texts) :
    build drafts = ofTexts texts := by
  rw [ofTexts, ← build_settled, ← @build_settled (texts.map _)]
  congr 1
  induction hfills with
  | nil => rfl
  | cons hfirst _ ih =>
      rw [List.map_cons, List.map_cons, List.map_cons, ih]
      cases hfirst with
      | none => rfl
      | some hdraft => exact congrArg (some · :: _) hdraft.settled_eq

theorem exists_build_of_fills (hfills : List.Forall₂ (Option.Rel Draft.Fills) drafts texts)
    (hfits : FitsLimits texts) :
    ∃ store, build drafts = .ok store ∧ store.texts.toList = texts := by
  obtain ⟨store, hstore⟩ := ofTexts_ok_iff.mpr hfits
  exact ⟨store, (build_eq_ofTexts hfills).trans hstore, texts_ofTexts hstore⟩

theorem map_texts_eq_self {f : String → String}
    (hf : ∀ text, some text ∈ texts → f text = text) : texts.map (·.map f) = texts := by
  refine (List.map_congr_left fun text? htext => ?_).trans (List.map_id texts)
  cases text? with
  | none => rfl
  | some text => exact congrArg some (hf text htext)

end Store

theorem forall₂_map_rows {r : β → γ → Prop} {rows : List (Option α)} {f : α → β} {g : α → γ}
    (hrow : ∀ row, some row ∈ rows → r (f row) (g row)) :
    List.Forall₂ (Option.Rel r) (rows.map (·.map f)) (rows.map (·.map g)) := by
  rw [List.forall₂_map_left_iff, List.forall₂_map_right_iff, List.forall₂_same]
  intro row? hmem
  cases row? with
  | none => exact .none
  | some row => exact .some (hrow row hmem)

end TextColumns
