import TextColumns.Measure.Occurrence
import TextColumns.Proofs.Matching.Columns
import TextColumns.Proofs.Regex.Literal
import TextColumns.Transform.Replace

/-!
A text and the pattern that it becomes by escaping.  Both are sought in their own ways, the one
byte by byte and the other character by character, and tell the same of every store.
-/

namespace TextColumns.Matching

open Pattern (Escaping Flags escaped)
open Regex (occurrence)
open Text (Extent Needle)

section Columns

variable {store : Store}

theorem numbers_eq [Inhabited α] (hvalid : store.Valid) (f : String → α) :
    Measure.numbers store (fun text => some (f text)) =
      ⟨store.texts.map fun text => (text.map f).getD default, store.validity⟩ := by
  have hmarks : (store.texts.map fun text => text.bind fun text => some (f text)).map (·.isSome) =
      store.texts.map (·.isSome) := by
    rw [Array.map_map]
    refine Array.map_congr_left fun text _ => ?_
    cases text <;> rfl
  rw [Measure.numbers, Column.ofOptions, hmarks, ← hvalid.validity_eq, Array.map_map]
  congr 1
  refine Array.map_congr_left fun text _ => ?_
  cases text <;> rfl

theorem positions_eq (store : Store) (f : String → Option Nat) :
    Measure.positions store f =
      Measure.numbers store fun text => some ((f text).elim Measure.notFound toInt32) := by
  rw [Measure.positions]
  congr 1
  funext text
  cases f text <;> rfl

end Columns

section Escaped

variable {marked : Char → Bool} {needle : String} {regex : Regex} (hmarked : Escaping marked)
  (hneedle : needle ≠ "")
  (hcompile : Regex.compile (escaped marked needle) Flags.none = .ok regex)
include hmarked hneedle hcompile

theorem find_escaped (text : String) :
    regex.find text = (Text.findOffset text (.ofText needle)).map (occurrence needle) := by
  rw [← Regex.head?_extentsIn hcompile, Regex.extentsIn_escaped hmarked hneedle hcompile,
    List.head?_map, Text.findOffset, Text.findBytes_eq]

theorem isMatch_escaped (text : String) :
    (regex.matcher.isMatch text).1 = Text.contains text (.ofText needle) := by
  rw [Regex.isMatch_eq hcompile, find_escaped hmarked hneedle hcompile, Option.isSome_map]
  rfl

theorem isMatchAtStart_escaped (text : String) :
    (regex.matcher.isMatchAtStart text).1 = Text.startsWith text (.ofText needle) := by
  rw [Regex.isMatchAtStart_eq hcompile, find_escaped hmarked hneedle hcompile, Option.any_map]
  exact Text.any_findBytes_zero text.toByteArray needle.toByteArray

theorem countMatches_escaped (text : String) :
    (regex.matcher.countMatches text).1 = Text.count text (.ofText needle) := by
  have hnonempty : (Needle.ofText needle).bytes.isEmpty = false := by
    rw [ByteArray.isEmpty, beq_eq_false_iff_ne]
    exact fun hzero => hneedle (String.utf8ByteSize_eq_zero_iff.mp hzero)
  have hcount := (Matcher.ready_ofProgram regex.program).countMatches_eq
    (Regex.check_of_compile hcompile) (Regex.advances_of_compile hcompile) text
  rw [← Program.length_extentsIn, Regex.extentsIn_escaped hmarked hneedle hcompile,
    List.length_map] at hcount
  rw [Text.count, hnonempty]
  exact hcount

end Escaped

theorem piecesFrom_eq (needle : String) (stop start : Nat) (places : List Nat) :
    Text.piecesFrom needle.utf8ByteSize stop start places =
      between stop start (places.map (occurrence needle)) := by
  induction places generalizing start with
  | nil => rfl
  | cons place rest ih => rw [Text.piecesFrom, ih, List.map_cons, between, occurrence]

theorem upTo_map {α β : Type} (f : α → β) (limit : Option Nat) (found : List α) :
    Text.upTo limit (found.map f) = (Text.upTo limit found).map f := by
  cases limit with
  | none => rfl
  | some n => exact (List.map_take ..).symm

theorem writeReplaced_eq (bytes : ByteArray) (needle replacement : String) (last : Nat)
    (writer : Writer) (places : List Nat) :
    Transform.writeReplaced bytes needle.utf8ByteSize replacement last writer places =
      writeReplaced bytes replacement last writer (places.map (occurrence needle)) := by
  induction places generalizing last writer with
  | nil => rfl
  | cons place rest ih =>
      rw [Transform.writeReplaced, ih, List.map_cons, writeReplaced]
      rfl

theorem total_sizes (needle : String) (places : List Nat) :
    total ((places.map (occurrence needle)).map Extent.size) =
      places.length * needle.utf8ByteSize := by
  induction places with
  | nil => exact (Nat.zero_mul _).symm
  | cons place rest ih =>
      rw [List.map_cons, List.map_cons, total_cons, ih, List.length_cons, Nat.succ_mul, Nat.add_comm,
        Extent.size, occurrence, Nat.add_sub_cancel_left]

theorem replaceDraft_eq (needle replacement text : String) (limit : Option Nat) :
    Transform.replaceDraft (.ofText needle) replacement limit text =
      replaceDraft replacement text (Text.upTo limit
        ((Text.occurrences text.toByteArray (.ofText needle)).map (occurrence needle))) := by
  rw [upTo_map, Transform.replaceDraft, Transform.replacedPlaces, replaceDraft, total_sizes,
    List.length_map]
  congr 1
  funext writer
  exact writeReplaced_eq text.toByteArray needle replacement 0 writer _

/-- What a text and a pattern tell of a store is the same, and missing where the elements are. -/
structure SameAs (store : Store) (needle : String) (regex : Regex) : Prop where
  contains : Measure.contains store needle = contains store regex
  startsWith : Measure.startsWith store needle = matchesStart store regex
  count : Measure.count store needle = count store regex
  find : ∀ row, (Measure.find store needle).get? row =
    ((find store regex).get? row).map fun found => found.elim Measure.notFound (·.position)
  split : ∀ limit, ListColumn.split store (some needle) limit = split store regex limit
  replace : ∀ replacement limit,
    Transform.replace store needle replacement limit = replace store regex replacement limit
  contains_missing : ∀ row,
    (Measure.contains store needle).get? row = none ↔ store.text? row = none
  startsWith_missing : ∀ row,
    (Measure.startsWith store needle).get? row = none ↔ store.text? row = none
  count_missing : ∀ row, (Measure.count store needle).get? row = none ↔ store.text? row = none
  find_missing : ∀ row, (Measure.find store needle).get? row = none ↔ store.text? row = none
  split_missing : ∀ limit column, ListColumn.split store (some needle) limit = .ok column →
    ∀ row, row < store.size → (column.row? row = none ↔ store.text? row = none)
  replace_missing : ∀ replacement limit replaced,
    Transform.replace store needle replacement limit = .ok replaced →
      ∀ row, row < store.size → (replaced.text? row = none ↔ store.text? row = none)

section Columns

variable {store : Store} {marked : Char → Bool} {needle : String} {regex : Regex}

theorem answers_eq {pattern : String} {flags : Flags}
    (hcompile : Regex.compile pattern flags = .ok regex) {f : Matcher → String → Bool × Matcher}
    (hcall : RowCall f) {p : String → Bool} (hp : ∀ text, (f regex.matcher text).1 = p text) :
    Measure.answers store p = answers store (mapRows store regex f) := by
  rw [Measure.answers, answers, mapRows_eq hcompile hcall, List.map_map]
  congr 1
  rw [← Array.toList_inj, Array.toList_map]
  refine List.map_congr_left fun text? _ => ?_
  cases text? with
  | none => rfl
  | some text => exact (hp text).symm

variable (hmarked : Escaping marked) (hneedle : needle ≠ "")
  (hcompile : Regex.compile (escaped marked needle) Flags.none = .ok regex)
include hmarked hneedle hcompile

theorem contains_eq : Measure.contains store needle = contains store regex :=
  answers_eq hcompile .contains (isMatch_escaped hmarked hneedle hcompile)

theorem startsWith_eq : Measure.startsWith store needle = matchesStart store regex :=
  answers_eq hcompile .matchesStart (isMatchAtStart_escaped hmarked hneedle hcompile)

theorem count_eq (hvalid : store.Valid) : Measure.count store needle = count store regex := by
  rw [Measure.count, Measure.counts, numbers_eq hvalid, count, mapRows_eq hcompile .count,
    List.map_map]
  congr 1
  rw [← Array.toList_inj, Array.toList_map]
  refine List.map_congr_left fun text? _ => ?_
  cases text? with
  | none => rfl
  | some text =>
      exact congrArg toInt32 (countMatches_escaped hmarked hneedle hcompile text).symm

theorem find_eq (hvalid : store.Valid) (row : Nat) :
    (Measure.find store needle).get? row =
      ((find store regex).get? row).map fun found => found.elim Measure.notFound (·.position) := by
  rw [find_get? hvalid hcompile, Option.map_map, Measure.find, positions_eq, numbers_eq hvalid,
    hvalid.get?_answers (Array.toList_map ..)]
  congr 1
  funext text
  rw [Function.comp_apply, find_escaped hmarked hneedle hcompile, Text.find]
  cases Text.findOffset text (.ofText needle) <;> rfl

theorem split_eq (limit : Option Nat) :
    ListColumn.split store (some needle) limit = split store regex limit := by
  have hseparator : (some needle == some "") = false := by simpa using hneedle
  rw [ListColumn.split, ListColumn.checkSeparator, hseparator, split, pieces_eq hcompile]
  refine congrArg (ListColumn.ofExtents store) (List.map_congr_left fun text? _ => ?_)
  refine congrArg (Option.map · text?) ?_
  funext text
  rw [Regex.extentsIn_escaped hmarked hneedle hcompile, upTo_map]
  exact piecesFrom_eq needle _ 0 _

theorem replace_escaped (replacement : String) (limit : Option Nat) :
    Transform.replace store needle replacement limit = replace store regex replacement limit := by
  have hnonempty : needle.isEmpty = false := by simpa using hneedle
  have hdraft := funext fun text => replaceDraft_eq needle replacement text limit
  rw [Transform.replace, replace, hnonempty, Bool.false_or, Store.transform, extents_eq hcompile,
    drafts_eq]
  simp only [Regex.extentsIn_escaped hmarked hneedle hcompile]
  rw [hdraft]

end Columns

/-- An escaped text tells of every store, as a pattern, what the text itself tells. -/
theorem escaped_sameAs {store : Store} {marked : Char → Bool} {needle : String} {regex : Regex}
    (hvalid : store.Valid) (hmarked : Escaping marked) (hneedle : needle ≠ "")
    (hcompile : Regex.compile (escaped marked needle) Flags.none = .ok regex) :
    SameAs store needle regex where
  contains := contains_eq hmarked hneedle hcompile
  startsWith := startsWith_eq hmarked hneedle hcompile
  count := count_eq hmarked hneedle hcompile hvalid
  find := find_eq hmarked hneedle hcompile hvalid
  split := split_eq hmarked hneedle hcompile
  replace := replace_escaped hmarked hneedle hcompile
  contains_missing row := by
    rw [contains_eq hmarked hneedle hcompile, contains_get? hvalid hcompile, Option.map_eq_none_iff]
  startsWith_missing row := by
    rw [startsWith_eq hmarked hneedle hcompile, matchesStart_get? hvalid hcompile,
      Option.map_eq_none_iff]
  count_missing row := by
    rw [count_eq hmarked hneedle hcompile hvalid, count_get? hvalid hcompile,
      Option.map_eq_none_iff]
  find_missing row := by
    rw [find_eq hmarked hneedle hcompile hvalid, Option.map_eq_none_iff, find_get? hvalid hcompile,
      Option.map_eq_none_iff]
  split_missing := by
    intro limit column hsplit row hrow
    rw [split_eq hmarked hneedle hcompile] at hsplit
    rw [split_row? hvalid hcompile hrow hsplit, Option.map_eq_none_iff]
  replace_missing := by
    intro replacement limit replaced hreplace row hrow
    rw [replace_escaped hmarked hneedle hcompile] at hreplace
    rw [replace_text? hcompile hreplace hrow, Option.map_eq_none_iff]

theorem escaped_sameAs_overlapping :
    let store := Store.ofCells ⟨⟨#[195, 164, 46, 195, 164, 46, 195, 164]⟩, none⟩
      #[⟨0, some 8⟩, ⟨8, none⟩]
    let regex : Regex := ⟨"ä\\.ä", Flags.none,
      ⟨#[.save 0, .char 'ä' false, .char '.' false, .char 'ä' false, .save 1, .accept], #[], 2, 0⟩⟩
    Store.ofTexts [some "ä.ä.ä", none] = .ok store ∧ store.Valid ∧ Escaping Pattern.isEscapable ∧
      "ä.ä" ≠ "" ∧
      Regex.compile (escaped Pattern.isEscapable "ä.ä") Flags.none = .ok regex ∧
      SameAs store "ä.ä" regex ∧ (Measure.count store "ä.ä").get? 0 = some 1 := by
  intro store regex
  have hbuild : Store.ofTexts [some "ä.ä.ä", none] = .ok store := by with_unfolding_all rfl
  have hvalid : store.Valid := Store.valid_of_build hbuild
  have hmarked : Escaping Pattern.isEscapable := Pattern.escaping_isEscapable
  have hneedle : "ä.ä" ≠ "" := by decide
  have hcompile : Regex.compile (escaped Pattern.isEscapable "ä.ä") Flags.none = .ok regex := by
    decide +kernel
  have hcount : (Measure.count store "ä.ä").get? 0 = some 1 := by decide +kernel
  exact ⟨hbuild, hvalid, hmarked, hneedle, hcompile,
    escaped_sameAs hvalid hmarked hneedle hcompile, hcount⟩

end TextColumns.Matching
