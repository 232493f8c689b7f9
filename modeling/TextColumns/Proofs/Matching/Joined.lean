import TextColumns.Proofs.Matching.Rows
import TextColumns.Proofs.Matching.Reuse
import TextColumns.Proofs.Store.Overrun
import TextColumns.Proofs.Text.Position

/-!
Replacing matches is joining the pieces between them: what is drafted for an element writes the
joined text, in as many parts as there are.
-/

namespace TextColumns

open Text (Ascending Extent)

namespace Matching

variable {text replacement : String} {found : List Extent} {start : Nat}

/-- The pieces between matches with a text put between each two of them. -/
def joinedFrom (replacement text : String) (start : Nat) (found : List Extent) : String :=
  replacement.intercalate
    ((between text.utf8ByteSize start found).map fun piece => Text.between text piece.start piece.stop)

theorem joinedFrom_nil :
    joinedFrom replacement text start [] = Text.between text start text.utf8ByteSize :=
  String.intercalate_singleton

theorem joinedFrom_cons (extent : Extent) :
    joinedFrom replacement text start (extent :: found) =
      Text.between text start extent.start ++ replacement ++
        joinedFrom replacement text extent.stop found := by
  cases found <;> exact String.intercalate_cons_cons

inductive OrderedIn (text : String) : (start : Nat) → List Extent → Prop
  | nil {start : Nat} (hstart : Text.IsBoundary text start) : OrderedIn text start []
  | cons {start : Nat} {extent : Extent} {rest : List Extent} (hstart : Text.IsBoundary text start)
      (hextent : extent.Within text) (hle : start ≤ extent.start)
      (hproper : extent.start ≤ extent.stop) (hrest : OrderedIn text extent.stop rest) :
      OrderedIn text start (extent :: rest)

theorem OrderedIn.size_joinedFrom (hfound : OrderedIn text start found) (replacement : String) :
    start + total (found.map Extent.size) ≤ text.utf8ByteSize ∧
      start + total (found.map Extent.size) +
          (joinedFrom replacement text start found).utf8ByteSize =
        text.utf8ByteSize + found.length * replacement.utf8ByteSize := by
  induction hfound with
  | nil hstart =>
      have hle := hstart.le
      rw [joinedFrom_nil, Text.size_between hstart (Text.isBoundary_utf8ByteSize text)]
      simp only [List.map_nil, total_nil, List.length_nil]
      omega
  | @cons start extent rest hstart hextent hle hproper _ ih =>
      rw [joinedFrom_cons, String.utf8ByteSize_append, String.utf8ByteSize_append,
        Text.size_between hstart hextent.start, List.map_cons, total_cons, List.length_cons,
        Nat.succ_mul, Extent.size]
      omega

theorem OrderedIn.defined_between (hfound : OrderedIn text start found) :
    ∀ piece ∈ between text.utf8ByteSize start found, (PartialStep.cut text piece).Defined := by
  induction hfound with
  | nil hstart =>
      exact List.forall_mem_singleton.mpr ⟨⟨hstart, Text.isBoundary_utf8ByteSize text⟩, hstart.le⟩
  | cons hstart hextent hle _ _ ih =>
      exact List.forall_mem_cons.mpr ⟨⟨⟨hstart, hextent.start⟩, hle⟩, ih⟩

theorem OrderedIn.writes_writeReplaced (hfound : OrderedIn text start found)
    (replacement : String) :
    Writer.Writes (writeReplaced text.toByteArray replacement start · found)
      (joinedFrom replacement text start found) := by
  induction hfound with
  | nil hstart =>
      rw [joinedFrom_nil]
      refine Writer.writes_push ?_
      rw [Text.toByteArray_between hstart (Text.isBoundary_utf8ByteSize text),
        String.size_toByteArray]
  | cons hstart hextent _ _ _ ih =>
      rw [joinedFrom_cons]
      have hpiece := Writer.writes_push (Text.toByteArray_between hstart hextent.start).symm
      exact (hpiece.append (Writer.writes_pushText replacement)).append ih

theorem OrderedIn.counts_replaceDraft (hfound : OrderedIn text 0 found) (replacement : String) :
    (replaceDraft replacement text found).Counts (joinedFrom replacement text 0 found) where
  size_eq := by
    obtain ⟨hle, hsum⟩ := hfound.size_joinedFrom replacement
    rw [Nat.zero_add] at hle hsum
    have hexact : text.utf8ByteSize - total (found.map Extent.size) +
        found.length * replacement.utf8ByteSize =
          (joinedFrom replacement text 0 found).utf8ByteSize := by omega
    rw [replaceDraft, ← Word.difference_wrap, Word.wrap_difference_add hle, hexact]
  writes := hfound.writes_writeReplaced replacement

theorem orderedIn_of_orderedUpTo {offset : Nat} (hfound : Matcher.OrderedUpTo offset found)
    (hwithin : ∀ extent ∈ found, extent.Within text) (hstart : Text.IsBoundary text start)
    (hbehind : ∀ extent ∈ found, start ≤ extent.start) : OrderedIn text start found := by
  induction found generalizing start with
  | nil => exact .nil hstart
  | cons extent rest ih =>
      obtain ⟨hbefore, hascending⟩ := List.pairwise_cons.mp hfound.ascending
      obtain ⟨hproper, hothers⟩ := List.forall_mem_cons.mp hfound.proper
      obtain ⟨hextent, hrest⟩ := List.forall_mem_cons.mp hwithin
      exact .cons hstart hextent (hbehind extent (.head _)) hproper <|
        ih ⟨hascending, hothers, (List.forall_mem_cons.mp hfound.behind).2⟩ hrest hextent.stop
          fun next hnext => (hbefore next hnext).2

section Stores

variable {store : Store} {pattern : String} {flags : Pattern.Flags} {regex : Regex}

theorem orderedIn_extentsIn (hcompile : Regex.compile pattern flags = .ok regex)
    (limit : Option Nat) (text : String) :
    OrderedIn text 0 (Text.upTo limit (regex.program.extentsIn text)) := by
  have hcheck := Regex.check_of_compile hcompile
  have hprogram := Pattern.startsOnce_of_compile (Regex.program_of_compile hcompile)
  have hready := Matcher.ready_ofProgram regex.program
  obtain ⟨offset, hordered⟩ := hready.findAll_ordered hcheck hprogram limit text
  have hwithin := (hready.findAll hcheck limit text).1
  rw [hready.findAll_eq hcheck (Regex.advances_of_compile hcompile)] at hordered hwithin
  exact orderedIn_of_orderedUpTo hordered hwithin (Text.isBoundary_zero text)
    fun _ _ => Nat.zero_le _

theorem extents_eq (hcompile : Regex.compile pattern flags = .ok regex) (store : Store)
    (limit : Option Nat) :
    extents store regex limit =
      store.texts.toList.map
        (Option.map fun text => Text.upTo limit (regex.program.extentsIn text)) := by
  rw [extents, mapRows_eq hcompile (.extents limit)]
  refine List.map_congr_left fun text? _ => congrArg (Option.map · text?) ?_
  funext text
  exact (Matcher.ready_ofProgram regex.program).findAll_eq (Regex.check_of_compile hcompile)
    (Regex.advances_of_compile hcompile) _ _

theorem drafts_eq (store : Store) (found : String → β) (draft : String → β → Draft) :
    drafts store (store.texts.toList.map (Option.map found)) draft =
      store.texts.toList.map (Option.map fun text => draft text (found text)) := by
  rw [drafts, List.zipWith_map_right, List.zipWith_self]
  refine List.map_congr_left fun text? _ => ?_
  cases text? <;> rfl

theorem replace_eq (hcompile : Regex.compile pattern flags = .ok regex) (store : Store)
    (replacement : String) {limit : Option Nat} (hlimit : limit ≠ some 0) :
    replace store regex replacement limit =
      Store.build (store.texts.toList.map (Option.map fun text =>
        replaceDraft replacement text (Text.upTo limit (regex.program.extentsIn text)))) := by
  rw [replace, if_neg (by simpa using hlimit), extents_eq hcompile, drafts_eq]

/-- The texts with their matches replaced are stored unless one of them or all together are too
long. -/
theorem counted_replace (hcompile : Regex.compile pattern flags = .ok regex) (store : Store)
    (replacement : String) {limit : Option Nat} (hlimit : limit ≠ some 0) :
    Store.Counted
      (store.texts.toList.map (Option.map fun text =>
        joinedFrom replacement text 0 (Text.upTo limit (regex.program.extentsIn text))))
      (replace store regex replacement limit) := by
  rw [replace_eq hcompile store replacement hlimit]
  exact Store.counted_of_counts fun text =>
    (orderedIn_extentsIn hcompile limit text).counts_replaceDraft replacement

end Stores

end Matching

end TextColumns
