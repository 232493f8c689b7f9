import TextColumns.Proofs.Matching.Literal
import TextColumns.Transform.Replace

/-!
Literal replacement, repetition and the mapping of characters: what is counted for an element is what
is written for it.
-/

namespace TextColumns.Transform

open Matching (OrderedIn)
open Regex (occurrence)
open Text (Extent)

def foundOccurrences (target : String) (limit : Option Nat) (text : String) : List Extent :=
  Text.upTo limit ((Text.occurrences text.toByteArray (.ofText target)).map (occurrence target))

theorem orderedIn_occurrences {target : String} (htarget : target ≠ "") {text : String}
    {places : List Nat} (hapart : places.Pairwise fun a b => a + target.utf8ByteSize ≤ b)
    (hstands : ∀ place ∈ places,
      Text.standsAt text.toByteArray target.toByteArray place = true) :
    OrderedIn text 0 (places.map (occurrence target)) := by
  have hwithin : ∀ extent ∈ places.map (occurrence target), extent.Within text := by
    refine List.forall_mem_map.mpr fun place hplace => ?_
    obtain ⟨hstart, hstop⟩ := Text.isBoundary_of_standsAt htarget (hstands place hplace)
    exact ⟨hstart, hstop⟩
  have hascending : Text.Ascending (places.map (occurrence target)) := by
    refine List.pairwise_map.mpr (hapart.imp fun hle => ?_)
    exact ⟨Nat.le_trans (Nat.le_add_right _ _) hle, hle⟩
  have hordered : Matcher.OrderedUpTo text.utf8ByteSize (places.map (occurrence target)) :=
    ⟨hascending, List.forall_mem_map.mpr fun _ _ => Nat.le_add_right _ _,
      fun extent hextent => (hwithin extent hextent).stop.le⟩
  exact Matching.orderedIn_of_orderedUpTo hordered hwithin (Text.isBoundary_zero text)
    fun _ _ => Nat.zero_le _

theorem orderedIn_foundOccurrences {target : String} (htarget : target ≠ "") (limit : Option Nat)
    (text : String) : OrderedIn text 0 (foundOccurrences target limit text) := by
  rw [foundOccurrences, Matching.upTo_map]
  exact orderedIn_occurrences htarget
    ((Text.pairwise_occurrences text.toByteArray (.ofText target)).sublist (Text.upTo_sublist _ _))
    fun place hplace => Text.standsAt_of_mem_occurrences (Text.mem_of_mem_upTo hplace)

theorem counts_replaceDraft {target : String} (htarget : target ≠ "") (replacement : String)
    (limit : Option Nat) (text : String) :
    (replaceDraft (.ofText target) replacement limit text).Counts
      (Matching.joinedFrom replacement text 0 (foundOccurrences target limit text)) := by
  rw [Matching.replaceDraft_eq]
  exact (orderedIn_foundOccurrences htarget limit text).counts_replaceDraft replacement

theorem fills_repeatDraft {times : Nat} {text : String}
    (hfits : (Text.copies times text).utf8ByteSize ≤ Store.maxElementSize) :
    (repeatDraft times text).Fills (Text.copies times text) := by
  have hsize := Text.utf8ByteSize_copies times text
  refine Draft.fills_of_appends ?_ ?_
  · rw [hsize] at hfits ⊢
    rw [repeatDraft, Nat.mul_comm]
    exact Nat.min_eq_left (Nat.le_trans hfits (by decide))
  · by_cases hempty : text.isEmpty = true
    · -- Nothing has to be written for the empty text, however often it is repeated.
      have hnothing : Text.copies times text = "" := by
        rw [String.isEmpty_iff.mp hempty] at hsize ⊢
        exact String.utf8ByteSize_eq_zero_iff.mp hsize
      simp only [repeatDraft, hempty, if_true, hnothing]
      exact Writer.appends_nothing
    · simp only [repeatDraft, hempty]
      exact Writer.appends_pushCopies text times

def mapped (table : CharTable) (text : String) : String :=
  String.ofList (mappedChars (CharMap.ofTable table) text)

theorem fills_mapCharsDraft (table : CharTable) (text : String) :
    (mapCharsDraft (CharMap.ofTable table) text).Fills (mapped table text) :=
  Draft.fills_of_appends (Text.utf8ByteSize_ofList _).symm (Writer.appends_pushEach _)

end TextColumns.Transform
