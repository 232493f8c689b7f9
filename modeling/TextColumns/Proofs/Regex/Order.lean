import TextColumns.Proofs.Pattern.Instructions
import TextColumns.Proofs.Pieces.Order
import TextColumns.Proofs.Regex.Slots

namespace TextColumns

open Pattern (StartsOnce)
open Text (Ascending Cursor Extent)

namespace Search

variable {program : Program} {text : String} {cursor : Cursor} {slots : Slots}

def Slots.StartsWithin (first here : Nat) (slots : Slots) : Prop :=
  ∀ start, slots[0]? = some (some start) → first ≤ start ∧ start ≤ here ∧
    ∀ stop, slots[1]? = some (some stop) → start ≤ stop

theorem Slots.StartsWithin.mono {first here further : Nat}
    (hslots : slots.StartsWithin first here) (hle : here ≤ further) :
    slots.StartsWithin first further := fun start hstart =>
  have ⟨hfirst, hhere, hstop⟩ := hslots start hstart
  ⟨hfirst, Nat.le_trans hhere hle, hstop⟩

theorem Slots.StartsWithin.recorded {first : Nat} {instruction : Instruction}
    (hslots : slots.StartsWithin first cursor.offset) (hspares : instruction.SparesFirst) :
    (recorded cursor slots instruction).StartsWithin first cursor.offset := by
  fun_cases Search.recorded cursor slots instruction with
  | case1 slot =>
      intro start hstart
      rw [Array.getElem?_setIfInBounds_ne hspares] at hstart
      obtain ⟨hfirst, hhere, hstop⟩ := hslots start hstart
      refine ⟨hfirst, hhere, fun stop hwritten => ?_⟩
      rw [Array.getElem?_setIfInBounds] at hwritten
      split at hwritten
      · split at hwritten
        · cases hwritten
          exact hhere
        · cases hwritten
      · exact hstop stop hwritten
  | case2 => exact hslots

theorem address_ne_zero_of_mem_moves {address : Nat} {instruction : Instruction}
    {place : Nat × Cursor} (hspares : instruction.SparesFirst)
    (hplace : place ∈ moves program cursor address instruction) : place.1 ≠ 0 := by
  cases instruction with
  | jump target => exact List.mem_singleton.mp hplace ▸ hspares
  | split primary secondary =>
      rcases List.mem_cons.mp hplace with rfl | hplace
      · exact hspares.1
      · exact List.mem_singleton.mp hplace ▸ hspares.2
  | save _ | assertion _ | char _ _ | any _ | oneOf _ _ | accept =>
      rw [address_of_mem_moves (by simp) (by simp) hplace]
      exact Nat.succ_ne_zero address

/-- Threads before the first instruction, and threads that have recorded where they started. -/
def Visit.StartsWithin (program : Program) (first : Nat) (visit : Visit) : Prop :=
  (∃ place, first ≤ place.offset ∧ visit = startVisit program place) ∨
    visit.address ≠ 0 ∧ visit.slots.StartsWithin first visit.cursor.offset

theorem Visit.onward_cases (hprogram : StartsOnce program) {visit next : Visit}
    (hnext : next ∈ visit.onward program) :
    next.address ≠ 0 ∧
      (visit.address = 0 ∧ next.cursor = visit.cursor ∧
          next.slots = visit.slots.setIfInBounds 0 (some visit.cursor.offset) ∨
        visit.address ≠ 0 ∧ ∃ instruction : Instruction, instruction.SparesFirst ∧
          next.slots = recorded visit.cursor visit.slots instruction) := by
  obtain ⟨instruction, hinstruction, hplace, hslots⟩ := Visit.mem_onward.mp hnext
  rcases Nat.eq_zero_or_pos visit.address with haddress | hpositive
  · rw [haddress, hprogram.first] at hinstruction
    obtain rfl := Option.some.inj hinstruction
    obtain ⟨hnextAddress, hnextCursor⟩ := Prod.mk.inj (List.mem_singleton.mp hplace)
    exact ⟨hnextAddress ▸ Nat.succ_ne_zero _, .inl ⟨haddress, hnextCursor, hslots⟩⟩
  · obtain ⟨address, haddress⟩ := Nat.exists_eq_succ_of_ne_zero (Nat.ne_of_gt hpositive)
    rw [haddress] at hinstruction
    have hspares := hprogram.others hinstruction
    exact ⟨address_ne_zero_of_mem_moves hspares hplace,
      .inr ⟨Nat.ne_of_gt hpositive, instruction, hspares, hslots⟩⟩

theorem Visit.StartsWithin.onward (hprogram : StartsOnce program) {first : Nat}
    {visit next : Visit} (hvisit : visit.StartsWithin program first)
    (hnext : next ∈ visit.onward program) : next.StartsWithin program first := by
  have hoffset := Visit.offset_le_of_mem_onward hnext
  obtain ⟨hnonzero, ⟨haddress, hcursor, hslots⟩ | ⟨haddress, instruction, hspares, hslots⟩⟩ :=
    Visit.onward_cases hprogram hnext
  · rcases hvisit with ⟨place, hfirst, rfl⟩ | ⟨hother, -⟩
    · -- The thread comes from the first instruction, and has written no other slot.
      refine .inr ⟨hnonzero, fun start hstart => ?_⟩
      rw [hslots, Array.getElem?_setIfInBounds_self] at hstart
      split at hstart
      · cases hstart
        refine ⟨hfirst, Nat.le_of_eq (congrArg Cursor.offset hcursor.symm), fun stop hstop => ?_⟩
        rw [hslots, Array.getElem?_setIfInBounds_ne Nat.zero_ne_one] at hstop
        cases (Array.mem_replicate.mp (Array.mem_of_getElem? hstop)).2
      · cases hstart
    · exact absurd haddress hother
  · rcases hvisit with ⟨place, -, rfl⟩ | ⟨-, hstarts⟩
    · exact absurd hprogram.start haddress
    · refine .inr ⟨hnonzero, ?_⟩
      rw [hslots]
      exact (hstarts.recorded hspares).mono hoffset

theorem Slots.StartsWithin.group? {first here : Nat} (hslots : slots.StartsWithin first here)
    {extent : Extent} (hgroup : slots.group? 0 = some extent) :
    first ≤ extent.start ∧ extent.start ≤ extent.stop := by
  obtain ⟨hstart, hstop⟩ := Slots.exists_of_group? hgroup
  obtain ⟨hfirst, -, hle⟩ := hslots _ hstart
  exact ⟨hfirst, hle _ hstop⟩

/-- A match starts where it is sought or behind, and does not stop before it starts. -/
theorem Matched.ordered (hprogram : StartsOnce program)
    (hmatched : Matched program text cursor slots) {extent : Extent}
    (hgroup : slots.group? 0 = some extent) :
    cursor.offset ≤ extent.start ∧ extent.start ≤ extent.stop := by
  have hstarts : ∀ visit ∈ starts program ⟨false, false⟩ true false cursor,
      visit.StartsWithin program cursor.offset := by
    intro visit hvisit
    obtain ⟨place, hplace, rfl⟩ := on_of_mem_starts hmatched.on hvisit
    exact .inl ⟨place, hplace.2, rfl⟩
  obtain ⟨visit, hvisit, haccepts, rfl⟩ :=
    explore_induct (fun _ hvisit _ => hvisit.onward hprogram) hstarts hmatched.found
  rcases hvisit with ⟨place, -, rfl⟩ | ⟨-, hslots⟩
  · have hsave : program.instructions[program.start]? = some (.save 0) := by
      rw [hprogram.start, hprogram.first]
    rw [Visit.accepts, startVisit, hsave] at haccepts
    cases haccepts
  · exact hslots.group? hgroup

end Search

namespace Matcher

open Search (Matched Slots)

variable {matcher : Matcher} {program : Program} {text : String}

/-- Matches that come one behind the other, up to an offset. -/
structure OrderedUpTo (offset : Nat) (found : List Extent) : Prop where
  ascending : Ascending found
  proper : ∀ extent ∈ found, extent.start ≤ extent.stop
  behind : ∀ extent ∈ found, extent.stop ≤ offset

theorem OrderedUpTo.mono {offset further : Nat} {found : List Extent}
    (hfound : OrderedUpTo offset found) (hle : offset ≤ further) : OrderedUpTo further found :=
  ⟨hfound.ascending, hfound.proper, fun extent hextent =>
    Nat.le_trans (hfound.behind extent hextent) hle⟩

theorem OrderedUpTo.concat {offset : Nat} {found : List Extent} (hfound : OrderedUpTo offset found)
    {extent : Extent} (hstart : offset ≤ extent.start) (hproper : extent.start ≤ extent.stop) :
    OrderedUpTo extent.stop (found ++ [extent]) where
  ascending := by
    refine List.pairwise_append.mpr ⟨hfound.ascending, List.pairwise_singleton _ _, ?_⟩
    intro before hbefore behind hbehind
    obtain rfl := List.mem_singleton.mp hbehind
    have hstop := Nat.le_trans (hfound.behind before hbefore) hstart
    exact ⟨Nat.le_trans (hfound.proper before hbefore) hstop, hstop⟩
  proper := List.forall_mem_append.mpr ⟨hfound.proper, List.forall_mem_singleton.mpr hproper⟩
  behind := by
    refine List.forall_mem_append.mpr ⟨fun before hbefore => ?_,
      List.forall_mem_singleton.mpr (Nat.le_refl _)⟩
    exact Nat.le_trans (hfound.behind before hbefore) (Nat.le_trans hstart hproper)

theorem preserves_keep_ordered (hprogram : StartsOnce program) (text : String)
    (limit : Option Nat) : Preserves program text
      (fun offset (found : Array Slots) =>
        OrderedUpTo offset (found.toList.filterMap fun slots => slots.group? 0))
      (keep limit) := by
  intro cursor slots extent found hmatched hgroup hfound offset hoffset
  obtain ⟨hstart, hproper⟩ := hmatched.ordered hprogram hgroup
  have hlast : [slots].filterMap (fun slots => slots.group? 0) = [extent] := by simp [hgroup]
  constructor
  · exact hfound.mono (Nat.le_trans hstart (Nat.le_trans hproper hoffset))
  · beta_reduce
    rw [value_keep, Array.toList_push, List.filterMap_append, hlast]
    exact (hfound.concat hstart hproper).mono hoffset

theorem Ready.findAll_ordered (hready : matcher.Ready program) (hcheck : program.check = .ok ())
    (hprogram : StartsOnce program) (limit : Option Nat) (text : String) :
    ∃ offset, OrderedUpTo offset (matcher.findAll limit text).1 := by
  have hnothing : OrderedUpTo 0 [] := ⟨.nil, nofun, nofun⟩
  unfold Matcher.findAll
  split
  · exact ⟨0, hnothing⟩
  · exact (@Ready.visitMatches _ _ _ _ _ _ #[] (preserves_keep_ordered hprogram text limit) hready
      hcheck hnothing).1

end Matcher

end TextColumns
