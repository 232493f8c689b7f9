import TextColumns.Scatter
import TextColumns.Basic
import Mathlib.Data.List.Induction
import Mathlib.Data.List.Nodup

/-!
What is left of writes to slots.  The first write to a slot is kept, and how many writes have no
effect does not depend on their order.  Writes to slots that differ are all kept, and then the slots
do not depend on the order either.
-/

namespace TextColumns

variable {α : Type} {values : Array α} {writes others : List (Option (Nat × α))}

/-- The slots that are written, once for each write. -/
def writtenSlots (writes : List (Option (Nat × α))) : List Nat :=
  writes.filterMap (·.map Prod.fst)

structure WritesOnce (writes : List (Option (Nat × α))) (count : Nat) : Prop where
  nodup : (writtenSlots writes).Nodup
  inside : ∀ slot ∈ writtenSlots writes, slot < count

def outsideWrites (count : Nat) (writes : List (Option (Nat × α))) : Nat :=
  (writtenSlots writes).countP (count ≤ ·)

def repeatedWrites (count : Nat) (writes : List (Option (Nat × α))) : Nat :=
  total ((List.range count).map fun slot => (writtenSlots writes).count slot - 1)

/-- What slots come to when writes are made in an order. -/
structure Scattered (values : Array α) (order : List (Option (Nat × α))) (final : Array α)
    (dropped : Nat) : Prop where
  dropped_eq : dropped = outsideWrites values.size order + repeatedWrites values.size order
  size_eq : final.size = values.size
  /-- The first write to a slot is the one that is kept. -/
  first : ∀ slot < values.size, slot ∈ writtenSlots order →
    ∃ earlier value later, order = earlier ++ some (slot, value) :: later ∧
      slot ∉ writtenSlots earlier ∧ final[slot]? = some value
  kept : ∀ slot, slot ∉ writtenSlots order → final[slot]? = values[slot]?

theorem mem_writtenSlots {slot : Nat} :
    slot ∈ writtenSlots writes ↔ ∃ value, some (slot, value) ∈ writes := by
  simp [writtenSlots]

theorem writtenSlots_concat_none (writes : List (Option (Nat × α))) :
    writtenSlots (writes ++ [none]) = writtenSlots writes := by
  simp [writtenSlots]

theorem writtenSlots_concat (writes : List (Option (Nat × α))) (target : Nat) (written : α) :
    writtenSlots (writes ++ [some (target, written)]) = writtenSlots writes ++ [target] := by
  simp [writtenSlots]

theorem outsideWrites_concat (count : Nat) (writes : List (Option (Nat × α))) (target : Nat)
    (written : α) :
    outsideWrites count (writes ++ [some (target, written)]) =
      outsideWrites count writes + if target < count then 0 else 1 := by
  rw [outsideWrites, writtenSlots_concat, List.countP_append, outsideWrites]
  split <;> simp <;> omega

theorem total_map_add_single (f : Nat → Nat) (target extra count : Nat) :
    total ((List.range count).map fun slot => f slot + if slot = target then extra else 0) =
      total ((List.range count).map f) + if target < count then extra else 0 := by
  induction count with
  | zero => rfl
  | succ count ih =>
      simp only [List.range_succ, List.map_append, List.map_singleton, total_append, total_cons,
        total_nil, ih]
      split <;> split <;> split <;> omega

theorem count_concat_sub (slots : List Nat) (slot target : Nat) :
    (slots ++ [target]).count slot - 1 =
      slots.count slot - 1 + if slot = target then (if target ∈ slots then 1 else 0) else 0 := by
  rw [List.count_append, List.count_singleton]
  by_cases heq : slot = target
  · subst heq
    by_cases hmem : slot ∈ slots
    · have hpos := List.count_pos_iff.mpr hmem
      simp only [beq_self_eq_true, if_true, if_pos hmem]
      omega
    · simp [List.count_eq_zero.mpr hmem, hmem]
  · simp [heq, Ne.symm heq]

theorem repeatedWrites_nil (count : Nat) :
    repeatedWrites count ([] : List (Option (Nat × α))) = 0 := by
  induction count with
  | zero => rfl
  | succ count ih =>
      rw [repeatedWrites, List.range_succ, List.map_append, total_append]
      exact congrArg (· + 0) ih

theorem repeatedWrites_concat (count : Nat) (writes : List (Option (Nat × α))) (target : Nat)
    (written : α) :
    repeatedWrites count (writes ++ [some (target, written)]) =
      repeatedWrites count writes +
        if target < count then (if target ∈ writtenSlots writes then 1 else 0) else 0 := by
  simp only [repeatedWrites, writtenSlots_concat, count_concat_sub]
  exact total_map_add_single _ _ _ _

theorem outsideWrites_perm (hperm : writes.Perm others) (count : Nat) :
    outsideWrites count writes = outsideWrites count others :=
  (hperm.filterMap _).countP_eq _

theorem repeatedWrites_perm (hperm : writes.Perm others) (count : Nat) :
    repeatedWrites count writes = repeatedWrites count others := by
  have hslots : (writtenSlots writes).Perm (writtenSlots others) := hperm.filterMap _
  simp only [repeatedWrites, hslots.count_eq]

namespace Slotted

variable {slotted : Slotted α} {slot : Nat} {value : α}

theorem write_open (hopen : slotted.claimed[slot]? = some false) :
    slotted.write (some (slot, value)) =
      ⟨slotted.values.setIfInBounds slot value, slotted.claimed.setIfInBounds slot true,
        slotted.dropped⟩ := by
  obtain ⟨values, claimed, dropped⟩ := slotted
  exact if_pos (beq_iff_eq.mpr hopen)

theorem write_closed (hclosed : slotted.claimed[slot]? ≠ some false) :
    slotted.write (some (slot, value)) = { slotted with dropped := slotted.dropped + 1 } := by
  obtain ⟨values, claimed, dropped⟩ := slotted
  exact if_neg (beq_iff_eq.not.mpr hclosed)

end Slotted

theorem scatter_concat (values : Array α) (writes : List (Option (Nat × α)))
    (slotWrite : Option (Nat × α)) :
    scatter values (writes ++ [slotWrite]) = (scatter values writes).write slotWrite := by
  rw [scatter, List.foldl_append]
  rfl

theorem claimed_scatter_eq_false_iff {slot : Nat} :
    (scatter values writes).claimed[slot]? = some false ↔
      slot < values.size ∧ slot ∉ writtenSlots writes := by
  induction writes using List.reverseRecOn with
  | nil => simp [scatter, Slotted.ofValues, writtenSlots, Array.getElem?_replicate]
  | append_singleton writes slotWrite ih =>
      rw [scatter_concat]
      cases slotWrite with
      | none => rwa [writtenSlots_concat_none]
      | some slotWrite =>
          obtain ⟨target, written⟩ := slotWrite
          rw [writtenSlots_concat, List.mem_append, List.mem_singleton, not_or]
          by_cases hopen : (scatter values writes).claimed[target]? = some false
          · rw [Slotted.write_open hopen, Array.getElem?_setIfInBounds]
            by_cases heq : target = slot
            · simp [heq]
            · rw [if_neg heq, ih]
              exact and_congr_right fun _ => (and_iff_left (Ne.symm heq)).symm
          · rw [Slotted.write_closed hopen, ih]
            have hne (hslot : slot < values.size ∧ slot ∉ writtenSlots writes) : slot ≠ target :=
              fun heq => hopen (heq ▸ ih.mpr hslot)
            exact ⟨fun hslot => ⟨hslot.1, hslot.2, hne hslot⟩, fun hslot => ⟨hslot.1, hslot.2.1⟩⟩

namespace Scattered

variable {order : List (Option (Nat × α))} {final : Array α} {dropped target : Nat} {written : α}

theorem nothing (values : Array α) : Scattered values [] values 0 where
  dropped_eq := (repeatedWrites_nil values.size).symm.trans (Nat.zero_add _).symm
  size_eq := rfl
  first _ _ hslot := by cases hslot
  kept _ _ := rfl

section Step

variable (hscattered : Scattered values order final dropped)
include hscattered

theorem pass : Scattered values (order ++ [none]) final dropped where
  dropped_eq := by
    rw [hscattered.dropped_eq, outsideWrites, repeatedWrites, outsideWrites, repeatedWrites,
      writtenSlots_concat_none]
  size_eq := hscattered.size_eq
  first slot hbound hslot := by
    rw [writtenSlots_concat_none] at hslot
    obtain ⟨earlier, value, later, rfl, hearlier, hfinal⟩ := hscattered.first slot hbound hslot
    exact ⟨earlier, value, later ++ [none], by simp, hearlier, hfinal⟩
  kept slot hslot := by
    rw [writtenSlots_concat_none] at hslot
    exact hscattered.kept slot hslot

theorem refuse (hclosed : target < values.size → target ∈ writtenSlots order) :
    Scattered values (order ++ [some (target, written)]) final (dropped + 1) where
  dropped_eq := by
    rw [hscattered.dropped_eq, outsideWrites_concat, repeatedWrites_concat]
    by_cases hbound : target < values.size
    · rw [if_pos hbound, if_pos hbound, if_pos (hclosed hbound)]
      omega
    · rw [if_neg hbound, if_neg hbound]
      omega
  size_eq := hscattered.size_eq
  first slot hbound hslot := by
    rw [writtenSlots_concat, List.mem_append, List.mem_singleton] at hslot
    have hslot : slot ∈ writtenSlots order := hslot.elim id fun heq => heq ▸ hclosed (heq ▸ hbound)
    obtain ⟨earlier, value, later, rfl, hearlier, hfinal⟩ := hscattered.first slot hbound hslot
    exact ⟨earlier, value, later ++ [some (target, written)], by simp, hearlier, hfinal⟩
  kept slot hslot := by
    rw [writtenSlots_concat] at hslot
    exact hscattered.kept slot fun hmem => hslot (List.mem_append_left _ hmem)

theorem claim (hbound : target < values.size) (hopen : target ∉ writtenSlots order) :
    Scattered values (order ++ [some (target, written)]) (final.setIfInBounds target written)
      dropped where
  dropped_eq := by
    rw [hscattered.dropped_eq, outsideWrites_concat, repeatedWrites_concat, if_pos hbound,
      if_pos hbound, if_neg hopen]
    rfl
  size_eq := Array.size_setIfInBounds.trans hscattered.size_eq
  first slot hslotBound hslot := by
    rw [writtenSlots_concat, List.mem_append, List.mem_singleton] at hslot
    rw [Array.getElem?_setIfInBounds, hscattered.size_eq]
    rcases hslot with hslot | rfl
    · obtain ⟨earlier, value, later, horder, hearlier, hfinal⟩ :=
        hscattered.first slot hslotBound hslot
      refine ⟨earlier, value, later ++ [some (target, written)], by simp [horder], hearlier, ?_⟩
      rw [if_neg fun heq => hopen (by rwa [heq]), hfinal]
    · exact ⟨order, written, [], rfl, hopen, by rw [if_pos rfl, if_pos hbound]⟩
  kept slot hslot := by
    rw [writtenSlots_concat, List.mem_append, List.mem_singleton, not_or] at hslot
    rw [Array.getElem?_setIfInBounds, if_neg (Ne.symm hslot.2)]
    exact hscattered.kept slot hslot.1

end Step

end Scattered

theorem scattered_scatter (values : Array α) (writes : List (Option (Nat × α))) :
    Scattered values writes (scatter values writes).values (scatter values writes).dropped := by
  induction writes using List.reverseRecOn with
  | nil => exact .nothing values
  | append_singleton writes slotWrite ih =>
      rw [scatter_concat]
      cases slotWrite with
      | none => exact ih.pass
      | some slotWrite =>
          obtain ⟨target, written⟩ := slotWrite
          by_cases hopen : (scatter values writes).claimed[target]? = some false
          · obtain ⟨hbound, hnew⟩ := claimed_scatter_eq_false_iff.mp hopen
            rw [Slotted.write_open hopen]
            exact ih.claim hbound hnew
          · rw [Slotted.write_closed hopen]
            exact ih.refuse fun hbound =>
              not_not.mp fun hnew => hopen (claimed_scatter_eq_false_iff.mpr ⟨hbound, hnew⟩)

theorem value_eq_of_nodup {count slot : Nat} {value other : α}
    (hnodup : ((writtenSlots writes).filter (· < count)).Nodup) (hslot : slot < count)
    (hvalue : some (slot, value) ∈ writes) (hother : some (slot, other) ∈ writes) :
    value = other := by
  have hpairs : writtenSlots writes = (writes.filterMap id).map Prod.fst :=
    List.map_filterMap.symm
  rw [hpairs, List.filter_map] at hnodup
  have hmem {value : α} (hvalue : some (slot, value) ∈ writes) :
      (slot, value) ∈ (writes.filterMap id).filter ((decide <| · < count) ∘ Prod.fst) := by
    simpa using ⟨hvalue, hslot⟩
  exact (Prod.mk.inj (List.inj_on_of_nodup_map hnodup (hmem hvalue) (hmem hother) rfl)).2

/-- The order of the writes does not matter for slots that are written only once. -/
theorem Scattered.final_eq {order other : List (Option (Nat × α))} {final final' : Array α}
    {dropped dropped' : Nat} (hnodup : ((writtenSlots order).filter (· < values.size)).Nodup)
    (hscattered : Scattered values order final dropped)
    (hscattered' : Scattered values other final' dropped') (hperm : order.Perm other) :
    final = final' := by
  have hslots : (writtenSlots order).Perm (writtenSlots other) := hperm.filterMap _
  refine Array.ext_getElem? fun slot => ?_
  by_cases hslot : slot ∈ writtenSlots order
  · by_cases hbound : slot < values.size
    · obtain ⟨earlier, value, later, horder, -, hfinal⟩ := hscattered.first slot hbound hslot
      obtain ⟨earlier', value', later', horder', -, hfinal'⟩ :=
        hscattered'.first slot hbound (hslots.mem_iff.mp hslot)
      have hvalue : some (slot, value) ∈ order := horder ▸ List.mem_append_cons_self
      have hvalue' : some (slot, value') ∈ other := horder' ▸ List.mem_append_cons_self
      rw [hfinal, hfinal', value_eq_of_nodup hnodup hbound hvalue (hperm.mem_iff.mpr hvalue')]
    · have hle := Nat.le_of_not_lt hbound
      rw [Array.getElem?_eq_none (hscattered.size_eq ▸ hle),
        Array.getElem?_eq_none (hscattered'.size_eq ▸ hle)]
  · rw [hscattered.kept slot hslot, hscattered'.kept slot (hslots.mem_iff.not.mp hslot)]

namespace WritesOnce

variable (honce : WritesOnce writes values.size)
include honce

theorem nodup_filter : ((writtenSlots writes).filter (· < values.size)).Nodup :=
  honce.nodup.filter _

theorem dropped_scatter : (TextColumns.scatter values writes).dropped = 0 := by
  have houtside : outsideWrites values.size writes = 0 := by
    simpa [outsideWrites, List.countP_eq_zero] using honce.inside
  have hcount (slot : Nat) : (writtenSlots writes).count slot - 1 = 0 :=
    Nat.sub_eq_zero_of_le (List.nodup_iff_count_le_one.mp honce.nodup slot)
  have hrepeated : repeatedWrites values.size writes = 0 := by
    rw [← @repeatedWrites_nil α values.size, repeatedWrites, repeatedWrites]
    simp only [hcount]
    rfl
  rw [(scattered_scatter values writes).dropped_eq, houtside, hrepeated]

theorem scatter :
    (scatter values writes).dropped = 0 ∧ (scatter values writes).values.size = values.size ∧
      (∀ slot value, some (slot, value) ∈ writes →
        (scatter values writes).values[slot]? = some value) ∧
      ∀ slot, slot ∉ writtenSlots writes →
        (scatter values writes).values[slot]? = values[slot]? := by
  have hscattered := scattered_scatter values writes
  refine ⟨honce.dropped_scatter, hscattered.size_eq, fun slot value hvalue => ?_, hscattered.kept⟩
  have hslot := mem_writtenSlots.mpr ⟨value, hvalue⟩
  have hbound := honce.inside slot hslot
  obtain ⟨earlier, first, later, hwrites, -, hfinal⟩ := hscattered.first slot hbound hslot
  have hfirst : some (slot, first) ∈ writes := hwrites ▸ List.mem_append_cons_self
  rw [hfinal, value_eq_of_nodup honce.nodup_filter hbound hfirst hvalue]

/-- The order of the writes does not matter when no slot is written twice. -/
theorem perm (hperm : writes.Perm others) :
    (TextColumns.scatter values others).dropped = 0 ∧
      (TextColumns.scatter values others).values = (TextColumns.scatter values writes).values := by
  have hslots : (writtenSlots writes).Perm (writtenSlots others) := hperm.filterMap _
  have honce' : WritesOnce others values.size :=
    ⟨hslots.nodup_iff.mp honce.nodup,
      fun slot hslot => honce.inside slot (hslots.mem_iff.mpr hslot)⟩
  exact ⟨honce'.dropped_scatter, ((scattered_scatter values writes).final_eq honce.nodup_filter
    (scattered_scatter values others) hperm).symm⟩

end WritesOnce

end TextColumns
