import TextColumns.Proofs.Scatter
import TextColumns.Scatter.Workers

/-!
Workers that write into slots in any order come to what the same writes leave when they are made one
after the other, in the order in which the workers have begun.  Which value is kept in a slot depends
on that order; how many writes have no effect does not.
-/

namespace TextColumns

open ScatterEvent (begunWorkers begunWrites)

variable {α : Type} {values : Array α} {writes : List (Option (Nat × α))}
  {history : List ScatterEvent} {event : ScatterEvent} {worker slot : Nat} {value : α}

namespace ScatterEvent

theorem begunWrites_cons {slotWrite : Option (Nat × α)} (event : ScatterEvent)
    (hbegun : event.begun? = some worker) (hwrite : writes[worker]? = some slotWrite)
    (history : List ScatterEvent) :
    begunWrites writes (event :: history) = begunWrites writes history ++ [slotWrite] := by
  simp [begunWrites, begunWorkers, hbegun, hwrite]

theorem begunWrites_perm (hperm : (begunWorkers history).Perm (List.range writes.length)) :
    (begunWrites writes history).Perm writes := by
  have hall : (List.range writes.length).map (fun worker => writes[worker]?.join) = writes := by
    refine List.ext_getElem (by simp) fun worker hworker hlength => ?_
    rw [List.getElem_map, List.getElem_range, List.getElem?_eq_getElem hlength, Option.join_some]
  have horder := ((List.reverse_perm _).trans hperm).map fun worker => writes[worker]?.join
  rwa [hall] at horder

end ScatterEvent

namespace Writers

variable {writers next : Writers α}

/-- Whether workers are where the steps of a history lead.  The marks and the number of writes
without effect are those of the writes that have begun, made one after the other, and so are the
values but for slots that are still held. -/
structure Reached (values : Array α) (writes : List (Option (Nat × α)))
    (history : List ScatterEvent) (writers : Writers α) : Prop where
  perm : (begunWorkers history ++ writers.waiting).Perm (List.range writes.length)
  claimed_eq : writers.slotted.claimed = (scatter values (begunWrites writes history)).claimed
  dropped_eq : writers.slotted.dropped = (scatter values (begunWrites writes history)).dropped
  size_eq : writers.slotted.values.size = values.size
  held : ∀ worker ∈ writers.holding, ∃ slot value, writes[worker]? = some (some (slot, value)) ∧
    slot ∈ writtenSlots (begunWrites writes history) ∧
    (scatter values (begunWrites writes history)).values[slot]? = some value
  settled : ∀ slot, (∀ worker ∈ writers.holding, ∀ value,
      writes[worker]? ≠ some (some (slot, value))) →
    writers.slotted.values[slot]? = (scatter values (begunWrites writes history)).values[slot]?
  length_le : history.length + 2 * writers.waiting.length + writers.holding.length ≤
    2 * writes.length

theorem reached_initial (values : Array α) (writes : List (Option (Nat × α))) :
    Reached values writes [] (initial values writes) where
  perm := .refl _
  claimed_eq := rfl
  dropped_eq := rfl
  size_eq := rfl
  held _ hworker := by cases hworker
  settled _ _ := rfl
  length_le := by simp [initial]

namespace Reached

variable (hreached : Reached values writes history writers)
include hreached

theorem perm_erase (hwaiting : worker ∈ writers.waiting) :
    (worker :: begunWorkers history ++ writers.waiting.erase worker).Perm
      (List.range writes.length) := by
  refine List.Perm.trans ?_ hreached.perm
  exact List.perm_middle.symm.trans ((List.perm_cons_erase hwaiting).symm.append_left _)

theorem length_le_of_begun (hwaiting : worker ∈ writers.waiting) :
    history.length + 1 + 2 * (writers.waiting.erase worker).length +
      (writers.holding.length + 1) ≤ 2 * writes.length := by
  have hlength := hreached.length_le
  have hpositive := List.length_pos_of_mem hwaiting
  rw [List.length_erase_of_mem hwaiting]
  omega

theorem pass (hwaiting : worker ∈ writers.waiting) (hwrite : writes[worker]? = some none) :
    Reached values writes (.passed worker :: history)
      { writers with waiting := writers.waiting.erase worker } := by
  have horder := ScatterEvent.begunWrites_cons (.passed worker) rfl hwrite history
  have hscatter : scatter values (begunWrites writes (.passed worker :: history)) =
      scatter values (begunWrites writes history) := by
    rw [horder, scatter_concat]
    rfl
  have hslots : writtenSlots (begunWrites writes (.passed worker :: history)) =
      writtenSlots (begunWrites writes history) := by
    rw [horder, writtenSlots_concat_none]
  constructor
  case perm => exact hreached.perm_erase hwaiting
  case claimed_eq => rw [hscatter, hreached.claimed_eq]
  case dropped_eq => rw [hscatter, hreached.dropped_eq]
  case size_eq => exact hreached.size_eq
  case held => rw [hscatter, hslots]; exact hreached.held
  case settled => rw [hscatter]; exact hreached.settled
  case length_le => exact Nat.le_of_succ_le (hreached.length_le_of_begun hwaiting)

theorem refuse (hwaiting : worker ∈ writers.waiting)
    (hwrite : writes[worker]? = some (some (slot, value)))
    (hclosed : writers.slotted.claimed[slot]? ≠ some false) :
    Reached values writes (.refused worker :: history)
      { writers with
        slotted := { writers.slotted with dropped := writers.slotted.dropped + 1 }
        waiting := writers.waiting.erase worker } := by
  have horder := ScatterEvent.begunWrites_cons (.refused worker) rfl hwrite history
  rw [hreached.claimed_eq] at hclosed
  have hscatter : scatter values (begunWrites writes (.refused worker :: history)) =
      { scatter values (begunWrites writes history) with
        dropped := (scatter values (begunWrites writes history)).dropped + 1 } := by
    rw [horder, scatter_concat, Slotted.write_closed hclosed]
  constructor
  case perm => exact hreached.perm_erase hwaiting
  case claimed_eq => rw [hscatter, hreached.claimed_eq]
  case dropped_eq => rw [hscatter, hreached.dropped_eq]
  case size_eq => exact hreached.size_eq
  case held =>
    intro other hother
    obtain ⟨target, written, htarget, hslot, hvalue⟩ := hreached.held other hother
    refine ⟨target, written, htarget, ?_, by rwa [hscatter]⟩
    rw [horder, writtenSlots_concat]
    exact List.mem_append_left _ hslot
  case settled => rw [hscatter]; exact hreached.settled
  case length_le => exact Nat.le_of_succ_le (hreached.length_le_of_begun hwaiting)

/-- A worker that claims a slot settles what the slot will come to, though it has not written yet. -/
theorem claim (hwaiting : worker ∈ writers.waiting)
    (hwrite : writes[worker]? = some (some (slot, value)))
    (hopen : writers.slotted.claimed[slot]? = some false) :
    Reached values writes (.claimed worker :: history)
      { slotted :=
          { writers.slotted with claimed := writers.slotted.claimed.setIfInBounds slot true }
        waiting := writers.waiting.erase worker
        holding := worker :: writers.holding } := by
  have horder := ScatterEvent.begunWrites_cons (.claimed worker) rfl hwrite history
  rw [hreached.claimed_eq] at hopen
  obtain ⟨hbound, hnew⟩ := claimed_scatter_eq_false_iff.mp hopen
  have hsize := (scattered_scatter values (begunWrites writes history)).size_eq
  have hscatter : scatter values (begunWrites writes (.claimed worker :: history)) =
      ⟨(scatter values (begunWrites writes history)).values.setIfInBounds slot value,
        (scatter values (begunWrites writes history)).claimed.setIfInBounds slot true,
        (scatter values (begunWrites writes history)).dropped⟩ := by
    rw [horder, scatter_concat, Slotted.write_open hopen]
  have hslots : writtenSlots (begunWrites writes (.claimed worker :: history)) =
      writtenSlots (begunWrites writes history) ++ [slot] := by
    rw [horder, writtenSlots_concat]
  constructor
  case perm => exact hreached.perm_erase hwaiting
  case claimed_eq => rw [hscatter, hreached.claimed_eq]
  case dropped_eq => rw [hscatter, hreached.dropped_eq]
  case size_eq => exact hreached.size_eq
  case held =>
    intro other hother
    rw [hscatter, hslots]
    rcases List.mem_cons.mp hother with rfl | hother
    · refine ⟨slot, value, hwrite, List.mem_append_right _ (.head _), ?_⟩
      rw [Array.getElem?_setIfInBounds, if_pos rfl, if_pos (hsize ▸ hbound)]
    · obtain ⟨target, written, htarget, hslot, hvalue⟩ := hreached.held other hother
      refine ⟨target, written, htarget, List.mem_append_left _ hslot, ?_⟩
      rw [Array.getElem?_setIfInBounds, if_neg fun heq : slot = target => hnew (heq ▸ hslot), hvalue]
  case settled =>
    intro other hfree
    have hne : slot ≠ other := fun heq => hfree worker (.head _) value (heq ▸ hwrite)
    rw [hscatter, Array.getElem?_setIfInBounds, if_neg hne]
    exact hreached.settled other fun holder hholder => hfree holder (.tail _ hholder)
  case length_le => exact hreached.length_le_of_begun hwaiting

theorem write (hholding : worker ∈ writers.holding)
    (hwrite : writes[worker]? = some (some (slot, value))) :
    Reached values writes (.wrote worker :: history)
      { writers with
        slotted :=
          { writers.slotted with values := writers.slotted.values.setIfInBounds slot value }
        holding := writers.holding.erase worker } where
  perm := hreached.perm
  claimed_eq := hreached.claimed_eq
  dropped_eq := hreached.dropped_eq
  size_eq := Array.size_setIfInBounds.trans hreached.size_eq
  held other hother := hreached.held other (List.mem_of_mem_erase hother)
  settled other hfree := by
    show _ = (scatter values (begunWrites writes history)).values[other]?
    rw [Array.getElem?_setIfInBounds]
    by_cases heq : slot = other
    · rw [if_pos heq]
      subst heq
      obtain ⟨target, written, htarget, -, hvalue⟩ := hreached.held worker hholding
      rw [hwrite] at htarget
      cases htarget
      obtain ⟨hbound, -⟩ := Array.getElem?_eq_some_iff.mp hvalue
      rw [(scattered_scatter values _).size_eq] at hbound
      rw [if_pos (hreached.size_eq ▸ hbound), hvalue]
    · rw [if_neg heq]
      refine hreached.settled other fun holder hholder written htarget => ?_
      rcases eq_or_ne holder worker with rfl | hholders
      · rw [hwrite] at htarget
        cases htarget
        exact heq rfl
      · exact hfree holder ((List.mem_erase_of_ne hholders).mpr hholder) written htarget
  length_le := by
    have hlength := hreached.length_le
    have hpositive := List.length_pos_of_mem hholding
    simp only [List.length_cons, List.length_erase_of_mem hholding]
    omega

theorem step (hstep : Step writes writers event next) :
    Reached values writes (event :: history) next := by
  cases hstep with
  | pass hwaiting hwrite => exact hreached.pass hwaiting hwrite
  | refuse hwaiting hwrite hclosed => exact hreached.refuse hwaiting hwrite hclosed
  | claim hwaiting hwrite hopen => exact hreached.claim hwaiting hwrite hopen
  | write hholding hwrite => exact hreached.write hholding hwrite

end Reached

theorem reached_of_steps (hsteps : Steps values writes history writers) :
    Reached values writes history writers := by
  induction hsteps with
  | initial => exact reached_initial values writes
  | step _ hlast ih => exact ih.step hlast

namespace Reached

variable (hreached : Reached values writes history writers)
include hreached

/-- While a worker has not begun or holds a slot, some worker can go on. -/
theorem done_of_no_step (hstuck : ∀ event next, ¬ Step writes writers event next) :
    writers.waiting = [] ∧ writers.holding = [] := by
  refine ⟨List.eq_nil_iff_forall_not_mem.mpr fun worker hworker => ?_,
    List.eq_nil_iff_forall_not_mem.mpr fun worker hworker => ?_⟩
  · have hbound := List.mem_range.mp
      (hreached.perm.mem_iff.mp (List.mem_append_right _ hworker))
    have hwrite := List.getElem?_eq_getElem hbound
    cases hslotWrite : writes[worker] with
    | none => exact hstuck _ _ (.pass hworker (hslotWrite ▸ hwrite))
    | some slotWrite =>
        rw [hslotWrite] at hwrite
        by_cases hopen : writers.slotted.claimed[slotWrite.1]? = some false
        · exact hstuck _ _ (.claim hworker hwrite hopen)
        · exact hstuck _ _ (.refuse hworker hwrite hopen)
  · obtain ⟨slot, value, hwrite, -⟩ := hreached.held worker hworker
    exact hstuck _ _ (.write hworker hwrite)

theorem scattered_of_done (hholding : writers.holding = []) :
    Scattered values (begunWrites writes history) writers.slotted.values
      writers.slotted.dropped := by
  have hvalues : writers.slotted.values = (scatter values (begunWrites writes history)).values :=
    Array.ext_getElem? fun slot => hreached.settled slot fun _ hworker => by
      rw [hholding] at hworker
      cases hworker
  rw [hvalues, hreached.dropped_eq]
  exact scattered_scatter values _

end Reached

end Writers

/-- Workers that write into slots come to an end in whichever order they go on, and each of them
begins once.  The number of writes without effect is that of the writes to slots that do not exist and
of those to slots that others write before, the same in every order.  Each slot keeps the value that
was written first, and where no slot is written twice all orders come to the same. -/
theorem scatters_in_any_order (values : Array α) (writes : List (Option (Nat × α)))
    (history : List ScatterEvent) (writers : Writers α)
    (hsteps : Writers.Steps values writes history writers) :
    (begunWorkers history).Nodup ∧ history.length ≤ 2 * writes.length ∧
      ((∀ event next, ¬ Writers.Step writes writers event next) →
        (begunWrites writes history).Perm writes ∧
          Scattered values (begunWrites writes history) writers.slotted.values
            writers.slotted.dropped ∧
          writers.slotted.dropped =
            outsideWrites values.size writes + repeatedWrites values.size writes ∧
          (((writtenSlots writes).filter (· < values.size)).Nodup →
            writers.slotted.values = (scatter values writes).values)) := by
  have hreached := Writers.reached_of_steps hsteps
  have hnodup := hreached.perm.nodup_iff.mpr List.nodup_range
  refine ⟨(List.nodup_append.mp hnodup).1, ?_, fun hstuck => ?_⟩
  · have hlength := hreached.length_le
    omega
  · obtain ⟨hwaiting, hholding⟩ := hreached.done_of_no_step hstuck
    have hperm := hreached.perm
    rw [hwaiting, List.append_nil] at hperm
    have horder := ScatterEvent.begunWrites_perm hperm
    have hscattered := hreached.scattered_of_done hholding
    refine ⟨horder, hscattered, ?_, fun hdistinct => ?_⟩
    · rw [hscattered.dropped_eq, outsideWrites_perm horder, repeatedWrites_perm horder]
    · exact ((scattered_scatter values writes).final_eq hdistinct hscattered horder.symm).symm

/-- Two workers are after the same slot, and the later one in the list claims it first.  Where the slots
differ, the workers may claim both before either of them writes. -/
theorem scatters_in_any_order_race :
    let writes := [some (1, 10), some (1, 20), some (9, 30), none, some (2, 40)]
    (∃ writers, Writers.Steps #[0, 0, 0] writes
        [.wrote 1, .passed 3, .refused 2, .wrote 4, .claimed 4, .refused 0, .claimed 1] writers ∧
      writers.slotted.values = #[0, 20, 40] ∧ writers.slotted.dropped = 2 ∧
      (scatter #[0, 0, 0] writes).values = #[0, 10, 40] ∧
      (scatter #[0, 0, 0] writes).dropped = 2) ∧
    ∃ writers, Writers.Steps #[0, 0] [some (1, 10), some (0, 20)]
        [.wrote 0, .wrote 1, .claimed 0, .claimed 1] writers ∧
      writers.slotted.values = #[20, 10] := by
  intro writes
  have hclaimed : Writers.Steps #[0, 0, 0] writes [.claimed 4, .refused 0, .claimed 1] _ :=
    .step (.step (.step .initial (.claim (by decide) rfl (by decide)))
      (.refuse (by decide) rfl (by decide))) (.claim (by decide) rfl (by decide))
  have hsteps : Writers.Steps #[0, 0, 0] writes
      [.wrote 1, .passed 3, .refused 2, .wrote 4, .claimed 4, .refused 0, .claimed 1] _ :=
    .step (.step (.step (.step hclaimed (.write (by decide) rfl))
      (.refuse (by decide) rfl (by decide))) (.pass (by decide) rfl)) (.write (by decide) rfl)
  have hapart : Writers.Steps #[0, 0] [some (1, 10), some (0, 20)]
      [.wrote 0, .wrote 1, .claimed 0, .claimed 1] _ :=
    .step (.step (.step (.step .initial (.claim (by decide) rfl (by decide)))
      (.claim (by decide) rfl (by decide))) (.write (by decide) rfl)) (.write (by decide) rfl)
  obtain ⟨-, -, hdone⟩ := scatters_in_any_order _ _ _ _ hsteps
  obtain ⟨-, -, hdoneApart⟩ := scatters_in_any_order _ _ _ _ hapart
  refine ⟨⟨_, hsteps, rfl, (hdone ?_).2.2.1.trans (by decide), by decide, by decide⟩,
    _, hapart, ((hdoneApart ?_).2.2.2 (by decide)).trans (by decide)⟩
  all_goals
    intro event next hstep
    cases hstep with
    | pass hwaiting | refuse hwaiting | claim hwaiting | write hwaiting =>
        exact List.not_mem_nil hwaiting

end TextColumns
