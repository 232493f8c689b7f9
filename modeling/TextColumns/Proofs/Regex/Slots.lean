import TextColumns.Proofs.Regex.Matcher
import TextColumns.Proofs.Text.Boundary

namespace TextColumns

open Search (Mode Slots)
open Text (Cursor Extent IsBoundary)

namespace Search

def Slots.Within (text : String) (slots : Slots) : Prop :=
  ∀ offset, some offset ∈ slots → IsBoundary text offset

variable {program : Program} {text : String} {cursor : Cursor} {slots : Slots}

theorem Slots.exists_of_group? {k : Nat} {extent : Extent}
    (hgroup : slots.group? k = some extent) :
    slots[2 * k]? = some (some extent.start) ∧ slots[2 * k + 1]? = some (some extent.stop) := by
  revert hgroup
  fun_cases Slots.group? slots k with
  | case1 start stop hstop hstart =>
      intro hgroup
      cases hgroup
      exact ⟨hstart, hstop⟩
  | case2 => intro hgroup; cases hgroup

theorem Slots.Within.group? (hslots : slots.Within text) {k : Nat} {extent : Extent}
    (hgroup : slots.group? k = some extent) : extent.Within text := by
  obtain ⟨hstart, hstop⟩ := Slots.exists_of_group? hgroup
  exact ⟨hslots _ (Array.mem_of_getElem? hstart), hslots _ (Array.mem_of_getElem? hstop)⟩

theorem Slots.Within.groups (hslots : slots.Within text) {extent : Extent}
    (hextent : some extent ∈ slots.groups) : extent.Within text := by
  obtain ⟨k, -, hgroup⟩ := List.mem_map.mp hextent
  exact hslots.group? hgroup

theorem Slots.Within.recorded (hslots : slots.Within text) (hon : Cursor.On text cursor)
    (instruction : Instruction) : (recorded cursor slots instruction).Within text := by
  unfold Search.recorded
  split
  · intro offset hoffset
    rcases Array.mem_or_eq_of_mem_setIfInBounds hoffset with hold | hnew
    · exact hslots offset hold
    · cases hnew
      exact hon.isBoundary
  · exact hslots

theorem slots_within_of_mem_onward {visit next : Visit} (hon : Cursor.On text visit.cursor)
    (hslots : visit.slots.Within text) (hnext : next ∈ visit.onward program) :
    next.slots.Within text := by
  obtain ⟨instruction, -, -, hrecorded⟩ := Visit.mem_onward.mp hnext
  rw [hrecorded]
  exact hslots.recorded hon instruction

theorem slots_within_startVisit : (startVisit program cursor).slots.Within text := by
  intro offset hoffset
  cases (Array.mem_replicate.mp hoffset).2

theorem on_of_mem_starts {mode : Mode} {first matched : Bool} (hon : Cursor.On text cursor)
    {visit : Visit} (hvisit : visit ∈ starts program mode first matched cursor) :
    ∃ place, (Cursor.On text place ∧ cursor.offset ≤ place.offset) ∧
      visit = startVisit program place := by
  unfold starts at hvisit
  split at hvisit
  · cases hvisit
  · split at hvisit
    · split at hvisit
      · exact ⟨cursor, ⟨hon, Nat.le_refl _⟩, List.mem_singleton.mp hvisit⟩
      · cases hvisit
    · obtain ⟨place, hplace, rfl⟩ := List.mem_map.mp hvisit
      exact ⟨place, (Cursor.mem_places hon).mp hplace, rfl⟩

structure Matched (program : Program) (text : String) (cursor : Cursor) (slots : Slots) :
    Prop where
  on : Cursor.On text cursor
  found : explore program (everywhere program text)
    (starts program ⟨false, false⟩ true false cursor) = some slots

theorem Matched.within (hmatched : Matched program text cursor slots) : slots.Within text := by
  let P (visit : Visit) : Prop := Cursor.On text visit.cursor ∧ visit.slots.Within text
  have honward : ∀ visit, P visit → ∀ next ∈ visit.onward program, P next := by
    intro visit ⟨hvisit, hslots⟩ next hnext
    exact ⟨Visit.on_of_mem_onward hvisit hnext, slots_within_of_mem_onward hvisit hslots hnext⟩
  have hstarts : ∀ visit ∈ starts program ⟨false, false⟩ true false cursor, P visit := by
    intro visit hvisit
    obtain ⟨place, hplace, rfl⟩ := on_of_mem_starts hmatched.on hvisit
    exact ⟨hplace.1, slots_within_startVisit⟩
  obtain ⟨visit, ⟨-, hslots⟩, -, rfl⟩ := explore_induct honward hstarts hmatched.found
  exact hslots

end Search

namespace Matcher

open Search (Matched)

variable {matcher : Matcher} {program : Program} {text : String} {cursor : Cursor}

theorem Ready.capturesFrom (hready : matcher.Ready program) (hcheck : program.check = .ok ())
    (hon : Cursor.On text cursor) {found : Option Slots} {next : Matcher}
    (hcaptures : matcher.capturesFrom cursor = (found, next)) :
    next.Ready program ∧ ∀ slots, found = some slots → Matched program text cursor slots := by
  constructor
  · have hnext := hready.run hcheck ⟨false, false⟩ cursor
    rwa [← Matcher.capturesFrom, hcaptures] at hnext
  · intro slots hslots
    have hfound := (hready.run_eq hcheck hon ⟨false, false⟩).2 rfl
    rw [← Matcher.capturesFrom, hcaptures, hslots] at hfound
    exact ⟨hon, hfound.symm⟩

theorem on_of_resume? {emptyMatch : Bool} {stop next : Cursor} (hstop : Cursor.On text stop)
    (hresume : resume? emptyMatch stop = some next) :
    Cursor.On text next ∧ stop.offset ≤ next.offset := by
  cases emptyMatch with
  | false => exact Option.some.inj hresume ▸ ⟨hstop, Nat.le_refl _⟩
  | true =>
      obtain ⟨⟨c, behind⟩, hnext, rfl⟩ := Option.map_eq_some_iff.mp hresume
      exact ⟨hstop.next? hnext, Nat.le_of_lt (Cursor.offset_lt_of_next? hnext)⟩

/-- What holds of the state and of the offset from which the next match is sought, on to any offset
behind that match, whether it is visited or passed over. -/
def Preserves (program : Program) (text : String) (Q : Nat → β → Prop)
    (visit : β → Slots → ForInStep β) : Prop :=
  ∀ cursor slots extent state, Matched program text cursor slots →
    slots.group? 0 = some extent → Q cursor.offset state →
    ∀ offset, extent.stop ≤ offset → Q offset state ∧ Q offset (visit state slots).value

variable {Q : Nat → β → Prop} {visit : β → Slots → ForInStep β} {state : β}

theorem Ready.visited (hvisit : Preserves program text Q visit) (hready : matcher.Ready program)
    (hcheck : program.check = .ok ()) (hon : Cursor.On text cursor) {slots : Slots}
    {next : Matcher} (hcaptures : matcher.capturesFrom cursor = (some slots, next))
    {extent : Extent} (hgroup : slots.group? 0 = some extent) (hstate : Q cursor.offset state)
    (repeated : Bool) {offset : Nat} (hoffset : extent.stop ≤ offset) :
    next.Ready program ∧
      Q offset (if repeated then ForInStep.yield state else visit state slots).value := by
  obtain ⟨hnext, hmatched⟩ := hready.capturesFrom hcheck hon hcaptures
  obtain ⟨hpassed, hvisited⟩ := hvisit _ _ _ _ (hmatched slots rfl) hgroup hstate _ hoffset
  refine ⟨hnext, ?_⟩
  split
  · exact hpassed
  · exact hvisited

theorem Ready.resume (hready : matcher.Ready program) (hcheck : program.check = .ok ())
    (hon : Cursor.On text cursor) {slots : Slots} {next : Matcher}
    (hcaptures : matcher.capturesFrom cursor = (some slots, next)) {extent : Extent}
    (hgroup : slots.group? 0 = some extent) {emptyMatch : Bool} {behind : Cursor}
    (hresume : resume? emptyMatch (cursor.seek extent.stop) = some behind) :
    Cursor.On text behind ∧ extent.stop ≤ behind.offset := by
  obtain ⟨-, hmatched⟩ := hready.capturesFrom hcheck hon hcaptures
  have hstop := ((hmatched slots rfl).within.group? hgroup).stop.le
  obtain ⟨honBehind, hbehind⟩ := on_of_resume? (hon.seek extent.stop) hresume
  exact ⟨honBehind, Nat.le_trans (hon.le_seek hstop) hbehind⟩

/-- What holds of the state while the loop over the matches runs holds of what it gives in the
end. -/
theorem Ready.visitFrom? (hvisit : Preserves program text Q visit) (hready : matcher.Ready program)
    (hcheck : program.check = .ok ()) (hon : Cursor.On text cursor) {rounds : Nat}
    {lastStop : Option Nat} {after : β} {last : Matcher} (hstate : Q cursor.offset state)
    (hresult : Matcher.visitFrom? visit rounds matcher cursor lastStop state = some (after, last)) :
    (∃ offset, Q offset after) ∧ last.Ready program := by
  induction rounds generalizing matcher cursor lastStop state with
  | zero => cases hresult
  | succ rounds ih =>
      rw [Matcher.visitFrom?] at hresult
      rcases hcaptures : matcher.capturesFrom cursor with ⟨found, next⟩
      have hnext := (hready.capturesFrom hcheck hon hcaptures).1
      simp only [hcaptures] at hresult
      cases found with
      | none =>
          cases hresult
          exact ⟨⟨_, hstate⟩, hnext⟩
      | some slots =>
          cases hgroup : slots.group? 0 with
          | none =>
              simp only [hgroup] at hresult
              cases hresult
              exact ⟨⟨_, hstate⟩, hnext⟩
          | some extent =>
              simp only [hgroup] at hresult
              have hafter {offset : Nat} (hoffset : extent.stop ≤ offset) :=
                (hready.visited hvisit hcheck hon hcaptures hgroup hstate
                  (extent.start == extent.stop && lastStop == some extent.stop) hoffset).2
              cases hvisited : if (extent.start == extent.stop && lastStop == some extent.stop) = true
                then ForInStep.yield state else visit state slots with
              | done after =>
                  simp only [hvisited] at hresult hafter
                  cases hresult
                  exact ⟨⟨_, hafter (Nat.le_refl _)⟩, hnext⟩
              | yield after =>
                  simp only [hvisited] at hresult hafter
                  cases hresume : resume? (extent.start == extent.stop)
                      (cursor.seek extent.stop) with
                  | none =>
                      simp only [hresume] at hresult
                      cases hresult
                      exact ⟨⟨_, hafter (Nat.le_refl _)⟩, hnext⟩
                  | some behind =>
                      simp only [hresume] at hresult
                      obtain ⟨honBehind, hbehind⟩ :=
                        hready.resume hcheck hon hcaptures hgroup hresume
                      exact ih hnext honBehind (hafter hbehind) hresult

theorem Ready.visitMatches (hvisit : Preserves program text Q visit) (hready : matcher.Ready program)
    (hcheck : program.check = .ok ()) (hstate : Q 0 state) :
    (∃ offset, Q offset (matcher.visitMatches visit text state).1) ∧
      (matcher.visitMatches visit text state).2.Ready program := by
  unfold Matcher.visitMatches
  cases hvisited : matcher.visitMatches? visit text state with
  | none => exact ⟨⟨0, hstate⟩, hready.program_eq ▸ ready_ofProgram matcher.program⟩
  | some result =>
      exact hready.visitFrom? hvisit hcheck (Cursor.on_start text) hstate hvisited

@[simp] theorem value_keep (limit : Option Nat) (found : Array Slots) (slots : Slots) :
    (keep limit found slots).value = found.push slots := by
  unfold keep
  dsimp only
  split <;> rfl

theorem preserves_keep (program : Program) (text : String) (limit : Option Nat) :
    Preserves program text
      (fun _ (found : Array Slots) => ∀ slots ∈ found, ∃ cursor, Matched program text cursor slots)
      (keep limit) := by
  intro cursor slots extent found hmatched _ hfound _ _
  refine ⟨hfound, fun other hother => ?_⟩
  rw [value_keep] at hother
  rcases Array.mem_push.mp hother with hold | rfl
  · exact hfound other hold
  · exact ⟨cursor, hmatched⟩

theorem Ready.exists_matched (hready : matcher.Ready program) (hcheck : program.check = .ok ())
    (limit : Option Nat) (text : String) :
    (∀ slots ∈ (matcher.matchesUpTo limit text).1, ∃ cursor, Matched program text cursor slots) ∧
      (matcher.matchesUpTo limit text).2.Ready program := by
  obtain ⟨⟨-, hfound⟩, hnext⟩ := hready.visitMatches (preserves_keep program text limit) hcheck
    fun slots hslots => absurd hslots (Array.not_mem_empty slots)
  exact ⟨hfound, hnext⟩

theorem Ready.matchesUpTo (hready : matcher.Ready program) (hcheck : program.check = .ok ())
    (limit : Option Nat) (text : String) :
    (∀ slots ∈ (matcher.matchesUpTo limit text).1, slots.Within text) ∧
      (matcher.matchesUpTo limit text).2.Ready program := by
  obtain ⟨hfound, hnext⟩ := hready.exists_matched hcheck limit text
  refine ⟨fun slots hslots => ?_, hnext⟩
  obtain ⟨cursor, hmatched⟩ := hfound slots hslots
  exact hmatched.within

theorem Ready.findAll (hready : matcher.Ready program) (hcheck : program.check = .ok ())
    (limit : Option Nat) (text : String) :
    (∀ extent ∈ (matcher.findAll limit text).1, extent.Within text) ∧
      (matcher.findAll limit text).2.Ready program := by
  obtain ⟨hfound, hnext⟩ := hready.matchesUpTo hcheck limit text
  unfold Matcher.findAll
  split
  · exact ⟨nofun, hready⟩
  · refine ⟨?_, hnext⟩
    intro extent hextent
    obtain ⟨slots, hslots, hgroup⟩ := List.mem_filterMap.mp hextent
    exact (hfound slots (Array.mem_toList_iff.mp hslots)).group? hgroup

end Matcher

end TextColumns
