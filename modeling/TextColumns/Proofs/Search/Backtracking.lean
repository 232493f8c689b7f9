import TextColumns.Proofs.Search.Explore

/-!
Backtracking without any memory of places.  `Finds` describes the walk that goes wherever it is
led; it says nothing where threads go in circles.  `explore_eq_of_finds` says that the walk which
passes over visited places finds the same: such a place has either failed already or lies around
the walk, which then would never have come to an end.
-/

namespace TextColumns.Search

open Text (Cursor)

/-- What is found from pending visits by going wherever they lead, in a number of steps. -/
inductive Finds (program : Program) : (steps : Nat) → List Visit → Option Slots → Prop
  | nothing : Finds program 0 [] none
  | accept {visit : Visit} {pending : List Visit} (haccepts : visit.accepts program = true) :
      Finds program 0 (visit :: pending) (some visit.slots)
  | visit {steps : Nat} {visit : Visit} {pending : List Visit} {found : Option Slots}
      (haccepts : visit.accepts program = false)
      (hfinds : Finds program steps (visit.onward program ++ pending) found) :
      Finds program (steps + 1) (visit :: pending) found

variable {program : Program} {cursor : Cursor}

theorem Finds.append_none {a b : List Visit} {steps later : Nat} {found : Option Slots}
    (ha : Finds program steps a none) (hb : Finds program later b found) :
    Finds program (steps + later) (a ++ b) found := by
  generalize hnone : (none : Option Slots) = nothing at ha
  induction ha with
  | nothing => rwa [Nat.zero_add]
  | accept => cases hnone
  | visit haccepts _ ih =>
      rw [Nat.succ_add, List.cons_append]
      refine .visit haccepts ?_
      rw [← List.append_assoc]
      exact ih hnone

theorem Finds.append_some {a : List Visit} {steps : Nat} {slots : Slots}
    (ha : Finds program steps a (some slots)) (b : List Visit) :
    Finds program steps (a ++ b) (some slots) := by
  generalize hsome : some slots = found at ha
  induction ha with
  | nothing => cases hsome
  | accept haccepts =>
      cases hsome
      exact .accept haccepts
  | visit haccepts _ ih =>
      rw [List.cons_append]
      refine .visit haccepts ?_
      rw [← List.append_assoc]
      exact ih hsome

theorem Finds.of_append {a b : List Visit} {steps : Nat} {found : Option Slots}
    (hfinds : Finds program steps (a ++ b) found) :
    (∃ earlier later, steps = earlier + later ∧ Finds program earlier a none ∧
        Finds program later b found) ∨
      ∃ slots, found = some slots ∧ Finds program steps a (some slots) := by
  generalize hab : a ++ b = pending at hfinds
  induction hfinds generalizing a with
  | nothing =>
      obtain ⟨rfl, rfl⟩ := List.append_eq_nil_iff.mp hab
      exact .inl ⟨0, 0, rfl, .nothing, .nothing⟩
  | @accept visit pending haccepts =>
      cases a with
      | nil =>
          obtain rfl : b = visit :: pending := hab
          exact .inl ⟨0, 0, rfl, .nothing, .accept haccepts⟩
      | cons first a =>
          obtain ⟨rfl, rfl⟩ := List.cons.inj hab
          exact .inr ⟨first.slots, rfl, .accept haccepts⟩
  | @visit steps visit pending found haccepts hfinds ih =>
      cases a with
      | nil =>
          obtain rfl : b = visit :: pending := hab
          exact .inl ⟨0, steps + 1, (Nat.zero_add _).symm, .nothing, .visit haccepts hfinds⟩
      | cons first a =>
          obtain ⟨rfl, rfl⟩ := List.cons.inj hab
          rcases ih (List.append_assoc ..) with
            ⟨earlier, later, rfl, ha, hb⟩ | ⟨slots, rfl, ha⟩
          · exact .inl ⟨earlier + 1, later, by omega, .visit haccepts ha, hb⟩
          · exact .inr ⟨slots, rfl, .visit haccepts ha⟩

namespace Visit

def place (visit : Visit) : Nat × Cursor :=
  (visit.address, visit.cursor)

theorem accepts_of_place_eq {a b : Visit} (hplace : a.place = b.place) :
    a.accepts program = b.accepts program := by
  have haddress : a.address = b.address := congrArg Prod.fst hplace
  rw [accepts, accepts, haddress]

theorem onward_place_of_place_eq {a b : Visit} (hplace : a.place = b.place) :
    (a.onward program).map place = (b.onward program).map place := by
  have haddress : a.address = b.address := congrArg Prod.fst hplace
  have hcursor : a.cursor = b.cursor := congrArg Prod.snd hplace
  unfold onward
  rw [haddress, hcursor]
  split
  · rfl
  · simp [place, Function.comp_def]

theorem place_eq_of_key_eq {text : String} {a b : Visit} (ha : Cursor.On text a.cursor)
    (hb : Cursor.On text b.cursor) (hkey : a.key = b.key) : a.place = b.place := by
  obtain ⟨haddress, hoffset⟩ := Prod.mk.inj hkey
  exact Prod.ext haddress (ha.eq_of_offset_eq hb hoffset)

end Visit

theorem Finds.steps_eq {a b : List Visit} {steps other : Nat} {found foundOther : Option Slots}
    (ha : Finds program steps a found) (hb : Finds program other b foundOther)
    (hplaces : a.map Visit.place = b.map Visit.place) :
    steps = other ∧ found.isSome = foundOther.isSome := by
  induction ha generalizing b other with
  | nothing =>
      obtain rfl : b = [] := by simpa using hplaces
      cases hb
      exact ⟨rfl, rfl⟩
  | accept haccepts =>
      cases b with
      | nil => cases hplaces
      | cons first b =>
          obtain ⟨hfirst, -⟩ := List.cons.inj hplaces
          rw [Visit.accepts_of_place_eq hfirst] at haccepts
          cases hb with
          | accept => exact ⟨rfl, rfl⟩
          | visit hother => simp [hother] at haccepts
  | visit haccepts _ ih =>
      cases b with
      | nil => cases hplaces
      | cons first b =>
          obtain ⟨hfirst, hothers⟩ := List.cons.inj hplaces
          rw [Visit.accepts_of_place_eq hfirst] at haccepts
          cases hb with
          | accept hother => simp [hother] at haccepts
          | visit _ hb =>
              obtain ⟨rfl, hsome⟩ := ih hb (by
                rw [List.map_append, List.map_append, Visit.onward_place_of_place_eq hfirst, hothers])
              exact ⟨rfl, hsome⟩

theorem Finds.of_places {a b : List Visit} {steps : Nat} (ha : Finds program steps a none)
    (hplaces : a.map Visit.place = b.map Visit.place) : Finds program steps b none := by
  generalize hnone : (none : Option Slots) = nothing at ha ⊢
  induction ha generalizing b with
  | nothing =>
      obtain rfl : b = [] := by simpa using hplaces
      exact .nothing
  | accept => cases hnone
  | visit haccepts _ ih =>
      cases b with
      | nil => cases hplaces
      | cons first b =>
          obtain ⟨hfirst, hothers⟩ := List.cons.inj hplaces
          rw [Visit.accepts_of_place_eq hfirst] at haccepts
          refine .visit haccepts (ih ?_ hnone)
          rw [List.map_append, List.map_append, Visit.onward_place_of_place_eq hfirst, hothers]

/-- Each place that has been visited has failed, or takes more steps than the walk has left. -/
def Spent (program : Program) (text : String) (fresh : Finset (Nat × Nat)) (steps : Nat) : Prop :=
  ∀ visited : Visit, Cursor.On text visited.cursor → visited.key ∉ fresh →
    (∃ failing, Finds program failing [visited] none) ∨
      ∀ whole found, Finds program whole [visited] found → steps < whole

theorem Spent.mono {text : String} {fresh : Finset (Nat × Nat)} {steps fewer : Nat}
    (hspent : Spent program text fresh steps) (hle : fewer ≤ steps) :
    Spent program text fresh fewer := fun visited hon hkey =>
  (hspent visited hon hkey).imp_right fun hlonger whole found hfinds =>
    Nat.lt_of_le_of_lt hle (hlonger whole found hfinds)

/-- Places that have been visited in between have all failed. -/
def Failed (program : Program) (text : String) (fresh left : Finset (Nat × Nat)) : Prop :=
  ∀ visited : Visit, Cursor.On text visited.cursor → visited.key ∈ fresh → visited.key ∉ left →
    ∃ failing, Finds program failing [visited] none

theorem Spent.of_failed {text : String} {fresh left : Finset (Nat × Nat)} {steps : Nat}
    (hspent : Spent program text fresh steps) (hfailed : Failed program text fresh left) :
    Spent program text left steps := by
  intro visited hon hkey
  by_cases hold : visited.key ∈ fresh
  · exact .inl (hfailed visited hon hold hkey)
  · exact hspent visited hon hold

theorem Failed.trans {text : String} {fresh middle left : Finset (Nat × Nat)}
    (hfirst : Failed program text fresh middle) (hsecond : Failed program text middle left) :
    Failed program text fresh left := by
  intro visited hon hfresh hleft
  by_cases hmiddle : visited.key ∈ middle
  · exact hsecond visited hon hmiddle hleft
  · exact hfirst visited hon hfresh hmiddle

/-- A visit whose walk has more steps than those inside of it is spent there. -/
theorem Spent.enter {text : String} {fresh : Finset (Nat × Nat)} {steps inside : Nat}
    {visit : Visit} {found : Option Slots} (hspent : Spent program text fresh steps)
    (hle : inside ≤ steps) (hon : Cursor.On text visit.cursor)
    (hvisit : Finds program (inside + 1) [visit] found) :
    Spent program text (fresh.erase visit.key) inside := by
  intro visited honVisited hkey
  by_cases hold : visited.key ∈ fresh
  · have hsame : visited.key = visit.key := by
      by_contra hne
      exact hkey (Finset.mem_erase.mpr ⟨hne, hold⟩)
    have hplace := Visit.place_eq_of_key_eq honVisited hon hsame
    refine .inr fun whole other hfinds => ?_
    obtain ⟨rfl, -⟩ := hfinds.steps_eq hvisit (by simp [hplace])
    exact Nat.lt_succ_self inside
  · exact hspent.mono hle visited honVisited hold

theorem failed_erase {text : String} {fresh : Finset (Nat × Nat)} {steps : Nat} {visit : Visit}
    (hon : Cursor.On text visit.cursor) (hvisit : Finds program steps [visit] none) :
    Failed program text fresh (fresh.erase visit.key) := by
  intro visited honVisited hfresh hkey
  have hsame : visited.key = visit.key := by
    by_contra hne
    exact hkey (Finset.mem_erase.mpr ⟨hne, hfresh⟩)
  have hplace := Visit.place_eq_of_key_eq honVisited hon hsame
  exact ⟨steps, hvisit.of_places (by simp [hplace])⟩

theorem Spent.failed {text : String} {fresh : Finset (Nat × Nat)} {steps whole : Nat}
    {visit : Visit} {found : Option Slots} (hspent : Spent program text fresh steps)
    (hon : Cursor.On text visit.cursor) (hkey : visit.key ∉ fresh)
    (hvisit : Finds program whole [visit] found) (hle : whole ≤ steps) : found = none := by
  rcases hspent visit hon hkey with ⟨failing, hfailing⟩ | hlonger
  · simpa using (hvisit.steps_eq hfailing rfl).2
  · exact absurd (hlonger whole found hvisit) (Nat.not_lt.mpr hle)

/-- The walk that passes over visited places comes past the visits `ahead` with what they find. -/
theorem explore_append_of_finds {text : String} {steps : Nat} {ahead behind : List Visit}
    {fresh : Finset (Nat × Nat)} {found : Option Slots}
    (hon : ∀ visit ∈ ahead, Cursor.On text visit.cursor)
    (hfinds : Finds program steps ahead found) (hspent : Spent program text fresh steps) :
    (∃ slots, found = some slots ∧ explore program fresh (ahead ++ behind) = some slots) ∨
      ∃ left, found = none ∧ Failed program text fresh left ∧
        explore program fresh (ahead ++ behind) = explore program left behind := by
  induction steps using Nat.strongRecOn generalizing ahead behind fresh found with
  | ind steps ih =>
      cases hfinds with
      | nothing =>
          exact .inr ⟨fresh, rfl, fun visited _ hfresh hleft => absurd hfresh hleft, rfl⟩
      | @accept visit pending haccepts =>
          have hkey : visit.key ∈ fresh := by
            by_contra hkey
            cases hspent.failed (hon visit List.mem_cons_self) hkey (.accept haccepts)
              (Nat.le_refl 0)
          exact .inl ⟨visit.slots, rfl, explore_of_accepts hkey haccepts⟩
      | @visit steps visit pending found haccepts hfinds =>
          obtain ⟨honVisit, honPending⟩ := List.forall_mem_cons.mp hon
          have honOnward : ∀ next ∈ visit.onward program, Cursor.On text next.cursor :=
            fun _ => Visit.on_of_mem_onward honVisit
          have hwhole {inside : Nat} {found : Option Slots}
              (hinside : Finds program inside (visit.onward program) found) :
              Finds program (inside + 1) [visit] found :=
            .visit haccepts (by rwa [List.append_nil])
          rcases hfinds.of_append with ⟨inside, later, rfl, hinside, hlater⟩ | ⟨slots, rfl, hinside⟩
          · -- The visit fails, now or when its place was visited before.
            obtain ⟨middle, hfailed, hpast⟩ : ∃ middle, Failed program text fresh middle ∧
                explore program fresh (visit :: (pending ++ behind)) =
                  explore program middle (pending ++ behind) := by
              by_cases hkey : visit.key ∈ fresh
              · have hspentInside := hspent.enter (by omega) honVisit (hwhole hinside)
                rcases ih inside (by omega) honOnward hinside hspentInside with
                  ⟨slots, hnone, -⟩ | ⟨middle, -, hfailed, hpast⟩
                · cases hnone
                · exact ⟨middle, (failed_erase honVisit (hwhole hinside)).trans hfailed,
                    (explore_of_mem hkey haccepts).trans hpast⟩
              · exact ⟨fresh, fun visited _ hfresh hleft => absurd hfresh hleft,
                  explore_of_not_mem hkey⟩
            rcases ih later (by omega) honPending hlater
                ((hspent.of_failed hfailed).mono (by omega)) with
              ⟨slots, rfl, hfound⟩ | ⟨left, rfl, hleft, hrest⟩
            · exact .inl ⟨slots, rfl, hpast.trans hfound⟩
            · exact .inr ⟨left, rfl, hfailed.trans hleft, hpast.trans hrest⟩
          · -- The visit finds something, so its place has not been visited.
            have hkey : visit.key ∈ fresh := by
              by_contra hkey
              cases hspent.failed honVisit hkey (hwhole hinside) (Nat.le_refl _)
            have hspentInside := hspent.enter (Nat.le_succ _) honVisit (hwhole hinside)
            rcases ih steps (Nat.lt_succ_self _) honOnward hinside hspentInside with
              ⟨slots', hslots, hfound⟩ | ⟨left, hnone, -⟩
            · refine .inl ⟨slots', hslots, ?_⟩
              rw [List.cons_append, explore_of_mem hkey haccepts]
              exact hfound
            · cases hnone

/-- The walk that passes over visited places finds what backtracking finds. -/
theorem explore_eq_of_finds {text : String} {steps : Nat} {pending : List Visit}
    {found : Option Slots} (hon : ∀ visit ∈ pending, Cursor.On text visit.cursor)
    (hfinds : Finds program steps pending found) :
    explore program (everywhere program text) pending = found := by
  have hspent : Spent program text (everywhere program text) steps := by
    intro visited honVisited hkey
    have haddress : ¬ visited.address < program.size := fun hlt =>
      hkey (mem_everywhere.mpr ⟨hlt, honVisited.offset_le⟩)
    have hnone : program.instructions[visited.address]? = none :=
      Array.getElem?_eq_none (Nat.le_of_not_lt haddress)
    refine .inl ⟨1, .visit (by simp [Visit.accepts, hnone]) ?_⟩
    simpa [Visit.onward, hnone] using Finds.nothing
  have hpast := @explore_append_of_finds program text steps pending [] _ found hon hfinds hspent
  rw [List.append_nil] at hpast
  rcases hpast with ⟨slots, rfl, hfound⟩ | ⟨left, rfl, -, hfound⟩
  · exact hfound
  · rw [hfound, explore_nil]

end TextColumns.Search
