import TextColumns.Proofs.Search.Regions

/-!
Two ways to go on from the end of a loop: back to the choice in front of it, or by the same choice
made anew.  `explore_eq_of_choosesAnew` says that the depth-first walk finds the same either way if
no round of the loop comes to its end where it began.  Then whatever lies behind the choice at a
place has been visited by the time a thread comes to that choice again.
-/

namespace TextColumns.Search

open Text (Cursor)

/-- Programs that differ in the end of a loop: the one goes back to the choice at `entry`, the other
chooses between another round and the exit itself. -/
structure ChoosesAnew (program other : Program) (entry stop : Nat) : Prop where
  choice : program.instructions[entry]? = some (.split (entry + 1) (stop + 1))
  returns : program.instructions[stop]? = some (.jump entry)
  chooses : other.instructions[stop]? = some (.split (entry + 1) (stop + 1))
  elsewhere : ∀ address, address ≠ stop →
    other.instructions[address]? = program.instructions[address]?
  classes : other.classes = program.classes

def Visit.InRound (inside : Cursor → Nat → Prop) (cursor : Cursor) (visit : Visit) : Prop :=
  cursor.offset < visit.cursor.offset ∨ visit.cursor = cursor ∧ inside cursor visit.address

/-- Where the choice in front of a loop has been visited, the first instruction of the round has
been visited or is pending, and so is the exit, in front of which nothing is pending but the
round. -/
def RoundsFirst (text : String) (inside : Cursor → Nat → Prop) (entry stop : Nat)
    (fresh : Finset (Nat × Nat)) (pending : List Visit) : Prop :=
  ∀ cursor, Cursor.On text cursor → (entry, cursor.offset) ∉ fresh →
    ∃ round others, pending = round ++ others ∧
      (∀ visit ∈ round, visit.InRound inside cursor) ∧
      ((entry + 1, cursor.offset) ∈ fresh →
        ∃ visit ∈ round, visit.key = (entry + 1, cursor.offset)) ∧
      ((stop + 1, cursor.offset) ∈ fresh →
        ∃ visit ∈ others.head?, visit.key = (stop + 1, cursor.offset))

/-- Places that two walks have left: the second may still come to the choice in front of the loop
where the first has been before. -/
structure Leaves (entry : Nat) (fresh freshOther : Finset (Nat × Nat)) : Prop where
  subset : ∀ key ∈ fresh, key ∈ freshOther
  elsewhere : ∀ key ∈ freshOther, key.1 ≠ entry → key ∈ fresh

/-- What is pending in two walks: the same, or the first is about to choose what the second has
chosen already. -/
inductive Abreast (entry stop : Nat) : List Visit → List Visit → Prop
  | same (pending : List Visit) : Abreast entry stop pending pending
  | chosen (cursor : Cursor) (slots : Slots) (pending : List Visit) :
      Abreast entry stop (⟨entry, cursor, slots⟩ :: pending)
        (⟨entry + 1, cursor, slots⟩ :: ⟨stop + 1, cursor, slots⟩ :: pending)

section Leaves

variable {entry : Nat} {fresh freshOther : Finset (Nat × Nat)} {key : Nat × Nat}

theorem Leaves.refl (fresh : Finset (Nat × Nat)) : Leaves entry fresh fresh :=
  ⟨fun _ => id, fun _ hkey _ => hkey⟩

theorem Leaves.erase (hleaves : Leaves entry fresh freshOther) (key : Nat × Nat) :
    Leaves entry (fresh.erase key) (freshOther.erase key) where
  subset other hother :=
    have ⟨hne, hmem⟩ := Finset.mem_erase.mp hother
    Finset.mem_erase.mpr ⟨hne, hleaves.subset other hmem⟩
  elsewhere other hother hentry :=
    have ⟨hne, hmem⟩ := Finset.mem_erase.mp hother
    Finset.mem_erase.mpr ⟨hne, hleaves.elsewhere other hmem hentry⟩

theorem Leaves.erase_first (hleaves : Leaves entry fresh freshOther) (offset : Nat) :
    Leaves entry (fresh.erase (entry, offset)) freshOther where
  subset other hother := hleaves.subset other (Finset.mem_of_mem_erase hother)
  elsewhere other hother hentry := by
    refine Finset.mem_erase.mpr ⟨fun heq => ?_, hleaves.elsewhere other hother hentry⟩
    exact hentry (congrArg Prod.fst heq)

theorem Leaves.erase_second (hleaves : Leaves entry fresh freshOther) (hkey : key ∉ fresh) :
    Leaves entry fresh (freshOther.erase key) where
  subset other hother := by
    refine Finset.mem_erase.mpr ⟨fun heq => ?_, hleaves.subset other hother⟩
    exact hkey (heq ▸ hother)
  elsewhere other hother := hleaves.elsewhere other (Finset.mem_of_mem_erase hother)

theorem Leaves.not_mem (hleaves : Leaves entry fresh freshOther) (hkey : key ∉ fresh)
    (hentry : key.1 ≠ entry) : key ∉ freshOther :=
  fun hmem => hkey (hleaves.elsewhere key hmem hentry)

end Leaves

section Rounds

variable {program : Program} {text : String} {inside : Cursor → Nat → Prop} {entry stop : Nat}
  {fresh : Finset (Nat × Nat)} {visit : Visit} {pending : List Visit}

theorem Visit.InRound.onward {cursor : Cursor}
    (hretains : Retains program cursor (entry + 1) stop (inside cursor))
    (hround : visit.InRound inside cursor) {next : Visit} (hnext : next ∈ visit.onward program) :
    next.InRound inside cursor := by
  have hle := Visit.offset_le_of_mem_onward hnext
  rcases hround with hlt | ⟨hcursor, hinside⟩
  · exact .inl (Nat.lt_of_lt_of_le hlt hle)
  · cases hrests : visit.rests program with
    | true => exact .inl (hcursor ▸ Visit.offset_lt_of_mem_onward hnext hrests)
    | false =>
        have hsame : next.cursor = cursor :=
          (Visit.cursor_of_mem_onward hnext hrests).trans hcursor
        obtain ⟨instruction, hinstruction, hplace, -⟩ := Visit.mem_onward.mp hnext
        rw [hcursor] at hplace
        exact .inr ⟨hsame, hretains.closed _ _ _ hinside hinstruction hplace hsame⟩

theorem onward_of_split {primary secondary : Nat}
    (hinstruction : program.instructions[visit.address]? = some (.split primary secondary)) :
    visit.onward program =
      [⟨primary, visit.cursor, visit.slots⟩, ⟨secondary, visit.cursor, visit.slots⟩] := by
  rw [Visit.onward, hinstruction]
  rfl

theorem RoundsFirst.onward (hretains : ∀ cursor, Cursor.On text cursor →
      Retains program cursor (entry + 1) stop (inside cursor))
    (hchoice : program.instructions[entry]? = some (.split (entry + 1) (stop + 1)))
    (hrounds : RoundsFirst text inside entry stop fresh (visit :: pending))
    (hon : Cursor.On text visit.cursor) :
    RoundsFirst text inside entry stop (fresh.erase visit.key)
      (visit.onward program ++ pending) := by
  intro cursor hcursor hentered
  by_cases hnow : (entry, cursor.offset) = visit.key
  · -- The round begins with this visit.
    obtain ⟨haddress, hoffset⟩ := Prod.mk.inj hnow
    obtain rfl : cursor = visit.cursor := hcursor.eq_of_offset_eq hon hoffset
    rw [haddress] at hchoice
    rw [onward_of_split hchoice, ← haddress]
    refine ⟨[_], _ :: pending, rfl, ?_, fun _ => ⟨_, .head _, rfl⟩, fun _ => ⟨_, rfl, rfl⟩⟩
    exact List.forall_mem_singleton.mpr (.inr ⟨rfl, (hretains visit.cursor hon).entered⟩)
  · have hbefore : (entry, cursor.offset) ∉ fresh := fun hmem =>
      hentered (Finset.mem_erase.mpr ⟨hnow, hmem⟩)
    obtain ⟨round, others, hpending, hround, hfirst, hexit⟩ := hrounds cursor hcursor hbefore
    cases round with
    | nil =>
        obtain rfl : visit :: pending = others := hpending
        refine ⟨[], _, rfl, nofun, fun hmem => ?_, fun hmem => ?_⟩
        · exact hfirst (Finset.mem_of_mem_erase hmem)
        · obtain ⟨hne, hmem⟩ := Finset.mem_erase.mp hmem
          obtain ⟨_, hhead, hkey⟩ := hexit hmem
          cases hhead
          exact absurd hkey.symm hne
    | cons first round =>
        obtain ⟨rfl, rfl⟩ := List.cons.inj hpending
        obtain ⟨hvisit, hround⟩ := List.forall_mem_cons.mp hround
        refine ⟨visit.onward program ++ round, others, (List.append_assoc ..).symm, ?_,
          fun hmem => ?_, fun hmem => hexit (Finset.mem_of_mem_erase hmem)⟩
        · exact List.forall_mem_append.mpr
            ⟨fun _ => hvisit.onward (hretains cursor hcursor), hround⟩
        · obtain ⟨hne, hmem⟩ := Finset.mem_erase.mp hmem
          obtain ⟨begun, hbegun, hkey⟩ := hfirst hmem
          rcases List.mem_cons.mp hbegun with rfl | hbegun
          · exact absurd hkey.symm hne
          · exact ⟨begun, List.mem_append_right _ hbegun, hkey⟩

theorem RoundsFirst.drop (hrounds : RoundsFirst text inside entry stop fresh (visit :: pending))
    (hkey : visit.key ∉ fresh) : RoundsFirst text inside entry stop fresh pending := by
  intro cursor hcursor hentered
  obtain ⟨round, others, hpending, hround, hfirst, hexit⟩ := hrounds cursor hcursor hentered
  cases round with
  | nil =>
      obtain rfl : visit :: pending = others := hpending
      refine ⟨[], pending, rfl, nofun, hfirst, fun hmem => ?_⟩
      obtain ⟨_, hhead, hexitKey⟩ := hexit hmem
      cases hhead
      exact absurd (hexitKey ▸ hmem) hkey
  | cons first round =>
      obtain ⟨rfl, rfl⟩ := List.cons.inj hpending
      refine ⟨round, others, rfl, (List.forall_mem_cons.mp hround).2, fun hmem => ?_, hexit⟩
      obtain ⟨begun, hbegun, hbegunKey⟩ := hfirst hmem
      rcases List.mem_cons.mp hbegun with rfl | hbegun
      · exact absurd (hbegunKey ▸ hmem) hkey
      · exact ⟨begun, hbegun, hbegunKey⟩

/-- A thread that comes to the choice again finds all visited that lies behind. -/
theorem RoundsFirst.passed {cursor : Cursor} {slots : Slots}
    (hretains : Retains program cursor (entry + 1) stop (inside cursor))
    (hrounds : RoundsFirst text inside entry stop fresh (⟨entry, cursor, slots⟩ :: pending))
    (hon : Cursor.On text cursor) (hkey : (entry, cursor.offset) ∉ fresh) :
    (entry + 1, cursor.offset) ∉ fresh ∧ (stop + 1, cursor.offset) ∉ fresh := by
  obtain ⟨round, others, hpending, hround, hfirst, hexit⟩ := hrounds cursor hon hkey
  obtain ⟨-, hlt⟩ := hretains.between _ hretains.entered
  cases round with
  | nil =>
      obtain rfl : _ :: pending = others := hpending
      refine ⟨fun hmem => ?_, fun hmem => ?_⟩
      · obtain ⟨_, hbegun, -⟩ := hfirst hmem
        cases hbegun
      · obtain ⟨_, hhead, hexitKey⟩ := hexit hmem
        cases hhead
        have hentry : entry = stop + 1 := congrArg Prod.fst hexitKey
        omega
  | cons first round =>
      obtain ⟨rfl, -⟩ := List.cons.inj hpending
      rcases (List.forall_mem_cons.mp hround).1 with hbehind | ⟨-, hinside⟩
      · exact absurd hbehind (Nat.lt_irrefl _)
      · exact absurd (hretains.between _ hinside).1 (Nat.lt_irrefl _)

end Rounds

section Walks

variable {program other : Program} {text : String} {inside : Cursor → Nat → Prop}
  {entry stop : Nat} {fresh freshOther : Finset (Nat × Nat)} {pending pendingOther : List Visit}

theorem ChoosesAnew.moves_eq (hanew : ChoosesAnew program other entry stop) (cursor : Cursor)
    (address : Nat) (instruction : Instruction) :
    moves other cursor address instruction = moves program cursor address instruction := by
  have haccepts (c : Char) : other.accepts? c instruction = program.accepts? c instruction := by
    cases instruction <;> simp only [Program.accepts?, hanew.classes]
  cases instruction <;> simp only [moves, haccepts]

theorem ChoosesAnew.onward_eq (hanew : ChoosesAnew program other entry stop) {visit : Visit}
    (hstop : visit.address ≠ stop) : visit.onward other = visit.onward program := by
  simp only [Visit.onward, hanew.elsewhere _ hstop, hanew.moves_eq]

theorem ChoosesAnew.accepts_eq (hanew : ChoosesAnew program other entry stop) (visit : Visit) :
    visit.accepts other = visit.accepts program := by
  by_cases hstop : visit.address = stop
  · rw [Visit.accepts, Visit.accepts, hstop, hanew.returns, hanew.chooses]
    rfl
  · rw [Visit.accepts, Visit.accepts, hanew.elsewhere _ hstop]

theorem RoundsFirst.explore_passed {cursor : Cursor} {slots : Slots}
    (hretains : Retains program cursor (entry + 1) stop (inside cursor))
    (hrounds : RoundsFirst text inside entry stop fresh (⟨entry, cursor, slots⟩ :: pending))
    (hon : Cursor.On text cursor) (hkey : (entry, cursor.offset) ∉ fresh)
    (hleaves : Leaves entry fresh freshOther) :
    explore other freshOther
        (⟨entry + 1, cursor, slots⟩ :: ⟨stop + 1, cursor, slots⟩ :: pending) =
      explore other freshOther pending := by
  obtain ⟨hfirst, hexit⟩ := hrounds.passed hretains hon hkey
  have hlt := hretains.between _ hretains.entered
  have hfirst : (entry + 1, cursor.offset) ∉ freshOther :=
    hleaves.not_mem hfirst (Nat.succ_ne_self entry)
  have hexit : (stop + 1, cursor.offset) ∉ freshOther :=
    hleaves.not_mem hexit (show stop + 1 ≠ entry by omega)
  exact (explore_of_not_mem hfirst).trans (explore_of_not_mem hexit)

theorem RoundsFirst.explore_again {visit : Visit} (hanew : ChoosesAnew program other entry stop)
    (hretains : Retains program visit.cursor (entry + 1) stop (inside visit.cursor))
    (hrounds : RoundsFirst text inside entry stop fresh (visit :: pending))
    (hon : Cursor.On text visit.cursor) (hkey : visit.key ∉ fresh) (hother : visit.key ∈ freshOther)
    (hleaves : Leaves entry fresh freshOther) :
    explore other freshOther (visit :: pending) =
      explore other (freshOther.erase visit.key) pending := by
  -- Only the choice can have been visited by the first walk alone.
  obtain ⟨address, cursor, slots⟩ := visit
  obtain rfl : address = entry := by
    by_contra hentry
    exact hleaves.not_mem hkey hentry hother
  have hlt : address < stop := by
    have hbetween := hretains.between _ hretains.entered
    omega
  have haccepts : (⟨address, cursor, slots⟩ : Visit).accepts other = false := by
    rw [hanew.accepts_eq, Visit.accepts, hanew.choice]
    rfl
  have honward : (⟨address, cursor, slots⟩ : Visit).onward other = _ :=
    (hanew.onward_eq (Nat.ne_of_lt hlt)).trans (onward_of_split hanew.choice)
  rw [explore_of_mem hother haccepts, honward]
  exact hrounds.explore_passed hretains hon hkey (hleaves.erase_second hkey)

theorem explore_eq_of_abreast (hanew : ChoosesAnew program other entry stop)
    (hretains : ∀ cursor, Cursor.On text cursor →
      Retains program cursor (entry + 1) stop (inside cursor))
    (hon : ∀ visit ∈ pending, Cursor.On text visit.cursor)
    (hrounds : RoundsFirst text inside entry stop fresh pending)
    (hleaves : Leaves entry fresh freshOther) (habreast : Abreast entry stop pending pendingOther) :
    explore program fresh pending = explore other freshOther pendingOther := by
  fun_induction explore program fresh pending generalizing freshOther pendingOther with
  | case1 =>
      cases habreast
      exact explore_nil.symm
  | case2 fresh visit pending hfresh haccepts =>
      cases habreast with
      | same =>
          rw [← hanew.accepts_eq] at haccepts
          exact (explore_of_accepts (hleaves.subset _ hfresh) haccepts).symm
      | chosen cursor slots =>
          rw [Visit.accepts, hanew.choice] at haccepts
          cases haccepts
  | case3 fresh visit pending hfresh haccepts ih =>
      have haccepts : visit.accepts other = false := by simpa [hanew.accepts_eq] using haccepts
      obtain ⟨honVisit, honPending⟩ := List.forall_mem_cons.mp hon
      have honOnward : ∀ next ∈ visit.onward program ++ pending, Cursor.On text next.cursor :=
        List.forall_mem_append.mpr ⟨fun _ => Visit.on_of_mem_onward honVisit, honPending⟩
      have hroundsOnward := hrounds.onward hretains hanew.choice honVisit
      cases habreast with
      | same =>
          rw [explore_of_mem (hleaves.subset _ hfresh) haccepts]
          refine ih honOnward hroundsOnward (hleaves.erase visit.key) ?_
          by_cases hstop : visit.address = stop
          · -- One walk goes back to the choice, the other chooses.
            have hback : visit.onward program = [⟨entry, visit.cursor, visit.slots⟩] := by
              rw [Visit.onward, hstop, hanew.returns]
              rfl
            rw [hback, onward_of_split (by rw [hstop, hanew.chooses])]
            exact .chosen visit.cursor visit.slots pending
          · rw [hanew.onward_eq hstop]
            exact .same _
      | chosen cursor slots =>
          have honward := @onward_of_split program ⟨entry, cursor, slots⟩ _ _ hanew.choice
          refine ih honOnward hroundsOnward (hleaves.erase_first cursor.offset) ?_
          rw [honward]
          exact .same _
  | case4 fresh visit pending hkey ih =>
      obtain ⟨honVisit, honPending⟩ := List.forall_mem_cons.mp hon
      have hdropped := hrounds.drop hkey
      cases habreast with
      | same =>
          by_cases hother : visit.key ∈ freshOther
          · rw [hrounds.explore_again hanew (hretains _ honVisit) honVisit hkey hother hleaves]
            exact ih honPending hdropped (hleaves.erase_second hkey) (.same _)
          · rw [explore_of_not_mem hother]
            exact ih honPending hdropped hleaves (.same _)
      | chosen cursor slots =>
          exact (ih honPending hdropped hleaves (.same _)).trans
            (hrounds.explore_passed (hretains cursor honVisit) honVisit hkey hleaves).symm

/-- The walk finds the same whether the end of the loop goes back or chooses anew. -/
theorem explore_eq_of_choosesAnew (hanew : ChoosesAnew program other entry stop)
    (hsize : other.size = program.size)
    (hretains : ∀ cursor, Cursor.On text cursor →
      Retains program cursor (entry + 1) stop (inside cursor))
    (hon : ∀ visit ∈ pending, Cursor.On text visit.cursor) :
    explore program (everywhere program text) pending =
      explore other (everywhere other text) pending := by
  have heverywhere : everywhere other text = everywhere program text := by
    rw [everywhere, everywhere, hsize]
  rw [heverywhere]
  refine explore_eq_of_abreast hanew hretains hon ?_ (.refl _) (.same pending)
  -- Nothing has been visited yet.
  intro cursor hcursor hentered
  have hlt := (Array.getElem?_eq_some_iff.mp hanew.choice).1
  exact absurd (mem_everywhere.mpr ⟨hlt, hcursor.offset_le⟩) hentered

end Walks

end TextColumns.Search
