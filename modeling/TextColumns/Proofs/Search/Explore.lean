import TextColumns.Proofs.Text.Cursor
import TextColumns.Search.Walk
import Mathlib.Data.Finset.Prod
import Mathlib.Data.Finset.Range

/-!
The walk of a single thread through a program, which tries what is preferred first and returns to
the rest when that fails.  A place at which it has been before is passed over.  `explore_settle`
says that the visits of one offset can be made all at once, before any visit further on.
-/

namespace TextColumns.Search

open Text (Cursor)

def moves (program : Program) (cursor : Cursor) (address : Nat) :
    Instruction → List (Nat × Cursor)
  | .jump target => [(target, cursor)]
  | .split primary secondary => [(primary, cursor), (secondary, cursor)]
  | .save _ => [(address + 1, cursor)]
  | .assertion a => if a.holds cursor then [(address + 1, cursor)] else []
  | instruction =>
    match cursor.next? with
    | none => []
    | some (c, behind) =>
      if program.accepts? c instruction = some true then [(address + 1, behind)] else []

def recorded (cursor : Cursor) (slots : Slots) : Instruction → Slots
  | .save slot => slots.setIfInBounds slot (some cursor.offset)
  | _ => slots

/-- Whether a thread stays at an instruction until the next character is read. -/
def rests : Instruction → Bool
  | .assertion _ => false
  | .split _ _ => false
  | .jump _ => false
  | .save _ => false
  | _ => true

structure Visit where
  address : Nat
  cursor : Cursor
  slots : Slots

namespace Visit

def key (visit : Visit) : Nat × Nat :=
  (visit.address, visit.cursor.offset)

def accepts (program : Program) (visit : Visit) : Bool :=
  program.instructions[visit.address]? == some .accept

def rests (program : Program) (visit : Visit) : Bool :=
  program.instructions[visit.address]?.any Search.rests

def onward (program : Program) (visit : Visit) : List Visit :=
  match program.instructions[visit.address]? with
  | none => []
  | some instruction =>
    (moves program visit.cursor visit.address instruction).map fun place =>
      ⟨place.1, place.2, recorded visit.cursor visit.slots instruction⟩

end Visit

/-- The depth-first walk over pending visits, the first of them first.  `fresh` has the pairs of an
address and an offset that have not been visited yet; the walk ends where a thread accepts. -/
def explore (program : Program) (fresh : Finset (Nat × Nat)) (pending : List Visit) :
    Option Slots :=
  match pending with
  | [] => none
  | visit :: pending =>
    if visit.key ∈ fresh then
      if visit.accepts program then some visit.slots
      else explore program (fresh.erase visit.key) (visit.onward program ++ pending)
    else explore program fresh pending
termination_by (fresh.card, pending.length)
decreasing_by
  · exact Prod.Lex.left _ _ (Finset.card_erase_lt_of_mem ‹_›)
  · exact Prod.Lex.right _ (Nat.lt_succ_self _)

def everywhere (program : Program) (text : String) : Finset (Nat × Nat) :=
  Finset.range program.size ×ˢ Finset.range (text.utf8ByteSize + 1)

/-- The visits that rest, of all to which the pending ones lead at the same place of the text. -/
def settle (program : Program) (fresh : Finset (Nat × Nat)) (pending : List Visit) :
    Finset (Nat × Nat) × List Visit :=
  match pending with
  | [] => (fresh, [])
  | visit :: pending =>
    if visit.key ∈ fresh then
      if visit.rests program then
        let settled := settle program (fresh.erase visit.key) pending
        (settled.1, visit :: settled.2)
      else settle program (fresh.erase visit.key) (visit.onward program ++ pending)
    else settle program fresh pending
termination_by (fresh.card, pending.length)
decreasing_by
  · exact Prod.Lex.left _ _ (Finset.card_erase_lt_of_mem ‹_›)
  · exact Prod.Lex.left _ _ (Finset.card_erase_lt_of_mem ‹_›)
  · exact Prod.Lex.right _ (Nat.lt_succ_self _)

/-- What resting visits lead to over the next character, up to the first that accepts, and the
slots of that one. -/
def advance (program : Program) : List Visit → List Visit × Option Slots
  | [] => ([], none)
  | visit :: others =>
    if visit.accepts program then ([], some visit.slots)
    else
      let advanced := advance program others
      (visit.onward program ++ advanced.1, advanced.2)

/-- The walk after the visits of one offset have been made: with the visits `ahead` of them, what
they lead to, and the visits `behind` them unless one of them accepts. -/
def exploreFrom (program : Program) (ahead behind : List Visit)
    (settled : Finset (Nat × Nat) × List Visit) : Option Slots :=
  match advance program settled.2 with
  | (onward, some slots) => (explore program settled.1 (ahead ++ onward)).or (some slots)
  | (onward, none) => explore program settled.1 (ahead ++ (onward ++ behind))

variable {program : Program} {cursor : Cursor} {fresh : Finset (Nat × Nat)}

theorem mem_everywhere {text : String} {key : Nat × Nat} :
    key ∈ everywhere program text ↔ key.1 < program.size ∧ key.2 ≤ text.utf8ByteSize := by
  rw [everywhere, Finset.mem_product, Finset.mem_range, Finset.mem_range, Nat.lt_succ_iff]

theorem cursor_of_mem_moves {address : Nat} {instruction : Instruction}
    {place : Nat × Cursor} (hplace : place ∈ moves program cursor address instruction) :
    if rests instruction then ∃ c, cursor.next? = some (c, place.2) else place.2 = cursor := by
  cases instruction with
  | jump target => simp_all [moves, rests]
  | split primary secondary =>
      simp only [moves, List.mem_cons, List.not_mem_nil, or_false] at hplace
      rcases hplace with rfl | rfl <;> rfl
  | save slot => simp_all [moves, rests]
  | assertion a =>
      simp only [moves] at hplace
      split at hplace <;> simp_all [rests]
  | char _ _ | any _ | oneOf _ _ | accept =>
      simp only [moves] at hplace
      split at hplace
      next => simp at hplace
      next c behind hnext =>
        split at hplace
        · simp only [List.mem_singleton] at hplace
          subst hplace
          exact ⟨c, hnext⟩
        · simp at hplace

theorem address_of_mem_moves {instruction : Instruction} {address : Nat} {place : Nat × Cursor}
    (hjump : ∀ target, instruction ≠ .jump target)
    (hsplit : ∀ primary secondary, instruction ≠ .split primary secondary)
    (hplace : place ∈ moves program cursor address instruction) : place.1 = address + 1 := by
  cases instruction with
  | jump target => exact absurd rfl (hjump target)
  | split primary secondary => exact absurd rfl (hsplit primary secondary)
  | save slot => exact List.mem_singleton.mp hplace ▸ rfl
  | assertion a =>
      rw [moves] at hplace
      split at hplace
      · exact List.mem_singleton.mp hplace ▸ rfl
      · cases hplace
  | char _ _ | any _ | oneOf _ _ | accept =>
      dsimp only [moves] at hplace
      split at hplace
      · cases hplace
      · split at hplace
        · exact List.mem_singleton.mp hplace ▸ rfl
        · cases hplace

namespace Visit

theorem mem_onward {visit next : Visit} :
    next ∈ visit.onward program ↔
      ∃ instruction, program.instructions[visit.address]? = some instruction ∧
        (next.address, next.cursor) ∈
          moves program visit.cursor visit.address instruction ∧
        next.slots = recorded visit.cursor visit.slots instruction := by
  cases hinstruction : program.instructions[visit.address]? with
  | none => simp [onward, hinstruction]
  | some instruction =>
      simp only [onward, hinstruction, Option.some.injEq, exists_eq_left', List.mem_map,
        Prod.exists]
      constructor
      · intro hplace
        obtain ⟨address, cursor, hplace, rfl⟩ := hplace
        exact ⟨hplace, rfl⟩
      · intro hslots
        obtain ⟨hplace, hslots⟩ := hslots
        exact ⟨_, _, hplace, by rw [← hslots]⟩

theorem cursor_of_mem_onward {visit next : Visit} (hnext : next ∈ visit.onward program)
    (hrests : visit.rests program = false) : next.cursor = visit.cursor := by
  obtain ⟨instruction, hinstruction, hplace, -⟩ := mem_onward.mp hnext
  have hstays : Search.rests instruction = false := by
    simpa [rests, hinstruction] using hrests
  simpa [hstays] using cursor_of_mem_moves hplace

theorem next?_of_mem_onward {visit next : Visit} (hnext : next ∈ visit.onward program)
    (hrests : visit.rests program = true) :
    ∃ c, visit.cursor.next? = some (c, next.cursor) := by
  obtain ⟨instruction, hinstruction, hplace, -⟩ := mem_onward.mp hnext
  have hstays : Search.rests instruction = true := by
    simpa [rests, hinstruction] using hrests
  simpa [hstays] using cursor_of_mem_moves hplace

theorem on_of_mem_onward {text : String} {visit next : Visit} (hon : Cursor.On text visit.cursor)
    (hnext : next ∈ visit.onward program) : Cursor.On text next.cursor := by
  cases hrests : visit.rests program with
  | true =>
      obtain ⟨c, hc⟩ := next?_of_mem_onward hnext hrests
      exact hon.next? hc
  | false => rwa [cursor_of_mem_onward hnext hrests]

theorem offset_lt_of_mem_onward {visit next : Visit} (hnext : next ∈ visit.onward program)
    (hrests : visit.rests program = true) : visit.cursor.offset < next.cursor.offset := by
  obtain ⟨c, hc⟩ := next?_of_mem_onward hnext hrests
  exact Cursor.offset_lt_of_next? hc

theorem offset_le_of_mem_onward {visit next : Visit} (hnext : next ∈ visit.onward program) :
    visit.cursor.offset ≤ next.cursor.offset := by
  cases hrests : visit.rests program with
  | true => exact Nat.le_of_lt (offset_lt_of_mem_onward hnext hrests)
  | false => rw [cursor_of_mem_onward hnext hrests]

theorem rests_of_accepts {visit : Visit} (haccepts : visit.accepts program = true) :
    visit.rests program = true := by
  have hinstruction : program.instructions[visit.address]? = some .accept :=
    eq_of_beq haccepts
  simp [rests, hinstruction, Search.rests]

end Visit

@[simp] theorem explore_nil : explore program fresh [] = none := by
  rw [explore]

theorem explore_of_not_mem {visit : Visit} {pending : List Visit} (hkey : visit.key ∉ fresh) :
    explore program fresh (visit :: pending) = explore program fresh pending := by
  rw [explore, if_neg hkey]

theorem explore_of_accepts {visit : Visit} {pending : List Visit} (hkey : visit.key ∈ fresh)
    (haccepts : visit.accepts program = true) :
    explore program fresh (visit :: pending) = some visit.slots := by
  rw [explore, if_pos hkey, if_pos haccepts]

theorem explore_of_mem {visit : Visit} {pending : List Visit} (hkey : visit.key ∈ fresh)
    (haccepts : visit.accepts program = false) :
    explore program fresh (visit :: pending) =
      explore program (fresh.erase visit.key) (visit.onward program ++ pending) := by
  rw [explore, if_pos hkey, haccepts]
  rfl

/-- What is found is what a thread keeps that accepts, and the thread has whatever the pending
ones have and hand on. -/
theorem explore_induct {P : Visit → Prop} {pending : List Visit} {slots : Slots}
    (honward : ∀ visit, P visit → ∀ next ∈ visit.onward program, P next)
    (hpending : ∀ visit ∈ pending, P visit)
    (hfound : explore program fresh pending = some slots) :
    ∃ visit, P visit ∧ visit.accepts program = true ∧ visit.slots = slots := by
  fun_induction explore program fresh pending with
  | case1 => cases hfound
  | case2 fresh visit pending hfresh haccepts =>
      exact ⟨visit, hpending visit List.mem_cons_self, haccepts, Option.some.inj hfound⟩
  | case3 fresh visit pending hfresh haccepts ih =>
      obtain ⟨hvisit, hpending⟩ := List.forall_mem_cons.mp hpending
      exact ih (List.forall_mem_append.mpr ⟨honward visit hvisit, hpending⟩) hfound
  | case4 fresh visit pending hfresh ih => exact ih (List.forall_mem_cons.mp hpending).2 hfound

/-- Of two lists of pending visits the second counts only when nothing is found from the first. -/
theorem explore_append (fresh : Finset (Nat × Nat)) (first second : List Visit) :
    ∃ left, explore program fresh (first ++ second) =
      (explore program fresh first).or (explore program left second) := by
  fun_induction explore program fresh first with
  | case1 fresh => exact ⟨fresh, rfl⟩
  | case2 fresh visit pending hfresh haccepts =>
      exact ⟨fresh, explore_of_accepts hfresh haccepts⟩
  | case3 fresh visit pending hfresh haccepts ih =>
      obtain ⟨left, hleft⟩ := ih
      refine ⟨left, ?_⟩
      rw [List.cons_append, explore_of_mem hfresh (by simpa using haccepts), ← hleft,
        List.append_assoc]
  | case4 fresh visit pending hfresh ih =>
      obtain ⟨left, hleft⟩ := ih
      exact ⟨left, by rw [List.cons_append, explore_of_not_mem hfresh, hleft]⟩

@[simp] theorem settle_nil : settle program fresh [] = (fresh, []) := by
  rw [settle]

theorem settle_of_not_mem {visit : Visit} {pending : List Visit} (hkey : visit.key ∉ fresh) :
    settle program fresh (visit :: pending) = settle program fresh pending := by
  rw [settle, if_neg hkey]

theorem settle_of_rests {visit : Visit} {pending : List Visit} (hkey : visit.key ∈ fresh)
    (hrests : visit.rests program = true) :
    settle program fresh (visit :: pending) =
      ((settle program (fresh.erase visit.key) pending).1,
        visit :: (settle program (fresh.erase visit.key) pending).2) := by
  rw [settle, if_pos hkey, if_pos hrests]

theorem settle_of_mem {visit : Visit} {pending : List Visit} (hkey : visit.key ∈ fresh)
    (hrests : visit.rests program = false) :
    settle program fresh (visit :: pending) =
      settle program (fresh.erase visit.key) (visit.onward program ++ pending) := by
  rw [settle, if_pos hkey, hrests]
  rfl

theorem cursor_of_mem_pending {visit : Visit} {pending : List Visit}
    (hlevel : ∀ w ∈ visit :: pending, w.cursor = cursor)
    (hrests : visit.rests program = false) :
    ∀ w ∈ visit.onward program ++ pending, w.cursor = cursor := by
  intro w hw
  rcases List.mem_append.mp hw with hw | hw
  · rw [Visit.cursor_of_mem_onward hw hrests]
    exact hlevel visit List.mem_cons_self
  · exact hlevel w (List.mem_cons_of_mem visit hw)

theorem mem_settle_of_offset_ne {level : List Visit} {key : Nat × Nat}
    (hlevel : ∀ visit ∈ level, visit.cursor = cursor) (hkey : key.2 ≠ cursor.offset) :
    key ∈ (settle program fresh level).1 ↔ key ∈ fresh := by
  have hne (visit : Visit) (hvisit : visit.cursor = cursor) : key ≠ visit.key := by
    intro heq
    subst heq
    exact hkey (congrArg Cursor.offset hvisit)
  fun_induction settle program fresh level with
  | case1 => rfl
  | case2 fresh visit pending hfresh hrests settled ih =>
      refine (ih (List.forall_mem_cons.mp hlevel).2).trans ?_
      rw [Finset.mem_erase]
      exact and_iff_right (hne visit (hlevel visit List.mem_cons_self))
  | case3 fresh visit pending hfresh hrests ih =>
      refine (ih (cursor_of_mem_pending hlevel (by simpa using hrests))).trans ?_
      rw [Finset.mem_erase]
      exact and_iff_right (hne visit (hlevel visit List.mem_cons_self))
  | case4 fresh visit pending hfresh ih => exact ih (List.forall_mem_cons.mp hlevel).2

/-- Visits of one offset do not depend on what has been visited elsewhere. -/
theorem settle_erase {level : List Visit} {key : Nat × Nat}
    (hlevel : ∀ visit ∈ level, visit.cursor = cursor) (hkey : key.2 ≠ cursor.offset) :
    settle program (fresh.erase key) level =
      ((settle program fresh level).1.erase key, (settle program fresh level).2) := by
  have hmem (visit : Visit) (hvisit : visit.cursor = cursor) (fresh : Finset (Nat × Nat)) :
      visit.key ∈ fresh.erase key ↔ visit.key ∈ fresh := by
    rw [Finset.mem_erase]
    refine and_iff_right fun heq => hkey ?_
    rw [← heq, ← hvisit]
    rfl
  fun_induction settle program fresh level with
  | case1 => simp
  | case2 fresh visit pending hfresh hrests settled ih =>
      have hvisit := hlevel visit List.mem_cons_self
      rw [settle_of_rests ((hmem visit hvisit _).mpr hfresh) hrests, Finset.erase_right_comm,
        ih (List.forall_mem_cons.mp hlevel).2]
  | case3 fresh visit pending hfresh hrests ih =>
      have hvisit := hlevel visit List.mem_cons_self
      have hrests : visit.rests program = false := by simpa using hrests
      rw [settle_of_mem ((hmem visit hvisit _).mpr hfresh) hrests, Finset.erase_right_comm]
      exact ih (cursor_of_mem_pending hlevel hrests)
  | case4 fresh visit pending hfresh ih =>
      have hvisit := hlevel visit List.mem_cons_self
      rw [settle_of_not_mem (hfresh ∘ (hmem visit hvisit _).mp)]
      exact ih (List.forall_mem_cons.mp hlevel).2

theorem settle_append (first second : List Visit) :
    settle program fresh (first ++ second) =
      ((settle program (settle program fresh first).1 second).1,
        (settle program fresh first).2 ++
          (settle program (settle program fresh first).1 second).2) := by
  fun_induction settle program fresh first with
  | case1 => rfl
  | case2 fresh visit pending hfresh hrests settled ih =>
      rw [List.cons_append, settle_of_rests hfresh hrests, ih]
      rfl
  | case3 fresh visit pending hfresh hrests ih =>
      rw [List.cons_append, settle_of_mem hfresh (by simpa using hrests), ← List.append_assoc]
      exact ih
  | case4 fresh visit pending hfresh ih =>
      rw [List.cons_append, settle_of_not_mem hfresh]
      exact ih

theorem exploreFrom_of_not_mem {visit : Visit} {ahead behind : List Visit}
    {settled : Finset (Nat × Nat) × List Visit} (hkey : visit.key ∉ settled.1) :
    exploreFrom program (visit :: ahead) behind settled =
      exploreFrom program ahead behind settled := by
  unfold exploreFrom
  split <;> rw [List.cons_append, explore_of_not_mem hkey]

theorem exploreFrom_of_accepts {visit : Visit} {ahead behind : List Visit}
    {settled : Finset (Nat × Nat) × List Visit} (hkey : visit.key ∈ settled.1)
    (haccepts : visit.accepts program = true) :
    exploreFrom program (visit :: ahead) behind settled = some visit.slots := by
  unfold exploreFrom
  split <;> rw [List.cons_append, explore_of_accepts hkey haccepts]
  rfl

theorem exploreFrom_of_mem {visit : Visit} {ahead behind : List Visit}
    {settled : Finset (Nat × Nat) × List Visit} (hkey : visit.key ∈ settled.1)
    (haccepts : visit.accepts program = false) :
    exploreFrom program (visit :: ahead) behind settled =
      exploreFrom program (visit.onward program ++ ahead) behind
        (settled.1.erase visit.key, settled.2) := by
  simp only [exploreFrom, List.cons_append, explore_of_mem hkey haccepts, List.append_assoc]

@[simp] theorem exploreFrom_nil (behind : List Visit) :
    exploreFrom program [] behind (fresh, []) = explore program fresh behind := by
  simp [exploreFrom, advance]

theorem exploreFrom_cons_accepts {visit : Visit} {behind : List Visit}
    {settled : Finset (Nat × Nat) × List Visit} (haccepts : visit.accepts program = true) :
    exploreFrom program [] behind (settled.1, visit :: settled.2) = some visit.slots := by
  simp [exploreFrom, advance, haccepts]

theorem exploreFrom_cons_rests {visit : Visit} {behind : List Visit}
    {settled : Finset (Nat × Nat) × List Visit} (haccepts : visit.accepts program = false) :
    exploreFrom program [] behind (settled.1, visit :: settled.2) =
      exploreFrom program (visit.onward program) behind settled := by
  unfold exploreFrom
  simp only [advance, haccepts, Bool.false_eq_true, if_false]
  rcases advance program settled.2 with ⟨onward, _ | slots⟩ <;> simp

/-- The visits of one offset may all be made before the visits `ahead` of them, which lie further
on in the text. -/
theorem explore_settle {ahead level behind : List Visit}
    (hahead : ∀ visit ∈ ahead, cursor.offset < visit.cursor.offset)
    (hlevel : ∀ visit ∈ level, visit.cursor = cursor) :
    explore program fresh (ahead ++ (level ++ behind)) =
      exploreFrom program ahead behind (settle program fresh level) := by
  have hahead_key (visit : Visit) (hvisit : cursor.offset < visit.cursor.offset)
      (fresh : Finset (Nat × Nat)) (level : List Visit)
      (hlevel : ∀ visit ∈ level, visit.cursor = cursor) :
      visit.key ∈ (settle program fresh level).1 ↔ visit.key ∈ fresh :=
    mem_settle_of_offset_ne hlevel (Nat.ne_of_gt hvisit)
  generalize hstack : ahead ++ (level ++ behind) = stack
  -- The walk takes its next visit from those ahead, else from the level, else from behind.
  fun_induction explore program fresh stack generalizing ahead level with
  | case1 fresh =>
      simp only [List.append_eq_nil_iff] at hstack
      obtain ⟨rfl, rfl, rfl⟩ := hstack
      simp
  | case2 fresh visit pending hfresh haccepts =>
      match ahead, level with
      | _ :: ahead, level =>
          obtain ⟨rfl, rfl⟩ := List.cons.inj hstack.symm
          have hkey := hahead_key _ (hahead _ List.mem_cons_self) fresh level hlevel
          exact (exploreFrom_of_accepts (hkey.mpr hfresh) haccepts).symm
      | [], _ :: level =>
          obtain ⟨rfl, rfl⟩ := List.cons.inj hstack.symm
          rw [settle_of_rests hfresh (Visit.rests_of_accepts haccepts),
            exploreFrom_cons_accepts haccepts]
      | [], [] =>
          obtain rfl : behind = visit :: pending := hstack
          rw [settle_nil, exploreFrom_nil, explore_of_accepts hfresh haccepts]
  | case3 fresh visit pending hfresh haccepts ih =>
      have haccepts : visit.accepts program = false := by simpa using haccepts
      match ahead, level with
      | _ :: ahead, level =>
          obtain ⟨rfl, rfl⟩ := List.cons.inj hstack.symm
          have hvisit := hahead visit List.mem_cons_self
          have hkey := hahead_key visit hvisit fresh level hlevel
          rw [exploreFrom_of_mem (hkey.mpr hfresh) haccepts,
            ← settle_erase hlevel (Nat.ne_of_gt hvisit)]
          refine ih (fun w hw => ?_) hlevel (List.append_assoc ..)
          rcases List.mem_append.mp hw with hw | hw
          · exact Nat.lt_of_lt_of_le hvisit (Visit.offset_le_of_mem_onward hw)
          · exact hahead w (List.mem_cons_of_mem visit hw)
      | [], _ :: level =>
          obtain ⟨rfl, rfl⟩ := List.cons.inj hstack.symm
          obtain ⟨rfl, hothers⟩ := List.forall_mem_cons.mp hlevel
          cases hrests : visit.rests program with
          | true =>
              rw [settle_of_rests hfresh hrests, exploreFrom_cons_rests haccepts]
              exact ih (fun w hw => Visit.offset_lt_of_mem_onward hw hrests) hothers rfl
          | false =>
              rw [settle_of_mem hfresh hrests]
              exact ih (by simp) (cursor_of_mem_pending hlevel hrests) (List.append_assoc ..)
      | [], [] =>
          obtain rfl : behind = visit :: pending := hstack
          rw [settle_nil, exploreFrom_nil, explore_of_mem hfresh haccepts]
  | case4 fresh visit pending hfresh ih =>
      match ahead, level with
      | _ :: ahead, level =>
          obtain ⟨rfl, rfl⟩ := List.cons.inj hstack.symm
          have hkey := hahead_key visit (hahead visit List.mem_cons_self) fresh level hlevel
          rw [exploreFrom_of_not_mem (hfresh ∘ hkey.mp)]
          exact ih (List.forall_mem_cons.mp hahead).2 hlevel rfl
      | [], _ :: level =>
          obtain ⟨rfl, rfl⟩ := List.cons.inj hstack.symm
          rw [settle_of_not_mem hfresh]
          exact ih (by simp) (List.forall_mem_cons.mp hlevel).2 rfl
      | [], [] =>
          obtain rfl : behind = visit :: pending := hstack
          rw [settle_nil, exploreFrom_nil, explore_of_not_mem hfresh]

end TextColumns.Search
