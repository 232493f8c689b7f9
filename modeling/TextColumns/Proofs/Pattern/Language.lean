import TextColumns.Proofs.Pattern.Fragment
import TextColumns.Proofs.Search.Acceptance
import TextColumns.Proofs.Search.Lockstep

/-!
What a pattern matches.  `Node.Matches` relates the two ends of a match without any order of
preference; a thread at the code of a node comes to accept if and only if it does so from the other
end of some match.
-/

namespace TextColumns.Pattern

open Search (Accepts Mode Slots)
open Text (Cursor)

def Rounds (body : Cursor → Cursor → Prop) : Nat → Cursor → Cursor → Prop
  | 0, start, stop => stop = start
  | rounds + 1, start, stop => ∃ middle, body start middle ∧ Rounds body rounds middle stop

mutual

/-- Whether a node matches from one place up to another. -/
def Node.Matches (flags : Flags) : Node → (start stop : Cursor) → Prop
  | .empty, start, stop => stop = start
  | .literal c, start, stop =>
    ∃ d, start.next? = some (d, stop) ∧ sameChar d c flags.ignoreCase = true
  | .any, start, stop => ∃ d, start.next? = some (d, stop) ∧ (flags.dotAll || d != '\n') = true
  | .oneOf set, start, stop =>
    ∃ d, start.next? = some (d, stop) ∧ (CharClass.ofSet set).accepts d flags.ignoreCase = true
  | .assertion a, start, stop =>
    stop = start ∧ (a.resolve flags.multiline).holds start = true
  | .group _ body, start, stop => body.Matches flags start stop
  | .concat items, start, stop => MatchesInTurn flags items start stop
  | .alternate branches, start, stop => MatchesSome flags branches start stop
  | .repetition body min max _, start, stop =>
    ∃ rounds, min ≤ rounds ∧ (∀ bound ∈ max, rounds ≤ bound) ∧
      Rounds (body.Matches flags) rounds start stop

def MatchesInTurn (flags : Flags) : List Node → (start stop : Cursor) → Prop
  | [], start, stop => stop = start
  | item :: items, start, stop =>
    ∃ middle, item.Matches flags start middle ∧ MatchesInTurn flags items middle stop

def MatchesSome (flags : Flags) : List Node → (start stop : Cursor) → Prop
  | [], _, _ => False
  | branch :: others, start, stop =>
    branch.Matches flags start stop ∨ MatchesSome flags others start stop

end

variable {flags : Flags} {body : Node} {greedy : Bool} {start stop : Cursor}

def Node.MatchesBetween (flags : Flags) (node : Node) (text : String) (start stop : Nat) : Prop :=
  ∃ first last, Cursor.at? text start = some first ∧ Cursor.at? text stop = some last ∧
    node.Matches flags first last

theorem Rounds.on {text : String} {body : Cursor → Cursor → Prop}
    (hbody : ∀ {start stop}, body start stop → Cursor.On text start → Cursor.On text stop)
    {rounds : Nat} {start stop : Cursor} (hrounds : Rounds body rounds start stop)
    (hon : Cursor.On text start) : Cursor.On text stop := by
  induction rounds generalizing start with
  | zero => exact hrounds ▸ hon
  | succ rounds ih =>
      obtain ⟨middle, hfirst, hothers⟩ := hrounds
      exact ih hothers (hbody hfirst hon)

theorem Node.Matches.on {flags : Flags} {text : String} {node : Node} {start stop : Cursor}
    (hmatches : node.Matches flags start stop) (hon : Cursor.On text start) :
    Cursor.On text stop := by
  induction node generalizing start stop with
  | empty => exact hmatches ▸ hon
  | literal | any | oneOf =>
      obtain ⟨d, hnext, -⟩ := hmatches
      exact hon.next? hnext
  | assertion => exact hmatches.1 ▸ hon
  | group index body ih => exact ih hmatches hon
  | concat items ih =>
      rw [Node.Matches] at hmatches
      induction items generalizing start with
      | nil => exact hmatches ▸ hon
      | cons item items ihItems =>
          obtain ⟨hitem, hitems⟩ := List.forall_mem_cons.mp ih
          obtain ⟨middle, hfirst, hothers⟩ := hmatches
          exact ihItems hitems hothers (hitem hfirst hon)
  | alternate branches ih =>
      rw [Node.Matches] at hmatches
      induction branches with
      | nil => exact hmatches.elim
      | cons branch others ihOthers =>
          obtain ⟨hbranch, hothers⟩ := List.forall_mem_cons.mp ih
          exact hmatches.elim (hbranch · hon) (ihOthers hothers)
  | repetition body min max greedy ih =>
      obtain ⟨rounds, -, -, hrounds⟩ := hmatches
      exact hrounds.on ih hon

theorem matches_noRound :
    (Node.repetition body 0 (some 0) greedy).Matches flags start stop ↔ stop = start := by
  simp only [Node.Matches, Option.mem_def, Option.some.injEq, forall_eq', Nat.le_zero_eq]
  constructor
  · intro hrounds
    obtain ⟨rounds, -, rfl, hrounds⟩ := hrounds
    exact hrounds
  · intro heq
    subst heq
    exact ⟨0, Nat.le_refl 0, rfl, rfl⟩

theorem matches_round {min : Nat} {max : Option Nat} :
    (Node.repetition body (min + 1) (max.map (· + 1)) greedy).Matches flags start stop ↔
      ∃ middle, body.Matches flags start middle ∧
        (Node.repetition body min max greedy).Matches flags middle stop := by
  simp only [Node.Matches]
  constructor
  · intro hrounds
    obtain ⟨_ | rounds, hmin, hmax, hrounds⟩ := hrounds
    · exact absurd hmin (Nat.not_succ_le_zero min)
    · obtain ⟨middle, hbody, hrounds⟩ := hrounds
      refine ⟨middle, hbody, rounds, Nat.le_of_succ_le_succ hmin, fun bound hbound => ?_, hrounds⟩
      exact Nat.le_of_succ_le_succ (hmax (bound + 1) (Option.mem_map_of_mem _ hbound))
  · intro hrounds
    obtain ⟨middle, hbody, rounds, hmin, hmax, hrounds⟩ := hrounds
    refine ⟨rounds + 1, Nat.succ_le_succ hmin, fun bound hbound => ?_, middle, hbody, hrounds⟩
    obtain ⟨lower, hlower, rfl⟩ := Option.mem_map.mp hbound
    exact Nat.succ_le_succ (hmax lower hlower)

theorem matches_optionalRound {max : Nat} :
    (Node.repetition body 0 (some (max + 1)) greedy).Matches flags start stop ↔
      stop = start ∨ ∃ middle, body.Matches flags start middle ∧
        (Node.repetition body 0 (some max) greedy).Matches flags middle stop := by
  simp only [Node.Matches, Nat.zero_le, true_and, Option.mem_def, Option.some.injEq, forall_eq']
  constructor
  · intro hrounds
    obtain ⟨_ | rounds, hmax, hrounds⟩ := hrounds
    · exact .inl hrounds
    · obtain ⟨middle, hbody, hrounds⟩ := hrounds
      exact .inr ⟨middle, hbody, rounds, Nat.le_of_succ_le_succ hmax, hrounds⟩
  · intro hbody
    rcases hbody with rfl | ⟨middle, hbody, rounds, hmax, hrounds⟩
    · exact ⟨0, Nat.zero_le _, rfl⟩
    · exact ⟨rounds + 1, Nat.succ_le_succ hmax, middle, hbody, hrounds⟩

theorem matches_unbounded {min : Nat} :
    (Node.repetition body min none greedy).Matches flags start stop ↔
      ∃ rounds, min ≤ rounds ∧ Rounds (body.Matches flags) rounds start stop := by
  simp [Node.Matches]

theorem matches_star :
    (Node.repetition body 0 none greedy).Matches flags start stop ↔
      stop = start ∨ ∃ middle, body.Matches flags start middle ∧
        (Node.repetition body 0 none greedy).Matches flags middle stop := by
  simp only [matches_unbounded, Nat.zero_le, true_and]
  constructor
  · intro hrounds
    obtain ⟨_ | rounds, hrounds⟩ := hrounds
    · exact .inl hrounds
    · obtain ⟨middle, hbody, hrounds⟩ := hrounds
      exact .inr ⟨middle, hbody, rounds, hrounds⟩
  · intro hbody
    rcases hbody with rfl | ⟨middle, hbody, rounds, hrounds⟩
    · exact ⟨0, rfl⟩
    · exact ⟨rounds + 1, middle, hbody, hrounds⟩

theorem matches_plus :
    (Node.repetition body 1 none greedy).Matches flags start stop ↔
      ∃ middle, body.Matches flags start middle ∧
        (stop = middle ∨ (Node.repetition body 1 none greedy).Matches flags middle stop) := by
  refine (@matches_round flags body greedy start stop 0 none).trans
    (exists_congr fun middle => and_congr_right fun _ => ?_)
  rw [matches_star, ← matches_round]
  rfl

variable {program : Program} {steps address : Nat} {cursor : Cursor}

theorem accepts_of_rests {instruction : Instruction}
    (hinstruction : program.instructions[address]? = some instruction)
    (hrests : Search.rests instruction = true) (haccept : instruction ≠ .accept) :
    Accepts program steps address cursor ↔
      ∃ earlier, steps = earlier + 1 ∧ ∃ d behind, cursor.next? = some (d, behind) ∧
        program.accepts? d instruction = some true ∧
        Accepts program earlier (address + 1) behind := by
  rw [Search.accepts_iff hinstruction haccept]
  refine exists_congr fun earlier => and_congr_right fun _ => ?_
  cases instruction with
  | char _ _ | any _ | oneOf _ _ =>
      simp only [Search.moves]
      cases hnext : cursor.next? with
      | none => simp
      | some next =>
          obtain ⟨d, behind⟩ := next
          dsimp only
          split <;> simp_all
  | accept => exact absurd rfl haccept
  | _ => cases hrests

theorem accepts_save {slot : Nat}
    (hinstruction : program.instructions[address]? = some (.save slot)) :
    Accepts program steps address cursor ↔
      ∃ earlier, steps = earlier + 1 ∧ Accepts program earlier (address + 1) cursor := by
  simp [Search.accepts_iff hinstruction, Search.moves]

theorem accepts_jump {target : Nat}
    (hinstruction : program.instructions[address]? = some (.jump target)) :
    Accepts program steps address cursor ↔
      ∃ earlier, steps = earlier + 1 ∧ Accepts program earlier target cursor := by
  simp [Search.accepts_iff hinstruction, Search.moves]

theorem accepts_assertion {a : Assertion}
    (hinstruction : program.instructions[address]? = some (.assertion a)) :
    Accepts program steps address cursor ↔
      a.holds cursor = true ∧
        ∃ earlier, steps = earlier + 1 ∧ Accepts program earlier (address + 1) cursor := by
  cases hholds : a.holds cursor <;>
    simp [Search.accepts_iff hinstruction, Search.moves, hholds]

theorem accepts_split {primary secondary : Nat}
    (hinstruction : program.instructions[address]? = some (.split primary secondary)) :
    Accepts program steps address cursor ↔
      ∃ earlier, steps = earlier + 1 ∧
        (Accepts program earlier primary cursor ∨ Accepts program earlier secondary cursor) := by
  simp [Search.accepts_iff hinstruction, Search.moves]

theorem accepts_fork {inside exit : Nat}
    (hinstruction : program.instructions[address]? = some (fork greedy inside exit)) :
    Accepts program steps address cursor ↔
      ∃ earlier, steps = earlier + 1 ∧
        (Accepts program earlier inside cursor ∨ Accepts program earlier exit cursor) := by
  cases greedy with
  | true => exact accepts_split hinstruction
  | false =>
      rw [accepts_split hinstruction]
      exact exists_congr fun _ => and_congr_right fun _ => or_comm

/-- A thread that accepts from the entry of a fragment does so by way of a match. -/
theorem Fragment.sound {node : Node} {entry exit : Nat}
    (hfragment : Fragment program flags node entry exit)
    (haccepts : Accepts program steps entry start) :
    ∃ stop, node.Matches flags start stop ∧
      ∃ later, later ≤ steps ∧ Accepts program later exit stop := by
  induction hfragment generalizing start steps with
  | empty => exact ⟨start, rfl, steps, Nat.le_refl _, haccepts⟩
  | literal hentry =>
      obtain ⟨later, rfl, d, stop, hnext, hd, hexit⟩ :=
        (accepts_of_rests hentry rfl (by simp)).mp haccepts
      exact ⟨stop, ⟨d, hnext, Option.some.inj hd⟩, later, Nat.le_succ _, hexit⟩
  | any hentry =>
      obtain ⟨later, rfl, d, stop, hnext, hd, hexit⟩ :=
        (accepts_of_rests hentry rfl (by simp)).mp haccepts
      exact ⟨stop, ⟨d, hnext, Option.some.inj hd⟩, later, Nat.le_succ _, hexit⟩
  | oneOf hentry hclass =>
      obtain ⟨later, rfl, d, stop, hnext, hd, hexit⟩ :=
        (accepts_of_rests hentry rfl (by simp)).mp haccepts
      simp only [Program.accepts?, hclass] at hd
      exact ⟨stop, ⟨d, hnext, Option.some.inj hd⟩, later, Nat.le_succ _, hexit⟩
  | assertion hentry =>
      obtain ⟨hholds, later, rfl, hexit⟩ := (accepts_assertion hentry).mp haccepts
      exact ⟨start, ⟨rfl, hholds⟩, later, Nat.le_succ _, hexit⟩
  | capture hentry _ hstop ih =>
      obtain ⟨inside, rfl, hinside⟩ := (accepts_save hentry).mp haccepts
      obtain ⟨stop, hbody, late, hlate, hclosing⟩ := ih hinside
      obtain ⟨later, rfl, hexit⟩ := (accepts_save hstop).mp hclosing
      exact ⟨stop, hbody, later, by omega, hexit⟩
  | group _ ih => exact ih haccepts
  | concatNil => exact ⟨start, rfl, steps, Nat.le_refl _, haccepts⟩
  | concatCons _ _ ihItem ihItems =>
      obtain ⟨middle, hitem, late, hlate, hmiddle⟩ := ihItem haccepts
      obtain ⟨stop, hitems, later, hlater, hexit⟩ := ihItems hmiddle
      exact ⟨stop, ⟨middle, hitem, hitems⟩, later, Nat.le_trans hlater hlate, hexit⟩
  | lastBranch _ ih =>
      obtain ⟨stop, hbranch, later, hlater, hexit⟩ := ih haccepts
      exact ⟨stop, .inl hbranch, later, hlater, hexit⟩
  | branch hentry _ hstop _ ihBranch ihOthers =>
      obtain ⟨inside, rfl, hinside | hinside⟩ := (accepts_split hentry).mp haccepts
      · obtain ⟨stop, hbranch, late, hlate, hjump⟩ := ihBranch hinside
        obtain ⟨later, rfl, hexit⟩ := (accepts_jump hstop).mp hjump
        exact ⟨stop, .inl hbranch, later, by omega, hexit⟩
      · obtain ⟨stop, hothers, later, hlater, hexit⟩ := ihOthers hinside
        exact ⟨stop, .inr hothers, later, by omega, hexit⟩
  | noRound => exact ⟨start, matches_noRound.mpr rfl, steps, Nat.le_refl _, haccepts⟩
  | round _ _ ihBody ihOthers =>
      obtain ⟨middle, hbody, late, hlate, hmiddle⟩ := ihBody haccepts
      obtain ⟨stop, hothers, later, hlater, hexit⟩ := ihOthers hmiddle
      exact ⟨stop, matches_round.mpr ⟨middle, hbody, hothers⟩, later,
        Nat.le_trans hlater hlate, hexit⟩
  | optionalRound hentry _ _ ihBody ihOthers =>
      obtain ⟨inside, rfl, hinside | hexit⟩ := (accepts_fork hentry).mp haccepts
      · obtain ⟨middle, hbody, late, hlate, hmiddle⟩ := ihBody hinside
        obtain ⟨stop, hothers, later, hlater, hexit⟩ := ihOthers hmiddle
        exact ⟨stop, matches_optionalRound.mpr (.inr ⟨middle, hbody, hothers⟩), later,
          by omega, hexit⟩
      · exact ⟨start, matches_optionalRound.mpr (.inl rfl), inside, Nat.le_succ _, hexit⟩
  | star hentry _ hstop ih =>
      -- Each round leads back to the entry in fewer steps.
      induction steps using Nat.strongRecOn generalizing start with
      | ind steps ihSteps =>
          obtain ⟨inside, rfl, hinside | hexit⟩ := (accepts_fork hentry).mp haccepts
          · obtain ⟨middle, hbody, late, hlate, hjump⟩ := ih hinside
            obtain ⟨again, rfl, hagain⟩ := (accepts_jump hstop).mp hjump
            obtain ⟨stop, hothers, later, hlater, hexit⟩ := ihSteps again (by omega) hagain
            exact ⟨stop, matches_star.mpr (.inr ⟨middle, hbody, hothers⟩), later, by omega,
              hexit⟩
          · exact ⟨start, matches_star.mpr (.inl rfl), inside, Nat.le_succ _, hexit⟩
  | plus _ hstop ih =>
      induction steps using Nat.strongRecOn generalizing start with
      | ind steps ihSteps =>
          obtain ⟨middle, hbody, late, hlate, hfork⟩ := ih haccepts
          obtain ⟨again, rfl, hagain | hexit⟩ := (accepts_fork hstop).mp hfork
          · obtain ⟨stop, hothers, later, hlater, hexit⟩ := ihSteps again (by omega) hagain
            exact ⟨stop, matches_plus.mpr ⟨middle, hbody, .inr hothers⟩, later, by omega, hexit⟩
          · exact ⟨middle, matches_plus.mpr ⟨middle, hbody, .inl rfl⟩, again, by omega, hexit⟩

/-- From each start of a match a thread at the entry of a fragment comes to accept if one at the
exit does from the other end. -/
theorem Fragment.complete {node : Node} {entry exit : Nat}
    (hfragment : Fragment program flags node entry exit) (hmatches : node.Matches flags start stop)
    (haccepts : ∃ steps, Accepts program steps exit stop) :
    ∃ steps, Accepts program steps entry start := by
  induction hfragment generalizing start stop with
  | empty => exact hmatches ▸ haccepts
  | literal hentry =>
      obtain ⟨d, hnext, hd⟩ := hmatches
      obtain ⟨steps, haccepts⟩ := haccepts
      exact ⟨steps + 1, (accepts_of_rests hentry rfl (by simp)).mpr
        ⟨steps, rfl, d, stop, hnext, congrArg some hd, haccepts⟩⟩
  | any hentry =>
      obtain ⟨d, hnext, hd⟩ := hmatches
      obtain ⟨steps, haccepts⟩ := haccepts
      exact ⟨steps + 1, (accepts_of_rests hentry rfl (by simp)).mpr
        ⟨steps, rfl, d, stop, hnext, congrArg some hd, haccepts⟩⟩
  | oneOf hentry hclass =>
      obtain ⟨d, hnext, hd⟩ := hmatches
      obtain ⟨steps, haccepts⟩ := haccepts
      refine ⟨steps + 1, (accepts_of_rests hentry rfl (by simp)).mpr
        ⟨steps, rfl, d, stop, hnext, ?_, haccepts⟩⟩
      simp only [Program.accepts?, hclass, hd]
  | assertion hentry =>
      obtain ⟨rfl, hholds⟩ := hmatches
      obtain ⟨steps, haccepts⟩ := haccepts
      exact ⟨steps + 1, (accepts_assertion hentry).mpr ⟨hholds, steps, rfl, haccepts⟩⟩
  | capture hentry _ hstop ih =>
      obtain ⟨steps, haccepts⟩ := haccepts
      obtain ⟨inside, hinside⟩ :=
        ih hmatches ⟨steps + 1, (accepts_save hstop).mpr ⟨steps, rfl, haccepts⟩⟩
      exact ⟨inside + 1, (accepts_save hentry).mpr ⟨inside, rfl, hinside⟩⟩
  | group _ ih => exact ih hmatches haccepts
  | concatNil => exact hmatches ▸ haccepts
  | concatCons _ _ ihItem ihItems =>
      obtain ⟨middle, hitem, hitems⟩ := hmatches
      exact ihItem hitem (ihItems hitems haccepts)
  | lastBranch _ ih => exact ih (hmatches.resolve_right id) haccepts
  | branch hentry _ hstop _ ihBranch ihOthers =>
      rcases hmatches with hbranch | hothers
      · obtain ⟨steps, haccepts⟩ := haccepts
        obtain ⟨inside, hinside⟩ :=
          ihBranch hbranch ⟨steps + 1, (accepts_jump hstop).mpr ⟨steps, rfl, haccepts⟩⟩
        exact ⟨inside + 1, (accepts_split hentry).mpr ⟨inside, rfl, .inl hinside⟩⟩
      · obtain ⟨inside, hinside⟩ := ihOthers hothers haccepts
        exact ⟨inside + 1, (accepts_split hentry).mpr ⟨inside, rfl, .inr hinside⟩⟩
  | noRound => exact matches_noRound.mp hmatches ▸ haccepts
  | round _ _ ihBody ihOthers =>
      obtain ⟨middle, hbody, hothers⟩ := matches_round.mp hmatches
      exact ihBody hbody (ihOthers hothers haccepts)
  | optionalRound hentry _ _ ihBody ihOthers =>
      rcases matches_optionalRound.mp hmatches with rfl | ⟨middle, hbody, hothers⟩
      · obtain ⟨steps, haccepts⟩ := haccepts
        exact ⟨steps + 1, (accepts_fork hentry).mpr ⟨steps, rfl, .inr haccepts⟩⟩
      · obtain ⟨inside, hinside⟩ := ihBody hbody (ihOthers hothers haccepts)
        exact ⟨inside + 1, (accepts_fork hentry).mpr ⟨inside, rfl, .inl hinside⟩⟩
  | star hentry _ hstop ih =>
      obtain ⟨rounds, -, hrounds⟩ := matches_unbounded.mp hmatches
      induction rounds generalizing start with
      | zero =>
          obtain rfl : stop = start := hrounds
          obtain ⟨steps, haccepts⟩ := haccepts
          exact ⟨steps + 1, (accepts_fork hentry).mpr ⟨steps, rfl, .inr haccepts⟩⟩
      | succ rounds ihRounds =>
          obtain ⟨middle, hbody, hrounds⟩ := hrounds
          obtain ⟨again, hagain⟩ :=
            ihRounds (matches_unbounded.mpr ⟨rounds, Nat.zero_le _, hrounds⟩) hrounds
          obtain ⟨inside, hinside⟩ :=
            ih hbody ⟨again + 1, (accepts_jump hstop).mpr ⟨again, rfl, hagain⟩⟩
          exact ⟨inside + 1, (accepts_fork hentry).mpr ⟨inside, rfl, .inl hinside⟩⟩
  | plus _ hstop ih =>
      obtain ⟨rounds, hmin, hrounds⟩ := matches_unbounded.mp hmatches
      obtain ⟨rounds, rfl⟩ := Nat.exists_eq_succ_of_ne_zero (Nat.ne_of_gt hmin)
      induction rounds generalizing start with
      | zero =>
          obtain ⟨middle, hbody, rfl⟩ := hrounds
          obtain ⟨steps, haccepts⟩ := haccepts
          exact ih hbody ⟨steps + 1, (accepts_fork hstop).mpr ⟨steps, rfl, .inr haccepts⟩⟩
      | succ rounds ihRounds =>
          obtain ⟨middle, hbody, hrounds⟩ := hrounds
          have hmore := Nat.succ_le_succ (Nat.zero_le rounds)
          obtain ⟨again, hagain⟩ :=
            ihRounds (matches_unbounded.mpr ⟨rounds + 1, hmore, hrounds⟩) hmore hrounds
          exact ih hbody ⟨again + 1, (accepts_fork hstop).mpr ⟨again, rfl, .inl hagain⟩⟩

/-- A thread at the start of a compiled pattern comes to accept where the pattern matches. -/
theorem accepts_start_iff {node : Node} {exit : Nat}
    (hfragment : Fragment program flags (.group (some 0) node) program.start exit)
    (hexit : program.instructions[exit]? = some .accept) :
    (∃ steps, Accepts program steps program.start start) ↔ ∃ stop, node.Matches flags start stop := by
  constructor
  · intro haccepts
    obtain ⟨steps, haccepts⟩ := haccepts
    obtain ⟨stop, hmatches, -⟩ := hfragment.sound haccepts
    exact ⟨stop, hmatches⟩
  · intro hmatches
    obtain ⟨stop, hmatches⟩ := hmatches
    exact hfragment.complete hmatches ⟨0, .accept hexit⟩

theorem matchesBetween_iff {node : Node} {text : String} {offset : Nat}
    (hcursor : Cursor.at? text offset = some cursor) :
    (∃ stop, node.MatchesBetween flags text offset stop) ↔ ∃ last, node.Matches flags cursor last := by
  constructor
  · intro hmatches
    obtain ⟨stop, first, last, hfirst, -, hmatches⟩ := hmatches
    obtain rfl := Option.some.inj (hcursor.symm.trans hfirst)
    exact ⟨last, hmatches⟩
  · intro hmatches
    obtain ⟨last, hmatches⟩ := hmatches
    have hlast := hmatches.on (Cursor.at?_eq_some_iff.mp hcursor).1
    exact ⟨last.offset, cursor, last, hcursor, Cursor.at?_eq_some_iff.mpr ⟨hlast, rfl⟩, hmatches⟩

/-- The walk from some places finds a match if and only if the pattern matches at one of them. -/
theorem isSome_explore_starts {node : Node} {exit : Nat}
    (hfragment : Fragment program flags (.group (some 0) node) program.start exit)
    (hexit : program.instructions[exit]? = some .accept) {text : String} {places : List Cursor}
    (hon : ∀ place ∈ places, Cursor.On text place) :
    (Search.explore program (Search.everywhere program text)
        (places.map (Search.startVisit program))).isSome = true ↔
      ∃ place ∈ places, ∃ last, node.Matches flags place last := by
  rw [Search.isSome_explore_iff (List.forall_mem_map.mpr hon)]
  constructor
  · intro haccepts
    obtain ⟨visit, hvisit, haccepts⟩ := haccepts
    obtain ⟨place, hplace, rfl⟩ := List.mem_map.mp hvisit
    exact ⟨place, hplace, (accepts_start_iff hfragment hexit).mp haccepts⟩
  · intro hmatches
    obtain ⟨place, hplace, hmatches⟩ := hmatches
    exact ⟨_, List.mem_map_of_mem hplace, (accepts_start_iff hfragment hexit).mpr hmatches⟩

/-- A search for a compiled pattern succeeds if and only if the pattern matches in the text: from
the place of the search when it is anchored, else from there or from any place behind. -/
theorem search_iff_matches {pattern : String} (hcompile : compile pattern flags = .ok program)
    {cache : Search.Cache} (hcache : cache.Fits program) {text : String} {offset : Nat}
    (hcursor : Cursor.at? text offset = some cursor) (earliest : Bool) (slots : Slots) :
    ∃ parsed, parse pattern = .ok parsed ∧
      (∃ found row kept,
        Search.search program ⟨true, earliest⟩ cache cursor slots = some (found, row, kept) ∧
          (found = true ↔ ∃ stop,
            parsed.node.MatchesBetween (flags.union parsed.flags) text offset stop)) ∧
      ∃ found row kept,
        Search.search program ⟨false, earliest⟩ cache cursor slots = some (found, row, kept) ∧
          (found = true ↔ ∃ start stop, offset ≤ start ∧
            parsed.node.MatchesBetween (flags.union parsed.flags) text start stop) := by
  obtain ⟨parsed, hparse, -, hcheck, exit, hfragment, hexit⟩ := compile_spec hcompile
  obtain ⟨hon, rfl⟩ := Cursor.at?_eq_some_iff.mp hcursor
  refine ⟨parsed, hparse, ?_, ?_⟩
  · have hplaces : ∀ place ∈ [cursor], Cursor.On text place := List.forall_mem_singleton.mpr hon
    obtain ⟨row, kept, hsearch, -⟩ :=
      Search.search_eq hcheck hon ⟨true, earliest⟩ hcache slots rfl
    refine ⟨_, row, kept, hsearch, (isSome_explore_starts hfragment hexit hplaces).trans ?_⟩
    rw [matchesBetween_iff hcursor]
    simp
  · have hplaces : ∀ place ∈ cursor.places, Cursor.On text place :=
      fun place hplace => ((Cursor.mem_places hon).mp hplace).1
    obtain ⟨row, kept, hsearch, -⟩ :=
      Search.search_eq hcheck hon ⟨false, earliest⟩ hcache slots rfl
    refine ⟨_, row, kept, hsearch, (isSome_explore_starts hfragment hexit hplaces).trans ?_⟩
    constructor
    · intro hmatches
      obtain ⟨place, hplace, hmatches⟩ := hmatches
      obtain ⟨honPlace, hle⟩ := (Cursor.mem_places hon).mp hplace
      obtain ⟨stop, hbetween⟩ :=
        (matchesBetween_iff (Cursor.at?_eq_some_iff.mpr ⟨honPlace, rfl⟩)).mpr hmatches
      exact ⟨place.offset, stop, hle, hbetween⟩
    · intro hmatches
      obtain ⟨start, stop, hle, place, last, hplace, -, hmatches⟩ := hmatches
      obtain ⟨honPlace, rfl⟩ := Cursor.at?_eq_some_iff.mp hplace
      exact ⟨place, (Cursor.mem_places hon).mpr ⟨honPlace, hle⟩, last, hmatches⟩

theorem search_iff_matches_emptyRounds :
    let program : Program :=
      ⟨#[.save 0, .split 2 8, .save 2, .split 4 6, .char 'a' false, .jump 3, .save 3, .jump 1,
        .char 'b' false, .save 1, .accept], #[], 4, 0⟩
    let cursor : Cursor := ⟨1, some 'a', ['a', 'b']⟩
    let row : Slots := #[none, none, none, none]
    compile "(a*)*b" Flags.none = .ok program ∧ (Search.Cache.ofProgram program).Fits program ∧
      Cursor.at? "aab" 1 = some cursor ∧
      ∃ parsed, parse "(a*)*b" = .ok parsed ∧
        (∃ found row' kept,
          Search.search program ⟨true, true⟩ (.ofProgram program) cursor row =
              some (found, row', kept) ∧
            (found = true ↔ ∃ stop,
              parsed.node.MatchesBetween (Flags.none.union parsed.flags) "aab" 1 stop)) ∧
        ∃ found row' kept,
          Search.search program ⟨false, true⟩ (.ofProgram program) cursor row =
              some (found, row', kept) ∧
            (found = true ↔ ∃ start stop, 1 ≤ start ∧
              parsed.node.MatchesBetween (Flags.none.union parsed.flags) "aab" start stop) := by
  intro program cursor row
  have hcompile : compile "(a*)*b" Flags.none = .ok program := by decide +kernel
  have hcursor : Cursor.at? "aab" 1 = some cursor := by decide +kernel
  have hcache := Search.cache_fits_ofProgram program
  exact ⟨hcompile, hcache, hcursor, search_iff_matches hcompile hcache hcursor true row⟩

end TextColumns.Pattern
