import TextColumns.Proofs.Pattern.Fragment
import TextColumns.Proofs.Search.Backtracking
import TextColumns.Proofs.Search.Lockstep

/-!
The order of preference among the matches of a pattern.  `Node.ways` lists the ways through a node,
the preferred one first, each with the slots that it leaves behind; backtracking over the code of a
node comes out at its exit in just these ways, one after the other.
-/

namespace TextColumns.Pattern

open Search (Finds Slots Visit)
open Text (Cursor)

/-- How far a match has come, with the slots recorded on the way. -/
structure Progress where
  cursor : Cursor
  slots : Slots

namespace Progress

def record (slot : Nat) (progress : Progress) : Progress :=
  { progress with slots := progress.slots.setIfInBounds slot (some progress.cursor.offset) }

def across (accepts : Char → Bool) (progress : Progress) : List Progress :=
  match progress.cursor.next? with
  | none => []
  | some (c, behind) => if accepts c then [⟨behind, progress.slots⟩] else []

/-- More rounds, or none: greedy repetitions prefer the former. -/
def prefer (greedy : Bool) (more : List Progress) (progress : Progress) : List Progress :=
  if greedy then more ++ [progress] else progress :: more

end Progress

open Progress (prefer)

/-- The ways on from a place, the preferred one first. -/
abbrev Ways := Progress → List Progress

namespace Ways

def exactly (body : Ways) : Nat → Ways
  | 0, progress => [progress]
  | rounds + 1, progress => (body progress).flatMap (exactly body rounds)

def atMost (greedy : Bool) (body : Ways) : Nat → Ways
  | 0, progress => [progress]
  | rounds + 1, progress =>
    prefer greedy ((body progress).flatMap (atMost greedy body rounds)) progress

/-- Any number of rounds, each of which has to consume something. -/
def anyNumber (greedy : Bool) (body : Ways) (progress : Progress) : List Progress :=
  prefer greedy
    ((body progress).flatMap fun next =>
      if next.cursor.rest.length < progress.cursor.rest.length then anyNumber greedy body next
      else [])
    progress
termination_by progress.cursor.rest.length

end Ways

mutual

def Node.ways (flags : Flags) : Node → Ways
  | .empty, progress => [progress]
  | .literal c, progress => progress.across fun d => sameChar d c flags.ignoreCase
  | .any, progress => progress.across fun d => flags.dotAll || d != '\n'
  | .oneOf set, progress => progress.across fun d => (CharClass.ofSet set).accepts d flags.ignoreCase
  | .assertion a, progress =>
    if (a.resolve flags.multiline).holds progress.cursor then [progress] else []
  | .group (some k) body, progress =>
    (body.ways flags (progress.record (2 * k))).map (·.record (2 * k + 1))
  | .group none body, progress => body.ways flags progress
  | .concat items, progress => waysInTurn flags items progress
  | .alternate branches, progress => waysOfAny flags branches progress
  | .repetition body min max greedy, progress =>
    (Ways.exactly (body.ways flags) min progress).flatMap fun progress =>
      match max with
      | some max => Ways.atMost greedy (body.ways flags) (max - min) progress
      | none => Ways.anyNumber greedy (body.ways flags) progress

def waysInTurn (flags : Flags) : List Node → Ways
  | [], progress => [progress]
  | item :: items, progress => (item.ways flags progress).flatMap (waysInTurn flags items)

def waysOfAny (flags : Flags) : List Node → Ways
  | [], _ => []
  | branch :: others, progress => branch.ways flags progress ++ waysOfAny flags others progress

end

/-- The slots of the preferred match: at the first place where there is one, by the first way. -/
def Parsed.captures (parsed : Parsed) (flags : Flags) (cursor : Cursor) : Option Slots :=
  cursor.places.findSome? fun place =>
    ((Node.group (some 0) parsed.node).ways flags
      ⟨place, Array.replicate (2 * (parsed.groups + 1)) none⟩).head?.map (·.slots)

mutual

/-- Whether a node may match without consuming anything, as far as its shape tells. -/
def Node.nullable : Node → Bool
  | .literal _ | .any | .oneOf _ => false
  | .empty | .assertion _ => true
  | .group _ body => body.nullable
  | .concat items => allNullable items
  | .alternate branches => anyNullable branches
  | .repetition body min _ _ => min == 0 || body.nullable

def allNullable : List Node → Bool
  | [] => true
  | node :: rest => node.nullable && allNullable rest

def anyNullable : List Node → Bool
  | [] => false
  | node :: rest => node.nullable || anyNullable rest

end

mutual

/-- Whether no repetition without a highest count has a nullable body. -/
def Node.loopsConsume : Node → Bool
  | .empty | .literal _ | .any | .oneOf _ | .assertion _ => true
  | .group _ body => body.loopsConsume
  | .concat items => allLoopsConsume items
  | .alternate branches => allLoopsConsume branches
  | .repetition body _ max _ => body.loopsConsume && (max.isSome || !body.nullable)

def allLoopsConsume : List Node → Bool
  | [] => true
  | node :: rest => node.loopsConsume && allLoopsConsume rest

end

namespace Progress

def ahead (progress : Progress) : Nat :=
  progress.cursor.rest.length

theorem ahead_lt_of_mem_across {accepts : Char → Bool} {progress next : Progress}
    (hnext : next ∈ progress.across accepts) : next.ahead < progress.ahead := by
  revert hnext
  fun_cases across accepts progress with
  | case1 => exact fun hnext => absurd hnext List.not_mem_nil
  | case2 c behind hcursor =>
      intro hnext
      obtain rfl := List.mem_singleton.mp hnext
      exact Cursor.next?_length hcursor
  | case3 => exact fun hnext => absurd hnext List.not_mem_nil

theorem mem_prefer {greedy : Bool} {more : List Progress} {progress next : Progress} :
    next ∈ prefer greedy more progress ↔ next ∈ more ∨ next = progress := by
  cases greedy <;> simp [prefer, or_comm]

end Progress

namespace Ways

/-- Ways that leave no more of the text than there was. -/
def Onward (ways : Ways) : Prop :=
  ∀ progress, ∀ next ∈ ways progress, next.ahead ≤ progress.ahead

def Consuming (ways : Ways) : Prop :=
  ∀ progress, ∀ next ∈ ways progress, next.ahead < progress.ahead

variable {body : Ways} {greedy : Bool}

theorem Consuming.onward (hbody : Consuming body) : Onward body :=
  fun progress next hnext => Nat.le_of_lt (hbody progress next hnext)

theorem Onward.exactly (hbody : Onward body) (rounds : Nat) : Onward (exactly body rounds) := by
  induction rounds with
  | zero =>
      intro progress next hnext
      exact Nat.le_of_eq (congrArg Progress.ahead (List.mem_singleton.mp hnext))
  | succ rounds ih =>
      intro progress next hnext
      obtain ⟨middle, hmiddle, hnext⟩ := List.mem_flatMap.mp hnext
      exact Nat.le_trans (ih middle next hnext) (hbody progress middle hmiddle)

theorem Consuming.exactly (hbody : Consuming body) {rounds : Nat} (hrounds : rounds ≠ 0) :
    Consuming (exactly body rounds) := by
  obtain ⟨rounds, rfl⟩ := Nat.exists_eq_succ_of_ne_zero hrounds
  intro progress next hnext
  obtain ⟨middle, hmiddle, hnext⟩ := List.mem_flatMap.mp hnext
  exact Nat.lt_of_le_of_lt (hbody.onward.exactly rounds middle next hnext)
    (hbody progress middle hmiddle)

theorem Onward.atMost (hbody : Onward body) (rounds : Nat) :
    Onward (atMost greedy body rounds) := by
  induction rounds with
  | zero =>
      intro progress next hnext
      exact Nat.le_of_eq (congrArg Progress.ahead (List.mem_singleton.mp hnext))
  | succ rounds ih =>
      intro progress next hnext
      rcases Progress.mem_prefer.mp hnext with hnext | rfl
      · obtain ⟨middle, hmiddle, hnext⟩ := List.mem_flatMap.mp hnext
        exact Nat.le_trans (ih middle next hnext) (hbody progress middle hmiddle)
      · exact Nat.le_refl _

theorem onward_anyNumber : Onward (anyNumber greedy body) := by
  intro progress
  fun_induction anyNumber greedy body progress with
  | case1 progress ih =>
      intro next hnext
      rcases Progress.mem_prefer.mp hnext with hnext | rfl
      · obtain ⟨middle, hmiddle, hnext⟩ := List.mem_flatMap.mp hnext
        by_cases hlt : middle.cursor.rest.length < progress.cursor.rest.length
        · rw [if_pos hlt] at hnext
          exact Nat.le_trans (ih middle hlt next hnext) (Nat.le_of_lt hlt)
        · rw [if_neg hlt] at hnext
          exact absurd hnext List.not_mem_nil
      · exact Nat.le_refl _

/-- When each round consumes something, no round is held back. -/
theorem anyNumber_eq (hbody : Consuming body) (progress : Progress) :
    anyNumber greedy body progress =
      prefer greedy ((body progress).flatMap (anyNumber greedy body)) progress := by
  rw [anyNumber]
  congr 1
  refine List.flatMap_congr fun next hnext => ?_
  exact if_pos (hbody progress next hnext)

end Ways

theorem onward_waysInTurn {flags : Flags} {items : List Node}
    (hitems : ∀ item ∈ items, Ways.Onward (item.ways flags)) :
    Ways.Onward (waysInTurn flags items) := by
  induction items with
  | nil =>
      intro progress next hnext
      exact Nat.le_of_eq (congrArg Progress.ahead (List.mem_singleton.mp hnext))
  | cons item items ih =>
      obtain ⟨hitem, hitems⟩ := List.forall_mem_cons.mp hitems
      intro progress next hnext
      obtain ⟨middle, hmiddle, hnext⟩ := List.mem_flatMap.mp hnext
      exact Nat.le_trans (ih hitems middle next hnext) (hitem progress middle hmiddle)

theorem mem_waysOfAny {flags : Flags} {branches : List Node} {progress next : Progress} :
    next ∈ waysOfAny flags branches progress ↔
      ∃ branch ∈ branches, next ∈ branch.ways flags progress := by
  induction branches with
  | nil => simp [waysOfAny]
  | cons branch others ih => simp [waysOfAny, ih]

theorem Node.onward_ways (flags : Flags) (node : Node) : Ways.Onward (node.ways flags) := by
  induction node with
  | empty =>
      intro progress next hnext
      exact Nat.le_of_eq (congrArg Progress.ahead (List.mem_singleton.mp hnext))
  | literal | any | oneOf =>
      exact fun _ _ hnext => Nat.le_of_lt (Progress.ahead_lt_of_mem_across hnext)
  | assertion a =>
      intro progress next hnext
      rw [Node.ways] at hnext
      split at hnext
      · exact Nat.le_of_eq (congrArg Progress.ahead (List.mem_singleton.mp hnext))
      · simp at hnext
  | group index body ih =>
      cases index with
      | none => exact ih
      | some k =>
          intro progress next hnext
          obtain ⟨inside, hinside, rfl⟩ := List.mem_map.mp hnext
          exact ih (progress.record (2 * k)) inside hinside
  | concat items ih => exact onward_waysInTurn ih
  | alternate branches ih =>
      intro progress next hnext
      obtain ⟨branch, hbranch, hnext⟩ := mem_waysOfAny.mp hnext
      exact ih branch hbranch progress next hnext
  | repetition body min max greedy ih =>
      intro progress next hnext
      obtain ⟨middle, hmiddle, hnext⟩ := List.mem_flatMap.mp hnext
      refine Nat.le_trans ?_ (ih.exactly min progress middle hmiddle)
      split at hnext
      · exact ih.atMost _ middle next hnext
      · exact Ways.onward_anyNumber middle next hnext

theorem consuming_waysInTurn {flags : Flags} {items : List Node}
    (hitems : ∀ item ∈ items, item.nullable = false → Ways.Consuming (item.ways flags))
    (hnullable : allNullable items = false) : Ways.Consuming (waysInTurn flags items) := by
  induction items with
  | nil => cases hnullable
  | cons item items ih =>
      obtain ⟨hitem, hitems⟩ := List.forall_mem_cons.mp hitems
      intro progress next hnext
      obtain ⟨middle, hmiddle, hnext⟩ := List.mem_flatMap.mp hnext
      cases hfirst : item.nullable with
      | false =>
          have hlater : Ways.Onward (waysInTurn flags items) :=
            onward_waysInTurn fun item _ => item.onward_ways flags
          exact Nat.lt_of_le_of_lt (hlater middle next hnext) (hitem hfirst progress middle hmiddle)
      | true =>
          have hothers : allNullable items = false := by
            simpa [allNullable, hfirst] using hnullable
          exact Nat.lt_of_lt_of_le (ih hitems hothers middle next hnext)
            (item.onward_ways flags progress middle hmiddle)

theorem nullable_of_mem {branches : List Node} (hnullable : anyNullable branches = false)
    {branch : Node} (hbranch : branch ∈ branches) : branch.nullable = false := by
  induction branches with
  | nil => simp at hbranch
  | cons first others ih =>
      simp only [anyNullable, Bool.or_eq_false_iff] at hnullable
      rcases List.mem_cons.mp hbranch with rfl | hbranch
      · exact hnullable.1
      · exact ih hnullable.2 hbranch

theorem Node.consuming_ways (flags : Flags) {node : Node} (hnullable : node.nullable = false) :
    Ways.Consuming (node.ways flags) := by
  induction node with
  | empty | assertion => cases hnullable
  | literal | any | oneOf => exact fun _ _ hnext => Progress.ahead_lt_of_mem_across hnext
  | group index body ih =>
      cases index with
      | none => exact ih hnullable
      | some k =>
          intro progress next hnext
          obtain ⟨inside, hinside, rfl⟩ := List.mem_map.mp hnext
          exact ih hnullable (progress.record (2 * k)) inside hinside
  | concat items ih => exact consuming_waysInTurn ih hnullable
  | alternate branches ih =>
      intro progress next hnext
      obtain ⟨branch, hbranch, hnext⟩ := mem_waysOfAny.mp hnext
      exact ih branch hbranch (nullable_of_mem hnullable hbranch) progress next hnext
  | repetition body min max greedy ih =>
      simp only [Node.nullable, Bool.or_eq_false_iff, beq_eq_false_iff_ne] at hnullable
      intro progress next hnext
      obtain ⟨middle, hmiddle, hnext⟩ := List.mem_flatMap.mp hnext
      refine Nat.lt_of_le_of_lt ?_ ((ih hnullable.2).exactly hnullable.1 progress middle hmiddle)
      split at hnext
      · exact (body.onward_ways flags).atMost _ middle next hnext
      · exact Ways.onward_anyNumber middle next hnext

section Rounds

variable {flags : Flags} {body : Node} {greedy : Bool} {progress : Progress}

theorem ways_round {min : Nat} {max : Option Nat} :
    (Node.repetition body (min + 1) (max.map (· + 1)) greedy).ways flags progress =
      (body.ways flags progress).flatMap
        ((Node.repetition body min max greedy).ways flags) := by
  cases max with
  | none => simp [Node.ways, Ways.exactly, List.flatMap_assoc]
  | some max => simp [Node.ways, Ways.exactly, List.flatMap_assoc, Nat.add_sub_add_right]

theorem ways_optionalRound {max : Nat} :
    (Node.repetition body 0 (some (max + 1)) greedy).ways flags progress =
      prefer greedy ((body.ways flags progress).flatMap
        ((Node.repetition body 0 (some max) greedy).ways flags)) progress := by
  simp [Node.ways, Ways.exactly, Ways.atMost]

theorem ways_plus :
    (Node.repetition body 1 none greedy).ways flags progress =
      (body.ways flags progress).flatMap ((Node.repetition body 0 none greedy).ways flags) :=
  @ways_round flags body greedy progress 0 none

theorem ways_star (hbody : body.nullable = false) :
    (Node.repetition body 0 none greedy).ways flags progress =
      prefer greedy ((body.ways flags progress).flatMap
        ((Node.repetition body 0 none greedy).ways flags)) progress := by
  simp only [Node.ways, Ways.exactly, List.flatMap_singleton]
  exact Ways.anyNumber_eq (Node.consuming_ways flags hbody) progress

end Rounds

/-- Whatever backtracking finds from the second list it finds from the first. -/
def Leads (program : Program) (source target : List Visit) : Prop :=
  ∀ found, (∃ steps, Finds program steps target found) → ∃ steps, Finds program steps source found

namespace Leads

variable {program : Program} {a b c : List Visit}

theorem refl (a : List Visit) : Leads program a a :=
  fun _ => id

theorem trans (hab : Leads program a b) (hbc : Leads program b c) : Leads program a c :=
  fun found hfound => hab found (hbc found hfound)

theorem append {a' b' : List Visit} (ha : Leads program a a') (hb : Leads program b b') :
    Leads program (a ++ b) (a' ++ b') := by
  rintro found ⟨steps, hfinds⟩
  rcases hfinds.of_append with ⟨earlier, later, rfl, hfirst, hsecond⟩ | ⟨slots, rfl, hfirst⟩
  · obtain ⟨earlier, hfirst⟩ := ha none ⟨earlier, hfirst⟩
    obtain ⟨later, hsecond⟩ := hb found ⟨later, hsecond⟩
    exact ⟨earlier + later, hfirst.append_none hsecond⟩
  · obtain ⟨steps, hfirst⟩ := ha (some slots) ⟨steps, hfirst⟩
    exact ⟨steps, hfirst.append_some b⟩

theorem flatMap {f g : α → List Visit} {items : List α}
    (hitems : ∀ item ∈ items, Leads program (f item) (g item)) :
    Leads program (items.flatMap f) (items.flatMap g) := by
  induction items with
  | nil => exact refl []
  | cons item items ih =>
      obtain ⟨hitem, hitems⟩ := List.forall_mem_cons.mp hitems
      exact hitem.append (ih hitems)

theorem onward {visit : Visit} (haccepts : visit.accepts program = false) :
    Leads program [visit] (visit.onward program) := by
  rintro found ⟨steps, hfinds⟩
  exact ⟨steps + 1, .visit haccepts (by rwa [List.append_nil])⟩

end Leads

def Progress.visitAt (address : Nat) (progress : Progress) : Visit :=
  ⟨address, progress.cursor, progress.slots⟩

section Threads

variable {program : Program} {address : Nat} {instruction : Instruction} {progress : Progress}

theorem leads_moves (hinstruction : program.instructions[address]? = some instruction)
    (haccept : instruction ≠ .accept) :
    Leads program [progress.visitAt address]
      ((Search.moves program progress.cursor address instruction).map fun place =>
        ⟨place.1, place.2, Search.recorded progress.cursor progress.slots instruction⟩) := by
  have haccepts : (progress.visitAt address).accepts program = false := by
    simp [Visit.accepts, Progress.visitAt, hinstruction, haccept]
  have honward := Leads.onward haccepts
  rw [Visit.onward] at honward
  simpa only [Progress.visitAt, hinstruction] using honward

theorem leads_save {slot : Nat}
    (hinstruction : program.instructions[address]? = some (.save slot)) :
    Leads program [progress.visitAt address] [(progress.record slot).visitAt (address + 1)] :=
  leads_moves hinstruction (by simp)

theorem leads_jump {target : Nat}
    (hinstruction : program.instructions[address]? = some (.jump target)) :
    Leads program [progress.visitAt address] [progress.visitAt target] :=
  leads_moves hinstruction (by simp)

theorem leads_split {primary secondary : Nat}
    (hinstruction : program.instructions[address]? = some (.split primary secondary)) :
    Leads program [progress.visitAt address] [progress.visitAt primary, progress.visitAt secondary] :=
  leads_moves hinstruction (by simp)

theorem leads_assertion {a : Assertion}
    (hinstruction : program.instructions[address]? = some (.assertion a)) :
    Leads program [progress.visitAt address]
      ((if a.holds progress.cursor then [progress] else []).map (·.visitAt (address + 1))) := by
  have hmoves := @leads_moves program address _ progress hinstruction (by simp)
  rw [Search.moves] at hmoves
  split at hmoves <;> simp_all [Progress.visitAt, Search.recorded]

theorem leads_across {accepts : Char → Bool}
    (hinstruction : program.instructions[address]? = some instruction)
    (hrests : Search.rests instruction = true) (haccept : instruction ≠ .accept)
    (haccepts : ∀ c, program.accepts? c instruction = some (accepts c)) :
    Leads program [progress.visitAt address]
      ((progress.across accepts).map (·.visitAt (address + 1))) := by
  have hmoves := @leads_moves program address instruction progress hinstruction haccept
  cases instruction with
  | char _ _ | any _ | oneOf _ _ =>
      simp only [Search.moves, haccepts, Option.some.injEq] at hmoves
      rw [Progress.across]
      cases hcursor : progress.cursor.next? with
      | none =>
          rw [hcursor] at hmoves
          exact hmoves
      | some next =>
          rw [hcursor] at hmoves
          obtain ⟨c, behind⟩ := next
          cases haccepted : accepts c with
          | true =>
              simp only [haccepted, if_true] at hmoves ⊢
              exact hmoves
          | false =>
              simp only [haccepted, Bool.false_eq_true, if_false] at hmoves ⊢
              exact hmoves
  | accept => exact absurd rfl haccept
  | _ => cases hrests

theorem Leads.flatMap_ways {entry middle exit : Nat} {first : List Progress} {second : Ways}
    (hfirst : Leads program [progress.visitAt entry] (first.map (·.visitAt middle)))
    (hsecond : ∀ next ∈ first,
      Leads program [next.visitAt middle] ((second next).map (·.visitAt exit))) :
    Leads program [progress.visitAt entry] ((first.flatMap second).map (·.visitAt exit)) := by
  refine hfirst.trans ?_
  rw [List.map_flatMap, ← List.flatMap_singleton' (first.map _), List.flatMap_map]
  exact Leads.flatMap hsecond

theorem leads_prefer {greedy : Bool} {inside exit : Nat} {more : List Progress}
    (hinstruction : program.instructions[address]? = some (fork greedy inside exit))
    (hmore : Leads program [progress.visitAt inside] (more.map (·.visitAt exit))) :
    Leads program [progress.visitAt address] ((prefer greedy more progress).map (·.visitAt exit)) := by
  have hnone : Leads program [progress.visitAt exit] [progress.visitAt exit] := .refl _
  cases greedy with
  | true =>
      simp only [prefer, if_true, List.map_append]
      exact (leads_split hinstruction).trans (hmore.append hnone)
  | false => exact (leads_split hinstruction).trans (hnone.append hmore)

end Threads

section Fragments

variable {program : Program} {flags : Flags}

/-- Backtracking from the entry of a fragment comes out at its exit in the ways through its node. -/
theorem Fragment.leads {node : Node} {entry exit : Nat}
    (hfragment : Fragment program flags node entry exit) (hloops : node.loopsConsume = true)
    (progress : Progress) :
    Leads program [progress.visitAt entry] ((node.ways flags progress).map (·.visitAt exit)) := by
  induction hfragment generalizing progress with
  | empty => exact .refl _
  | literal hentry => exact leads_across hentry rfl (by simp) fun _ => rfl
  | any hentry => exact leads_across hentry rfl (by simp) fun _ => rfl
  | oneOf hentry hclass =>
      exact leads_across hentry rfl (by simp) fun _ => by simp only [Program.accepts?, hclass]
  | assertion hentry => exact leads_assertion hentry
  | capture hentry _ hstop ih =>
      refine (leads_save hentry).trans ((ih hloops _).trans ?_)
      rw [Node.ways, List.map_map, List.map_eq_flatMap, List.map_eq_flatMap]
      exact Leads.flatMap fun next _ => leads_save hstop
  | group _ ih => exact ih hloops progress
  | concatNil => exact .refl _
  | concatCons _ _ ihItem ihItems =>
      obtain ⟨hitem, hitems⟩ := Bool.and_eq_true_iff.mp hloops
      exact (ihItem hitem progress).flatMap_ways fun next _ => ihItems hitems next
  | lastBranch _ ih =>
      rw [Node.ways, waysOfAny, waysOfAny, List.append_nil]
      exact ih (Bool.and_eq_true_iff.mp hloops).1 progress
  | branch hentry _ hstop _ ihBranch ihOthers =>
      obtain ⟨hbranch, hothers⟩ := Bool.and_eq_true_iff.mp hloops
      refine (leads_split hentry).trans ?_
      rw [Node.ways, waysOfAny, List.map_append, ← List.singleton_append]
      refine Leads.append ?_ (ihOthers hothers progress)
      refine (ihBranch hbranch progress).trans ?_
      rw [List.map_eq_flatMap, List.map_eq_flatMap]
      exact Leads.flatMap fun next _ => leads_jump hstop
  | noRound => exact .refl _
  | @round body min max greedy _ _ _ _ _ ihBody ihOthers =>
      have hbody : body.loopsConsume = true := (Bool.and_eq_true_iff.mp hloops).1
      have hothers : (Node.repetition body min max greedy).loopsConsume = true := by
        simpa [Node.loopsConsume] using hloops
      rw [ways_round]
      exact (ihBody hbody progress).flatMap_ways fun next _ => ihOthers hothers next
  | @optionalRound body max greedy _ _ _ hentry _ _ ihBody ihOthers =>
      have hbody : body.loopsConsume = true := (Bool.and_eq_true_iff.mp hloops).1
      have hothers : (Node.repetition body 0 (some max) greedy).loopsConsume = true := by
        simpa [Node.loopsConsume] using hloops
      rw [ways_optionalRound]
      exact leads_prefer hentry
        ((ihBody hbody progress).flatMap_ways fun next _ => ihOthers hothers next)
  | @star body greedy _ _ hentry _ hstop ih =>
      obtain ⟨hbody, hnullable⟩ : body.loopsConsume = true ∧ body.nullable = false := by
        simpa [Node.loopsConsume] using hloops
      -- Each round leaves less of the text for those behind it.
      induction hahead : progress.ahead using Nat.strongRecOn generalizing progress with
      | ind ahead ihAhead =>
          subst hahead
          rw [ways_star hnullable]
          refine leads_prefer hentry ((ih hbody progress).flatMap_ways fun next hnext => ?_)
          have hlt := Node.consuming_ways flags hnullable progress next hnext
          exact (leads_jump hstop).trans (ihAhead next.ahead hlt next rfl)
  | @plus body greedy _ _ _ hstop ih =>
      obtain ⟨hbody, hnullable⟩ : body.loopsConsume = true ∧ body.nullable = false := by
        simpa [Node.loopsConsume] using hloops
      induction hahead : progress.ahead using Nat.strongRecOn generalizing progress with
      | ind ahead ihAhead =>
          subst hahead
          rw [ways_plus]
          refine (ih hbody progress).flatMap_ways fun next hnext => ?_
          have hlt := Node.consuming_ways flags hnullable progress next hnext
          rw [ways_star hnullable, ← ways_plus]
          exact leads_prefer hstop (ihAhead next.ahead hlt next rfl)

theorem finds_of_accept {exit : Nat} (hexit : program.instructions[exit]? = some .accept)
    (ways : List Progress) :
    Finds program 0 (ways.map (·.visitAt exit)) (ways.head?.map (·.slots)) := by
  cases ways with
  | nil => exact .nothing
  | cons first others => exact .accept (beq_iff_eq.mpr hexit)

/-- The walk from the places of a text finds the preferred match of the pattern. -/
theorem explore_starts_eq_captures {pattern : String} {flags : Flags} {parsed : Parsed}
    (hcompile : compile pattern flags = .ok program) (hparse : parse pattern = .ok parsed)
    (hloops : parsed.node.loopsConsume = true) {text : String} {cursor : Cursor}
    (hon : Cursor.On text cursor) :
    Search.explore program (Search.everywhere program text)
        (cursor.places.map (Search.startVisit program)) =
      parsed.captures (flags.union parsed.flags) cursor := by
  obtain ⟨parsed', hparse', hprogram, -, exit, hfragment, hexit⟩ := compile_spec hcompile
  obtain rfl : parsed = parsed' := Except.ok.inj (hparse.symm.trans hparse')
  have hslots : program.slots = 2 * (parsed.groups + 1) := by rw [hprogram]; rfl
  let first (place : Cursor) : Progress := ⟨place, Array.replicate (2 * (parsed.groups + 1)) none⟩
  have hstarts : cursor.places.map (Search.startVisit program) =
      cursor.places.flatMap fun place => [(first place).visitAt program.start] := by
    rw [List.map_eq_flatMap]
    refine List.flatMap_congr fun place _ => ?_
    rw [Search.startVisit, hslots]
    rfl
  have hleads : Leads program (cursor.places.map (Search.startVisit program))
      ((cursor.places.flatMap fun place =>
        (Node.group (some 0) parsed.node).ways (flags.union parsed.flags) (first place)).map
          (·.visitAt exit)) := by
    rw [hstarts, List.map_flatMap]
    exact Leads.flatMap fun place _ => hfragment.leads hloops (first place)
  obtain ⟨steps, hfinds⟩ := hleads _ ⟨0, finds_of_accept hexit _⟩
  have hplaces : ∀ visit ∈ cursor.places.map (Search.startVisit program),
      Cursor.On text visit.cursor :=
    List.forall_mem_map.mpr fun place hplace => ((Cursor.mem_places hon).mp hplace).1
  rw [Search.explore_eq_of_finds hplaces hfinds, List.head?_flatMap, Parsed.captures,
    List.map_findSome?]
  rfl

end Fragments

end TextColumns.Pattern
