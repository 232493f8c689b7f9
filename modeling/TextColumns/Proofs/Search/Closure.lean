import TextColumns.Proofs.Program.Check
import TextColumns.Proofs.Search.Explore
import TextColumns.Proofs.Search.Threads

/-!
The closure of a thread list under the instructions that consume nothing, frame by frame.
`Closing.Fits.moves` says what the work of one frame does, and `exists_runs` that the work comes to
an end for a checked program, with every slot as it was.  `close_address` says that the threads that
rest are added in the order of the depth-first walk.
-/

namespace TextColumns.Search

open Text (Cursor)

/-- A machine on its way from one state to another, with what it enters. -/
inductive Runs {σ : Type} (next? : σ → Option σ) (entering? : σ → Option (Nat × Nat)) :
    σ → List (Nat × Nat) → σ → Prop
  | refl (state : σ) : Runs next? entering? state [] state
  | step {state after last : σ} {log : List (Nat × Nat)} (hnext : next? state = some after)
      (hruns : Runs next? entering? after log last) :
      Runs next? entering? state ((entering? state).toList ++ log) last

namespace Runs

variable {σ τ : Type} {next? : σ → Option σ} {entering? : σ → Option (Nat × Nat)}
  {state between last : σ} {log later : List (Nat × Nat)}

theorem trans (hruns : Runs next? entering? state log between)
    (hlater : Runs next? entering? between later last) :
    Runs next? entering? state (log ++ later) last := by
  induction hruns with
  | refl => exact hlater
  | step hnext _ ih =>
      rw [List.append_assoc]
      exact .step hnext (ih hlater)

theorem map {whole? : τ → Option τ} {meeting? : τ → Option (Nat × Nat)} (embed : σ → τ)
    (hwhole : ∀ state after, next? state = some after → whole? (embed state) = some (embed after))
    (hmeeting : ∀ state, meeting? (embed state) = entering? state)
    (hruns : Runs next? entering? state log last) :
    Runs whole? meeting? (embed state) log (embed last) := by
  induction hruns with
  | refl state => exact .refl (embed state)
  | step hnext _ ih =>
      rw [← hmeeting]
      exact .step (hwhole _ _ hnext) ih

/-- Nothing is entered twice when a step enters only what has not been seen, and what has been seen
stays so. -/
theorem nodup {Kept : σ → Prop} {Seen : σ → Nat × Nat → Prop}
    (hstep : ∀ state after, next? state = some after → Kept state →
      Kept after ∧ (∀ entry, Seen state entry → Seen after entry) ∧
        ∀ entry ∈ entering? state, ¬Seen state entry ∧ Seen after entry)
    (hruns : Runs next? entering? state log last) (hkept : Kept state) :
    log.Nodup ∧ ∀ entry ∈ log, ¬Seen state entry := by
  induction hruns with
  | refl => exact ⟨.nil, nofun⟩
  | @step state after _ _ hnext _ ih =>
      obtain ⟨hafter, hseen, hentering⟩ := hstep state after hnext hkept
      obtain ⟨hnodup, hfresh⟩ := ih hafter
      have hlater : ∀ entry ∈ _, ¬Seen state entry := fun entry hentry hearlier =>
        hfresh entry hentry (hseen entry hearlier)
      cases hentry : entering? state with
      | none => exact ⟨hnodup, hlater⟩
      | some entry =>
          obtain ⟨hnew, hold⟩ := hentering entry hentry
          exact ⟨List.nodup_cons.mpr ⟨fun hmem => hfresh entry hmem hold, hnodup⟩,
            List.forall_mem_cons.mpr ⟨hnew, hlater⟩⟩

end Runs

/-- The visits that a stack of frames stands for. -/
def visitsOf (cursor : Cursor) (slots : Slots) : List Frame → List Visit
  | [] => []
  | .explore address :: stack => ⟨address, cursor, slots⟩ :: visitsOf cursor slots stack
  | .restore slot old :: stack => visitsOf cursor (slots.setIfInBounds slot old) stack

/-- The slots when all frames of a stack have been worked off. -/
def unwound (slots : Slots) : List Frame → Slots
  | [] => slots
  | .explore _ :: stack => unwound slots stack
  | .restore slot old :: stack => unwound (slots.setIfInBounds slot old) stack

def Frame.Inside (program : Program) : Frame → Prop
  | .explore address => address < program.size
  | .restore slot _ => slot < program.slots

/-- The visits to which a visit leads at its own place, the preferred one first. -/
def Visit.exits (program : Program) (visit : Visit) : List Visit :=
  if visit.rests program then [] else visit.onward program

structure Closing where
  cursor : Cursor
  stack : List Frame
  threads : Threads
  slots : Slots

namespace Closing

def start (cursor : Cursor) (address : Nat) (threads : Threads) (slots : Slots) : Closing :=
  ⟨cursor, [.explore address], threads, slots⟩

def branch? (cursor : Cursor) (address : Nat) (stack : List Frame) (added : Threads)
    (slots : Slots) : Branching → Option Closing
  | .onward target => some ⟨cursor, .explore target :: stack, added, slots⟩
  | .either primary secondary =>
    some ⟨cursor, .explore primary :: .explore secondary :: stack, added, slots⟩
  | .save slot =>
    if h : slot < slots.size then
      some ⟨cursor, .explore (address + 1) :: .restore slot slots[slot] :: stack, added,
        slots.set slot (some cursor.offset) h⟩
    else none
  | .rest =>
    match added.record? address slots with
    | some recorded => some ⟨cursor, stack, recorded, slots⟩
    | none => none
  | .stop => some ⟨cursor, stack, added, slots⟩

def next? (program : Program) : Closing → Option Closing
  | ⟨_, [], _, _⟩ => none
  | ⟨cursor, .restore slot old :: stack, threads, slots⟩ =>
    if h : slot < slots.size then some ⟨cursor, stack, threads, slots.set slot old h⟩ else none
  | ⟨cursor, .explore address :: stack, threads, slots⟩ =>
    match threads.set.contains? address with
    | none => none
    | some true => some ⟨cursor, stack, threads, slots⟩
    | some false =>
      match threads.add? address, program.instructions[address]? with
      | some added, some instruction =>
        branch? cursor address stack added slots (branching cursor address instruction)
      | _, _ => none

/-- The address whose instruction is carried out next, with the offset at which that is. -/
def entering? : Closing → Option (Nat × Nat)
  | ⟨cursor, .explore address :: _, threads, _⟩ =>
    match threads.set.contains? address with
    | some false => some (address, cursor.offset)
    | _ => none
  | _ => none

abbrev Runs (program : Program) : Closing → List (Nat × Nat) → Closing → Prop :=
  Search.Runs (next? program) entering?

def pending (closing : Closing) : List Visit :=
  visitsOf closing.cursor closing.slots closing.stack

def unwound (closing : Closing) : Slots :=
  Search.unwound closing.slots closing.stack

structure Fits (program : Program) (closing : Closing) : Prop where
  threads : closing.threads.Fits program
  slots_size : closing.slots.size = program.slots

/-- What the work of one frame does to the visits that are pending and to the threads. -/
inductive Moves (program : Program) (closing next : Closing) : Prop
  | restore (hpending : closing.pending = next.pending) (hthreads : next.threads = closing.threads)
      (hlength : next.stack.length < closing.stack.length) (hentering : closing.entering? = none)
  | pass (visit : Visit) (hpending : closing.pending = visit :: next.pending)
      (hcursor : visit.cursor = closing.cursor)
      (hmember : visit.address ∈ closing.threads.set.members)
      (hthreads : next.threads = closing.threads)
      (hlength : next.stack.length < closing.stack.length) (hentering : closing.entering? = none)
  | enter (visit : Visit) (others : List Visit) (hpending : closing.pending = visit :: others)
      (hcursor : visit.cursor = closing.cursor)
      (hnew : visit.address ∉ closing.threads.set.members)
      (hnext : next.pending = visit.exits program ++ others)
      (hmembers : next.threads.set.members = closing.threads.set.members ++ [visit.address])
      (hrows : ∀ other, next.threads.rows[other]? =
        if other = visit.address ∧ visit.rests program = true then some visit.slots
        else closing.threads.rows[other]?)
      (hlength : next.stack.length ≤ closing.stack.length + 1)
      (hentering : closing.entering? = some visit.key)

end Closing

variable {program : Program} {cursor : Cursor} {threads : Threads}

theorem setIfInBounds_set {slots : Array α} {slot : Nat} (h : slot < slots.size) (new : α) :
    (slots.set slot new).setIfInBounds slot slots[slot] = slots := by
  apply Array.ext
  · simp
  · intro i hi _
    rw [Array.getElem_setIfInBounds (by simpa using hi)]
    by_cases heq : slot = i
    · rw [if_pos heq]
      subst heq
      rfl
    · rw [if_neg heq, Array.getElem_set_ne _ _ heq]

/-- The frames that an instruction leaves stand for the visits to which it leads. -/
theorem exits_eq (cursor : Cursor) (slots : Slots) {address : Nat} {instruction : Instruction}
    (hinstruction : program.instructions[address]? = some instruction) :
    let visit : Visit := ⟨address, cursor, slots⟩
    match branching cursor address instruction with
    | .onward target =>
      visit.rests program = false ∧ visit.exits program = [⟨target, cursor, slots⟩]
    | .either primary secondary =>
      visit.rests program = false ∧
        visit.exits program = [⟨primary, cursor, slots⟩, ⟨secondary, cursor, slots⟩]
    | .save slot =>
      visit.rests program = false ∧
        visit.exits program =
          [⟨address + 1, cursor, slots.setIfInBounds slot (some cursor.offset)⟩]
    | .rest => visit.rests program = true ∧ visit.exits program = []
    | .stop => visit.rests program = false ∧ visit.exits program = [] := by
  cases instruction with
  | assertion a =>
      cases h : a.holds cursor <;>
        simp [branching, Visit.exits, Visit.rests, Visit.onward, hinstruction, moves, recorded, rests,
          h]
  | _ =>
      simp [branching, Visit.exits, Visit.rests, Visit.onward, hinstruction, moves, recorded, rests]

namespace Closing

variable {closing next : Closing}

theorem close_eq (program : Program) (cursor : Cursor) (stack : List Frame) (threads : Threads)
    (slots : Slots) :
    close program cursor stack threads slots =
      if stack = [] then some (threads, slots)
      else
        match next? program ⟨cursor, stack, threads, slots⟩ with
        | none => none
        | some next => close program next.cursor next.stack next.threads next.slots := by
  fun_cases close program cursor stack threads slots with
  | case1 => rfl
  | case2 slot old _ h => simp only [next?, dif_pos h, reduceCtorEq, if_false]
  | case3 slot old _ h => simp only [next?, dif_neg h, reduceCtorEq, if_false]
  | case4 address _ hcontains | case5 address _ hcontains =>
      simp only [next?, hcontains, reduceCtorEq, if_false]
  | case6 address _ hcontains added instruction hadd hinstruction _ target hbranching
  | case7 address _ hcontains added instruction hadd hinstruction _ primary secondary hbranching
  | case12 address _ hcontains added instruction hadd hinstruction _ hbranching =>
      simp only [next?, hcontains, hadd, hinstruction, branch?, hbranching, reduceCtorEq, if_false]
  | case8 address _ hcontains added instruction hadd hinstruction _ slot hbranching hslot =>
      simp only [next?, hcontains, hadd, hinstruction, branch?, hbranching, dif_pos hslot,
        reduceCtorEq, if_false]
  | case9 address _ hcontains added instruction hadd hinstruction _ slot hbranching hslot =>
      simp only [next?, hcontains, hadd, hinstruction, branch?, hbranching, dif_neg hslot,
        reduceCtorEq, if_false]
  | case10 address _ hcontains added instruction hadd hinstruction _ hbranching recorded hrecord
  | case11 address _ hcontains added instruction hadd hinstruction _ hbranching hrecord =>
      simp only [next?, hcontains, hadd, hinstruction, branch?, hbranching, hrecord, reduceCtorEq,
        if_false]
  | case13 address _ hcontains hmissing =>
      simp only [next?, hcontains, reduceCtorEq, if_false]

theorem close_of_next? (hnext : closing.next? program = some next) :
    close program closing.cursor closing.stack closing.threads closing.slots =
      close program next.cursor next.stack next.threads next.slots := by
  obtain ⟨cursor, stack, threads, slots⟩ := closing
  cases stack with
  | nil => cases hnext
  | cons frame stack => rw [close_eq, if_neg (List.cons_ne_nil _ _), hnext]

theorem entering?_explore (cursor : Cursor) (stack : List Frame) (slots : Slots) {address : Nat}
    {found : Bool} (hcontains : threads.set.contains? address = some found) :
    entering? ⟨cursor, .explore address :: stack, threads, slots⟩ =
      if found then none else some (address, cursor.offset) := by
  rw [entering?, hcontains]
  cases found <;> rfl

theorem Fits.restore {slot : Nat} {old : Option Nat} {stack : List Frame} {slots : Slots}
    (hfits : Fits program ⟨cursor, .restore slot old :: stack, threads, slots⟩)
    (hnext : next? program ⟨cursor, .restore slot old :: stack, threads, slots⟩ = some next) :
    next.Fits program ∧ next.cursor = cursor ∧
      next.unwound = unwound ⟨cursor, .restore slot old :: stack, threads, slots⟩ ∧
      Moves program ⟨cursor, .restore slot old :: stack, threads, slots⟩ next := by
  rw [next?] at hnext
  by_cases hslot : slot < slots.size
  · rw [dif_pos hslot] at hnext
    cases hnext
    have hset : slots.setIfInBounds slot old = slots.set slot old hslot := by
      simp [Array.setIfInBounds, hslot]
    refine ⟨⟨hfits.threads, ?_⟩, rfl, ?_, .restore ?_ rfl ?_ rfl⟩
    · exact (Array.size_set hslot).trans hfits.slots_size
    · rw [unwound, unwound, Search.unwound, hset]
    · rw [pending, pending, visitsOf, hset]
    · exact Nat.lt_succ_self _
  · rw [dif_neg hslot] at hnext
    cases hnext

theorem Fits.enter {stack : List Frame} {added : Threads} {slots : Slots} {address : Nat}
    {instruction : Instruction}
    (hfits : Fits program ⟨cursor, .explore address :: stack, threads, slots⟩)
    (hcontains : threads.set.contains? address = some false)
    (hadd : threads.add? address = some added)
    (hinstruction : program.instructions[address]? = some instruction)
    (hnext : branch? cursor address stack added slots (branching cursor address instruction) =
      some next) :
    next.Fits program ∧ next.cursor = cursor ∧
      next.unwound = unwound ⟨cursor, .explore address :: stack, threads, slots⟩ ∧
      Moves program ⟨cursor, .explore address :: stack, threads, slots⟩ next := by
  obtain ⟨haddress, hnew, hadded, hmembers, hrows⟩ := hfits.threads.entered hcontains hadd
  have hentering := entering?_explore cursor stack slots hcontains
  have hslots := hfits.slots_size
  have hexits := exits_eq cursor slots hinstruction
  -- What holds whenever the thread does not rest at the address.
  have hpassing {next : Closing} (hcursor : next.cursor = cursor) (hthreads : next.threads = added)
      (hrests : (⟨address, cursor, slots⟩ : Visit).rests program = false)
      (hpending : next.pending =
        Visit.exits program ⟨address, cursor, slots⟩ ++ visitsOf cursor slots stack)
      (hlength : next.stack.length ≤ stack.length + 2) :
      Moves program ⟨cursor, .explore address :: stack, threads, slots⟩ next :=
    .enter ⟨address, cursor, slots⟩ _ rfl rfl hnew hpending (hthreads ▸ hmembers)
      (fun other => by simp [hthreads, hrows, hrests]) hlength hentering
  cases hbranching : branching cursor address instruction with
  | onward target =>
      rw [hbranching] at hnext hexits
      cases hnext
      exact ⟨⟨hadded, hslots⟩, rfl, rfl, hpassing rfl rfl hexits.1 (hexits.2 ▸ rfl) (Nat.le_succ _)⟩
  | either primary secondary =>
      rw [hbranching] at hnext hexits
      cases hnext
      exact ⟨⟨hadded, hslots⟩, rfl, rfl, hpassing rfl rfl hexits.1 (hexits.2 ▸ rfl) (Nat.le_refl _)⟩
  | stop =>
      rw [hbranching] at hnext hexits
      cases hnext
      exact ⟨⟨hadded, hslots⟩, rfl, rfl,
        hpassing rfl rfl hexits.1 (hexits.2 ▸ rfl) (Nat.le_add_right _ _)⟩
  | save slot =>
      rw [hbranching] at hnext hexits
      rw [branch?] at hnext
      by_cases hslot : slot < slots.size
      · rw [dif_pos hslot] at hnext
        cases hnext
        -- The frame that is left behind gives the slot its value back.
        have hback := setIfInBounds_set hslot (some cursor.offset)
        have hset : slots.setIfInBounds slot (some cursor.offset) =
            slots.set slot (some cursor.offset) hslot := by simp [Array.setIfInBounds, hslot]
        refine ⟨⟨hadded, (Array.size_set hslot).trans hslots⟩, rfl, ?_,
          hpassing rfl rfl hexits.1 ?_ (Nat.le_refl _)⟩
        · simp only [unwound, Search.unwound, hback]
        · simp only [pending, visitsOf, hback, hexits.2, hset, List.singleton_append]
      · rw [dif_neg hslot] at hnext
        cases hnext
  | rest =>
      rw [hbranching] at hnext hexits
      obtain ⟨recorded, hrecord, hrecorded, hset, hrow⟩ := hadded.record?_eq haddress hslots
      rw [branch?, hrecord] at hnext
      cases hnext
      refine ⟨⟨hrecorded, hslots⟩, rfl, rfl, .enter ⟨address, cursor, slots⟩ _ rfl rfl hnew
        (hexits.2 ▸ rfl) (hset ▸ hmembers) (fun row => ?_) (Nat.le_add_right stack.length 2)
        hentering⟩
      rw [hrow, hrows]
      simp only [hexits.1, and_true]

theorem Fits.moves (hfits : closing.Fits program) (hnext : closing.next? program = some next) :
    next.Fits program ∧ next.cursor = closing.cursor ∧ next.unwound = closing.unwound ∧
      Moves program closing next := by
  obtain ⟨cursor, stack, threads, slots⟩ := closing
  match stack with
  | [] => cases hnext
  | .restore slot old :: stack => exact hfits.restore hnext
  | .explore address :: stack =>
      rw [next?] at hnext
      cases hcontains : threads.set.contains? address with
      | none =>
          rw [hcontains] at hnext
          cases hnext
      | some member =>
          cases member with
          | true =>
              rw [hcontains] at hnext
              cases hnext
              have hmember := (hfits.threads.set.mem_of_contains? hcontains).mp rfl
              exact ⟨⟨hfits.threads, hfits.slots_size⟩, rfl, rfl,
                .pass ⟨address, cursor, slots⟩ rfl rfl hmember rfl (Nat.lt_succ_self _)
                  (entering?_explore cursor stack slots hcontains)⟩
          | false =>
              rw [hcontains] at hnext
              dsimp only at hnext
              split at hnext
              next added instruction hadd hinstruction =>
                exact hfits.enter hcontains hadd hinstruction hnext
              next => cases hnext

def Inside (program : Program) (closing : Closing) : Prop :=
  ∀ frame ∈ closing.stack, frame.Inside program

theorem exists_branch? (hcheck : program.check = .ok ()) (cursor : Cursor) {stack : List Frame}
    {added : Threads} {slots : Slots} {address : Nat} {instruction : Instruction}
    (hadded : added.Fits program) (haddress : address < program.size)
    (hslots : slots.size = program.slots)
    (hstack : ∀ frame ∈ stack, frame.Inside program)
    (hinstruction : program.instructions[address]? = some instruction) :
    ∃ next, branch? cursor address stack added slots (branching cursor address instruction) =
        some next ∧ next.Inside program := by
  have hinside := Program.staysInside_of_check hcheck hinstruction
  cases instruction with
  | jump target =>
      have htarget : target < program.size := of_decide_eq_true hinside
      exact ⟨_, rfl, List.forall_mem_cons.mpr ⟨htarget, hstack⟩⟩
  | split primary secondary =>
      simp only [Program.staysInside, Bool.and_eq_true, decide_eq_true_eq] at hinside
      exact ⟨_, rfl, List.forall_mem_cons.mpr ⟨hinside.1,
        List.forall_mem_cons.mpr ⟨hinside.2, hstack⟩⟩⟩
  | assertion a =>
      have hnext : address + 1 < program.size := of_decide_eq_true hinside
      rw [branching]
      split
      · exact ⟨_, rfl, List.forall_mem_cons.mpr ⟨hnext, hstack⟩⟩
      · exact ⟨_, rfl, hstack⟩
  | save slot =>
      simp only [Program.staysInside, Bool.and_eq_true, decide_eq_true_eq] at hinside
      have hslot : slot < slots.size := by rw [hslots]; exact hinside.1
      exact ⟨_, dif_pos hslot, List.forall_mem_cons.mpr ⟨hinside.2,
        List.forall_mem_cons.mpr ⟨hinside.1, hstack⟩⟩⟩
  | char _ _ | any _ | oneOf _ _ | accept =>
      obtain ⟨recorded, hrecord, -⟩ := hadded.record?_eq haddress hslots
      exact ⟨⟨cursor, stack, recorded, slots⟩, by simp only [branching, branch?, hrecord], hstack⟩

theorem Fits.exists_next? (hcheck : program.check = .ok ()) (hfits : closing.Fits program)
    (hinside : closing.Inside program) (hstack : closing.stack ≠ []) :
    ∃ next, closing.next? program = some next ∧ next.Inside program := by
  obtain ⟨cursor, stack, threads, slots⟩ := closing
  match stack with
  | [] => exact absurd rfl hstack
  | .restore slot old :: stack =>
      obtain ⟨hslot, hstack⟩ := List.forall_mem_cons.mp hinside
      exact ⟨_, dif_pos (show slot < slots.size from hfits.slots_size ▸ hslot), hstack⟩
  | .explore address :: stack =>
      obtain ⟨haddress, hstack⟩ := List.forall_mem_cons.mp hinside
      have hcontains := hfits.threads.set.contains?_eq haddress
      by_cases hmember : address ∈ threads.set.members
      · rw [decide_eq_true hmember] at hcontains
        exact ⟨⟨cursor, stack, threads, slots⟩, by rw [next?, hcontains], hstack⟩
      · rw [decide_eq_false hmember] at hcontains
        obtain ⟨added, hadd, hadded, -⟩ := hfits.threads.add?_eq haddress hmember
        have hinstruction : program.instructions[address]? = some program.instructions[address] :=
          Array.getElem?_eq_getElem haddress
        obtain ⟨next, hnext, hframes⟩ :=
          exists_branch? hcheck cursor hadded haddress hfits.slots_size hstack hinstruction
        exact ⟨next, by simp only [next?, hcontains, hadd, hinstruction, hnext], hframes⟩

/-- The most frames that are still to be worked off. -/
def work (program : Program) (closing : Closing) : Nat :=
  2 * (program.size - closing.threads.set.members.length) + closing.stack.length

/-- An address that is entered takes its place in the list, and so pays for the frames that it
leaves. -/
theorem Moves.work_lt (hmoves : Moves program closing next) (hfits : next.Fits program) :
    next.work program < closing.work program := by
  have hroom := hfits.threads.set.size_le
  rw [← hfits.threads.set.length_members] at hroom
  unfold work
  cases hmoves with
  | restore _ hthreads hlength => rw [hthreads]; omega
  | pass _ _ _ _ hthreads hlength => rw [hthreads]; omega
  | enter visit _ _ _ _ _ hmembers _ hlength =>
      rw [hmembers, List.length_append, List.length_singleton] at hroom ⊢
      omega

/-- The work comes to an end, with the slots as they are when all frames have been worked off. -/
theorem exists_runs (hcheck : program.check = .ok ()) (hfits : closing.Fits program)
    (hinside : closing.Inside program) :
    ∃ log closed, Runs program closing log ⟨closing.cursor, [], closed, closing.unwound⟩ ∧
      close program closing.cursor closing.stack closing.threads closing.slots =
        some (closed, closing.unwound) := by
  generalize hwork : closing.work program = work
  induction work using Nat.strongRecOn generalizing closing with
  | ind work ih =>
      by_cases hstack : closing.stack = []
      · obtain ⟨cursor, stack, threads, slots⟩ := closing
        obtain rfl : stack = [] := hstack
        exact ⟨[], threads, .refl _, by rw [close]; rfl⟩
      · obtain ⟨next, hnext, hframes⟩ := hfits.exists_next? hcheck hinside hstack
        obtain ⟨hnextFits, hcursor, hunwound, hmoves⟩ := hfits.moves hnext
        have hless := hmoves.work_lt hnextFits
        obtain ⟨log, closed, hruns, hclose⟩ := ih _ (hwork ▸ hless) hnextFits hframes rfl
        rw [hcursor, hunwound] at hruns
        exact ⟨_, closed, .step hnext hruns, by rw [close_of_next? hnext, hclose, hunwound]⟩

end Closing

def Threads.visit? (threads : Threads) (program : Program) (cursor : Cursor) (address : Nat) :
    Option Visit :=
  if program.instructions[address]?.any rests then
    some ⟨address, cursor, threads.rows[address]?.getD #[]⟩
  else none

/-- The threads of a list that rest, as visits. -/
def Threads.resting (threads : Threads) (program : Program) (cursor : Cursor) : List Visit :=
  threads.set.members.filterMap (threads.visit? program cursor)

/-- A thread list that holds what has been visited at a cursor, and what rests there. -/
structure Threads.Holds (threads : Threads) (program : Program) (cursor : Cursor)
    (settled : Finset (Nat × Nat) × List Visit) : Prop where
  fits : threads.Fits program
  mem_fresh : ∀ address, address < program.size →
    ((address, cursor.offset) ∈ settled.1 ↔ address ∉ threads.set.members)
  resting : threads.resting program cursor = settled.2

theorem settle_of_exits {fresh : Finset (Nat × Nat)} {visit : Visit} {pending : List Visit}
    (hkey : visit.key ∈ fresh) :
    settle program fresh (visit :: pending) =
      ((settle program (fresh.erase visit.key) (visit.exits program ++ pending)).1,
        (if visit.rests program then [visit] else []) ++
          (settle program (fresh.erase visit.key) (visit.exits program ++ pending)).2) := by
  cases hrests : visit.rests program with
  | true => rw [settle_of_rests hkey hrests, Visit.exits, if_pos hrests]; rfl
  | false => rw [settle_of_mem hkey hrests, Visit.exits, hrests]; rfl

theorem Threads.Holds.enter {settled : Finset (Nat × Nat) × List Visit} {entered : Threads}
    {visit : Visit} (hholds : threads.Holds program visit.cursor settled)
    (hnew : visit.address ∉ threads.set.members) (hfits : entered.Fits program)
    (hmembers : entered.set.members = threads.set.members ++ [visit.address])
    (hrows : ∀ other, entered.rows[other]? =
      if other = visit.address ∧ visit.rests program = true then some visit.slots
      else threads.rows[other]?) :
    entered.Holds program visit.cursor (settled.1.erase visit.key,
      settled.2 ++ if visit.rests program then [visit] else []) where
  fits := hfits
  mem_fresh := fun other hother => by
    rw [hmembers, Finset.mem_erase, hholds.mem_fresh other hother, List.mem_append,
      List.mem_singleton, not_or, Visit.key, ne_eq, Prod.mk.injEq, and_comm]
    simp only [and_true]
  resting := by
    have hothers : ∀ other ∈ threads.set.members,
        entered.visit? program visit.cursor other = threads.visit? program visit.cursor other := by
      intro other hother
      have hne : other ≠ visit.address := fun heq => hnew (heq ▸ hother)
      have hrow : entered.rows[other]? = threads.rows[other]? :=
        (hrows other).trans (if_neg fun hsame => hne hsame.1)
      rw [visit?, visit?, hrow]
    have hlast : (entered.visit? program visit.cursor visit.address).toList =
        if visit.rests program then [visit] else [] := by
      rw [visit?, hrows]
      cases hrests : visit.rests program with
      | true => rw [Visit.rests] at hrests; simp [hrests]
      | false => rw [Visit.rests] at hrests; simp [hrests]
    rw [Threads.resting, hmembers, List.filterMap_append, List.filterMap_congr hothers,
      List.filterMap_cons, List.filterMap_nil, ← hlast, ← hholds.resting]
    cases entered.visit? program visit.cursor visit.address <;> rfl

/-- Working off a stack of frames adds what the depth-first walk finds at the cursor. -/
theorem Closing.Runs.holds {closing last : Closing} {log : List (Nat × Nat)}
    {settled : Finset (Nat × Nat) × List Visit} (hruns : Closing.Runs program closing log last)
    (hlast : last.stack = []) (hfits : closing.Fits program)
    (hholds : closing.threads.Holds program closing.cursor settled) :
    last.threads.Holds program closing.cursor
      ((settle program settled.1 closing.pending).1,
        settled.2 ++ (settle program settled.1 closing.pending).2) := by
  induction hruns generalizing settled with
  | refl closing =>
      rw [Closing.pending, hlast, visitsOf, settle_nil, List.append_nil]
      exact hholds
  | step hnext _ ih =>
      obtain ⟨hnextFits, hcursor, -, hmoves⟩ := hfits.moves hnext
      have hothers (settled : Finset (Nat × Nat) × List Visit) := @ih settled hlast hnextFits
      rw [hcursor] at hothers
      cases hmoves with
      | restore hpending hthreads =>
          rw [hpending]
          exact hothers _ (hthreads ▸ hholds)
      | pass visit hpending hvisit hmember hthreads =>
          have hkey : visit.key ∉ settled.1 := by
            rw [Visit.key, hvisit, hholds.mem_fresh _ (hfits.threads.set.lt_of_mem hmember)]
            exact not_not_intro hmember
          rw [hpending, settle_of_not_mem hkey]
          exact hothers _ (hthreads ▸ hholds)
      | enter visit others hpending hvisit hnew hpendingNext hmembers hrows =>
          have haddress : visit.address < program.size :=
            hnextFits.threads.set.lt_of_mem (hmembers ▸ List.mem_concat_self)
          rw [← hvisit] at hholds hothers ⊢
          have hkey : visit.key ∈ settled.1 := (hholds.mem_fresh _ haddress).mpr hnew
          have hentered := hothers _ (hholds.enter hnew hnextFits.threads hmembers hrows)
          rwa [hpending, settle_of_exits hkey, ← hpendingNext, ← List.append_assoc]

theorem close_address (hcheck : program.check = .ok ()) {address : Nat} {slots : Slots}
    {settled : Finset (Nat × Nat) × List Visit} (haddress : address < program.size)
    (hslots : slots.size = program.slots) (hholds : threads.Holds program cursor settled) :
    ∃ closed, close program cursor [.explore address] threads slots = some (closed, slots) ∧
      closed.Holds program cursor
        ((settle program settled.1 [⟨address, cursor, slots⟩]).1,
          settled.2 ++ (settle program settled.1 [⟨address, cursor, slots⟩]).2) := by
  have hfits : (Closing.start cursor address threads slots).Fits program := ⟨hholds.fits, hslots⟩
  obtain ⟨log, closed, hruns, hclose⟩ :=
    Closing.exists_runs hcheck hfits (List.forall_mem_singleton.mpr haddress)
  exact ⟨closed, hclose, hruns.holds rfl hfits hholds⟩

end TextColumns.Search
