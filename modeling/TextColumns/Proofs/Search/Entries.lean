import TextColumns.Proofs.Search.Lockstep
import TextColumns.Proofs.Search.Routes
import TextColumns.Proofs.Text.Boundary
import Mathlib.Tactic.IntervalCases

/-!
A whole search, frame by frame.  Between the frames that are worked off for one thread, `Searching`
goes from thread to thread and from place to place; `exists_runs_walk` says that this is the search,
and `Runs.log_nodup` that no address is entered twice at one place.
-/

namespace TextColumns.Search

open Text (Cursor)

/-- Where a search stands: a place, the threads there and those behind the next character, and what
has been found before. -/
structure Level where
  first : Bool
  matched : Bool
  slots : Slots
  cursor : Cursor
  current : Threads
  next : Threads
  scratch : Scratch

def Closing.ofScratch (scratch : Scratch) (cursor : Cursor) (address : Nat) (threads : Threads) :
    Closing :=
  ⟨cursor, .explore address :: scratch.stack, threads, scratch.slots⟩

def Closing.scratch (closing : Closing) : Scratch :=
  ⟨closing.stack, closing.slots⟩

inductive Searching where
  | arriving (level : Level)
  /-- The thread that starts at the place is added to those that are there. -/
  | seeding (level : Level) (closing : Closing)
  /-- The threads at some addresses are still to be moved over the next character. -/
  | moving (level : Level) (addresses : List Nat)
  /-- A thread that has been moved is added to those behind the character. -/
  | following (level : Level) (others : List Nat) (closing : Closing)
  | ended (matched : Bool) (slots : Slots) (cache : Cache)

/-- Goes to the next place when the threads of a place have been moved, the first that accepts
having been `found`. -/
def Level.leave (mode : Mode) (level : Level) (found : Option Slots) : Searching :=
  let matched := level.matched || found.isSome
  let slots := found.getD level.slots
  if mode.earliest && found.isSome then
    .ended matched slots ⟨level.current, level.next, level.scratch⟩
  else
    match level.cursor.next? with
    | none => .ended matched slots ⟨level.current, level.next, level.scratch⟩
    | some (_, behind) =>
      .arriving ⟨false, matched, slots, behind, level.next, level.current.clear, level.scratch⟩

namespace Searching

def start (cache : Cache) (cursor : Cursor) (slots : Slots) : Searching :=
  .arriving ⟨true, false, slots, cursor, cache.current.clear, cache.next.clear, cache.scratch⟩

def move? (program : Program) (level : Level) (address : Nat) (others : List Nat) (row : Slots)
    (instruction : Instruction) : Option Searching :=
  match level.cursor.next? with
  | none => some (.moving level others)
  | some (c, behind) =>
    match program.accepts? c instruction with
    | none => none
    | some false => some (.moving level others)
    | some true => (level.scratch.load? row).map fun loaded =>
      .following level others (.ofScratch loaded behind (address + 1) level.next)

def next? (program : Program) (mode : Mode) : Searching → Option Searching
  | .arriving level =>
    if level.current.set.size == 0 && (level.matched || (mode.anchored && !level.first)) then
      some (.ended level.matched level.slots ⟨level.current, level.next, level.scratch⟩)
    else if !level.matched && (!mode.anchored || level.first) then
      some (.seeding level (.ofScratch level.scratch.blank level.cursor program.start level.current))
    else some (.moving level level.current.set.members)
  | .seeding level closing =>
    match closing.stack with
    | [] =>
      some (.moving { level with current := closing.threads, scratch := closing.scratch }
        closing.threads.set.members)
    | _ :: _ => (closing.next? program).map (.seeding level)
  | .moving level [] => some (level.leave mode none)
  | .moving level (address :: others) =>
    match program.instructions[address]?, level.current.rows[address]? with
    | some .accept, some row => some (level.leave mode (some row))
    | some instruction, some row => move? program level address others row instruction
    | _, _ => none
  | .following level others closing =>
    match closing.stack with
    | [] =>
      some (.moving { level with next := closing.threads, scratch := closing.scratch } others)
    | _ :: _ => (closing.next? program).map (.following level others)
  | .ended .. => none

def entering? : Searching → Option (Nat × Nat)
  | .seeding _ closing | .following _ _ closing => closing.entering?
  | _ => none

abbrev Runs (program : Program) (mode : Mode) :
    Searching → List (Nat × Nat) → Searching → Prop :=
  Search.Runs (next? program mode) entering?

end Searching

/-- What has been entered, by the lists of a place: nothing beyond the next one. -/
def Level.Seen (level : Level) (entry : Nat × Nat) : Prop :=
  entry.2 < level.cursor.offset ∨
    entry.2 = level.cursor.offset ∧ entry.1 ∈ level.current.set.members ∨
    ∃ c behind, level.cursor.next? = some (c, behind) ∧ entry.2 = behind.offset ∧
      entry.1 ∈ level.next.set.members

structure Level.Fits (program : Program) (level : Level) : Prop where
  current : level.current.Fits program
  next : level.next.Fits program
  scratch : level.scratch.Fits program

namespace Searching

/-- What has been entered, by the lists that a search has.  Once it has ended, nothing is new. -/
def Seen : Searching → Nat × Nat → Prop
  | .arriving level | .moving level _ => level.Seen
  | .seeding level closing => { level with current := closing.threads }.Seen
  | .following level _ closing => { level with next := closing.threads }.Seen
  | .ended .. => fun _ => True

def Fits (program : Program) : Searching → Prop
  | .arriving level | .moving level _ => level.Fits program
  | .seeding level closing =>
    closing.cursor = level.cursor ∧ closing.Fits program ∧ level.next.Fits program
  | .following level _ closing =>
    (∃ c, level.cursor.next? = some (c, closing.cursor)) ∧ closing.Fits program ∧
      level.current.Fits program
  | .ended .. => True

end Searching

variable {program : Program} {cursor : Cursor} {mode : Mode} {level : Level}

theorem Closing.entering?_of_stack {closing : Closing} (hstack : closing.stack = []) :
    closing.entering? = none := by
  obtain ⟨cursor, stack, threads, slots⟩ := closing
  obtain rfl : stack = [] := hstack
  rfl

/-- The work of one frame enters no more than one address, and that no member of the list before. -/
theorem Closing.Fits.enters {closing next : Closing} (hfits : closing.Fits program)
    (hnext : closing.next? program = some next) :
    next.Fits program ∧ next.cursor = closing.cursor ∧
      (∀ address ∈ closing.threads.set.members, address ∈ next.threads.set.members) ∧
      ∀ entry ∈ closing.entering?, entry.2 = closing.cursor.offset ∧
        entry.1 ∉ closing.threads.set.members ∧ entry.1 ∈ next.threads.set.members := by
  obtain ⟨hnextFits, hcursor, -, hmoves⟩ := hfits.moves hnext
  refine ⟨hnextFits, hcursor, ?_⟩
  cases hmoves with
  | restore _ hthreads _ hentering | pass _ _ _ _ hthreads _ hentering =>
      rw [hthreads, hentering]
      exact ⟨fun _ hmember => hmember, nofun⟩
  | enter visit _ _ hvisit hnew _ hmembers _ _ hentering =>
      rw [hmembers, hentering]
      refine ⟨fun _ hmember => List.mem_append_left _ hmember, fun entry hentry => ?_⟩
      obtain rfl := Option.some.inj hentry
      exact ⟨congrArg Cursor.offset hvisit, hnew, List.mem_concat_self⟩

theorem Level.Seen.mono {entry : Nat × Nat} (hseen : level.Seen entry) {later : Level}
    (hcursor : later.cursor = level.cursor)
    (hcurrent : ∀ address ∈ level.current.set.members, address ∈ later.current.set.members)
    (hnext : ∀ address ∈ level.next.set.members, address ∈ later.next.set.members) :
    later.Seen entry := by
  rw [Seen, hcursor]
  rcases hseen with hbefore | ⟨hhere, hmember⟩ | ⟨c, behind, hbehind, hthere, hmember⟩
  · exact .inl hbefore
  · exact .inr (.inl ⟨hhere, hcurrent _ hmember⟩)
  · exact .inr (.inr ⟨c, behind, hbehind, hthere, hnext _ hmember⟩)

theorem Level.seen_current (level : Level) {entry : Nat × Nat}
    (hentry : entry.2 = level.cursor.offset) :
    level.Seen entry ↔ entry.1 ∈ level.current.set.members := by
  constructor
  · rintro (hbefore | ⟨-, hmember⟩ | ⟨c, behind, hbehind, hthere, -⟩)
    · omega
    · exact hmember
    · have := Cursor.offset_lt_of_next? hbehind
      omega
  · exact fun hmember => .inr (.inl ⟨hentry, hmember⟩)

theorem Level.seen_next (level : Level) {entry : Nat × Nat} {c : Char} {behind : Cursor}
    (hbehind : level.cursor.next? = some (c, behind)) (hentry : entry.2 = behind.offset) :
    level.Seen entry ↔ entry.1 ∈ level.next.set.members := by
  have hless := Cursor.offset_lt_of_next? hbehind
  constructor
  · rintro (hbefore | ⟨hhere, -⟩ | ⟨_, _, -, -, hmember⟩)
    · omega
    · omega
    · exact hmember
  · exact fun hmember => .inr (.inr ⟨c, behind, hbehind, hentry, hmember⟩)

/-- Behind the next character everything entered so far lies before the place or in its list. -/
theorem Level.Seen.leave {entry : Nat × Nat} (hseen : level.Seen entry) (found : Option Slots) :
    (level.leave mode found).Seen entry := by
  fun_cases Level.leave mode level found with
  | case1 | case2 => trivial
  | case3 matched slots _ d behind hbehind =>
      have hless := Cursor.offset_lt_of_next? hbehind
      rcases hseen with hbefore | ⟨hhere, -⟩ | ⟨_, _, hother, hthere, hmember⟩
      · exact .inl (Nat.lt_trans hbefore hless)
      · exact .inl (hhere ▸ hless)
      · obtain rfl := congrArg Prod.snd (Option.some.inj (hother.symm.trans hbehind))
        exact .inr (.inl ⟨hthere, hmember⟩)

theorem Level.Fits.leave (hfits : level.Fits program) (found : Option Slots) :
    (level.leave mode found).Fits program := by
  unfold Level.leave
  dsimp only
  split
  · trivial
  · split
    · trivial
    · exact ⟨hfits.next, hfits.current.clear, hfits.scratch⟩

theorem Closing.Fits.scratch {closing : Closing} (hfits : closing.Fits program)
    (hstack : closing.stack = []) : closing.scratch.Fits program :=
  ⟨hstack, hfits.slots_size⟩

theorem Scratch.Fits.ofScratch {scratch : Scratch} (hfits : scratch.Fits program)
    (cursor : Cursor) (address : Nat) (threads : Threads) :
    Closing.ofScratch scratch cursor address threads =
      .start cursor address threads scratch.slots := by
  obtain ⟨stack, slots⟩ := scratch
  obtain ⟨rfl, -⟩ := hfits
  rfl

namespace Searching

structure Keeps (program : Program) (state after : Searching) : Prop where
  fits : after.Fits program
  seen : ∀ entry, state.Seen entry → after.Seen entry
  enters : ∀ entry ∈ state.entering?, ¬state.Seen entry ∧ after.Seen entry

theorem keeps_move? {address : Nat} {others : List Nat} {row : Slots} {instruction : Instruction}
    {after : Searching} (hfits : level.Fits program) (hrow : row.size = program.slots)
    (hmove : move? program level address others row instruction = some after) :
    Keeps program (.moving level (address :: others)) after := by
  have hstays : Keeps program (.moving level (address :: others)) (.moving level others) :=
    ⟨hfits, fun _ hseen => hseen, nofun⟩
  unfold move? at hmove
  cases hbehind : level.cursor.next? with
  | none =>
      simp only [hbehind, Option.some.injEq] at hmove
      exact hmove ▸ hstays
  | some entry =>
      obtain ⟨c, behind⟩ := entry
      cases haccepts : program.accepts? c instruction with
      | none => simp [hbehind, haccepts] at hmove
      | some accepted =>
          cases accepted with
          | false =>
              simp only [hbehind, haccepts, Option.some.injEq] at hmove
              exact hmove ▸ hstays
          | true =>
              simp only [hbehind, haccepts, hfits.scratch.load?_eq hrow, Option.map_some,
                Option.some.injEq] at hmove
              subst hmove
              exact ⟨⟨⟨c, hbehind⟩, ⟨hfits.next, hrow⟩, hfits.current⟩, fun _ hseen => hseen, nofun⟩

theorem keeps_seeding {closing : Closing} {after : Searching}
    (hfits : Fits program (.seeding level closing))
    (hnext : next? program mode (.seeding level closing) = some after) :
    Keeps program (.seeding level closing) after := by
  obtain ⟨hcursor, hclosing, hothers⟩ := hfits
  cases hstack : closing.stack with
  | nil =>
      simp only [next?, hstack, Option.some.injEq] at hnext
      subst hnext
      refine ⟨⟨hclosing.threads, hothers, hclosing.scratch hstack⟩, fun _ hseen => hseen, ?_⟩
      rw [entering?, Closing.entering?_of_stack hstack]
      exact nofun
  | cons frame stack =>
      simp only [next?, hstack] at hnext
      obtain ⟨closed, hclosed, rfl⟩ := Option.map_eq_some_iff.mp hnext
      obtain ⟨hclosedFits, hsame, hgrows, henters⟩ := hclosing.enters hclosed
      refine ⟨⟨hsame.trans hcursor, hclosedFits, hothers⟩,
        fun _ hseen => hseen.mono rfl hgrows fun _ hmember => hmember, fun entry hentry => ?_⟩
      obtain ⟨hoffset, hnew, hmember⟩ := henters entry hentry
      rw [hcursor] at hoffset
      exact ⟨(Level.seen_current { level with current := closing.threads } hoffset).not.mpr hnew,
        (Level.seen_current { level with current := closed.threads } hoffset).mpr hmember⟩

theorem keeps_following {others : List Nat} {closing : Closing} {after : Searching}
    (hfits : Fits program (.following level others closing))
    (hnext : next? program mode (.following level others closing) = some after) :
    Keeps program (.following level others closing) after := by
  obtain ⟨⟨c, hbehind⟩, hclosing, hcurrent⟩ := hfits
  cases hstack : closing.stack with
  | nil =>
      simp only [next?, hstack, Option.some.injEq] at hnext
      subst hnext
      refine ⟨⟨hcurrent, hclosing.threads, hclosing.scratch hstack⟩, fun _ hseen => hseen, ?_⟩
      rw [entering?, Closing.entering?_of_stack hstack]
      exact nofun
  | cons frame stack =>
      simp only [next?, hstack] at hnext
      obtain ⟨closed, hclosed, rfl⟩ := Option.map_eq_some_iff.mp hnext
      obtain ⟨hclosedFits, hsame, hgrows, henters⟩ := hclosing.enters hclosed
      refine ⟨⟨⟨c, hsame ▸ hbehind⟩, hclosedFits, hcurrent⟩,
        fun _ hseen => hseen.mono rfl (fun _ hmember => hmember) hgrows, fun entry hentry => ?_⟩
      obtain ⟨hoffset, hnew, hmember⟩ := henters entry hentry
      exact ⟨(Level.seen_next { level with next := closing.threads } hbehind hoffset).not.mpr hnew,
        (Level.seen_next { level with next := closed.threads } hbehind hoffset).mpr hmember⟩

theorem keeps_of_next? {state after : Searching} (hfits : state.Fits program)
    (hnext : next? program mode state = some after) : Keeps program state after := by
  cases state with
  | arriving level =>
      rw [next?] at hnext
      split at hnext
      · cases hnext
        exact ⟨trivial, fun _ _ => trivial, nofun⟩
      · split at hnext
        · cases hnext
          have hblank : level.scratch.blank.slots.size = program.slots :=
            Array.size_replicate.trans hfits.scratch.slots
          exact ⟨⟨rfl, ⟨hfits.current, hblank⟩, hfits.next⟩, fun _ hseen => hseen, nofun⟩
        · cases hnext
          exact ⟨hfits, fun _ hseen => hseen, nofun⟩
  | seeding => exact keeps_seeding hfits hnext
  | moving level addresses =>
      cases addresses with
      | nil =>
          cases hnext
          exact ⟨hfits.leave none, fun _ hseen => hseen.leave none, nofun⟩
      | cons address others =>
          rw [next?] at hnext
          split at hnext
          next row _ _ =>
            cases hnext
            exact ⟨hfits.leave (some row), fun _ hseen => hseen.leave (some row), nofun⟩
          next hrow =>
            exact keeps_move? hfits (hfits.current.row_size _ (Array.mem_of_getElem? hrow)) hnext
          next => cases hnext
  | following => exact keeps_following hfits hnext
  | ended => cases hnext

/-- However far a search has come, it has entered no address twice at one place. -/
theorem Runs.log_nodup {state last : Searching} {log : List (Nat × Nat)}
    (hruns : Runs program mode state log last) (hfits : state.Fits program) : log.Nodup :=
  (Search.Runs.nodup (fun _ _ hnext hkept =>
    have hkeeps := keeps_of_next? hkept hnext
    ⟨hkeeps.fits, hkeeps.seen, hkeeps.enters⟩) hruns hfits).1

theorem next?_seeding {closing after : Closing} (hnext : closing.next? program = some after) :
    next? program mode (.seeding level closing) = some (.seeding level after) := by
  obtain ⟨cursor, stack, threads, slots⟩ := closing
  cases stack with
  | nil => cases hnext
  | cons => exact congrArg (Option.map (Searching.seeding level)) hnext

theorem next?_following {others : List Nat} {closing after : Closing}
    (hnext : closing.next? program = some after) :
    next? program mode (.following level others closing) =
      some (.following level others after) := by
  obtain ⟨cursor, stack, threads, slots⟩ := closing
  cases stack with
  | nil => cases hnext
  | cons => exact congrArg (Option.map (Searching.following level others)) hnext

end Searching

theorem Closing.exists_runs_start (hcheck : program.check = .ok ()) (cursor : Cursor)
    {address : Nat} {threads : Threads} {slots : Slots} (haddress : address < program.size)
    (hthreads : threads.Fits program) (hslots : slots.size = program.slots) :
    ∃ log closed, Closing.Runs program (start cursor address threads slots) log
        ⟨cursor, [], closed, slots⟩ ∧
      close program cursor [.explore address] threads slots = some (closed, slots) ∧
      closed.Fits program := by
  have hfits : (start cursor address threads slots).Fits program := ⟨hthreads, hslots⟩
  obtain ⟨log, closed, hruns, hclose⟩ :=
    exists_runs hcheck hfits (List.forall_mem_singleton.mpr haddress)
  exact ⟨log, closed, hruns, hclose, (hruns.bounded hfits).1.threads⟩

namespace Searching

theorem exists_runs_seed (hcheck : program.check = .ok ()) (hfits : level.Fits program)
    (hstop : ¬(level.current.set.size == 0 &&
      (level.matched || (mode.anchored && !level.first))) = true) :
    ∃ log seeded kept,
      Runs program mode (.arriving level) log
        (.moving { level with current := seeded, scratch := kept } seeded.set.members) ∧
      seed program mode level.first level.matched level.cursor level.current level.scratch =
        some (seeded, kept) ∧
      seeded.Fits program ∧ kept.Fits program := by
  have harriving : next? program mode (.arriving level) =
      if !level.matched && (!mode.anchored || level.first) then
        some (.seeding level (Closing.start level.cursor program.start level.current
          (Array.replicate program.slots none)))
      else some (.moving level level.current.set.members) := by
    have hblank := Scratch.fits_ofProgram program
    rw [next?, if_neg hstop, hfits.scratch.blank_eq, hblank.ofScratch]
    rfl
  unfold seed
  cases hseeds : !level.matched && (!mode.anchored || level.first) with
  | true =>
      rw [hseeds, if_pos rfl] at harriving
      have hblank := Scratch.fits_ofProgram program
      obtain ⟨log, closed, hruns, hclose, hclosed⟩ := Closing.exists_runs_start hcheck level.cursor
        (Program.start_lt_of_check hcheck) hfits.current hblank.slots
      have hseeding : Runs program mode _ log _ :=
        hruns.map (Searching.seeding level) (fun _ _ => next?_seeding) fun _ => rfl
      refine ⟨_, closed, _, .step harriving (hseeding.trans (.step rfl (.refl _))), ?_, hclosed,
        hblank⟩
      rw [if_pos rfl, hfits.scratch.blank_eq, hblank.enter_eq hclose]
      rfl
  | false =>
      rw [hseeds, if_neg Bool.false_ne_true] at harriving
      exact ⟨_, level.current, level.scratch, .step harriving (.refl _), rfl, hfits.current,
        hfits.scratch⟩

theorem exists_runs_move (hcheck : program.check = .ok ()) {next : Threads}
    (hnext : next.Fits program) {scratch : Scratch} (hscratch : scratch.Fits program)
    {address : Nat} (others : List Nat) {instruction : Instruction} {row : Slots}
    (hinstruction : program.instructions[address]? = some instruction)
    (hrow : level.current.rows[address]? = some row) (hsize : row.size = program.slots)
    (haccept : instruction ≠ .accept) :
    ∃ log moved kept,
      Runs program mode
        (.moving { level with next := next, scratch := scratch } (address :: others)) log
        (.moving { level with next := moved, scratch := kept } others) ∧
      step program level.cursor.next? level.current (address :: others) next scratch =
        step program level.cursor.next? level.current others moved kept ∧
      moved.Fits program ∧ kept.Fits program := by
  have hmoving : next? program mode
      (.moving { level with next := next, scratch := scratch } (address :: others)) =
      move? program { level with next := next, scratch := scratch } address others row
        instruction := by
    simp only [next?, hinstruction, hrow]
  rw [step_of_ne_accept hinstruction hrow haccept]
  unfold move? at hmoving
  cases hbehind : level.cursor.next? with
  | none =>
      rw [hbehind] at hmoving
      exact ⟨_, next, scratch, .step hmoving (.refl _), rfl, hnext, hscratch⟩
  | some entry =>
      obtain ⟨c, behind⟩ := entry
      rw [hbehind] at hmoving
      cases haccepts : program.accepts? c instruction with
      | none => exact absurd haccepts (accepts?_ne_none hcheck hinstruction c)
      | some accepted =>
          simp only [haccepts] at hmoving ⊢
          cases accepted with
          | false => exact ⟨_, next, scratch, .step hmoving (.refl _), rfl, hnext, hscratch⟩
          | true =>
              have hinside := address_succ_lt_of_accepts? hcheck hinstruction haccepts
              have hloaded : (⟨[], row⟩ : Scratch).Fits program := ⟨rfl, hsize⟩
              obtain ⟨log, closed, hruns, hclose, hclosed⟩ :=
                Closing.exists_runs_start hcheck behind hinside hnext hsize
              simp only [hscratch.load?_eq hsize, Option.map_some, hloaded.ofScratch] at hmoving
              have hfollowing : Runs program mode _ log _ :=
                hruns.map
                  (Searching.following { level with next := next, scratch := scratch } others)
                  (fun _ _ => next?_following) fun _ => rfl
              exact ⟨_, closed, _, .step hmoving (hfollowing.trans (.step rfl (.refl _))),
                by simp only [hscratch.load?_eq hsize, hloaded.enter_eq hclose]; rfl, hclosed,
                hloaded⟩

theorem exists_runs_step (hcheck : program.check = .ok ()) (hcurrent : level.current.Fits program)
    {next : Threads} (hnext : next.Fits program) {scratch : Scratch}
    (hscratch : scratch.Fits program) {addresses : List Nat}
    (haddresses : ∀ address ∈ addresses, address < program.size) :
    ∃ log moved kept found,
      Runs program mode (.moving { level with next := next, scratch := scratch } addresses) log
        (Level.leave mode { level with next := moved, scratch := kept } found) ∧
      step program level.cursor.next? level.current addresses next scratch =
        some (moved, kept, found) ∧
      moved.Fits program ∧ kept.Fits program := by
  induction addresses generalizing next scratch with
  | nil => exact ⟨_, next, scratch, none, .step rfl (.refl _), rfl, hnext, hscratch⟩
  | cons address others ih =>
      obtain ⟨haddress, hothers⟩ := List.forall_mem_cons.mp haddresses
      obtain ⟨instruction, row, hinstruction, hrow, hsize⟩ := hcurrent.lookup haddress
      by_cases haccept : instruction = .accept
      · subst haccept
        refine ⟨_, next, scratch, some row, .step ?_ (.refl _), step_of_accept hinstruction hrow,
          hnext, hscratch⟩
        simp only [next?, hinstruction, hrow]
      · obtain ⟨entered, moved, kept, hmove, hstep, hmoved, hkept⟩ :=
          exists_runs_move hcheck hnext hscratch others hinstruction hrow hsize haccept
        obtain ⟨log, last, left, found, hruns, hlater, hlast, hleft⟩ := ih hmoved hkept hothers
        exact ⟨_, last, left, found, hmove.trans hruns, hstep.trans hlater, hlast, hleft⟩

theorem exists_runs_place (hcheck : program.check = .ok ()) (hfits : level.Fits program)
    (hstop : ¬(level.current.set.size == 0 &&
      (level.matched || (mode.anchored && !level.first))) = true) :
    ∃ log seeded kept moved left found,
      Runs program mode (.arriving level) log
        (Level.leave mode { level with current := seeded, next := moved, scratch := left } found) ∧
      seed program mode level.first level.matched level.cursor level.current level.scratch =
        some (seeded, kept) ∧
      step program level.cursor.next? seeded seeded.set.members level.next kept =
        some (moved, left, found) ∧
      seeded.Fits program ∧ moved.Fits program ∧ left.Fits program := by
  obtain ⟨entered, seeded, kept, hseeding, hseed, hseeded, hkept⟩ :=
    exists_runs_seed hcheck hfits hstop
  have hplace : ({ level with current := seeded } : Level).current.Fits program := hseeded
  obtain ⟨log, moved, left, found, hmoving, hstep, hmoved, hleft⟩ :=
    exists_runs_step hcheck hplace hfits.next hkept fun _ => hseeded.set.lt_of_mem
  exact ⟨_, seeded, kept, moved, left, found, hseeding.trans hmoving, hseed, hstep, hseeded, hmoved,
    hleft⟩

theorem exists_runs_walk (hcheck : program.check = .ok ()) (mode : Mode) {first matched : Bool}
    {slots : Slots} {offset : Nat} {before : Option Char} {rest : List Char}
    {current next : Threads} (hcurrent : current.Fits program) (hnext : next.Fits program)
    {scratch : Scratch} (hscratch : scratch.Fits program) :
    ∃ log last found cache,
      Runs program mode
        (.arriving ⟨first, matched, slots, ⟨offset, before, rest⟩, current, next, scratch⟩)
        log (.ended last found cache) ∧
      walk program mode first matched slots offset before rest current next scratch =
        some (last, found, cache) := by
  induction rest generalizing first matched slots offset before current next scratch with
  | nil =>
      rw [walk]
      split
      next hstop => exact ⟨_, _, _, _, .step (if_pos hstop) (.refl _), rfl⟩
      next hstop =>
        have hfits : Level.Fits program
            ⟨first, matched, slots, ⟨offset, before, []⟩, current, next, scratch⟩ :=
          ⟨hcurrent, hnext, hscratch⟩
        obtain ⟨log, seeded, kept, moved, left, found, hruns, hseed, hstep, -⟩ :=
          exists_runs_place hcheck hfits hstop
        simp only [hseed, hstep, ite_self]
        exact ⟨log, _, _, _, by simpa only [Level.leave, Cursor.next?, ite_self] using hruns, rfl⟩
  | cons c rest ih =>
      rw [walk]
      split
      next hstop => exact ⟨_, _, _, _, .step (if_pos hstop) (.refl _), rfl⟩
      next hstop =>
        have hfits : Level.Fits program
            ⟨first, matched, slots, ⟨offset, before, c :: rest⟩, current, next, scratch⟩ :=
          ⟨hcurrent, hnext, hscratch⟩
        obtain ⟨log, seeded, kept, moved, left, found, hruns, hseed, hstep, hseeded, hmoved, hleft⟩ :=
          exists_runs_place hcheck hfits hstop
        simp only [hseed, hstep]
        unfold Level.leave at hruns
        cases hdone : mode.earliest && found.isSome with
        | true =>
            simp only [hdone, if_true] at hruns ⊢
            exact ⟨log, _, _, _, hruns, rfl⟩
        | false =>
            simp only [hdone, Bool.false_eq_true, if_false] at hruns ⊢
            obtain ⟨later, last, better, cache, hlater, hwalk⟩ := ih hmoved hseeded.clear hleft
            exact ⟨_, last, better, cache, hruns.trans hlater, hwalk⟩

end Searching

/-- Wherever the work at a place is left off, it goes on to the same result. -/
theorem Closing.Runs.close_eq {closing last : Closing} {log : List (Nat × Nat)}
    (hruns : Closing.Runs program closing log last) :
    close program closing.cursor closing.stack closing.threads closing.slots =
      close program last.cursor last.stack last.threads last.slots := by
  induction hruns with
  | refl => rfl
  | step hnext _ ih => exact (close_of_next? hnext).trans ih

/-- From any address of a checked program, the work of a closure ends with an empty stack and with
the slots as they were, and has never had more frames than the program has instructions and one.
It appends what can be reached past the members of the list, each address once, in the order of the
first routes, with the slots that were kept along them.  A search carries out no instruction twice
at one place. -/
theorem exists_spread_and_entered_once (hcheck : program.check = .ok ()) {text : String}
    {offset : Nat} (hoffset : Text.IsBoundary text offset) {address : Nat}
    (haddress : address < program.size) {threads : Threads} (hthreads : threads.Fits program)
    {slots : Slots} (hslots : slots.size = program.slots) (mode : Mode) {cache : Cache}
    (hcache : cache.Fits program) (row : Slots) :
    ∃ cursor closed found, Cursor.at? text offset = some cursor ∧
      close program cursor [.explore address] threads slots = some (closed, slots) ∧
      Closing.Runs program (.start cursor address threads slots) (found.map (·.2.key))
        ⟨cursor, [], closed, slots⟩ ∧
      (∀ log closing, Closing.Runs program (.start cursor address threads slots) log closing →
        close program closing.cursor closing.stack closing.threads closing.slots =
            some (closed, slots) ∧
          closing.stack.length ≤ program.size + 1 ∧ closing.threads.Fits program) ∧
      closed.set.members.Nodup ∧
      Spread program {member | member ∈ threads.set.members} [⟨address, cursor, slots⟩] found ∧
      threads.Adds program closed (found.map Prod.snd) ∧
      (∀ other, other ∈ found.map (·.2.address) ↔ address ∉ threads.set.members ∧
        Relation.ReflTransGen (Leads program cursor {member | member ∈ threads.set.members})
          address other) ∧
      ∃ log matched best kept,
        Searching.Runs program mode (.start cache cursor row) log (.ended matched best kept) ∧
        search program mode cache cursor row = some (matched, best, kept) ∧ log.Nodup := by
  obtain ⟨cursor, hcursor⟩ := hoffset.exists_at?
  have hfits : (Closing.start cursor address threads slots).Fits program := ⟨hthreads, hslots⟩
  obtain ⟨log, closed, hruns, hclose, hclosed⟩ :=
    Closing.exists_runs_start hcheck cursor haddress hthreads hslots
  obtain ⟨found, hspread, rfl, hadds⟩ := hruns.spread rfl hfits
  refine ⟨cursor, closed, found, hcursor, hclose, hruns, fun log closing hpart => ?_,
    hclosed.set.nodup_members, hspread, hadds, fun other => hspread.mem_iff, ?_⟩
  · obtain ⟨hclosing, hlength⟩ := hpart.bounded hfits
    have hroom := hclosing.threads.set.size_le
    rw [← hclosing.threads.set.length_members] at hroom
    have hframe : (Closing.start cursor address threads slots).stack.length = 1 := rfl
    exact ⟨hpart.close_eq.symm.trans hclose, by omega, hclosing.threads⟩
  · obtain ⟨log, matched, best, kept, hsearching, hsearch⟩ :=
      Searching.exists_runs_walk hcheck mode hcache.current.clear hcache.next.clear hcache.scratch
    exact ⟨log, matched, best, kept, hsearching, hsearch,
      hsearching.log_nodup ⟨hcache.current.clear, hcache.next.clear, hcache.scratch⟩⟩

theorem exists_spread_and_entered_once_stale :
    let program : Program :=
      ⟨#[.split 1 3, .save 0, .jump 4, .save 1, .char 'b' true, .accept], #[], 2, 0⟩
    -- The preferred way to the character is barred, and nothing is told by the other entries.
    let threads : Threads :=
      ⟨⟨#[2, 9, 9, 0, 1, 2], #[0, 3, 0, 7, 1, 0], 1⟩, Array.replicate 6 #[some 8, none]⟩
    program.check = .ok () ∧ Text.IsBoundary "äxB" 3 ∧ threads.Fits program ∧
      ∃ cursor closed found, Cursor.at? "äxB" 3 = some cursor ∧
        close program cursor [.explore 0] threads #[some 1, none] =
          some (closed, #[some 1, none]) ∧
        closed.set.members = [2, 0, 1, 3, 4] ∧ closed.rows[4]? = some #[some 1, some 3] ∧
        Spread program {member | member ∈ threads.set.members} [⟨0, cursor, #[some 1, none]⟩]
          found ∧
        threads.Adds program closed (found.map Prod.snd) ∧
        ∃ log matched best kept,
          Searching.Runs program ⟨false, false⟩ (.start (.ofProgram program) cursor #[none, none])
            log (.ended matched best kept) ∧
          search program ⟨false, false⟩ (.ofProgram program) cursor #[none, none] =
            some (matched, best, kept) ∧ log.Nodup := by
  intro program threads
  have hcheck : program.check = .ok () := by decide +kernel
  have hcursor : Cursor.at? "äxB" 3 = some ⟨3, some 'x', ['B']⟩ := by decide +kernel
  have hoffset : Text.IsBoundary "äxB" 3 := (Cursor.at?_eq_some_iff.mp hcursor).1.isBoundary
  have hset : threads.set.Fits program.size :=
    { dense_size := rfl
      sparse_size := rfl
      size_le := by decide
      points_back := fun place hplace => ⟨2, by interval_cases place; decide⟩ }
  have hthreads : threads.Fits program := ⟨hset, rfl, by decide⟩
  obtain ⟨cursor, closed, found, hplace, hclose, -, -, -, hspread, hadds, -, hsearch⟩ :=
    exists_spread_and_entered_once hcheck hoffset (show 0 < program.size by decide) hthreads
      (show (#[some 1, none] : Slots).size = program.slots from rfl) ⟨false, false⟩
      (cache_fits_ofProgram program) #[none, none]
  obtain rfl := Option.some.inj (hcursor.symm.trans hplace)
  have hclosed : (close program ⟨3, some 'x', ['B']⟩ [.explore 0] threads #[some 1, none]).map
      (fun result => (result.1.set.members, result.1.rows[4]?)) =
        some ([2, 0, 1, 3, 4], some #[some 1, some 3]) := by decide +kernel
  rw [hclose, Option.map_some, Option.some.injEq, Prod.mk.injEq] at hclosed
  exact ⟨hcheck, hoffset, hthreads, _, closed, found, hplace, hclose, hclosed.1, hclosed.2, hspread,
    hadds, hsearch⟩

end TextColumns.Search
