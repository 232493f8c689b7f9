import TextColumns.Proofs.Search.Lockstep
import TextColumns.Proofs.Text.Position

/-!
Searches that look before they reach.  `search?` goes over a text by byte offsets.  It asks before
it takes an entry of an array, a byte, or the part of a text behind an offset, and gives up where
there is none, where a row does not have as many slots as are copied, and where it has made more
rounds than it may.  With a program that passed its check it never gives up, and it does what
`search` does.
-/

namespace TextColumns

open Text (Cursor)

def Text.isLineFeedAt? (text : String) (offset : Nat) : Option Bool :=
  text.toByteArray.data[offset]?.map (· == 10)

def Pattern.Assertion.holdsAt? (text : String) (offset : Nat) : Pattern.Assertion → Option Bool
  | .startText | .caret => some (offset == 0)
  | .endText | .dollar => some (offset == text.utf8ByteSize)
  | .startLine => if offset == 0 then some true else Text.isLineFeedAt? text (offset - 1)
  | .endLine =>
    if offset == text.utf8ByteSize then some true else Text.isLineFeedAt? text offset
  | .wordBoundary => (Cursor.at? text offset).map isWordBoundary
  | .notWordBoundary => (Cursor.at? text offset).map (!isWordBoundary ·)

namespace Search

def branching? (text : String) (offset address : Nat) : Instruction → Option Branching
  | .jump target => some (.onward target)
  | .split primary secondary => some (.either primary secondary)
  | .save slot => some (.save slot)
  | .assertion a =>
    (a.holdsAt? text offset).map fun holds => if holds then .onward (address + 1) else .stop
  | .char .. | .any _ | .oneOf .. | .accept => some .rest

def put? (slots : Slots) (slot : Nat) (offset : Option Nat) : Option Slots :=
  if h : slot < slots.size then some (slots.set slot offset h) else none

def copied? (target source : Slots) : Option Slots :=
  if target.size = source.size then some source else none

def Threads.keep? (threads : Threads) (address : Nat) (slots : Slots) : Option Threads :=
  match threads.rows[address]? with
  | none => none
  | some row =>
    match copied? row slots with
    | none => none
    | some copy => threads.record? address copy

/-- Does the work on the stack, in no more than a number of rounds. -/
def close? (program : Program) (text : String) (offset : Nat) :
    (rounds : Nat) → (stack : List Frame) → Threads → Slots → Option (Threads × Slots)
  | _, [], threads, slots => some (threads, slots)
  | 0, _ :: _, _, _ => none
  | rounds + 1, .restore slot old :: stack, threads, slots =>
    match put? slots slot old with
    | none => none
    | some restored => close? program text offset rounds stack threads restored
  | rounds + 1, .explore address :: stack, threads, slots =>
    match threads.set.contains? address with
    | none => none
    | some true => close? program text offset rounds stack threads slots
    | some false =>
      match threads.add? address, program.instructions[address]? with
      | some added, some instruction =>
        match branching? text offset address instruction with
        | none => none
        | some (.onward target) =>
          close? program text offset rounds (.explore target :: stack) added slots
        | some (.either primary secondary) =>
          close? program text offset rounds (.explore primary :: .explore secondary :: stack)
            added slots
        | some (.save slot) =>
          match slots[slot]?, put? slots slot (some offset) with
          | some old, some saved =>
            close? program text offset rounds (.explore (address + 1) :: .restore slot old :: stack)
              added saved
          | _, _ => none
        | some .rest =>
          match added.keep? address slots with
          | none => none
          | some kept => close? program text offset rounds stack kept slots
        | some .stop => close? program text offset rounds stack added slots
      | _, _ => none

def closeRounds (program : Program) : Nat :=
  2 * program.size + 1

def Scratch.enter? (scratch : Scratch) (program : Program) (text : String) (offset address : Nat)
    (threads : Threads) : Option (Threads × Scratch) :=
  match close? program text offset (closeRounds program) (.explore address :: scratch.stack) threads
      scratch.slots with
  | none => none
  | some (threads, slots) => some (threads, ⟨[], slots⟩)

def step? (program : Program) (text : String) (offset : Nat) (c? : Option Char)
    (current : Threads) :
    (count index : Nat) → Threads → Scratch → Option (Threads × Scratch × Option Slots)
  | 0, _, next, scratch => some (next, scratch, none)
  | count + 1, index, next, scratch =>
    match current.set.dense[index]? with
    | none => none
    | some address =>
      match program.instructions[address]? with
      | none => none
      | some .accept => current.rows[address]?.map fun row => (next, scratch, some row)
      | some instruction =>
        match c? with
        | none => step? program text offset c? current count (index + 1) next scratch
        | some c =>
          match program.accepts? c instruction with
          | none => none
          | some false => step? program text offset c? current count (index + 1) next scratch
          | some true =>
            match current.rows[address]?.bind scratch.load? with
            | none => none
            | some loaded =>
              match loaded.enter? program text (offset + c.utf8Size) (address + 1) next with
              | none => none
              | some (next, scratch) =>
                step? program text offset c? current count (index + 1) next scratch

def seed? (program : Program) (mode : Mode) (text : String) (start offset : Nat) (matched : Bool)
    (current : Threads) (scratch : Scratch) : Option (Threads × Scratch) :=
  if !matched && (!mode.anchored || offset == start) then
    scratch.blank.enter? program text offset program.start current
  else
    some (current, scratch)

/-- Searches from an offset on, in no more than a number of rounds. -/
def walk? (program : Program) (mode : Mode) (text : String) (start : Nat) :
    (rounds offset : Nat) → (matched : Bool) → Slots → (current next : Threads) → Scratch →
      Option (Bool × Slots × Cache)
  | 0, _, _, _, _, _, _ => none
  | rounds + 1, offset, matched, slots, current, next, scratch =>
    if current.set.size == 0 && (matched || (mode.anchored && decide (start < offset))) then
      some (matched, slots, ⟨current, next, scratch⟩)
    else
      match seed? program mode text start offset matched current scratch,
          Cursor.at? text offset with
      | some (current, scratch), some cursor =>
        let c? := cursor.rest.head?
        match step? program text offset c? current current.set.size 0 next scratch with
        | none => none
        | some (next, scratch, found) =>
          match found.elim (some slots) (copied? slots) with
          | none => none
          | some slots =>
            let matched := matched || found.isSome
            if mode.earliest && found.isSome then some (matched, slots, ⟨current, next, scratch⟩)
            else
              match c? with
              | none => some (matched, slots, ⟨current, next, scratch⟩)
              | some c =>
                walk? program mode text start rounds (offset + c.utf8Size) matched slots next
                  current.clear scratch
      | _, _ => none

def search? (program : Program) (mode : Mode) (cache : Cache) (text : String) (start : Nat)
    (slots : Slots) : Option (Bool × Slots × Cache) :=
  walk? program mode text start (text.length + 1) start false slots cache.current.clear
    cache.next.clear cache.scratch

variable {program : Program} {text : String} {cursor : Cursor} {threads : Threads}

theorem isNone_before (hon : Cursor.On text cursor) :
    cursor.before.isNone = (cursor.offset == 0) := by
  obtain ⟨passed, -, hoffset, hbefore⟩ := hon
  rw [hbefore, hoffset]
  cases hlast : passed.getLast? with
  | none =>
      obtain rfl := List.getLast?_eq_none_iff.mp hlast
      rfl
  | some c =>
      have hsize : Text.sizeOf passed ≠ 0 := by
        intro hzero
        rw [Text.eq_nil_of_sizeOf_eq_zero hzero] at hlast
        cases hlast
      exact (beq_false_of_ne hsize).symm

theorem isEmpty_rest (hon : Cursor.On text cursor) :
    cursor.rest.isEmpty = (cursor.offset == text.utf8ByteSize) := by
  have hstop := hon.stop_eq
  rw [Cursor.stop] at hstop
  cases hrest : cursor.rest with
  | nil =>
      rw [hrest, Text.sizeOf, Nat.add_zero] at hstop
      rw [List.isEmpty_nil, beq_iff_eq.mpr hstop]
  | cons c rest =>
      have hpositive := c.utf8Size_pos
      rw [hrest, Text.sizeOf] at hstop
      exact (beq_false_of_ne (by omega)).symm

theorem isLineFeedAt?_before (hon : Cursor.On text cursor) :
    (if cursor.offset == 0 then some true else Text.isLineFeedAt? text (cursor.offset - 1)) =
      some (cursor.before.all (· == '\n')) := by
  rw [← isNone_before hon]
  cases hbefore : cursor.before with
  | none => rfl
  | some c => exact hon.beq_byte_before hbefore

theorem isLineFeedAt?_behind (hon : Cursor.On text cursor) :
    (if cursor.offset == text.utf8ByteSize then some true
      else Text.isLineFeedAt? text cursor.offset) =
      some (cursor.rest.head?.all (· == '\n')) := by
  rw [← isEmpty_rest hon]
  obtain ⟨offset, before, rest⟩ := cursor
  cases rest with
  | nil => rfl
  | cons c rest => exact hon.beq_byte_behind

theorem holdsAt?_eq (hon : Cursor.On text cursor) (a : Pattern.Assertion) :
    a.holdsAt? text cursor.offset = some (a.holds cursor) := by
  have hat : Cursor.at? text cursor.offset = some cursor := Cursor.at?_eq_some_iff.mpr ⟨hon, rfl⟩
  cases a with
  | startText | caret => exact congrArg some (isNone_before hon).symm
  | endText | dollar => exact congrArg some (isEmpty_rest hon).symm
  | startLine => exact isLineFeedAt?_before hon
  | endLine => exact isLineFeedAt?_behind hon
  | wordBoundary | notWordBoundary => rw [Pattern.Assertion.holdsAt?, hat]; rfl

theorem branching?_eq (hon : Cursor.On text cursor) (address : Nat) (instruction : Instruction) :
    branching? text cursor.offset address instruction =
      some (branching cursor address instruction) := by
  cases instruction with
  | assertion a => rw [branching?, branching, holdsAt?_eq hon, Option.map_some]
  | _ => rfl

theorem copied?_eq {target source : Slots} (hsize : target.size = source.size) :
    copied? target source = some source :=
  if_pos hsize

theorem Threads.Fits.keep?_eq (hfits : threads.Fits program) {address : Nat}
    (haddress : address < program.size) {slots : Slots} (hslots : slots.size = program.slots) :
    threads.keep? address slots = threads.record? address slots := by
  obtain ⟨-, row, -, hrow, hsize⟩ := hfits.lookup haddress
  rw [keep?, hrow]
  simp only [copied?_eq (hsize.trans hslots.symm)]

theorem exists_rounds {room rounds : Nat} {frame : Frame} {stack : List Frame}
    (hrounds : 2 * room + (frame :: stack).length ≤ rounds) :
    ∃ left, rounds = left + 1 ∧ 2 * room + stack.length ≤ left := by
  rw [List.length_cons] at hrounds
  exact ⟨rounds - 1, by omega, by omega⟩

/-- With rounds enough for the room that is left, the guarded walk does what the walk does. -/
theorem close?_eq (hon : Cursor.On text cursor) {stack : List Frame} {slots : Slots} {rounds : Nat}
    (hfits : threads.Fits program) (hslots : slots.size = program.slots)
    (hrounds : 2 * threads.set.room + stack.length ≤ rounds) :
    close? program text cursor.offset rounds stack threads slots =
      close program cursor stack threads slots := by
  -- An address that is added takes one place of the room, and so pays for the two frames at most
  -- that it leaves on the stack.
  fun_induction close program cursor stack threads slots generalizing rounds with
  | case1 threads slots => cases rounds <;> rfl
  | case2 threads slots slot old stack h ih =>
      obtain ⟨left, rfl, hleft⟩ := exists_rounds hrounds
      rw [close?, put?, dif_pos h]
      exact ih hfits (by rwa [Array.size_set]) hleft
  | case3 threads slots slot old stack h =>
      obtain ⟨left, rfl, -⟩ := exists_rounds hrounds
      rw [close?, put?, dif_neg h]
  | case4 threads slots address stack hcontains =>
      obtain ⟨left, rfl, -⟩ := exists_rounds hrounds
      simp only [close?, hcontains]
  | case5 threads slots address stack hcontains ih =>
      obtain ⟨left, rfl, hleft⟩ := exists_rounds hrounds
      simp only [close?, hcontains]
      exact ih hfits hslots hleft
  | case6 threads slots address stack hcontains added instruction hadd hinstruction hroom target
      hbranching ih =>
      obtain ⟨left, rfl, hleft⟩ := exists_rounds hrounds
      obtain ⟨-, -, hadded, -⟩ := hfits.entered hcontains hadd
      simp only [close?, hcontains, hadd, hinstruction, branching?_eq hon, hbranching]
      exact ih hadded hslots (by rw [List.length_cons]; omega)
  | case7 threads slots address stack hcontains added instruction hadd hinstruction hroom primary
      secondary hbranching ih =>
      obtain ⟨left, rfl, hleft⟩ := exists_rounds hrounds
      obtain ⟨-, -, hadded, -⟩ := hfits.entered hcontains hadd
      simp only [close?, hcontains, hadd, hinstruction, branching?_eq hon, hbranching]
      exact ih hadded hslots (by rw [List.length_cons, List.length_cons]; omega)
  | case8 threads slots address stack hcontains added instruction hadd hinstruction hroom slot
      hbranching hslot ih =>
      obtain ⟨left, rfl, hleft⟩ := exists_rounds hrounds
      obtain ⟨-, -, hadded, -⟩ := hfits.entered hcontains hadd
      simp only [close?, hcontains, hadd, hinstruction, branching?_eq hon, hbranching, put?,
        Array.getElem?_eq_getElem hslot, dif_pos hslot]
      exact ih hadded (by rwa [Array.size_set]) (by rw [List.length_cons, List.length_cons]; omega)
  | case9 threads slots address stack hcontains added instruction hadd hinstruction _ slot
      hbranching hslot =>
      obtain ⟨left, rfl, -⟩ := exists_rounds hrounds
      simp only [close?, hcontains, hadd, hinstruction, branching?_eq hon, hbranching,
        Array.getElem?_eq_none (Nat.le_of_not_lt hslot)]
  | case10 threads slots address stack hcontains added instruction hadd hinstruction hroom
      hbranching recorded hrecord hset ih =>
      obtain ⟨left, rfl, hleft⟩ := exists_rounds hrounds
      obtain ⟨haddress, -, hadded, -⟩ := hfits.entered hcontains hadd
      obtain ⟨other, hother, hrecorded, -⟩ := hadded.record?_eq haddress hslots
      obtain rfl := Option.some.inj (hother.symm.trans hrecord)
      simp only [close?, hcontains, hadd, hinstruction, branching?_eq hon, hbranching,
        hadded.keep?_eq haddress hslots, hrecord]
      exact ih hrecorded hslots (by rw [hset]; omega)
  | case11 threads slots address stack hcontains added instruction hadd hinstruction _ hbranching
      hrecord =>
      obtain ⟨left, rfl, -⟩ := exists_rounds hrounds
      obtain ⟨haddress, -, hadded, -⟩ := hfits.entered hcontains hadd
      simp only [close?, hcontains, hadd, hinstruction, branching?_eq hon, hbranching,
        hadded.keep?_eq haddress hslots, hrecord]
  | case12 threads slots address stack hcontains added instruction hadd hinstruction hroom
      hbranching ih =>
      obtain ⟨left, rfl, hleft⟩ := exists_rounds hrounds
      obtain ⟨-, -, hadded, -⟩ := hfits.entered hcontains hadd
      simp only [close?, hcontains, hadd, hinstruction, branching?_eq hon, hbranching]
      exact ih hadded hslots (by omega)
  | case13 threads slots address stack hcontains hmissing =>
      obtain ⟨left, rfl, -⟩ := exists_rounds hrounds
      simp only [close?, hcontains]

theorem Threads.Fits.exists_holds (hfits : threads.Fits program) (cursor : Cursor) :
    ∃ settled, threads.Holds program cursor settled := by
  -- Nothing is known of the walk so far, so all that is no member yet counts as not visited.
  let fresh : Finset (Nat × Nat) :=
    {address ∈ Finset.range program.size | address ∉ threads.set.members} ×ˢ {cursor.offset}
  refine ⟨(fresh, threads.resting program cursor), hfits, fun address haddress => ?_, rfl⟩
  simp [fresh, haddress]

theorem Scratch.Fits.exists_enter? {scratch : Scratch} (hscratch : scratch.Fits program)
    (hcheck : program.check = .ok ()) (hon : Cursor.On text cursor) (hfits : threads.Fits program)
    {address : Nat} (haddress : address < program.size) :
    ∃ closed,
      scratch.enter? program text cursor.offset address threads = some (closed, scratch) ∧
      scratch.enter program cursor address threads = some (closed, scratch) ∧
      closed.Fits program := by
  obtain ⟨settled, hholds⟩ := hfits.exists_holds cursor
  obtain ⟨closed, hclose, hclosed⟩ := close_address hcheck haddress hscratch.slots hholds
  have hroom : threads.set.room ≤ program.size := by
    rw [SparseSet.room, hfits.set.dense_size]
    exact Nat.sub_le _ _
  have hguarded : close? program text cursor.offset (closeRounds program) [.explore address]
      threads scratch.slots = some (closed, scratch.slots) := by
    rw [close?_eq hon hfits hscratch.slots, hclose]
    rw [closeRounds, List.length_singleton]
    omega
  refine ⟨closed, ?_, hscratch.enter_eq hclose, hclosed.fits⟩
  obtain ⟨stack, slots⟩ := scratch
  obtain ⟨rfl, -⟩ := hscratch
  rw [enter?, hguarded]

theorem seed?_eq (hcheck : program.check = .ok ()) (hon : Cursor.On text cursor) (mode : Mode)
    (start : Nat) (matched : Bool) (hfits : threads.Fits program) {scratch : Scratch}
    (hscratch : scratch.Fits program) :
    ∃ seeded kept,
      seed? program mode text start cursor.offset matched threads scratch = some (seeded, kept) ∧
      seed program mode (cursor.offset == start) matched cursor threads scratch =
        some (seeded, kept) ∧
      seeded.Fits program ∧ kept.Fits program := by
  have hblank := Scratch.fits_ofProgram program
  obtain ⟨closed, hguarded, henter, hclosed⟩ :=
    hblank.exists_enter? hcheck hon hfits (Program.start_lt_of_check hcheck)
  unfold seed? seed
  rw [hscratch.blank_eq]
  split
  · exact ⟨closed, _, hguarded, henter, hclosed, hblank⟩
  · exact ⟨threads, scratch, rfl, rfl, hfits, hscratch⟩

theorem SparseSet.Fits.drop_members {set : SparseSet} {capacity index : Nat}
    (hfits : set.Fits capacity) (hindex : index < set.size) :
    ∃ address, set.dense[index]? = some address ∧ address < capacity ∧
      set.members.drop index = address :: set.members.drop (index + 1) := by
  obtain ⟨address, hdense, -⟩ := hfits.points_back index hindex
  have hmember : set.members[index]? = some address := by
    have hplace : index < (set.dense.extract 0 set.size).size := by
      rw [Array.size_extract, hfits.dense_size]
      have := hfits.size_le
      omega
    rw [members, Array.getElem?_toList, Array.getElem?_eq_getElem hplace, Array.getElem_extract,
      ← hdense]
    simp only [Nat.zero_add]
    exact (Array.getElem?_eq_getElem _).symm
  obtain ⟨hlt, haddress⟩ := List.getElem?_eq_some_iff.mp hmember
  refine ⟨address, hdense, hfits.lt_of_mem (List.mem_of_getElem? hmember), ?_⟩
  rw [← haddress]
  exact List.drop_eq_getElem_cons hlt

theorem step?_of_ne_accept {offset : Nat} {c? : Option Char} {current next : Threads}
    {scratch : Scratch} {count index address : Nat} {instruction : Instruction}
    (haddress : current.set.dense[index]? = some address)
    (hinstruction : program.instructions[address]? = some instruction)
    (haccept : instruction ≠ .accept) :
    step? program text offset c? current (count + 1) index next scratch =
      match c? with
      | none => step? program text offset c? current count (index + 1) next scratch
      | some c =>
        match program.accepts? c instruction with
        | none => none
        | some false => step? program text offset c? current count (index + 1) next scratch
        | some true =>
          match current.rows[address]?.bind scratch.load? with
          | none => none
          | some loaded =>
            match loaded.enter? program text (offset + c.utf8Size) (address + 1) next with
            | none => none
            | some (next, scratch) =>
              step? program text offset c? current count (index + 1) next scratch := by
  simp only [step?, haddress, hinstruction]

theorem step?_eq (hcheck : program.check = .ok ()) (hon : Cursor.On text cursor)
    {current next : Threads} (hcurrent : current.Fits program) (hnext : next.Fits program)
    {scratch : Scratch} (hscratch : scratch.Fits program) {count index : Nat}
    (hcount : index + count = current.set.size) :
    ∃ moved kept found,
      step? program text cursor.offset cursor.rest.head? current count index next scratch =
        some (moved, kept, found) ∧
      step program cursor.next? current (current.set.members.drop index) next scratch =
        some (moved, kept, found) ∧
      moved.Fits program ∧ kept.Fits program ∧
        ∀ row, found = some row → row.size = program.slots := by
  induction count generalizing index next scratch with
  | zero =>
      have hend : current.set.members.drop index = [] :=
        List.drop_eq_nil_of_le (by rw [hcurrent.set.length_members]; omega)
      rw [hend]
      exact ⟨next, scratch, none, rfl, rfl, hnext, hscratch, nofun⟩
  | succ count ih =>
      obtain ⟨address, hdense, haddress, hmembers⟩ :=
        hcurrent.set.drop_members (show index < current.set.size by omega)
      obtain ⟨instruction, row, hinstruction, hrow, hsize⟩ := hcurrent.lookup haddress
      rw [hmembers]
      by_cases haccept : instruction = .accept
      · subst haccept
        refine ⟨next, scratch, some row, ?_, step_of_accept hinstruction hrow, hnext, hscratch, ?_⟩
        · simp only [step?, hdense, hinstruction, hrow, Option.map_some]
        · intro other hother
          obtain rfl := Option.some.inj hother
          exact hsize
      rw [step?_of_ne_accept hdense hinstruction haccept,
        step_of_ne_accept hinstruction hrow haccept]
      have hothers {next : Threads} (hnext : next.Fits program) {scratch : Scratch}
          (hscratch : scratch.Fits program) :=
        ih hnext hscratch (show index + 1 + count = current.set.size by omega)
      obtain ⟨offset, before, rest⟩ := cursor
      cases rest with
      | nil => exact hothers hnext hscratch
      | cons c rest =>
          simp only [List.head?_cons, Cursor.next?]
          cases haccepts : program.accepts? c instruction with
          | none => exact absurd haccepts (accepts?_ne_none hcheck hinstruction c)
          | some accepted =>
              cases accepted with
              | false => exact hothers hnext hscratch
              | true =>
                  have hinside := address_succ_lt_of_accepts? hcheck hinstruction haccepts
                  have hloaded : (⟨[], row⟩ : Scratch).Fits program := ⟨rfl, hsize⟩
                  obtain ⟨closed, hguarded, henter, hclosed⟩ :=
                    hloaded.exists_enter? hcheck hon.behind hnext hinside
                  simp only [hrow, Option.bind_some, hscratch.load?_eq hsize, Cursor.behind,
                    hguarded, henter]
                  exact hothers hclosed hloaded

theorem exists_copied {slots : Slots} {found : Option Slots} (hslots : slots.size = program.slots)
    (hfound : ∀ row, found = some row → row.size = program.slots) :
    found.elim (some slots) (copied? slots) = some (found.getD slots) ∧
      (found.getD slots).size = program.slots := by
  cases found with
  | none => exact ⟨rfl, hslots⟩
  | some row =>
      have hrow := hfound row rfl
      exact ⟨copied?_eq (hslots.trans hrow.symm), hrow⟩

theorem walk?_eq (hcheck : program.check = .ok ()) (mode : Mode) {start rounds offset : Nat}
    {before : Option Char} {rest : List Char} (matched : Bool) {slots : Slots}
    {current next : Threads} (hon : Cursor.On text ⟨offset, before, rest⟩)
    (hstart : start ≤ offset) (hrounds : rest.length < rounds)
    (hslots : slots.size = program.slots) (hcurrent : current.Fits program)
    (hnext : next.Fits program) {scratch : Scratch} (hscratch : scratch.Fits program) :
    ∃ result,
      walk? program mode text start rounds offset matched slots current next scratch =
        some result ∧
      walk program mode (offset == start) matched slots offset before rest current next scratch =
        some result := by
  induction rounds generalizing offset before rest matched slots current next scratch with
  | zero => exact absurd hrounds (Nat.not_lt_zero _)
  | succ rounds ih =>
      have hfirst : decide (start < offset) = !(offset == start) := by
        rw [Bool.eq_iff_iff]
        simp only [decide_eq_true_eq, Bool.not_eq_true', beq_eq_false_iff_ne]
        omega
      rw [walk?, walk, hfirst]
      split
      · exact ⟨_, rfl, rfl⟩
      obtain ⟨seeded, kept, hguardedSeed, hseed, hseeded, hkept⟩ :=
        seed?_eq hcheck hon mode start matched hcurrent hscratch
      obtain ⟨moved, left, found, hguardedStep, hstep, hmoved, hleft, hfound⟩ :=
        step?_eq hcheck hon hseeded hnext hkept (Nat.zero_add _)
      obtain ⟨hcopied, hcopy⟩ := exists_copied hslots hfound
      have hat : Cursor.at? text offset = some ⟨offset, before, rest⟩ :=
        Cursor.at?_eq_some_iff.mpr ⟨hon, rfl⟩
      rw [List.drop_zero] at hstep
      simp only [hguardedSeed, hat, hguardedStep, hcopied, hseed, hstep]
      split
      · exact ⟨_, rfl, rfl⟩
      cases rest with
      | nil => exact ⟨_, rfl, rfl⟩
      | cons c rest =>
          have hpositive := c.utf8Size_pos
          have hlater : (offset + c.utf8Size == start) = false := beq_false_of_ne (by omega)
          obtain ⟨result, hguarded, hwalk⟩ := ih (matched || found.isSome) hon.behind (by omega)
            (Nat.lt_of_succ_lt_succ hrounds) hcopy hmoved hseeded.clear hleft
          rw [hlater] at hwalk
          exact ⟨result, hguarded, hwalk⟩

/-- A guarded search in a checked program goes through, and is the search. -/
theorem search?_eq (hcheck : program.check = .ok ()) (hon : Cursor.On text cursor) (mode : Mode)
    {cache : Cache} (hcache : cache.Fits program) {slots : Slots}
    (hslots : slots.size = program.slots) :
    ∃ result, search? program mode cache text cursor.offset slots = some result ∧
      search program mode cache cursor slots = some result := by
  have hlength : cursor.rest.length < text.length + 1 := by
    obtain ⟨passed, htext, -⟩ := hon
    rw [← String.length_toList, htext, List.length_append]
    omega
  obtain ⟨result, hguarded, hwalk⟩ := walk?_eq hcheck mode false hon (Nat.le_refl _)
    hlength hslots hcache.current.clear hcache.next.clear hcache.scratch
  rw [beq_self_eq_true] at hwalk
  exact ⟨result, hguarded, hwalk⟩

/-- From a place between characters a search with a checked program comes to its end, in a bounded
number of rounds, and on its way takes nothing that is not there. -/
theorem exists_guarded_search (hcheck : program.check = .ok ()) {start : Nat}
    (hstart : Text.IsBoundary text start) (mode : Mode) {slots : Slots}
    (hslots : slots.size = program.slots) :
    ∃ cursor matched found kept, Cursor.at? text start = some cursor ∧
      search? program mode (.ofProgram program) text start slots = some (matched, found, kept) ∧
      search program mode (.ofProgram program) cursor slots = some (matched, found, kept) := by
  obtain ⟨front, behind, htext, rfl⟩ := Text.isBoundary_iff.mp hstart
  have hon : Cursor.On text ⟨Text.sizeOf front, front.getLast?, behind⟩ := ⟨front, htext, rfl, rfl⟩
  obtain ⟨⟨matched, found, kept⟩, hguarded, hsearch⟩ :=
    search?_eq hcheck hon mode (cache_fits_ofProgram program) hslots
  exact ⟨_, matched, found, kept, Cursor.at?_eq_some_iff.mpr ⟨hon, rfl⟩, hguarded, hsearch⟩

theorem exists_guarded_search_selfLoop :
    let digits : Pattern.CodeSet := .ofRanges Pattern.CodeSet.digits false
    let program : Program :=
      ⟨#[.split 0 1, .assertion .startLine, .assertion .wordBoundary, .oneOf 0 false, .save 1,
        .accept], #[.ofSet digits], 2, 0⟩
    program.check = .ok () ∧ Text.IsBoundary "ä\n7" 2 ∧ (#[none, none] : Slots).size = program.slots ∧
      ∃ cursor matched found kept, Cursor.at? "ä\n7" 2 = some cursor ∧
        search? program ⟨false, false⟩ (.ofProgram program) "ä\n7" 2 #[none, none] =
          some (matched, found, kept) ∧
        search program ⟨false, false⟩ (.ofProgram program) cursor #[none, none] =
          some (matched, found, kept) ∧ matched = true ∧ found = #[none, some 4] := by
  intro digits program
  have hcheck : program.check = .ok () := by decide +kernel
  have hstart : Text.IsBoundary "ä\n7" 2 :=
    Text.isBoundary_iff.mpr ⟨['ä'], ['\n', '7'], by decide, by decide⟩
  have hslots : (#[none, none] : Slots).size = program.slots := rfl
  obtain ⟨cursor, matched, found, kept, hcursor, hguarded, hsearch⟩ :=
    exists_guarded_search hcheck hstart ⟨false, false⟩ hslots
  have hfound : (search? program ⟨false, false⟩ (.ofProgram program) "ä\n7" 2 #[none, none]).map
      (fun result => (result.1, result.2.1)) = some (true, #[none, some 4]) := by
    decide +kernel
  rw [hguarded, Option.map_some] at hfound
  cases hfound
  exact ⟨hcheck, hstart, hslots, cursor, true, _, kept, hcursor, hguarded, hsearch, rfl, rfl⟩

end Search

end TextColumns
