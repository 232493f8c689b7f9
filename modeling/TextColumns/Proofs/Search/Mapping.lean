import TextColumns.Proofs.Search.Closure
import TextColumns.Proofs.Text.Cursor
import TextColumns.Search.Walk

/-!
Texts whose characters are mapped one by one, and programs that cannot tell a character from its
image.  A search takes the same steps in a text and in the text of the images, so it ends in the
same state, its memory included.
-/

namespace TextColumns.Text.Cursor

def map (f : Char → Char) (cursor : Cursor) : Cursor :=
  ⟨cursor.offset, cursor.before.map f, cursor.rest.map f⟩

variable {f : Char → Char}

@[simp] theorem offset_map (f : Char → Char) (cursor : Cursor) :
    (cursor.map f).offset = cursor.offset := rfl

theorem start_map (f : Char → Char) (text : String) :
    (start text).map f = start (text.map f) := by
  rw [start, start, String.toList_map]
  rfl

variable (hsize : ∀ c, (f c).utf8Size = c.utf8Size)
include hsize

theorem behind_map (cursor : Cursor) (c : Char) (rest : List Char) :
    (cursor.map f).behind (f c) (rest.map f) = (cursor.behind c rest).map f := by
  rw [behind, hsize]
  rfl

theorem next?_map (cursor : Cursor) :
    (cursor.map f).next? = cursor.next?.map fun next => (f next.1, next.2.map f) := by
  obtain ⟨offset, before, rest⟩ := cursor
  cases rest with
  | nil => rfl
  | cons c rest => exact congrArg (fun place => some (f c, place)) (behind_map hsize _ c rest)

theorem seekFrom_map (target offset : Nat) (before : Option Char) (rest : List Char) :
    seekFrom target offset (before.map f) (rest.map f) =
      (seekFrom target offset before rest).map f := by
  induction rest generalizing offset before with
  | nil => rfl
  | cons c rest ih =>
      rw [List.map_cons, seekFrom, seekFrom, hsize]
      split
      · rfl
      · exact ih _ (some c)

theorem seek_map (cursor : Cursor) (target : Nat) :
    (cursor.map f).seek target = (cursor.seek target).map f :=
  seekFrom_map hsize _ _ _ _

theorem at?_map (text : String) (offset : Nat) :
    at? (text.map f) offset = (at? text offset).map (Cursor.map f) := by
  rw [at?, at?, ← start_map, seek_map hsize, apply_ite (Option.map (Cursor.map f))]
  rfl

end TextColumns.Text.Cursor

namespace TextColumns

open Text (Cursor)

namespace Search

variable {program : Program} {cursor : Cursor} {stack : List Frame} {threads added : Threads}
  {slots : Slots} {address : Nat} {instruction : Instruction}

theorem close_explore (hcontains : threads.set.contains? address = some false)
    (hadd : threads.add? address = some added)
    (hinstruction : program.instructions[address]? = some instruction) :
    close program cursor (.explore address :: stack) threads slots =
      match branching cursor address instruction with
      | .onward target => close program cursor (.explore target :: stack) added slots
      | .either primary secondary =>
        close program cursor (.explore primary :: .explore secondary :: stack) added slots
      | .save slot =>
        if h : slot < slots.size then
          close program cursor (.explore (address + 1) :: .restore slot slots[slot] :: stack)
            added (slots.set slot (some cursor.offset) h)
        else none
      | .rest =>
        match added.record? address slots with
        | some recorded => close program cursor stack recorded slots
        | none => none
      | .stop => close program cursor stack added slots := by
  rw [close]
  simp only [hcontains]
  split
  next hadd' hinstruction' =>
    obtain rfl := Option.some.inj (hadd.symm.trans hadd')
    obtain rfl := Option.some.inj (hinstruction.symm.trans hinstruction')
    cases branching cursor address instruction with
    | rest =>
        dsimp only
        split
        next hrecord => rw [hrecord]
        next hrecord => rw [hrecord]
    | _ => rfl
  next hnone => exact absurd hinstruction (hnone _ _ hadd)

theorem close_explore_none (hcontains : threads.set.contains? address = some false)
    (hnone : ∀ added instruction, threads.add? address = some added →
      program.instructions[address]? = some instruction → False) :
    close program cursor (.explore address :: stack) threads slots = none := by
  rw [close]
  simp only [hcontains]

end Search

/-- Whether nothing that a program does tells a character from its image. -/
structure Program.Blind (program : Program) (f : Char → Char) : Prop where
  size : ∀ c, (f c).utf8Size = c.utf8Size
  word : ∀ c, isWordChar (f c) = isWordChar c
  lineFeed : ∀ c, (f c == '\n') = (c == '\n')
  accepts : ∀ instruction ∈ program.instructions, ∀ c,
    program.accepts? (f c) instruction = program.accepts? c instruction

namespace Program.Blind

open Search

variable {program : Program} {f : Char → Char} (hblind : program.Blind f)
include hblind

theorem holds_map (a : Pattern.Assertion) (cursor : Cursor) :
    a.holds (cursor.map f) = a.holds cursor := by
  have hword := hblind.word
  have hlineFeed := hblind.lineFeed
  obtain ⟨offset, before, rest⟩ := cursor
  cases a <;> cases before <;> cases rest <;>
    simp [Pattern.Assertion.holds, Pattern.isWordBoundary, Cursor.map, hword, hlineFeed]

theorem branching_map (cursor : Cursor) (address : Nat) (instruction : Instruction) :
    branching (cursor.map f) address instruction = branching cursor address instruction := by
  cases instruction with
  | assertion a => rw [branching, branching, hblind.holds_map]
  | _ => rfl

theorem close_map (cursor : Cursor) (stack : List Frame) (threads : Threads) (slots : Slots) :
    close program (cursor.map f) stack threads slots =
      close program cursor stack threads slots := by
  have hbranching := hblind.branching_map cursor
  fun_induction close program cursor stack threads slots with
  | case1 => rw [close]
  | case2 threads slots slot old stack h ih => rw [close, dif_pos h, ih]
  | case3 threads slots slot old stack h => rw [close, dif_neg h]
  | case4 threads slots address stack hcontains => rw [close, hcontains]
  | case5 threads slots address stack hcontains ih => rw [close, hcontains]; exact ih
  | case6 threads slots address stack hcontains added instruction hadd hinstruction _ target h ih
  | case7 threads slots address stack hcontains added instruction hadd hinstruction _ target other
      h ih
  | case12 threads slots address stack hcontains added instruction hadd hinstruction _ h ih =>
      rw [close_explore hcontains hadd hinstruction, hbranching, h]
      exact ih
  | case8 threads slots address stack hcontains added instruction hadd hinstruction _ slot h hslot
      ih =>
      rw [close_explore hcontains hadd hinstruction, hbranching, h]
      exact (dif_pos hslot).trans ih
  | case9 threads slots address stack hcontains added instruction hadd hinstruction _ slot h
      hslot =>
      rw [close_explore hcontains hadd hinstruction, hbranching, h]
      exact dif_neg hslot
  | case10 threads slots address stack hcontains added instruction hadd hinstruction _ h recorded
      hrecord _ ih =>
      rw [close_explore hcontains hadd hinstruction, hbranching, h, hrecord]
      exact ih
  | case11 threads slots address stack hcontains added instruction hadd hinstruction _ h hrecord =>
      rw [close_explore hcontains hadd hinstruction, hbranching, h, hrecord]
  | case13 threads slots address stack hcontains hnone => exact close_explore_none hcontains hnone

theorem enter_map (scratch : Scratch) (cursor : Cursor) (address : Nat) (threads : Threads) :
    scratch.enter program (cursor.map f) address threads =
      scratch.enter program cursor address threads := by
  rw [Scratch.enter, Scratch.enter, hblind.close_map]

theorem step_map (cursor : Cursor) (current : Threads) (addresses : List Nat) (next : Threads)
    (scratch : Scratch) :
    step program (cursor.map f).next? current addresses next scratch =
      step program cursor.next? current addresses next scratch := by
  rw [Cursor.next?_map hblind.size]
  generalize cursor.next? = next?
  induction addresses generalizing next scratch with
  | nil => rfl
  | cons address others ih =>
      rw [step, step]
      cases hinstruction : program.instructions[address]? with
      | none => rfl
      | some instruction =>
          have haccepts := hblind.accepts instruction (Array.mem_of_getElem? hinstruction)
          cases next? with
          | none => rfl
          | some place =>
              simp only [Option.map_some, hblind.enter_map] at ih ⊢
              cases current.rows[address]? with
              | none => rfl
              | some row => cases instruction <;> simp only [haccepts, ih]

theorem seed_map (mode : Mode) (first matched : Bool) (cursor : Cursor) (current : Threads)
    (scratch : Scratch) :
    seed program mode first matched (cursor.map f) current scratch =
      seed program mode first matched cursor current scratch := by
  rw [seed, seed, hblind.enter_map]

theorem walk_map (mode : Mode) (first matched : Bool) (slots : Slots) (offset : Nat)
    (before : Option Char) (rest : List Char) (current next : Threads) (scratch : Scratch) :
    walk program mode first matched slots offset (before.map f) (rest.map f) current next scratch =
      walk program mode first matched slots offset before rest current next scratch := by
  induction rest generalizing first matched slots offset before current next scratch with
  | nil =>
      have hplace : Cursor.mk offset (before.map f) [] = (Cursor.mk offset before []).map f := rfl
      rw [List.map_nil, walk, walk]
      simp only [hplace, hblind.seed_map, hblind.step_map]
  | cons c rest ih =>
      have hplace : Cursor.mk offset (before.map f) (f c :: rest.map f) =
          (Cursor.mk offset before (c :: rest)).map f := rfl
      have hbehind : some (f c) = (some c).map f := rfl
      rw [List.map_cons, walk, walk]
      simp only [hplace, hblind.seed_map, hblind.step_map, hblind.size, hbehind, ih]

/-- A search in the text of the images ends as the one in the text does. -/
theorem search_map (mode : Mode) (cache : Cache) (cursor : Cursor) (slots : Slots) :
    search program mode cache (cursor.map f) slots = search program mode cache cursor slots :=
  hblind.walk_map mode true false slots cursor.offset cursor.before cursor.rest _ _ _

end Program.Blind

end TextColumns
