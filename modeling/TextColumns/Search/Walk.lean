import TextColumns.Search.Threads

/-!
Searching a text with a program.  All threads walk over the text together, one character at a
time, in the order of their priority; a thread that accepts cuts off those behind it.  A search
has no answer only when a thread leaves its program.
-/

namespace TextColumns

def Program.accepts? (program : Program) (c : Char) : Instruction → Option Bool
  | .char expected fold => some (sameChar c expected fold)
  | .any newline => some (newline || c != '\n')
  | .oneOf cls fold =>
    match program.classes[cls]? with
    | some cls => some (cls.accepts c fold)
    | none => none
  | _ => some false

namespace Search

open Text (Cursor)

/-- Memory for a single walk: its stack of work, and the slots of the thread that it follows. -/
structure Scratch where
  stack : List Frame
  slots : Slots
  deriving DecidableEq, Repr, Inhabited

namespace Scratch

def ofProgram (program : Program) : Scratch :=
  ⟨[], Array.replicate program.slots none⟩

/-- All slots are empty, as they are for a match that begins here. -/
def blank (scratch : Scratch) : Scratch :=
  { scratch with slots := Array.replicate scratch.slots.size none }

def load? (scratch : Scratch) (row : Slots) : Option Scratch :=
  if scratch.slots.size = row.size then some { scratch with slots := row } else none

/-- Adds the threads to which an address leads.  The walk works off all that is on the stack. -/
def enter (scratch : Scratch) (program : Program) (cursor : Cursor) (address : Nat)
    (threads : Threads) : Option (Threads × Scratch) :=
  match close program cursor (.explore address :: scratch.stack) threads scratch.slots with
  | none => none
  | some (threads, slots) => some (threads, ⟨[], slots⟩)

end Scratch

/-- Memory for the threads at the current place and at the next one, and for the walks between
them.  It is kept between searches and holds what the one before has left there. -/
structure Cache where
  current : Threads
  next : Threads
  scratch : Scratch
  deriving Inhabited

def Cache.ofProgram (program : Program) : Cache :=
  ⟨.ofProgram program, .ofProgram program, .ofProgram program⟩

structure Mode where
  /-- A match must begin where the search starts. -/
  anchored : Bool
  /-- The first match that shows is enough. -/
  earliest : Bool
  deriving DecidableEq, Repr

/-- Moves the threads at the listed addresses over the next character, in that order, and gathers
in `next` the threads behind it.  Stops at a thread that accepts and gives its slots. -/
def step (program : Program) (next? : Option (Char × Cursor)) (current : Threads) :
    List Nat → Threads → Scratch → Option (Threads × Scratch × Option Slots)
  | [], next, scratch => some (next, scratch, none)
  | address :: others, next, scratch =>
    match program.instructions[address]?, current.rows[address]? with
    | some instruction, some row =>
      match instruction with
      | .accept => some (next, scratch, some row)
      | instruction =>
        match next? with
        | none => step program next? current others next scratch
        | some (c, cursor) =>
          match program.accepts? c instruction with
          | none => none
          | some false => step program next? current others next scratch
          | some true =>
            match scratch.load? row with
            | none => none
            | some loaded =>
              match loaded.enter program cursor (address + 1) next with
              | none => none
              | some (next, scratch) => step program next? current others next scratch
    | _, _ => none

/-- Adds the thread that starts at the cursor, unless a match has been found or the search is
anchored elsewhere. -/
def seed (program : Program) (mode : Mode) (first matched : Bool) (cursor : Cursor)
    (current : Threads) (scratch : Scratch) : Option (Threads × Scratch) :=
  if !matched && (!mode.anchored || first) then
    scratch.blank.enter program cursor program.start current
  else
    some (current, scratch)

/-- Searches from a place on.  `first` tells whether the search starts at this place, `matched`
whether there has been a match, and `slots` is overwritten by the slots of each better match. -/
def walk (program : Program) (mode : Mode) (first matched : Bool) (slots : Slots)
    (offset : Nat) (before : Option Char) (rest : List Char) (current next : Threads)
    (scratch : Scratch) : Option (Bool × Slots × Cache) :=
  if current.set.size == 0 && (matched || (mode.anchored && !first)) then
    some (matched, slots, ⟨current, next, scratch⟩)
  else
    let cursor : Cursor := ⟨offset, before, rest⟩
    match seed program mode first matched cursor current scratch with
    | none => none
    | some (current, scratch) =>
      match step program cursor.next? current current.set.members next scratch with
      | none => none
      | some (next, scratch, found) =>
        let matched := matched || found.isSome
        let slots := found.getD slots
        if mode.earliest && found.isSome then some (matched, slots, ⟨current, next, scratch⟩)
        else
          match rest with
          | [] => some (matched, slots, ⟨current, next, scratch⟩)
          | c :: rest =>
            walk program mode false matched slots (offset + c.utf8Size) (some c) rest next
              current.clear scratch

/-- Searches from a cursor on.  The answer tells whether there is a match, and has the row of slots
of the match, or the given row when there is none. -/
def search (program : Program) (mode : Mode) (cache : Cache) (cursor : Cursor)
    (slots : Slots) : Option (Bool × Slots × Cache) :=
  walk program mode true false slots cursor.offset cursor.before cursor.rest
    cache.current.clear cache.next.clear cache.scratch

end Search

end TextColumns
