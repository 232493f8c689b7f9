import TextColumns.Pattern.Syntax
import TextColumns.Program.Basic
import TextColumns.Program.CharClass
import TextColumns.Search.SparseSet
import TextColumns.Text.Cursor

/-!
Assertions about a place of a text, the threads there, and the walk that finds all threads to which
an address leads without consuming a character.  The walk keeps its own stack, and it fails only
when it would leave the program or the memory laid out for it.
-/

namespace TextColumns

open Text (Cursor)

namespace Pattern

/-- Whether the character before a place is of the word kind and the one behind it is not, or the
other way round. -/
def isWordBoundary (cursor : Cursor) : Bool :=
  cursor.before.any isWordChar != cursor.rest.head?.any isWordChar

def Assertion.holds (cursor : Cursor) : Assertion → Bool
  | .startText | .caret => cursor.before.isNone
  | .endText | .dollar => cursor.rest.isEmpty
  | .startLine => cursor.before.all (· == '\n')
  | .endLine => cursor.rest.head?.all (· == '\n')
  | .wordBoundary => isWordBoundary cursor
  | .notWordBoundary => !isWordBoundary cursor

end Pattern

namespace Search

/-- Offsets kept by the `save` instructions. -/
abbrev Slots := Array (Option Nat)

/-- Threads by priority: the set of their addresses, and for each address a row of slots, which
means something only for an address in the set. -/
structure Threads where
  set : SparseSet
  rows : Array Slots
  deriving Inhabited

namespace Threads

def ofProgram (program : Program) : Threads :=
  ⟨.ofCapacity program.size,
    Array.replicate program.size (Array.replicate program.slots none)⟩

def clear (threads : Threads) : Threads :=
  { threads with set := threads.set.clear }

@[inline] def add? (threads : Threads) (address : Nat) : Option Threads :=
  match threads with
  | ⟨set, rows⟩ =>
    match set.add? address with
    | some set => some ⟨set, rows⟩
    | none => none

@[inline] def record? (threads : Threads) (address : Nat) (slots : Slots) : Option Threads :=
  match threads with
  | ⟨set, rows⟩ =>
    if h : address < rows.size then some ⟨set, rows.set address slots h⟩ else none

theorem room_add? {threads added : Threads} {address : Nat}
    (h : threads.add? address = some added) : added.set.room + 1 = threads.set.room := by
  obtain ⟨set, rows⟩ := threads
  cases hset : set.add? address with
  | none =>
      rw [add?, hset] at h
      cases h
  | some entered =>
      rw [add?, hset] at h
      cases h
      exact SparseSet.room_add? hset

theorem set_record? {threads recorded : Threads} {address : Nat} {slots : Slots}
    (h : threads.record? address slots = some recorded) : recorded.set = threads.set := by
  obtain ⟨set, rows⟩ := threads
  simp only [record?] at h
  split at h
  · cases h; rfl
  · cases h

end Threads

inductive Frame where
  | explore (address : Nat)
  /-- Gives a slot back the value that it had before. -/
  | restore (slot : Nat) (old : Option Nat)
  deriving DecidableEq, Repr

inductive Branching where
  | onward (address : Nat)
  /-- To both addresses, the preferred one first. -/
  | either (primary secondary : Nat)
  /-- To the next address, with the offset kept in a slot. -/
  | save (slot : Nat)
  /-- Nowhere, since a thread rests here. -/
  | rest
  /-- Nowhere at all. -/
  | stop

@[inline] def branching (cursor : Cursor) (address : Nat) : Instruction → Branching
  | .jump target => .onward target
  | .split primary secondary => .either primary secondary
  | .save slot => .save slot
  | .assertion a => if a.holds cursor then .onward (address + 1) else .stop
  | .char .. | .any _ | .oneOf .. | .accept => .rest

/-- Does the work on the stack: adds to `threads` every thread that can be reached at the cursor,
with the slots that it would have kept.  Addresses already in the set are passed over. -/
def close (program : Program) (cursor : Cursor) (stack : List Frame) (threads : Threads)
    (slots : Slots) : Option (Threads × Slots) :=
  match stack with
  | [] => some (threads, slots)
  | .restore slot old :: stack =>
    if h : slot < slots.size then
      close program cursor stack threads (slots.set slot old h)
    else
      none
  | .explore address :: stack =>
    match threads.set.contains? address with
    | none => none
    | some true => close program cursor stack threads slots
    | some false =>
      match hadd : threads.add? address, program.instructions[address]? with
      | some added, some instruction =>
        have := Threads.room_add? hadd
        match branching cursor address instruction with
        | .onward target => close program cursor (.explore target :: stack) added slots
        | .either primary secondary =>
          close program cursor (.explore primary :: .explore secondary :: stack) added slots
        | .save slot =>
          if h : slot < slots.size then
            close program cursor (.explore (address + 1) :: .restore slot slots[slot] :: stack)
              added (slots.set slot (some cursor.offset) h)
          else
            none
        | .rest =>
          match hrecord : added.record? address slots with
          | some recorded =>
            have := Threads.set_record? hrecord
            close program cursor stack recorded slots
          | none => none
        | .stop => close program cursor stack added slots
      | _, _ => none
termination_by 2 * threads.set.room + stack.length
decreasing_by
  all_goals simp_all
  all_goals omega

end Search

end TextColumns
