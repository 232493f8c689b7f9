import TextColumns.Pattern.Syntax
import TextColumns.Program.CharClass

/-!
Programs.  A program is an array of instructions for threads that walk over a text; the targets
of splits and jumps are addresses in that array.  `Program.check` tells whether no thread can
leave the program.
-/

namespace TextColumns

open Pattern (Assertion)

inductive Instruction where
  /-- Consumes one character, in either case when `fold` is set. -/
  | char (c : Char) (fold : Bool)
  /-- Consumes any character, a line feed only when `newline` is set. -/
  | any (newline : Bool)
  /-- Consumes a character of the class with that index. -/
  | oneOf (cls : Nat) (fold : Bool)
  | assertion (a : Assertion)
  /-- Goes on at both addresses, and prefers what the first leads to. -/
  | split (primary secondary : Nat)
  | jump (target : Nat)
  /-- Keeps the current offset in a capture slot. -/
  | save (slot : Nat)
  | accept
  deriving DecidableEq, Repr, Inhabited

structure Program where
  instructions : Array Instruction
  classes : Array CharClass
  /-- Capture slots, two for each group with the whole match as the first. -/
  slots : Nat
  start : Nat
  deriving DecidableEq, Repr, Inhabited

inductive ProgramFault where
  | startOutside (start size : Nat)
  | badSlotCount (slots : Nat)
  | badAcceptCount (found : Nat)
  | badTarget (address : Nat) (instruction : Instruction)
  deriving DecidableEq, Repr

namespace Program

def size (program : Program) : Nat :=
  program.instructions.size

/-- The groups that capture, the whole match not counted. -/
def groupCount (program : Program) : Nat :=
  program.slots / 2 - 1

def staysInside (program : Program) (address : Nat) : Instruction → Bool
  | .split primary secondary => primary < program.size && secondary < program.size
  | .jump target => target < program.size
  | .save slot => slot < program.slots && address + 1 < program.size
  | .oneOf cls _ => cls < program.classes.size && address + 1 < program.size
  | .char .. | .any _ | .assertion _ => address + 1 < program.size
  | .accept => true

def acceptCount (program : Program) : Nat :=
  program.instructions.countP (· == .accept)

def firstOutside? (program : Program) : Option (Nat × Instruction) :=
  (program.instructions.mapIdx fun address instruction => (address, instruction)).find?
    fun entry => !program.staysInside entry.1 entry.2

/-- Refuses a program in which a thread could go astray. -/
def check (program : Program) : Except ProgramFault Unit :=
  if program.size ≤ program.start then
    .error (.startOutside program.start program.size)
  else if program.slots < 2 || program.slots % 2 != 0 then
    .error (.badSlotCount program.slots)
  else if program.acceptCount != 1 then
    .error (.badAcceptCount program.acceptCount)
  else
    match program.firstOutside? with
    | some (address, instruction) => .error (.badTarget address instruction)
    | none => .ok ()

end Program

end TextColumns
