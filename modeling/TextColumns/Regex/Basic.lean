import TextColumns.Error
import TextColumns.Pattern.Code
import TextColumns.Pattern.Parse

namespace TextColumns

namespace Pattern

def compile (text : String) (flags : Flags) : Except Malformed Program :=
  match parse text with
  | .error e => .error e
  | .ok parsed =>
    if maxProgramSize < parsed.node.codeSize + 3 then
      malformed text.utf8ByteSize .programTooLong
    else
      let program := parsed.program (flags.union parsed.flags)
      match program.check with
      | .error fault => malformed 0 (.invalidProgram fault)
      | .ok () => .ok program

end Pattern

open Pattern (Flags)

structure Regex where
  pattern : String
  flags : Flags
  program : Program
  deriving DecidableEq, Repr, Inhabited

namespace Regex

def compile (pattern : String) (flags : Flags) : Result Regex :=
  match Pattern.compile pattern flags with
  | .error e => .error (.pattern pattern e)
  | .ok program => .ok ⟨pattern, flags, program⟩

def groupCount (regex : Regex) : Nat :=
  regex.program.groupCount

end Regex

end TextColumns
