import TextColumns.Regex.Basic
import TextColumns.Basic

/-!
A table of compiled patterns.  Each pattern is known by a handle, and the same pattern under the
same flags is compiled once.  Registering takes three steps, looking the pattern up, compiling it
and adding it; other clients of the table may act between them, so the last step looks again.
-/

namespace TextColumns

open Pattern (Flags)

/-- What tells registered patterns apart. -/
structure PatternKey where
  pattern : String
  flags : Flags
  deriving DecidableEq, Repr

structure Registry where
  /-- The handle that will be given next. -/
  next : Nat
  handles : List (PatternKey × Nat)
  programs : List (Nat × Regex)

namespace Registry

def empty : Registry :=
  ⟨0, [], []⟩

def handle? (registry : Registry) (key : PatternKey) : Option Nat :=
  registry.handles.lookup key

def regex? (registry : Registry) (handle : Nat) : Option Regex :=
  registry.programs.lookup handle

/-- Adds a compiled pattern, unless its key has a handle by now. -/
def insert (registry : Registry) (key : PatternKey) (regex : Regex) : Nat × Registry :=
  match registry.handle? key with
  | some handle => (handle, registry)
  | none =>
    (registry.next,
      ⟨Word.wrap (registry.next + 1), (key, registry.next) :: registry.handles,
        (registry.next, regex) :: registry.programs⟩)

def register (registry : Registry) (pattern : String) (flags : Flags) :
    Result (Nat × Registry) :=
  match registry.handle? ⟨pattern, flags⟩ with
  | some handle => .ok (handle, registry)
  | none =>
    match Regex.compile pattern flags with
    | .error e => .error e
    | .ok regex => .ok (registry.insert ⟨pattern, flags⟩ regex)

def get (registry : Registry) (handle : Nat) : Result Regex :=
  match registry.regex? handle with
  | some regex => .ok regex
  | none => .error (.unknownPattern handle)

def release (registry : Registry) (handle : Nat) : Bool × Registry :=
  match registry.regex? handle with
  | none => (false, registry)
  | some regex =>
    let key : PatternKey := ⟨regex.pattern, regex.flags⟩
    (true,
      ⟨registry.next, registry.handles.filter (·.1 != key),
        registry.programs.filter (·.1 != handle)⟩)

def size (registry : Registry) : Nat :=
  registry.programs.length

end Registry

end TextColumns
