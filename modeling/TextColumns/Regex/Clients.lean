import TextColumns.Regex.Registry

/-!
Clients that share one table of compiled patterns.  The table is locked while a client reads or
changes it, so what clients do to it happens in some order, one step after the other.  A client
that registers a pattern takes up to three steps: it looks the pattern up under a first lock,
compiles it under none, and adds it under a second lock.
-/

namespace TextColumns

/-- How far a client is with registering a pattern. -/
inductive Phase where
  | idle
  | missed (key : PatternKey)
  | compiled (key : PatternKey) (regex : Regex)

/-- One step of a client, with what the client learns from it. -/
inductive Event where
  | found (key : PatternKey) (handle : Nat)
  | missed (key : PatternKey)
  | refused (key : PatternKey) (failure : Failure)
  | compiled (key : PatternKey)
  /-- Another client has added the pattern since it was looked up. -/
  | joined (key : PatternKey) (handle : Nat)
  | issued (key : PatternKey) (handle : Nat)
  | got (handle : Nat) (answer : Result Regex)
  | released (handle : Nat) (known : Bool)

namespace Event

/-- The handle with which a registration ends. -/
def registration? : Event → Option (PatternKey × Nat)
  | found key handle | joined key handle | issued key handle => some (key, handle)
  | _ => none

/-- The handle that a registration makes known. -/
def issue? : Event → Option (PatternKey × Nat)
  | issued key handle => some (key, handle)
  | _ => none

end Event

structure SharedRegistry (Client : Type) where
  registry : Registry
  phase : Client → Phase

namespace SharedRegistry

variable {Client : Type}

def initial : SharedRegistry Client :=
  ⟨Registry.empty, fun _ => .idle⟩

variable [DecidableEq Client]

def withPhase (shared : SharedRegistry Client) (client : Client) (phase : Phase) :
    SharedRegistry Client :=
  { shared with phase := fun other => if other = client then phase else shared.phase other }

def withRegistry (shared : SharedRegistry Client) (registry : Registry) :
    SharedRegistry Client :=
  { shared with registry }

inductive Step (shared : SharedRegistry Client) (client : Client) :
    Event → SharedRegistry Client → Prop
  | find {key handle} (hidle : shared.phase client = .idle)
      (hhandle : shared.registry.handle? key = some handle) :
      Step shared client (.found key handle) shared
  | miss {key} (hidle : shared.phase client = .idle)
      (hhandle : shared.registry.handle? key = none) :
      Step shared client (.missed key) (shared.withPhase client (.missed key))
  | refuse {key failure} (hphase : shared.phase client = .missed key)
      (hcompile : Regex.compile key.pattern key.flags = .error failure) :
      Step shared client (.refused key failure) (shared.withPhase client .idle)
  | compile {key regex} (hphase : shared.phase client = .missed key)
      (hcompile : Regex.compile key.pattern key.flags = .ok regex) :
      Step shared client (.compiled key) (shared.withPhase client (.compiled key regex))
  | join {key regex handle} (hphase : shared.phase client = .compiled key regex)
      (hhandle : shared.registry.handle? key = some handle) :
      Step shared client (.joined key (shared.registry.insert key regex).1)
        ((shared.withRegistry (shared.registry.insert key regex).2).withPhase client .idle)
  | issue {key regex} (hphase : shared.phase client = .compiled key regex)
      (hhandle : shared.registry.handle? key = none) :
      Step shared client (.issued key (shared.registry.insert key regex).1)
        ((shared.withRegistry (shared.registry.insert key regex).2).withPhase client .idle)
  | get {handle} (hidle : shared.phase client = .idle) :
      Step shared client (.got handle (shared.registry.get handle)) shared
  | release {handle} (hidle : shared.phase client = .idle) :
      Step shared client (.released handle (shared.registry.release handle).1)
        (shared.withRegistry (shared.registry.release handle).2)

/-- What clients have done, the latest step first. -/
inductive Steps (start : SharedRegistry Client) :
    List (Client × Event) → SharedRegistry Client → Prop
  | refl : Steps start [] start
  | step {history shared client event next} (earlier : Steps start history shared)
      (last : Step shared client event next) : Steps start ((client, event) :: history) next

end SharedRegistry

end TextColumns
