import TextColumns.Scatter

/-!
Workers that write values into chosen slots.  Each write has a worker of its own, which claims the
slot in one step and writes the value in another; the step that claims a slot also tells whether it
had been claimed before.  The workers take their steps in any order, and share the slots, the marks
and the number of writes without effect.
-/

namespace TextColumns

/-- One step of the worker for a write. -/
inductive ScatterEvent where
  /-- There is nothing to write. -/
  | passed (worker : Nat)
  /-- There is no such slot, or it has been claimed before. -/
  | refused (worker : Nat)
  | claimed (worker : Nat)
  | wrote (worker : Nat)
  deriving DecidableEq

namespace ScatterEvent

/-- The worker that takes its first step. -/
def begun? : ScatterEvent → Option Nat
  | .passed worker | .refused worker | .claimed worker => some worker
  | .wrote _ => none

def begunWorkers (history : List ScatterEvent) : List Nat :=
  history.filterMap begun?

/-- The writes whose workers have begun, the earliest first. -/
def begunWrites (writes : List (Option (Nat × α))) (history : List ScatterEvent) :
    List (Option (Nat × α)) :=
  (begunWorkers history).reverse.map fun worker => writes[worker]?.join

end ScatterEvent

structure Writers (α : Type) where
  slotted : Slotted α
  /-- The workers that have not begun. -/
  waiting : List Nat
  /-- The workers that have claimed their slots, but not written them yet. -/
  holding : List Nat

namespace Writers

def initial (values : Array α) (writes : List (Option (Nat × α))) : Writers α :=
  ⟨.ofValues values, List.range writes.length, []⟩

inductive Step (writes : List (Option (Nat × α))) (writers : Writers α) :
    ScatterEvent → Writers α → Prop
  | pass {worker : Nat} (hwaiting : worker ∈ writers.waiting)
      (hwrite : writes[worker]? = some none) :
      Step writes writers (.passed worker)
        { writers with waiting := writers.waiting.erase worker }
  | refuse {worker slot : Nat} {value : α} (hwaiting : worker ∈ writers.waiting)
      (hwrite : writes[worker]? = some (some (slot, value)))
      (hclosed : writers.slotted.claimed[slot]? ≠ some false) :
      Step writes writers (.refused worker)
        { writers with
          slotted := { writers.slotted with dropped := writers.slotted.dropped + 1 }
          waiting := writers.waiting.erase worker }
  | claim {worker slot : Nat} {value : α} (hwaiting : worker ∈ writers.waiting)
      (hwrite : writes[worker]? = some (some (slot, value)))
      (hopen : writers.slotted.claimed[slot]? = some false) :
      Step writes writers (.claimed worker)
        { slotted :=
            { writers.slotted with claimed := writers.slotted.claimed.setIfInBounds slot true }
          waiting := writers.waiting.erase worker
          holding := worker :: writers.holding }
  | write {worker slot : Nat} {value : α} (hholding : worker ∈ writers.holding)
      (hwrite : writes[worker]? = some (some (slot, value))) :
      Step writes writers (.wrote worker)
        { writers with
          slotted :=
            { writers.slotted with values := writers.slotted.values.setIfInBounds slot value }
          holding := writers.holding.erase worker }

/-- What workers have done, the latest step first. -/
inductive Steps (values : Array α) (writes : List (Option (Nat × α))) :
    List ScatterEvent → Writers α → Prop
  | initial : Steps values writes [] (initial values writes)
  | step {history : List ScatterEvent} {writers next : Writers α} {event : ScatterEvent}
      (earlier : Steps values writes history writers) (last : Step writes writers event next) :
      Steps values writes (event :: history) next

end Writers

end TextColumns
