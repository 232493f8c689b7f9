import TextColumns.Scatter
import TextColumns.Store.Build

/-!
Workers that fill the elements of a store.  The buffer is cut into one range for each element, and
each range is handed to a worker that writes it and then tests what it has written.  The workers
take their steps in any order; all that they share is the least element so far that is no text.
-/

namespace TextColumns.Store

/-- A range into which nothing has been written yet. -/
def zeros (size : Nat) : ByteArray :=
  ⟨Array.replicate size 0⟩

/-- What is asked for when a store is built: the number of elements, the size of each that is not
missing, and what is written into its range. -/
structure Request where
  count : Nat
  size : Nat → Option Nat
  write : Nat → ByteArray → ByteArray
  /-- Whatever is written into a range, it keeps its size. -/
  size_write : ∀ row range, (write row range).size = range.size

namespace Request

def element? (request : Request) (row : Nat) : Option ByteArray :=
  (request.size row).map fun size => request.write row (zeros size)

def draft? (request : Request) (row : Nat) : Option Draft :=
  (request.size row).map fun size =>
    ⟨size, fun writer => writer.push (request.write row (zeros size))⟩

def drafts (request : Request) : List (Option Draft) :=
  (List.range request.count).map request.draft?

/-- The size of the range for an element; a missing one is given an empty range. -/
def rangeSize (request : Request) (row : Nat) : Nat :=
  (request.size row).getD 0

def start (request : Request) (row : Nat) : Nat :=
  total ((List.range row).map request.rangeSize)

def bufferSize (request : Request) : Nat :=
  request.start request.count

/-- The number of missing elements, counted where their sizes are asked for. -/
def nullCount (request : Request) : Nat :=
  (List.range request.count).countP fun row => (request.size row).isNone

def cells (request : Request) : Array Cell :=
  ((List.range request.count).map fun row => ⟨request.start row, request.size row⟩).toArray

end Request

/-- One step of the worker that has been given the range for an element. -/
inductive FillEvent where
  /-- Nothing is written for a missing element. -/
  | skipped (row : Nat)
  | wrote (row : Nat)
  | tested (row : Nat)
  deriving DecidableEq

structure Workers where
  buffer : ByteArray
  /-- The least element so far that was found to be no text. -/
  least : Option Nat
  /-- The elements whose ranges have not been handed out yet. -/
  waiting : List Nat
  /-- The elements that have been written, but not tested yet. -/
  written : List Nat

namespace Workers

def initial (request : Request) : Workers :=
  ⟨zeros request.bufferSize, none, List.range request.count, []⟩

def range (workers : Workers) (request : Request) (row : Nat) : ByteArray :=
  workers.buffer.extract (request.start row) (request.start row + request.rangeSize row)

def overwrite (bytes : ByteArray) (start : Nat) (part : ByteArray) : ByteArray :=
  bytes.extract 0 start ++ part ++ bytes.extract (start + part.size) bytes.size

def fill (workers : Workers) (request : Request) (row : Nat) : ByteArray :=
  overwrite workers.buffer (request.start row) (request.write row (workers.range request row))

def lower (least : Option Nat) (row : Nat) : Option Nat :=
  some (least.elim row (min row))

inductive Step (request : Request) (workers : Workers) : FillEvent → Workers → Prop
  | skip {row : Nat} (hwaiting : row ∈ workers.waiting) (hsize : request.size row = none) :
      Step request workers (.skipped row)
        { workers with waiting := workers.waiting.erase row }
  | write {row : Nat} (hwaiting : row ∈ workers.waiting) (hsize : request.size row ≠ none) :
      Step request workers (.wrote row)
        { workers with
          buffer := workers.fill request row
          waiting := workers.waiting.erase row
          written := row :: workers.written }
  | test {row : Nat} (hwritten : row ∈ workers.written) :
      Step request workers (.tested row)
        { workers with
          least := if (workers.range request row).validateUTF8 then workers.least
            else lower workers.least row
          written := workers.written.erase row }

/-- What workers have done, the latest step first. -/
inductive Steps (request : Request) : List FillEvent → Workers → Prop
  | initial : Steps request [] (initial request)
  | step {history : List FillEvent} {workers next : Workers} {event : FillEvent}
      (earlier : Steps request history workers) (last : Step request workers event next) :
      Steps request (event :: history) next

/-- What the build comes to once the workers are done. -/
def result (workers : Workers) (request : Request) : Result Store :=
  match workers.least with
  | some row => .error (.writtenNotUtf8 row)
  | none => .ok ⟨⟨workers.buffer, none⟩, request.cells, request.nullCount⟩

end Workers

namespace FillEvent

/-- The element whose range is handed out. -/
def handed? : FillEvent → Option Nat
  | .skipped row | .wrote row => some row
  | .tested _ => none

def tested? : FillEvent → Option Nat
  | .tested row => some row
  | .skipped _ | .wrote _ => none

def handedRows (history : List FillEvent) : List Nat :=
  history.filterMap handed?

def testedRows (history : List FillEvent) : List Nat :=
  history.filterMap tested?

end FillEvent

end TextColumns.Store
