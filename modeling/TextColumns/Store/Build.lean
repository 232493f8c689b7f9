import TextColumns.PrefixSum
import TextColumns.Store.Basic
import TextColumns.Store.Writer

/-!
Building stores in two passes.  Every element is drafted with the bytes that it will need; the
prefix sums of these sizes lay out the buffer, and then each element is written into its own
range.  All sizes are checked before anything is written.
-/

namespace TextColumns

/-- An element to be written: its size, and what writes it into a range of that size. -/
structure Draft where
  size : Nat
  write : Writer → Writer

namespace Draft

def ofBytes (bytes : ByteArray) : Draft :=
  ⟨bytes.size, fun writer => writer.push bytes⟩

def ofText (text : String) : Draft :=
  ofBytes text.toByteArray

def written (draft : Draft) : Writer :=
  draft.write (Writer.ofCapacity draft.size)

end Draft

namespace Store

def maxElementSize : Nat := maxInt32

def maxBufferSize : Nat := 9223372036854775807

/-- The sizes of the drafts behind the sizes so far, and the number of missing elements, when none
of the drafts is too long; otherwise the first that is.  A missing element has no size. -/
def sizing (row : Nat) (sizes : Array Nat) (nullCount : Nat) :
    List (Option Draft) → Except (Nat × Nat) (Array Nat × Nat)
  | [] => .ok (sizes, nullCount)
  | none :: rest => sizing (row + 1) (sizes.push 0) (nullCount + 1) rest
  | some draft :: rest =>
    if maxElementSize < draft.size then .error (row, draft.size)
    else sizing (row + 1) (sizes.push draft.size) nullCount rest

/-- The buffer while it is filled, and the first elements that went wrong. -/
structure Filling where
  bytes : ByteArray
  overrun : Option Nat
  notUtf8 : Option Nat

/-- Writes the element at `row` behind the bytes so far.  It is overrun when text did not fit, or
when its range comes back with another size. -/
def Filling.add (filling : Filling) (row : Nat) (draft : Draft) : Filling :=
  match filling with
  | ⟨bytes, overrun, notUtf8⟩ =>
    let writer := draft.written
    let range := writer.range 0
    let beyond := writer.overrun || range.size != draft.size
    ⟨bytes ++ range, overrun <|> (if beyond then some row else none),
      notUtf8 <|> (if range.validateUTF8 then none else some row)⟩

def fill (filling : Filling) (row : Nat) : List (Option Draft) → Filling
  | [] => filling
  | none :: rest => fill filling (row + 1) rest
  | some draft :: rest => fill (filling.add row draft) (row + 1) rest

def layOut (drafts : List (Option Draft)) (starts : Array Nat) : Array Cell :=
  starts.zipWith (fun start draft => ⟨start, draft.map (·.size)⟩) drafts.toArray

/-- Lays out the buffer by the sizes of the drafts and writes them. -/
def placed (drafts : List (Option Draft)) (sizes : Array Nat) (nullCount : Nat) : Result Store :=
  match PrefixSum.exclusive PrefixSum.workers sizes with
  | .error e => .error e
  | .ok (starts, total) =>
    if maxBufferSize < total then .error (.storeTooLarge total)
    else
      let filling := fill ⟨ByteArray.empty, none, none⟩ 0 drafts
      match filling.overrun, filling.notUtf8 with
      | some row, _ => .error (.writtenBeyond row)
      | none, some row => .error (.writtenNotUtf8 row)
      | none, none => .ok ⟨⟨filling.bytes, none⟩, layOut drafts starts, nullCount⟩

def build (drafts : List (Option Draft)) : Result Store :=
  match sizing 0 #[] 0 drafts with
  | .error (row, size) => .error (.elementTooLong row size maxElementSize)
  | .ok (sizes, nullCount) => placed drafts sizes nullCount

def ofTexts (texts : List (Option String)) : Result Store :=
  build (texts.map (·.map Draft.ofText))

def transform (store : Store) (draft : String → Draft) : Result Store :=
  build (store.texts.toList.map (·.map draft))

/-- The least request of bytes that can never be met. -/
def allocationLimit : Nat := 9223372036854775808

def allocateWords (count : Nat) : Result Nat :=
  if allocationLimit ≤ 8 * count then .error (.cannotAllocate (8 * count)) else .ok count

end Store

end TextColumns
