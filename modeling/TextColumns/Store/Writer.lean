/-!
Writing into a range of bytes of a fixed size.  Text that does not fit marks the writer as overrun
and is not written.
-/

namespace TextColumns

structure Writer where
  capacity : Nat
  written : ByteArray
  overrun : Bool

namespace Writer

def ofCapacity (capacity : Nat) : Writer :=
  ⟨capacity, ByteArray.empty, false⟩

def push (writer : Writer) (bytes : ByteArray) : Writer :=
  match writer with
  | ⟨capacity, written, overrun⟩ =>
    if overrun then ⟨capacity, written, true⟩
    else if written.size + bytes.size ≤ capacity then ⟨capacity, written ++ bytes, false⟩
    else ⟨capacity, written, true⟩

def pushText (writer : Writer) (text : String) : Writer :=
  writer.push text.toByteArray

def pushChar (writer : Writer) (c : Char) : Writer :=
  writer.pushText c.toString

def pushCopies (writer : Writer) (text : String) : Nat → Writer
  | 0 => writer
  | n + 1 => (writer.pushText text).pushCopies text n

/-- Writes a character a number of times, or nothing when not all of them fit. -/
def pushChars (writer : Writer) (c : Char) (n : Nat) : Writer :=
  if writer.written.size + n * c.utf8Size ≤ writer.capacity then
    writer.pushCopies c.toString n
  else
    { writer with overrun := true }

def isFull (writer : Writer) : Bool :=
  !writer.overrun && writer.written.size == writer.capacity

/-- The whole range, with a byte of the given value wherever nothing has been written. -/
def range (writer : Writer) (background : UInt8) : ByteArray :=
  (List.range (writer.capacity - writer.written.size)).foldl
    (fun bytes _ => bytes.push background) writer.written

end Writer

end TextColumns
