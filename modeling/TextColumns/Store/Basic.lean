import TextColumns.Text.Position
import TextColumns.Text.Quoted
import TextColumns.Basic
import TextColumns.Validity

/-!
Stores of texts.  A store is a buffer of bytes and a table that has, for every element, the place
of its bytes in the buffer.  Stores may share a buffer, and elements may share bytes.
-/

namespace TextColumns

/-- Bytes that several stores may share.  The label tells buffers apart; whoever keeps a store
chooses it. -/
structure Buffer where
  bytes : ByteArray
  label : Option Nat
  deriving Inhabited

/-- The place of an element.  A missing element has no length; its offset is the one at which the
element before it starts, or would end. -/
structure Cell where
  offset : Nat
  length : Option Nat
  deriving DecidableEq, Repr, Inhabited

structure Store where
  buffer : Buffer
  cells : Array Cell
  /-- The number of missing elements. -/
  nullCount : Nat
  deriving Inhabited

/-- Bytes of an element, by offsets within it. -/
structure Span where
  row : Nat
  start : Nat
  stop : Nat
  deriving DecidableEq, Repr

namespace Store

def size (store : Store) : Nat :=
  store.cells.size

def cellBytes (store : Store) (cell : Cell) : Option ByteArray :=
  cell.length.map fun length => store.buffer.bytes.extract cell.offset (cell.offset + length)

def bytes? (store : Store) (row : Nat) : Option ByteArray :=
  store.cells[row]?.bind store.cellBytes

def cellText (store : Store) (cell : Cell) : Option String :=
  (store.cellBytes cell).map fun bytes => (String.fromUTF8? bytes).getD ""

def text? (store : Store) (row : Nat) : Option String :=
  store.cells[row]?.bind store.cellText

def texts (store : Store) : Array (Option String) :=
  store.cells.map store.cellText

def countNulls (cells : Array Cell) : Nat :=
  cells.countP fun cell => cell.length.isNone

def ofCells (buffer : Buffer) (cells : Array Cell) : Store :=
  ⟨buffer, cells, countNulls cells⟩

def nulls (count : Nat) : Store where
  buffer := ⟨ByteArray.empty, none⟩
  cells := Array.replicate count ⟨0, none⟩
  nullCount := count

def validity (store : Store) : Validity :=
  if store.nullCount = 0 then none
  else Validity.ofMarks (store.cells.map fun cell => cell.length.isSome)

/-- The bytes of all elements together, shared bytes counted for each element. -/
def valueBytes (store : Store) : Nat :=
  total (store.cells.toList.map fun cell => cell.length.getD 0)

def sharesBuffer (a b : Store) : Bool :=
  a.buffer.label.isSome && a.buffer.label == b.buffer.label

/-- Cells for parts of elements behind the cells so far, and the number of missing elements.
`cursor` is the offset for an element that is missing. -/
def shareFrom (store : Store) (cells : Array Cell) (nullCount cursor : Nat) :
    List (Option Span) → Array Cell × Nat
  | [] => (cells, nullCount)
  | none :: rest => store.shareFrom (cells.push ⟨cursor, none⟩) (nullCount + 1) cursor rest
  | some span :: rest =>
    let offset := (store.cells[span.row]?.getD default).offset + span.start
    store.shareFrom (cells.push ⟨offset, some (span.stop - span.start)⟩) nullCount offset rest

/-- Parts of elements as a store over the same buffer. -/
def share (store : Store) (spans : List (Option Span)) : Store :=
  let (cells, nullCount) := store.shareFrom #[] 0 0 spans
  ⟨store.buffer, cells, nullCount⟩

/-- Equality of the elements, wherever their bytes are. -/
def sameTexts (a b : Store) : Bool :=
  a.size == b.size &&
    (List.range a.size).all fun row => Text.compareOptional (a.text? row) (b.text? row) == .eq

def elementListing : Option String → String
  | some text => "Some(" ++ Text.quoted text ++ ")"
  | none => "None"

def listing (store : Store) : String :=
  "CharacterStore \x7b len: " ++ toString store.size ++ ", null_count: " ++
    toString store.nullCount ++ ", values: [" ++
    ", ".intercalate (store.texts.toList.map elementListing) ++ "] \x7d"

end Store

end TextColumns
