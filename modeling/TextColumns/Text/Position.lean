import TextColumns.Text.Cursor
import TextColumns.Text.Occurrence
import TextColumns.Unicode.CaseMapping

/-!
Positions in texts, counted in characters, and the byte offsets that belong to them.  A position
beyond the end of a text is taken as its end.
-/

namespace TextColumns.Text

def between (text : String) (start stop : Nat) : String :=
  ((String.fromUTF8? (text.toByteArray.extract start stop)).getD "")

def isAscii (text : String) : Bool :=
  text.toList.all Unicode.isAscii

/-- The number of characters, counted by leading bytes. -/
def charCount (text : String) : Nat :=
  leadsBefore text.toByteArray text.utf8ByteSize

def prefixSize : List Char → (position : Nat) → Nat
  | [], _ => 0
  | _ :: _, 0 => 0
  | c :: rest, position + 1 => c.utf8Size + prefixSize rest position

def byteOffset (text : String) (position : Nat) : Nat :=
  if isAscii text then min position text.utf8ByteSize
  else prefixSize text.toList position

def charPosition (text : String) (offset : Nat) : Nat :=
  leadsBefore text.toByteArray (min offset text.utf8ByteSize)

/-- The bytes of the `length` characters from `start` on, or of all of them. -/
def charSpan (text : String) (start : Nat) (length : Option Nat) : Extent :=
  let first := byteOffset text start
  match length with
  | some n => ⟨first, first + byteOffset (between text first text.utf8ByteSize) n⟩
  | none => ⟨first, text.utf8ByteSize⟩

def substring (text : String) (start : Nat) (length : Option Nat) : String :=
  let span := charSpan text start length
  between text span.start span.stop

def charAt? (text : String) (offset : Nat) : Option Char :=
  (Cursor.at? text offset).bind fun cursor => cursor.rest.head?

def charBefore? (text : String) (offset : Nat) : Option Char :=
  (Cursor.at? text offset).bind fun cursor => cursor.before

def charStarts (offset : Nat) : List Char → List Nat
  | [] => []
  | c :: rest => offset :: charStarts (offset + c.utf8Size) rest

def findOffset (text : String) (needle : Needle) : Option Nat :=
  findBytes text.toByteArray needle

def find (text : String) (needle : Needle) : Option Nat :=
  (findOffset text needle).map (charPosition text)

def findLast (text : String) (needle : Needle) : Option Nat :=
  (findLastBytes text.toByteArray needle).map (charPosition text)

def contains (text : String) (needle : Needle) : Bool :=
  (findOffset text needle).isSome

def startsWith (text : String) (needle : Needle) : Bool :=
  startsWithBytes text.toByteArray needle.bytes

def endsWith (text : String) (needle : Needle) : Bool :=
  endsWithBytes text.toByteArray needle.bytes

/-- The number of occurrences that do not overlap.  The empty text occurs at every position. -/
def count (text : String) (needle : Needle) : Nat :=
  if needle.bytes.isEmpty then charCount text + 1
  else (occurrences text.toByteArray needle).length

def compare (a b : String) : Ordering :=
  compareBytes a.toByteArray b.toByteArray

/-- The order of texts by their bytes, with a missing text below all others. -/
def compareOptional : Option String → Option String → Ordering
  | none, none => .eq
  | none, some _ => .lt
  | some _, none => .gt
  | some a, some b => compare a b

end TextColumns.Text
