import TextColumns.Measure.Kind
import TextColumns.Number.Decimal
import TextColumns.Error
import TextColumns.Store.Build

/-!
Numbers taken from texts: positions, counts and sizes, and the numbers that they spell.  Integers
are written as texts again.
-/

namespace TextColumns.Measure

def notFound : Int := -1

def numbers [Inhabited α] (store : Store) (f : String → Option α) : Column α :=
  .ofOptions (store.texts.map fun text => text.bind f)

def counts (store : Store) (f : String → Nat) : Column Int :=
  numbers store fun text => some (toInt32 (f text))

def positions (store : Store) (f : String → Option Nat) : Column Int :=
  numbers store fun text =>
    match f text with
    | some position => some (toInt32 position)
    | none => some notFound

def find (store : Store) (needle : String) : Column Int :=
  let needle := Text.Needle.ofText needle
  positions store fun text => Text.find text needle

def findLast (store : Store) (needle : String) : Column Int :=
  let needle := Text.Needle.ofText needle
  positions store fun text => Text.findLast text needle

def count (store : Store) (needle : String) : Column Int :=
  let needle := Text.Needle.ofText needle
  counts store fun text => Text.count text needle

def charLength (store : Store) : Column Int :=
  counts store Text.charCount

def byteLength (store : Store) : Column Int :=
  counts store String.utf8ByteSize

def contains (store : Store) (needle : String) : Column Bool :=
  let needle := Text.Needle.ofText needle
  answers store fun text => Text.contains text needle

def startsWith (store : Store) (needle : String) : Column Bool :=
  let needle := Text.Needle.ofText needle
  answers store fun text => Text.startsWith text needle

def endsWith (store : Store) (needle : String) : Column Bool :=
  let needle := Text.Needle.ofText needle
  answers store fun text => Text.endsWith text needle

def integers (store : Store) (kind : Number.IntegerKind) : Column Int :=
  numbers store (Number.readInteger kind 10)

def integersInRadix (store : Store) (kind : Number.IntegerKind) (radix : Nat) :
    Result (Column Int) :=
  if 2 ≤ radix && radix ≤ 36 then .ok (numbers store (Number.readInteger kind radix))
  else .error (.badRadix radix)

/-- A store of the texts of integers, missing where the column is. -/
def writtenIntegers (column : Column Int) : Result Store :=
  Store.ofTexts (column.toOptions.toList.map (·.map Number.writeInteger))

def floats (store : Store) (format : Number.BinaryFormat) : Column Nat :=
  numbers store (Number.readFloat format)

/-- A column of the hashes of the elements, which a function of their bytes gives. -/
def hashes (hash : ByteArray → UInt64) (store : Store) : Column UInt64 :=
  numbers store fun text => some (hash text.toByteArray)

end TextColumns.Measure
