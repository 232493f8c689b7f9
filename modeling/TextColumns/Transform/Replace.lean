import TextColumns.Store.Build
import TextColumns.Text.Cursor
import TextColumns.Basic
import Std.Data.HashMap.Lemmas

namespace TextColumns.Transform

def replacedPlaces (target : Text.Needle) (limit : Option Nat) (text : String) : List Nat :=
  Text.upTo limit (Text.occurrences text.toByteArray target)

/-- Writes the bytes from `last` on, with the replacement for `size` bytes at each place. -/
def writeReplaced (bytes : ByteArray) (size : Nat) (replacement : String) (last : Nat)
    (writer : Writer) : List Nat → Writer
  | [] => writer.push (bytes.extract last bytes.size)
  | place :: rest =>
    let writer := (writer.push (bytes.extract last place)).pushText replacement
    writeReplaced bytes size replacement (place + size) writer rest

def replaceDraft (target : Text.Needle) (replacement : String) (limit : Option Nat)
    (text : String) : Draft :=
  let places := replacedPlaces target limit text
  ⟨Word.wrap (Word.difference text.utf8ByteSize (places.length * target.bytes.size) +
      places.length * replacement.utf8ByteSize), fun writer =>
    writeReplaced text.toByteArray target.bytes.size replacement 0 writer places⟩

/-- Every element with occurrences of a text replaced, from left to right.  The empty text is
never replaced. -/
def replace (store : Store) (target replacement : String) (limit : Option Nat) :
    Result Store :=
  if target.isEmpty || limit == some 0 then .ok store
  else store.transform (replaceDraft (.ofText target) replacement limit)

def repeatLimit : Nat := 1000000

def repeatDraft (times : Nat) (text : String) : Draft :=
  ⟨Word.saturate (text.utf8ByteSize * times), fun writer =>
    if text.isEmpty then writer else writer.pushCopies text times⟩

def repeatTexts (store : Store) (times : Nat) : Result Store :=
  if repeatLimit < times then .error (.tooManyRepeats times repeatLimit)
  else store.transform (repeatDraft times)

abbrev CharTable := List (Char × Option Char)

/-- The code points of the characters that change, with what is put in their place. -/
abbrev CharMap := Std.HashMap Nat (Option Char)

/-- The last entry for a character counts. -/
def CharMap.ofTable (table : CharTable) : CharMap :=
  table.foldl (fun map entry => map.insert entry.1.toNat entry.2) ∅

theorem CharMap.getElem?_ofTable_append (table : CharTable) (c key : Char)
    (target : Option Char) :
    (CharMap.ofTable (table ++ [(key, target)]))[c.toNat]?
      = if key = c then some target else (CharMap.ofTable table)[c.toNat]? := by
  simp [CharMap.ofTable, Std.HashMap.getElem?_insert, Char.toNat_inj]

def CharMap.apply (map : CharMap) (c : Char) : Option Char :=
  map[c.toNat]?.getD (some c)

def mappedChars (map : CharMap) (text : String) : List Char :=
  text.toList.filterMap map.apply

def mapCharsDraft (map : CharMap) (text : String) : Draft :=
  ⟨Text.sizeOf (mappedChars map text), fun writer =>
    (mappedChars map text).foldl Writer.pushChar writer⟩

/-- Every element with its characters replaced or left out as a table says. -/
def mapChars (store : Store) (table : CharTable) : Result Store :=
  let map := CharMap.ofTable table
  store.transform (mapCharsDraft map)

end TextColumns.Transform
