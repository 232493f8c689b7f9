import TextColumns.Store.Build
import TextColumns.Basic

namespace TextColumns.Transform

def joinedDraft (separator left right : String) : Draft :=
  ⟨left.utf8ByteSize + separator.utf8ByteSize + right.utf8ByteSize, fun writer =>
    ((writer.pushText left).pushText separator).pushText right⟩

/-- Joins two elements; nothing when either is missing. -/
def joinedDraft? (separator : String) (left right : Option String) : Option Draft :=
  match left, right with
  | some left, some right => some (joinedDraft separator left right)
  | _, _ => none

def joinRows (left right : Store) (separator : String) : Result Store :=
  if left.size ≠ right.size then .error (.rowCounts .concat left.size right.size)
  else
    Store.build <|
      left.texts.toList.zipWith (joinedDraft? separator) right.texts.toList

def writeSeparated (separator : String) (writer : Writer) (texts : List String) : Writer :=
  texts.foldl (fun writer text => (writer.pushText separator).pushText text) writer

/-- Writes texts with a separator between any two of them. -/
def writeJoined (separator : String) (writer : Writer) : List String → Writer
  | [] => writer
  | first :: rest => writeSeparated separator (writer.pushText first) rest

/-- All elements of a store as one, those that are missing passed over. -/
def joinAllDraft (store : Store) (separator : String) : Draft :=
  let count := store.size - store.nullCount
  ⟨Word.wrap (store.valueBytes + separator.utf8ByteSize * (count - 1)), fun writer =>
    writeJoined separator writer (store.texts.toList.filterMap id)⟩

def joinAll (store : Store) (separator : String) : Result Store :=
  Store.build [some (joinAllDraft store separator)]

end TextColumns.Transform
