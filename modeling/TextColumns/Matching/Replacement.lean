import TextColumns.Matching.Rows
import TextColumns.Matching.Template
import TextColumns.Store.Build
import TextColumns.Basic

/-! Replacing the matches in texts, by a text or by what a template makes of their groups. -/

namespace TextColumns.Matching

open Search (Slots)
open Text (Extent)

/-- Writes a text with a replacement for each of the matches, which are given in order. -/
def writeReplaced (bytes : ByteArray) (replacement : String) (start : Nat) (writer : Writer) :
    List Extent → Writer
  | [] => writer.push (bytes.extract start bytes.size)
  | extent :: rest =>
    let writer := (writer.push (bytes.extract start extent.start)).pushText replacement
    writeReplaced bytes replacement extent.stop writer rest

def replaceDraft (replacement text : String) (found : List Extent) : Draft :=
  ⟨Word.wrap (Word.difference text.utf8ByteSize (total (found.map Extent.size)) +
      found.length * replacement.utf8ByteSize), fun writer =>
    writeReplaced text.toByteArray replacement 0 writer found⟩

/-- Drafts for elements of which something has been found, row by row. -/
def drafts (store : Store) (found : List (Option β)) (draft : String → β → Draft) :
    List (Option Draft) :=
  store.texts.toList.zipWith (fun text found =>
    match text, found with
    | some text, some found => some (draft text found)
    | _, _ => none) found

/-- Every element with its matches replaced by a text, up to a limit of matches. -/
def replace (store : Store) (regex : Regex) (replacement : String) (limit : Option Nat) :
    Result Store :=
  if limit == some 0 then .ok store
  else
    Store.build (drafts store (extents store regex limit) (replaceDraft replacement))

abbrev Groups := List (Option Extent)

def Groups.get (groups : Groups) (k : Nat) : Option Extent :=
  groups[k]?.getD none

namespace Template

def pieceSize (groups : Groups) : Piece → Nat
  | .char c => c.utf8Size
  | .group k => ((Groups.get groups k).map Extent.size).getD 0

def size (template : Template) (groups : Groups) : Nat :=
  total (template.map (pieceSize groups))

def writePiece (bytes : ByteArray) (groups : Groups) (writer : Writer) : Piece → Writer
  | .char c => writer.pushChar c
  | .group k =>
    match Groups.get groups k with
    | some extent => writer.push (bytes.extract extent.start extent.stop)
    | none => writer

def write (template : Template) (bytes : ByteArray) (groups : Groups) (writer : Writer) :
    Writer :=
  template.foldl (writePiece bytes groups) writer

def parse (text : String) (groups : Nat) : Result Template :=
  match parseFrom groups text.utf8ByteSize text.toList with
  | .ok template => .ok template
  | .error fault => .error (.template fault)

end Template

def writeExpanded (template : Template) (bytes : ByteArray) (start : Nat) (writer : Writer) :
    List Groups → Writer
  | [] => writer.push (bytes.extract start bytes.size)
  | groups :: rest =>
    match Groups.get groups 0 with
    | none => writeExpanded template bytes start writer rest
    | some extent =>
      let writer := writer.push (bytes.extract start extent.start)
      writeExpanded template bytes extent.stop (template.write bytes groups writer) rest

/-- The size of a text so far with one more match replaced. -/
def expandedSize (template : Template) (size : Nat) (groups : Groups) : Nat :=
  Word.wrap (Word.difference size (((Groups.get groups 0).map Extent.size).getD 0) +
    template.size groups)

def expandDraft (template : Template) (text : String) (found : List Groups) : Draft :=
  ⟨found.foldl (expandedSize template) (Word.wrap text.utf8ByteSize), fun writer =>
    writeExpanded template text.toByteArray 0 writer found⟩

/-- The groups of the matches in a text, up to a limit of at least one. -/
def groupsOfMatches (limit : Option Nat) (matcher : Matcher) (text : String) :
    List Groups × Matcher :=
  let (found, matcher) := matcher.matchesUpTo limit text
  (found.toList.map (·.groups), matcher)

/-- Every element with its matches replaced as a template says, up to a limit of matches. -/
def replaceByTemplate (store : Store) (regex : Regex) (template : String)
    (limit : Option Nat) : Result Store :=
  match Template.parse template regex.groupCount with
  | .error e => .error e
  | .ok template =>
    if limit == some 0 then .ok store
    else
      Store.build
        (drafts store (mapRows store regex (groupsOfMatches limit)) (expandDraft template))

end TextColumns.Matching
