import TextColumns.Measure.Kind
import TextColumns.Pieces.ListColumn
import TextColumns.Regex.Matcher

/-!
Matching every element of a store with one pattern.  One matcher goes from row to row.
-/

namespace TextColumns.Matching

open Search (Slots)
open Text (Cursor Extent)

/-- The results for all elements, each found by the matcher that the one before left behind. -/
def mapTexts (matcher : Matcher) (f : Matcher → String → β × Matcher) :
    List (Option String) → List (Option β)
  | [] => []
  | none :: rest => none :: mapTexts matcher f rest
  | some text :: rest =>
    let (result, matcher) := f matcher text
    some result :: mapTexts matcher f rest

def mapRows (store : Store) (regex : Regex) (f : Matcher → String → β × Matcher) :
    List (Option β) :=
  mapTexts regex.matcher f store.texts.toList

def answers (store : Store) (rows : List (Option Bool)) : Column Bool where
  values := (rows.map (·.getD false)).toArray
  validity := store.validity

def contains (store : Store) (regex : Regex) : Column Bool :=
  answers store (mapRows store regex Matcher.isMatch)

def matchesStart (store : Store) (regex : Regex) : Column Bool :=
  answers store (mapRows store regex Matcher.isMatchAtStart)

/-- Position and length of a match, both in characters. -/
structure Found where
  position : Int
  length : Int
  deriving DecidableEq, Repr, Inhabited

abbrev FoundColumn := Column (Option Found)

def found (text : String) (extent : Extent) : Found :=
  let start := Text.charPosition text extent.start
  ⟨toInt32 start, toInt32 (Text.charPosition text extent.stop - start)⟩

def findMatch (matcher : Matcher) (text : String) : Option Found × Matcher :=
  let (extent, matcher) := matcher.findFrom (.start text)
  (extent.map (found text), matcher)

def find (store : Store) (regex : Regex) : FoundColumn where
  values := ((mapRows store regex findMatch).map (·.getD none)).toArray
  validity := store.validity

def count (store : Store) (regex : Regex) : Column Int where
  values := ((mapRows store regex Matcher.countMatches).map fun n =>
    toInt32 (n.getD 0)).toArray
  validity := store.validity

/-- The extents of the matches in each element, up to a limit. -/
def extents (store : Store) (regex : Regex) (limit : Option Nat) :
    List (Option (List Extent)) :=
  mapRows store regex fun matcher text => matcher.findAll limit text

def findAll (store : Store) (regex : Regex) : Result ListColumn :=
  ListColumn.ofExtents store (extents store regex none)

def between (size start : Nat) : List Extent → List Extent
  | [] => [⟨start, size⟩]
  | extent :: rest => ⟨start, extent.start⟩ :: between size extent.stop rest

/-- The pieces of each element between matches, up to a limit of matches. -/
def split (store : Store) (regex : Regex) (limit : Option Nat) : Result ListColumn :=
  let rows := (extents store regex limit).zipWith
    (fun found text => found.map (between ((text.map String.utf8ByteSize).getD 0) 0))
    store.texts.toList
  ListColumn.ofExtents store rows

def captureRow (matcher : Matcher) (text : String) :
    Option (List (Option Extent)) × Matcher :=
  let (slots, matcher) := matcher.capturesFrom (.start text)
  (slots.map (·.groups), matcher)

def groupSpan (k row : Nat) (groups : Option (Option (List (Option Extent)))) : Option Span :=
  match groups with
  | some (some groups) => (groups[k]?.getD none).map fun extent => ⟨row, extent.start, extent.stop⟩
  | _ => none

def extract (store : Store) (regex : Regex) : Result (List Store) :=
  if regex.groupCount = 0 then .error (.noGroups regex.pattern)
  else
    let rows := mapRows store regex captureRow
    .ok <| (List.range regex.groupCount).map fun k =>
      store.share (rows.mapIdx fun row groups => groupSpan (k + 1) row groups)

end TextColumns.Matching
