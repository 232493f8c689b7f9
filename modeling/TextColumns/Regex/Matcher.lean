import TextColumns.Regex.Basic
import TextColumns.Search.Walk
import TextColumns.Text.Cursor

/-!
Matching texts one after the other with one memory for all searches.  Matches in a text are sought
one behind the other: after an empty match the search goes on one character further, and an empty
match at the end of the match before it is passed over.
-/

namespace TextColumns

open Search (Cache Mode Slots)
open Text (Cursor Extent)

namespace Search

/-- The extent of a capture group, the whole match being group 0. -/
def Slots.group? (slots : Slots) (k : Nat) : Option Extent :=
  match slots[2 * k]?, slots[2 * k + 1]? with
  | some (some start), some (some stop) => some ⟨start, stop⟩
  | _, _ => none

def Slots.groups (slots : Slots) : List (Option Extent) :=
  (List.range (slots.size / 2)).map slots.group?

end Search

structure Matcher where
  program : Program
  cache : Cache
  /-- The slots of the latest match. -/
  slots : Slots
  deriving Inhabited

namespace Matcher

def ofProgram (program : Program) : Matcher :=
  ⟨program, .ofProgram program, Array.replicate program.slots none⟩

/-- The slots of the match that a search finds, and the matcher for the next one.  A search that
leaves the program finds nothing. -/
def run (matcher : Matcher) (mode : Mode) (cursor : Cursor) : Option Slots × Matcher :=
  match matcher with
  | ⟨program, cache, slots⟩ =>
    match Search.search program mode cache cursor slots with
    | some (matched, slots, cache) =>
      (if matched then some slots else none, ⟨program, cache, slots⟩)
    | none => (none, ofProgram program)

def isMatch (matcher : Matcher) (text : String) : Bool × Matcher :=
  let (found, matcher) := matcher.run ⟨false, true⟩ (.start text)
  (found.isSome, matcher)

def isMatchAtStart (matcher : Matcher) (text : String) : Bool × Matcher :=
  let (found, matcher) := matcher.run ⟨true, true⟩ (.start text)
  (found.isSome, matcher)

def capturesFrom (matcher : Matcher) (cursor : Cursor) : Option Slots × Matcher :=
  matcher.run ⟨false, false⟩ cursor

def findFrom (matcher : Matcher) (cursor : Cursor) : Option Extent × Matcher :=
  let (found, matcher) := matcher.capturesFrom cursor
  (found.bind (·.group? 0), matcher)

/-- Where the search goes on behind a match that ends at the cursor `stop`: one character further
if the match was empty. -/
def resume? (emptyMatch : Bool) (stop : Cursor) : Option Cursor :=
  if emptyMatch then stop.next?.map (·.2) else some stop

/-- Visits the matches from the cursor on, until a visit is the last one.  `lastStop` is the end of
the match before.  There is no answer if the loop is not done after so many rounds. -/
def visitFrom? (visit : β → Slots → ForInStep β) :
    Nat → Matcher → Cursor → Option Nat → β → Option (β × Matcher)
  | 0, _, _, _, _ => none
  | rounds + 1, matcher, cursor, lastStop, state =>
    match matcher.capturesFrom cursor with
    | (none, matcher) => some (state, matcher)
    | (some slots, matcher) =>
      match slots.group? 0 with
      | none => some (state, matcher)
      | some extent =>
        let emptyMatch := extent.start == extent.stop
        let repeated := emptyMatch && lastStop == some extent.stop
        match if repeated then .yield state else visit state slots with
        | .done state => some (state, matcher)
        | .yield state =>
          match resume? emptyMatch (cursor.seek extent.stop) with
          | none => some (state, matcher)
          | some next =>
            let lastStop := if repeated then lastStop else some extent.stop
            visitFrom? visit rounds matcher next lastStop state

/-- A loop over a text that goes on by a character in each round is done after these rounds. -/
def visitMatches? (visit : β → Slots → ForInStep β) (matcher : Matcher) (text : String)
    (state : β) : Option (β × Matcher) :=
  visitFrom? visit (text.length + 1) matcher (.start text) none state

/-- Visits the matches in a text.  What a loop that is not done would give does not matter. -/
def visitMatches (visit : β → Slots → ForInStep β) (matcher : Matcher) (text : String)
    (state : β) : β × Matcher :=
  (visitMatches? visit matcher text state).getD (state, ofProgram matcher.program)

def keep (limit : Option Nat) (found : Array Slots) (slots : Slots) :
    ForInStep (Array Slots) :=
  let found := found.push slots
  if limit.any (· ≤ found.size) then .done found else .yield found

/-- The slots of the matches in a text.  The search stops at the match that reaches the limit, so
there is one match even for a limit of zero. -/
def matchesUpTo (matcher : Matcher) (limit : Option Nat) (text : String) :
    Array Slots × Matcher :=
  matcher.visitMatches (keep limit) text #[]

/-- The extents of the matches in a text, at most as many as the limit says. -/
def findAll (matcher : Matcher) (limit : Option Nat) (text : String) : List Extent × Matcher :=
  if limit == some 0 then ([], matcher)
  else
    let (found, matcher) := matcher.matchesUpTo limit text
    (found.toList.filterMap (·.group? 0), matcher)

def countMatches (matcher : Matcher) (text : String) : Nat × Matcher :=
  matcher.visitMatches (fun n _ => .yield (n + 1)) text 0

end Matcher

namespace Regex

def matcher (regex : Regex) : Matcher :=
  .ofProgram regex.program

def find (regex : Regex) (text : String) : Option Extent :=
  (regex.matcher.findFrom (.start text)).1

def captures (regex : Regex) (text : String) : Option (List (Option Extent)) :=
  (regex.matcher.capturesFrom (.start text)).1.map (·.groups)

end Regex

end TextColumns
