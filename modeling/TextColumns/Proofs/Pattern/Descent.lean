import TextColumns.Pattern.Parse
import TextColumns.Text.Cursor

/-!
Reading patterns by bytes.  Here the reader calls itself for what stands in parentheses, and knows
only the offset at which it is: it cuts the text there whenever it looks ahead, and steps over
characters that it knows by as many bytes as they have.
-/

namespace TextColumns.Pattern

open Text (Cursor)

structure Place where
  offset : Nat
  /-- The number of groups that capture so far. -/
  groups : Nat
  /-- The number of groups that are open. -/
  depth : Nat

/-- What is read from a place on.  There is no result at all when the text is cut in the middle of
a character, or when a loop has used up its rounds. -/
def Reading (α : Type) :=
  Place → Option (Except Malformed (α × Place))

namespace Reading

protected def bind (reading : Reading α) (next : α → Reading β) : Reading β := fun place =>
  match reading place with
  | none => none
  | some (.error e) => some (.error e)
  | some (.ok (a, place)) => next a place

instance : Monad Reading where
  pure a := fun place => some (.ok (a, place))
  bind := Reading.bind

def lost : Reading α := fun _ => none

def fail (position : Nat) (fault : Fault) : Reading α := fun _ => some (malformed position fault)

def here : Reading Place := fun place => some (.ok (place, place))

def offset : Reading Nat := fun place => some (.ok (place.offset, place))

def change (f : Place → Place) : Reading Unit := fun place => some (.ok ((), f place))

def advance (bytes : Nat) : Reading Unit :=
  change fun place => { place with offset := place.offset + bytes }

/-- The characters that take so many bytes, if none lies across their end. -/
def part? : (bytes : Nat) → List Char → Option (List Char)
  | 0, _ => some []
  | _ + 1, [] => none
  | bytes + 1, c :: rest =>
    if bytes + 1 < c.utf8Size then none else (part? (bytes + 1 - c.utf8Size) rest).map (c :: ·)

def hexChar? : List Char → Option Char
  | [a, b] => do
    let x ← hexValue? a
    let y ← hexValue? b
    return .ofNat (16 * x + y)
  | _ => none

section

variable (text : String)

def ahead : Reading (List Char) := fun place =>
  (Cursor.at? text place.offset).map fun cursor => .ok (cursor.rest, place)

def peek : Reading (Option Char) := do
  return (← ahead text).head?

def peekAt (skip : Nat) : Reading (Option Char) := do
  return (← ahead text)[skip]?

def bump : Reading (Option Char) := do
  match ← peek text with
  | none => return none
  | some c =>
    advance c.utf8Size
    return some c

def eat (c : Char) : Reading Bool := do
  if (← peek text) == some c then
    advance c.utf8Size
    return true
  else
    return false

def digits (start : Nat) : (rounds n : Nat) → Reading Nat
  | 0, _ => lost
  | rounds + 1, n => do
    match (← peek text).filter Char.isDigit with
    | none => return n
    | some c =>
      advance 1
      if maxBoundText < 10 * n + digitValue c then fail start .boundOverflow
      else digits start rounds (10 * n + digitValue c)

def bound (start : Nat) : Reading Nat := do
  let first ← offset
  let n ← digits text start (text.length + 1) 0
  let last ← offset
  if last == first then fail start .invalidBounds
  else if maxRepeat < n then fail start (.boundTooLarge n)
  else return n

def upperBound (start min : Nat) : Reading (Option Nat) := do
  if ← eat text ',' then
    if (← peek text) == some '\x7d' then return none
    else
      let max ← bound text start
      return some max
  else
    return some min

def braces (start : Nat) : Reading (Nat × Option Nat) := do
  let min ← bound text start
  let max ← upperBound text start min
  if ← eat text '\x7d' then
    if max.any (· < min) then fail start .reversedBounds else return (min, max)
  else
    fail start .invalidBounds

def quantifier : Reading (Nat × Option Nat) := do
  let start ← offset
  match ← bump text with
  | some '*' => return (0, none)
  | some '+' => return (1, none)
  | some '?' => return (0, some 1)
  | _ => braces text start

def hexEscape (start : Nat) : Reading Escape := do
  match (part? 2 (← ahead text)).bind hexChar? with
  | none => fail start .invalidHexEscape
  | some c =>
    advance 2
    return .char c

def escape (inClass : Bool) : Reading Escape := do
  let start ← offset
  advance 1
  match ← bump text with
  | none => fail start .danglingBackslash
  | some c =>
    if c == 'x' then hexEscape text start
    else
      match Escape.ofLetter? c with
      | none => fail start (.invalidEscape c)
      | some (.assertion a) =>
        if inClass then fail start .assertionInClass else return .assertion a
      | some escape => return escape

def member : Reading Member := do
  if (← peek text) == some '\x5c' then
    match ← escape text true with
    | .char c => return .char c
    | .set set => return .ranges set.positiveRanges
    | .assertion _ =>
      fail (← offset) .assertionInClass
  else
    match ← bump text with
    | some c => return .char c
    | none =>
      fail (← offset) .unterminatedClass

def item : Reading (List CodeRange) := do
  let start ← offset
  match ← member text with
  | .ranges ranges => return ranges
  | .char low =>
    let dash ← peek text
    let upper ← peekAt text 1
    if dash == some '-' && upper.any (· != ']') then
      advance 1
      match ← member text with
      | .ranges _ => fail start .invalidClassRange
      | .char high =>
        if high < low then fail start .reversedClassRange else return [.between low high]
    else
      return [.single low]

def members (start : Nat) : (rounds : Nat) → (first : Bool) → List CodeRange →
    Reading (List CodeRange)
  | 0, _, _ => lost
  | rounds + 1, first, found => do
    match ← peek text with
    | none => fail start .unterminatedClass
    | some c =>
      if c == ']' && !first then
        advance 1
        return found
      else
        let ranges ← item text
        members start rounds false (ranges ++ found)

def bracket (start : Nat) : Reading CodeSet := do
  let negated ← eat text '^'
  let ranges ← members text start (text.length + 1) true []
  return .ofRanges ranges negated

def opening (start : Nat) : Reading (Option Nat) := do
  if (← peek text) == some '?' then
    if (← peekAt text 1) == some ':' then
      advance 2
      return none
    else
      fail start .unsupportedGroup
  else
    change fun place => { place with groups := place.groups + 1 }
    let place ← here
    if maxGroups < place.groups then fail start .tooManyGroups else return some place.groups

def group (inside : Reading Node) (start : Nat) : Reading Node := do
  let place ← here
  if maxNesting ≤ place.depth then fail start .nestedTooDeeply
  else
    let index ← opening text start
    change fun place => { place with depth := place.depth + 1 }
    let body ← inside
    change fun place => { place with depth := place.depth - 1 }
    if ← eat text ')' then return .group index body else fail start .unclosedGroup

/-- Reads an atom; `inside` reads what stands in a group. -/
def atom (inside : Reading Node) : Reading Node := do
  let start ← offset
  match ← bump text with
  | none => return .empty
  | some '(' => group text inside start
  | some '[' =>
    let set ← bracket text start
    return .oneOf set
  | some '.' => return .any
  | some '^' => return .assertion .caret
  | some '$' => return .assertion .dollar
  | some '\x5c' =>
    -- An escape is read from its backslash on, so the reader goes back to it.
    change fun place => { place with offset := start }
    match ← escape text false with
    | .char c => return .literal c
    | .set set => return .oneOf set
    | .assertion a => return .assertion a
  | some c => return .literal c

/-- Reads a quantifier behind the items that have been found; `found` is the last of them, if it can
be repeated, and those before it. -/
def repetition (found : Option (Node × List Node)) : Reading (List Node) := do
  let start ← offset
  match found with
  | none => fail start .nothingToRepeat
  | some (item, before) =>
    let bounds ← quantifier text
    let lazy ← eat text '?'
    return .repetition item bounds.1 bounds.2 (!lazy) :: before

mutual

def alternation : (rounds : Nat) → (branches : List Node) → Reading Node
  | 0, _ => lost
  | rounds + 1, branches => do
    let branch ← items rounds [] false
    if ← eat text '|' then alternation rounds (branch :: branches)
    else return Level.node ⟨branches, [branch], false⟩

def items : (rounds : Nat) → (items : List Node) → (repeated : Bool) → Reading Node
  | 0, _, _ => lost
  | rounds + 1, found, repeated => do
    match ← peek text with
    | none => return Level.branch ⟨[], found, repeated⟩
    | some c =>
      if c == '|' || c == ')' then return Level.branch ⟨[], found, repeated⟩
      else if (Repeater.of? c).isSome then
        let found ← repetition text (Level.repeatable? ⟨[], found, repeated⟩)
        items rounds found true
      else
        let item ← atom text (alternation rounds [])
        items rounds (item :: found) false

end

def flagLetters (flags : Flags) (offset : Nat) : List Char → Reading Flags
  | [] => fail 0 .unclosedGroup
  | c :: rest =>
    match c with
    | 'i' => flagLetters { flags with ignoreCase := true } (offset + 1) rest
    | 'm' => flagLetters { flags with multiline := true } (offset + 1) rest
    | 's' => flagLetters { flags with dotAll := true } (offset + 1) rest
    | c =>
      if c == ')' && 2 < offset then do
        change fun place => { place with offset := offset + 1 }
        return flags
      else fail offset .unsupportedFlags

def flagGroup : Reading Flags := do
  if ['(', '?'].isPrefixOf (← ahead text) then
    match Cursor.at? text 2 with
    | none => lost
    | some cursor =>
      if cursor.rest.head? == some ':' then return .none else flagLetters .none 2 cursor.rest
  else
    return .none

def pattern : Reading Parsed := do
  let flags ← flagGroup text
  let node ← alternation text (2 * text.length + 2) []
  let next ← peek text
  let place ← here
  if next.isSome then fail place.offset .unbalancedParenthesis
  else return ⟨node, place.groups, flags⟩

end

end Reading

/-- Reads a pattern by bytes. -/
def parseByBytes? (text : String) : Option (Except Malformed Parsed) :=
  (Reading.pattern text ⟨0, 0, 0⟩).map fun result => result.map (·.1)

end TextColumns.Pattern
