import TextColumns.Pattern.Fault
import TextColumns.Pattern.Syntax

/-!
Reading pattern texts.  The reader goes over the text once and keeps the groups that are open on a
stack; each level of the stack holds the finished branches of its alternation and the items of the
branch being read.
-/

namespace TextColumns.Pattern

/-- The rest of a text with the byte offset at which it starts. -/
structure Input where
  rest : List Char
  offset : Nat

namespace Input

def ofString (text : String) : Input :=
  ⟨text.toList, 0⟩

def tail (input : Input) : Input :=
  match input.rest with
  | [] => input
  | c :: rest => ⟨rest, input.offset + c.utf8Size⟩

/-- Skips a character if it is the next one, and tells whether it was. -/
def eat (input : Input) (c : Char) : Bool × Input :=
  if input.rest.head? == some c then (true, input.tail) else (false, input)

theorem tail_length_le (input : Input) : input.tail.rest.length ≤ input.rest.length := by
  unfold tail
  split <;> simp_all

theorem tail_length_lt {input : Input} (h : input.rest ≠ []) :
    input.tail.rest.length < input.rest.length := by
  unfold tail
  split <;> simp_all

theorem eat_length_le (input : Input) (c : Char) :
    (input.eat c).2.rest.length ≤ input.rest.length := by
  unfold eat
  split
  · exact tail_length_le input
  · exact Nat.le_refl _

end Input

abbrev Reads (α : Type) := Except Malformed (α × Input)

def malformed (position : Nat) (fault : Fault) : Except Malformed α :=
  .error ⟨position, fault⟩

def maxBoundText : Nat := 4294967295

def digitValue (c : Char) : Nat :=
  c.toNat - '0'.toNat

def Input.takeDigits : List Char → Nat → List Char × Input
  | c :: rest, offset =>
    if c.isDigit then
      let (digits, after) := takeDigits rest (offset + 1)
      (c :: digits, after)
    else
      ([], ⟨c :: rest, offset⟩)
  | [], offset => ([], ⟨[], offset⟩)

theorem Input.takeDigits_length_le (rest : List Char) (offset : Nat) :
    (Input.takeDigits rest offset).2.rest.length ≤ rest.length := by
  induction rest generalizing offset with
  | nil => simp [takeDigits]
  | cons c rest ih =>
      simp only [takeDigits]
      split
      · exact Nat.le_succ_of_le (ih _)
      · simp

/-- The value of digits; a value that no bound may have only remains one. -/
def boundValue (digits : List Char) : Nat :=
  digits.foldl (fun n c => min (10 * n + digitValue c) (maxBoundText + 1)) 0

def readBound (opened : Nat) (input : Input) : Reads Nat :=
  let (digits, after) := Input.takeDigits input.rest input.offset
  let bound := boundValue digits
  if maxBoundText < bound then malformed opened .boundOverflow
  else if digits.isEmpty then malformed opened .invalidBounds
  else if maxRepeat < bound then malformed opened (.boundTooLarge bound)
  else .ok (bound, after)

/-- Reads what follows the first bound: nothing, or a comma and perhaps a second bound. -/
def readUpper (opened min : Nat) (input : Input) : Reads (Option Nat) :=
  match input.eat ',' with
  | (false, _) => .ok (some min, input)
  | (true, after) =>
    if after.rest.head? == some '\x7d' then .ok (none, after)
    else
      match readBound opened after with
      | .error e => .error e
      | .ok (max, after) => .ok (some max, after)

def readBraces (opened : Nat) (input : Input) : Reads (Nat × Option Nat) :=
  match readBound opened input with
  | .error e => .error e
  | .ok (min, after) =>
    match readUpper opened min after with
    | .error e => .error e
    | .ok (max, after) =>
      match after.eat '\x7d' with
      | (false, _) => malformed opened .invalidBounds
      | (true, after) =>
        if max.any (· < min) then malformed opened .reversedBounds
        else .ok ((min, max), after)

/-- The four characters that repeat the atom before them. -/
inductive Repeater where
  | star
  | plus
  | optional
  | braces

def Repeater.of? : Char → Option Repeater
  | '*' => some .star
  | '+' => some .plus
  | '?' => some .optional
  | '\x7b' => some .braces
  | _ => none

def readRepeater (kind : Repeater) (position : Nat) (input : Input) : Reads (Nat × Option Nat) :=
  match kind with
  | .star => .ok ((0, none), input)
  | .plus => .ok ((1, none), input)
  | .optional => .ok ((0, some 1), input)
  | .braces => readBraces position input

theorem readBound_length {opened : Nat} {input after : Input} {bound : Nat}
    (h : readBound opened input = .ok (bound, after)) :
    after.rest.length ≤ input.rest.length := by
  have hdigits := Input.takeDigits_length_le input.rest input.offset
  revert h
  fun_cases readBound opened input with
  | case1 | case2 | case3 => intro h; cases h
  | case4 digits behind htaken =>
      intro h
      obtain ⟨-, rfl⟩ := Prod.mk.inj (Except.ok.inj h)
      rwa [htaken] at hdigits

theorem readUpper_length {opened min : Nat} {input after : Input} {max : Option Nat}
    (h : readUpper opened min input = .ok (max, after)) :
    after.rest.length ≤ input.rest.length := by
  have hcomma := input.eat_length_le ','
  revert h
  fun_cases readUpper opened min input with
  | case1 =>
      intro h
      cases h
      exact Nat.le_refl _
  | case2 next heat =>
      intro h
      cases h
      rwa [heat] at hcomma
  | case3 => intro h; cases h
  | case4 next heat _ max last hread =>
      intro h
      cases h
      rw [heat] at hcomma
      exact Nat.le_trans (readBound_length hread) hcomma

theorem readBraces_length {opened : Nat} {input after : Input} {bounds : Nat × Option Nat}
    (h : readBraces opened input = .ok (bounds, after)) :
    after.rest.length ≤ input.rest.length := by
  revert h
  fun_cases readBraces opened input with
  | case1 | case2 | case3 | case4 => intro h; cases h
  | case5 min next hmin max last hmax behind heat =>
      intro h
      cases h
      have hclose := last.eat_length_le '\x7d'
      rw [heat] at hclose
      exact Nat.le_trans hclose (Nat.le_trans (readUpper_length hmax) (readBound_length hmin))

theorem readRepeater_length {kind : Repeater} {position : Nat} {input after : Input}
    {bounds : Nat × Option Nat} (h : readRepeater kind position input = .ok (bounds, after)) :
    after.rest.length ≤ input.rest.length := by
  cases kind with
  | star => cases h; exact Nat.le_refl _
  | plus => cases h; exact Nat.le_refl _
  | optional => cases h; exact Nat.le_refl _
  | braces => exact readBraces_length h

inductive Escape where
  | char (c : Char)
  | set (set : CodeSet)
  | assertion (a : Assertion)

def isEscapable (c : Char) : Bool :=
  "\\.*+?()[]\x7b\x7d|^$/-".toList.contains c

def hexValue? (c : Char) : Option Nat :=
  if c.isDigit then some (c.toNat - '0'.toNat)
  else if 'a' ≤ c && c ≤ 'f' then some (c.toNat - 'a'.toNat + 10)
  else if 'A' ≤ c && c ≤ 'F' then some (c.toNat - 'A'.toNat + 10)
  else none

/-- What a letter behind a backslash means, the hexadecimal escape apart. -/
def Escape.ofLetter? : Char → Option Escape
  | 'n' => some (.char '\n')
  | 't' => some (.char '\t')
  | 'r' => some (.char '\r')
  | 'f' => some (.char '\x0c')
  | 'v' => some (.char '\x0b')
  | '0' => some (.char '\x00')
  | 'd' => some (.set (.ofRanges CodeSet.digits false))
  | 'D' => some (.set (.ofRanges CodeSet.digits true))
  | 'w' => some (.set (.ofRanges CodeSet.wordChars false))
  | 'W' => some (.set (.ofRanges CodeSet.wordChars true))
  | 's' => some (.set (.ofRanges CodeSet.blanks false))
  | 'S' => some (.set (.ofRanges CodeSet.blanks true))
  | 'b' => some (.assertion .wordBoundary)
  | 'B' => some (.assertion .notWordBoundary)
  | 'A' => some (.assertion .startText)
  | 'z' => some (.assertion .endText)
  | c => if isEscapable c then some (.char c) else none

def readHex (position : Nat) (input : Input) : Reads Escape :=
  match input.rest with
  | a :: b :: _ =>
    match hexValue? a, hexValue? b with
    | some x, some y => .ok (.char (Char.ofNat (16 * x + y)), input.tail.tail)
    | _, _ => malformed position .invalidHexEscape
  | _ => malformed position .invalidHexEscape

def readEscape (position : Nat) (input : Input) : Reads Escape :=
  match input.rest with
  | [] => malformed position .danglingBackslash
  | 'x' :: _ => readHex position input.tail
  | c :: _ =>
    match Escape.ofLetter? c with
    | some escape => .ok (escape, input.tail)
    | none => malformed position (.invalidEscape c)

/-- One member of a bracket expression, before it is known whether it starts a range. -/
inductive Member where
  | char (c : Char)
  | ranges (ranges : List CodeRange)

def readMember (input : Input) : Reads Member :=
  match input.rest with
  | [] => malformed input.offset .unterminatedClass
  | '\x5c' :: _ =>
    match readEscape input.offset input.tail with
    | .error e => .error e
    | .ok (.char c, after) => .ok (.char c, after)
    | .ok (.set set, after) => .ok (.ranges set.positiveRanges, after)
    | .ok (.assertion _, _) => malformed input.offset .assertionInClass
  | c :: _ => .ok (.char c, input.tail)

def startsRange (input : Input) : Bool :=
  match input.rest with
  | '-' :: c :: _ => c != ']'
  | _ => false

def readItem (input : Input) : Reads (List CodeRange) :=
  match readMember input with
  | .error e => .error e
  | .ok (.ranges ranges, after) => .ok (ranges, after)
  | .ok (.char low, after) =>
    if startsRange after then
      match readMember after.tail with
      | .error e => .error e
      | .ok (.ranges _, _) => malformed input.offset .invalidClassRange
      | .ok (.char high, after) =>
        if high < low then malformed input.offset .reversedClassRange
        else .ok ([.between low high], after)
    else
      .ok ([.single low], after)

theorem readHex_length {position : Nat} {input after : Input} {escape : Escape}
    (h : readHex position input = .ok (escape, after)) :
    after.rest.length ≤ input.rest.length := by
  revert h
  fun_cases readHex position input with
  | case1 =>
      intro h
      cases h
      exact Nat.le_trans input.tail.tail_length_le input.tail_length_le
  | case2 | case3 => intro h; cases h

theorem readEscape_length {position : Nat} {input after : Input} {escape : Escape}
    (h : readEscape position input = .ok (escape, after)) :
    after.rest.length < input.rest.length := by
  revert h
  fun_cases readEscape position input with
  | case1 => intro h; cases h
  | case2 rest hrest =>
      intro h
      exact Nat.lt_of_le_of_lt (readHex_length h) (Input.tail_length_lt (by simp [hrest]))
  | case3 c rest hc hrest =>
      intro h
      cases h
      exact Input.tail_length_lt (by simp [hrest])
  | case4 => intro h; cases h

theorem readMember_length {input after : Input} {member : Member}
    (h : readMember input = .ok (member, after)) :
    after.rest.length < input.rest.length := by
  revert h
  fun_cases readMember input with
  | case1 | case2 | case5 => intro h; cases h
  | case3 rest _ _ _ hread | case4 rest _ _ _ hread =>
      intro h
      cases h
      exact Nat.lt_of_lt_of_le (readEscape_length hread) input.tail_length_le
  | case6 c rest hc hrest =>
      intro h
      cases h
      exact Input.tail_length_lt (by simp [hrest])

theorem readItem_length {input after : Input} {ranges : List CodeRange}
    (h : readItem input = .ok (ranges, after)) :
    after.rest.length < input.rest.length := by
  revert h
  fun_cases readItem input with
  | case1 | case3 | case4 | case5 => intro h; cases h
  | case2 ranges next hread =>
      intro h
      cases h
      exact readMember_length hread
  | case6 low next hlow _ high last hhigh =>
      intro h
      cases h
      exact Nat.lt_trans (readMember_length hhigh)
        (Nat.lt_of_le_of_lt next.tail_length_le (readMember_length hlow))
  | case7 low next hlow =>
      intro h
      cases h
      exact readMember_length hlow

/-- Reads members up to the closing bracket, in front of those in `found`; a bracket that comes
first is a member. -/
def readItems (opened : Nat) (first : Bool) (input : Input) (found : List CodeRange) :
    Reads (List CodeRange) :=
  match input.rest with
  | [] => malformed opened .unterminatedClass
  | c :: _ =>
    if c == ']' && !first then .ok (found, input.tail)
    else
      match h : readItem input with
      | .error e => .error e
      | .ok (ranges, after) =>
        have := readItem_length h
        readItems opened false after (ranges ++ found)
termination_by input.rest.length

def readClass (opened : Nat) (input : Input) : Reads CodeSet :=
  let negation := input.eat '^'
  match readItems opened true negation.2 [] with
  | .error e => .error e
  | .ok (ranges, after) => .ok (.ofRanges ranges negation.1, after)

theorem readItems_length {opened : Nat} {first : Bool} {input after : Input}
    {found ranges : List CodeRange}
    (h : readItems opened first input found = .ok (ranges, after)) :
    after.rest.length ≤ input.rest.length := by
  fun_induction readItems opened first input found with
  | case1 => simp [malformed] at h
  | case2 =>
      cases h
      exact Input.tail_length_le _
  | case3 => cases h
  | case4 _ _ _ _ _ _ _ _ _ _ hshorter ih =>
      exact Nat.le_of_lt (Nat.lt_of_le_of_lt (ih h) hshorter)

theorem readClass_length {opened : Nat} {input after : Input} {set : CodeSet}
    (h : readClass opened input = .ok (set, after)) :
    after.rest.length ≤ input.rest.length := by
  revert h
  fun_cases readClass opened input with
  | case1 => intro h; cases h
  | case2 negation ranges next hread =>
      intro h
      cases h
      exact Nat.le_trans (readItems_length hread) (input.eat_length_le '^')

/-- Reads an atom that starts with `c` at `position`; `input` is behind that character. -/
def readAtom (c : Char) (position : Nat) (input : Input) : Reads Node :=
  match c with
  | '[' =>
    match readClass position input with
    | .error e => .error e
    | .ok (set, after) => .ok (.oneOf set, after)
  | '\x5c' =>
    match readEscape position input with
    | .error e => .error e
    | .ok (.char c, after) => .ok (.literal c, after)
    | .ok (.set set, after) => .ok (.oneOf set, after)
    | .ok (.assertion a, after) => .ok (.assertion a, after)
  | '.' => .ok (.any, input)
  | '^' => .ok (.assertion .caret, input)
  | '$' => .ok (.assertion .dollar, input)
  | c => .ok (.literal c, input)

theorem readAtom_length {c : Char} {position : Nat} {input after : Input} {node : Node}
    (h : readAtom c position input = .ok (node, after)) :
    after.rest.length ≤ input.rest.length := by
  revert h
  fun_cases readAtom c position input with
  | case1 | case3 => intro h; cases h
  | case2 set next hread =>
      intro h
      cases h
      exact readClass_length hread
  | case4 c next hread | case5 set next hread | case6 a next hread =>
      intro h
      cases h
      exact Nat.le_of_lt (readEscape_length hread)
  | case7 | case8 | case9 | case10 =>
      intro h
      cases h
      exact Nat.le_refl _

end TextColumns.Pattern
