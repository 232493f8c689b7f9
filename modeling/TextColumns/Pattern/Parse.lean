import TextColumns.Pattern.Reader

/-!
From the text of a pattern to its tree.  An opening parenthesis puts the level that is being read
on a stack, the closing one takes it back with the group as its next item.
-/

namespace TextColumns.Pattern

/-- An alternation while it is read; lists hold the latest first. -/
structure Level where
  branches : List Node
  /-- The items of the branch that is being read. -/
  items : List Node
  /-- Whether the latest item has been repeated, which can be done once. -/
  repeated : Bool

namespace Level

def start : Level :=
  ⟨[], [], false⟩

def branch (level : Level) : Node :=
  match level.items with
  | [] => .empty
  | [item] => item
  | items => .concat items.reverse

def node (level : Level) : Node :=
  match level.branches with
  | [] => level.branch
  | branches => .alternate (level.branch :: branches).reverse

def nextBranch (level : Level) : Level :=
  ⟨level.branch :: level.branches, [], false⟩

def push (level : Level) (item : Node) : Level :=
  { level with items := item :: level.items, repeated := false }

def pushRepeated (level : Level) (item : Node) (before : List Node) (bounds : Nat × Option Nat)
    (greedy : Bool) : Level :=
  { level with
    items := .repetition item bounds.1 bounds.2 greedy :: before
    repeated := true }

/-- The latest item, if it can be repeated, and the items before it. -/
def repeatable? (level : Level) : Option (Node × List Node) :=
  match level.items with
  | item :: before => if level.repeated then none else some (item, before)
  | [] => none

end Level

/-- A group whose closing parenthesis has not been read. -/
structure OpenGroup where
  /-- The byte of its opening parenthesis. -/
  position : Nat
  index : Option Nat
  /-- The level in which the group stands. -/
  outer : Level

def OpenGroup.close (group : OpenGroup) (body : Level) : Level :=
  group.outer.push (.group group.index body.node)

/-- Reads what tells the kind of a group, behind the parenthesis at `position`.  The result is the
index of the group and the number of groups that capture so far. -/
def readOpening (position groups : Nat) (input : Input) : Reads (Option Nat × Nat) :=
  match input.rest with
  | '?' :: ':' :: _ => .ok ((none, groups), input.tail.tail)
  | '?' :: _ => malformed position .unsupportedGroup
  | _ =>
    if maxGroups ≤ groups then malformed position .tooManyGroups
    else .ok ((some (groups + 1), groups + 1), input)

theorem readOpening_length {position groups : Nat} {input after : Input}
    {kind : Option Nat × Nat} (h : readOpening position groups input = .ok (kind, after)) :
    after.rest.length ≤ input.rest.length := by
  revert h
  fun_cases readOpening position groups input with
  | case1 =>
      intro h
      cases h
      exact Nat.le_trans input.tail.tail_length_le input.tail_length_le
  | case2 | case3 => intro h; cases h
  | case4 =>
      intro h
      cases h
      exact Nat.le_refl _

/-- Reads the rest of a pattern, with the level that is being read, the groups that are open
around it, innermost first, and the number of groups that capture so far. -/
def readPattern (level : Level) (opened : List OpenGroup) (groups : Nat) (input : Input) :
    Except Malformed (Node × Nat) :=
  match hrest : input.rest with
  | [] =>
    match opened with
    | [] => .ok (level.node, groups)
    | group :: _ => malformed group.position .unclosedGroup
  | c :: _ =>
    have hshorter : input.tail.rest.length < input.rest.length :=
      Input.tail_length_lt (by simp [hrest])
    if c == '|' then
      readPattern level.nextBranch opened groups input.tail
    else if c == ')' then
      match opened with
      | [] => malformed input.offset .unbalancedParenthesis
      | group :: outer => readPattern (group.close level) outer groups input.tail
    else if c == '(' then
      if maxNesting ≤ opened.length then malformed input.offset .nestedTooDeeply
      else
        match hread : readOpening input.offset groups input.tail with
        | .error e => .error e
        | .ok ((index, groups), after) =>
          have := readOpening_length hread
          readPattern Level.start (⟨input.offset, index, level⟩ :: opened) groups after
    else
      match Repeater.of? c with
      | some kind =>
        match level.repeatable? with
        | none => malformed input.offset .nothingToRepeat
        | some (item, before) =>
          match hread : readRepeater kind input.offset input.tail with
          | .error e => .error e
          | .ok (bounds, after) =>
            have := readRepeater_length hread
            have := after.eat_length_le '?'
            let lazy := after.eat '?'
            readPattern (level.pushRepeated item before bounds !lazy.1) opened groups lazy.2
      | none =>
        match hread : readAtom c input.offset input.tail with
        | .error e => .error e
        | .ok (item, after) =>
          have := readAtom_length hread
          readPattern (level.push item) opened groups after
termination_by input.rest.length
decreasing_by all_goals omega

/-- Reads the letters of a leading group of flags and its closing parenthesis.  `offset` counts
the bytes before, and `flags` are those read so far. -/
def readFlagLetters (flags : Flags) (offset : Nat) : List Char → Reads Flags
  | [] => malformed 0 .unclosedGroup
  | 'i' :: rest => readFlagLetters { flags with ignoreCase := true } (offset + 1) rest
  | 'm' :: rest => readFlagLetters { flags with multiline := true } (offset + 1) rest
  | 's' :: rest => readFlagLetters { flags with dotAll := true } (offset + 1) rest
  | c :: rest =>
    if c == ')' && 2 < offset then .ok (flags, ⟨rest, offset + 1⟩)
    else malformed offset .unsupportedFlags

def readFlags (input : Input) : Reads Flags :=
  match input.rest with
  | '(' :: '?' :: ':' :: _ => .ok (.none, input)
  | '(' :: '?' :: rest => readFlagLetters .none 2 rest
  | _ => .ok (.none, input)

def parse (text : String) : Except Malformed Parsed :=
  match readFlags (Input.ofString text) with
  | .error e => .error e
  | .ok (flags, input) =>
    match readPattern Level.start [] 0 input with
    | .error e => .error e
    | .ok (node, groups) => .ok ⟨node, groups, flags⟩

end TextColumns.Pattern
