import TextColumns.Proofs.Pattern.Following

/-!
Patterns are cut between characters only.  Reading by bytes, with a call for each group, comes to the
same result as going over the text once with a stack of open groups; it never cuts a character, no
loop of it uses up its rounds, and every fault shows between two characters.
-/

namespace TextColumns.Pattern

open Text (IsBoundary)

theorem Level.node_eq {level : Level} {branches : List Node} {branch : Node}
    (hbranches : level.branches = branches) (hbranch : level.branch = branch) :
    level.node = Level.node ⟨branches, [branch], false⟩ := by
  subst hbranches
  subst hbranch
  rfl

namespace Reading

variable {text : String} {opened : List OpenGroup} {whole : Except Malformed (Node × Nat)}

/-- Whether a reading of a tree stops at a fault that is found in the whole, or at a place from
which the whole can be read on. -/
inductive Reaches (text : String) (opened : List OpenGroup) (whole : Except Malformed (Node × Nat))
    (Ends : Node → Level → Input → Prop) : Option (Except Malformed (Node × Place)) → Prop
  | fault {e : Malformed} (hboundary : IsBoundary text e.position) (hwhole : whole = .error e) :
      Reaches text opened whole Ends (some (.error e))
  | place {node : Node} {last : Level} {groups : Nat} {after : Input} (hon : after.On text)
      (hends : Ends node last after) (hwhole : whole = readPattern last opened groups after) :
      Reaches text opened whole Ends (some (.ok (node, ⟨after.offset, groups, opened.length⟩)))

namespace Reaches

variable {Ends EndsLater : Node → Level → Input → Prop}

theorem bind {others : List OpenGroup} {reading : Reading Node} {next : Node → Reading Node}
    {place : Place} (hreading : Reaches text others whole Ends (reading place))
    (hnext : ∀ node last groups after, after.On text → Ends node last after →
      whole = readPattern last others groups after →
      Reaches text opened whole EndsLater (next node ⟨after.offset, groups, others.length⟩)) :
    Reaches text opened whole EndsLater ((reading >>= next) place) := by
  generalize hresult : reading place = result at hreading
  cases hreading with
  | fault hboundary hwhole =>
      rw [bind_error hresult]
      exact .fault hboundary hwhole
  | place hon hends hwhole =>
      rw [bind_ok hresult]
      exact hnext _ _ _ _ hon hends hwhole

theorem mono {result : Option (Except Malformed (Node × Place))}
    (hresult : Reaches text opened whole Ends result)
    (hends : ∀ node last after, Ends node last after → EndsLater node last after) :
    Reaches text opened whole EndsLater result := by
  cases hresult with
  | fault hboundary hwhole => exact .fault hboundary hwhole
  | place hon hplace hwhole => exact .place hon (hends _ _ _ hplace) hwhole

theorem after_follows {α : Type} {reading : Reading α} {next : α → Reading Node}
    {input after : Input}
    {a : α} {groups : Nat} (hreading : Follows text reading input (.ok (a, after)))
    (hnext : after.On text →
      Reaches text opened whole Ends (next a ⟨after.offset, groups, opened.length⟩)) :
    Reaches text opened whole Ends ((reading >>= next) ⟨input.offset, groups, opened.length⟩) := by
  rw [bind_ok (hreading.2 groups opened.length)]
  exact hnext hreading.1

theorem of_follows_error {α : Type} {reading : Reading α} (next : α → Reading Node) {input : Input}
    {e : Malformed} {groups : Nat} (hreading : Follows text reading input (.error e))
    (hwhole : whole = .error e) :
    Reaches text opened whole Ends ((reading >>= next) ⟨input.offset, groups, opened.length⟩) := by
  rw [bind_error (hreading.2 groups opened.length)]
  exact .fault hreading.1 hwhole

end Reaches

theorem here_eq (place : Place) : here place = some (.ok (place, place)) :=
  rfl

theorem change_eq (f : Place → Place) (place : Place) :
    change f place = some (.ok ((), f place)) :=
  rfl

theorem position_of_readOpening {input : Input} {start groups : Nat} {e : Malformed}
    (hread : readOpening start groups input = .error e) : e.position = start := by
  unfold readOpening at hread
  split at hread
  · cases hread
  · cases hread
    rfl
  · split at hread
    · cases hread
      rfl
    · cases hread

theorem opening_eq {input : Input} (hon : input.On text) (start groups depth : Nat) :
    opening text start ⟨input.offset, groups, depth⟩ =
      match readOpening start groups input with
      | .error e => some (.error e)
      | .ok ((index, count), after) => some (.ok (index, ⟨after.offset, count, depth⟩)) := by
  rw [opening, bind_ok ((Follows.peek hon).2 groups depth)]
  by_cases hquestion : input.rest.head? = some '?'
  · obtain ⟨rest, hrest⟩ := List.head?_eq_some_iff.mp hquestion
    have hnext : input.rest[1]? = rest.head? := by rw [hrest, List.head?_eq_getElem?]; rfl
    rw [if_pos (beq_iff_eq.mpr hquestion), bind_ok ((Follows.peekAt hon 1).2 groups depth), hnext]
    by_cases hcolon : rest.head? = some ':'
    · obtain ⟨inside, rfl⟩ := List.head?_eq_some_iff.mp hcolon
      rw [if_pos (beq_iff_eq.mpr hcolon), readOpening_plain hrest,
        bind_ok ((Follows.advance_two hon hrest rfl rfl).2 groups depth)]
      rfl
    · rw [if_neg (by simpa using hcolon), readOpening_unsupported hrest hcolon]
      rfl
  · rw [if_neg (by simpa using hquestion), readOpening_capture hquestion]
    show (if maxGroups < groups + 1 then fail start .tooManyGroups
      else pure (some (groups + 1)) : Reading (Option Nat)) ⟨input.offset, groups + 1, depth⟩ = _
    by_cases hfull : maxGroups ≤ groups
    · rw [if_pos hfull, if_pos (Nat.lt_succ_of_le hfull)]
      rfl
    · rw [if_neg hfull, if_neg (fun hlt => hfull (Nat.le_of_lt_succ hlt))]
      rfl

theorem on_of_readOpening {input after : Input} (hon : input.On text) {start groups count : Nat}
    {index : Option Nat} (hread : readOpening start groups input = .ok ((index, count), after)) :
    after.On text := by
  unfold readOpening at hread
  split at hread
  · cases hread
    exact hon.tail.tail
  · cases hread
  · split at hread
    · cases hread
    · cases hread
      exact hon

def EndsBranch (input : Input) (level : Level) (node : Node) (last : Level) (after : Input) :
    Prop :=
  last.branches = level.branches ∧ last.branch = node ∧ after.rest.length ≤ input.rest.length ∧
    ∀ c ∈ after.rest.head?, c = '|' ∨ c = ')'

theorem EndsBranch.mono {input other : Input} {level before last : Level} {node : Node}
    {after : Input} (hends : EndsBranch other before node last after)
    (hbranches : before.branches = level.branches)
    (hle : other.rest.length ≤ input.rest.length) : EndsBranch input level node last after :=
  ⟨hends.1.trans hbranches, hends.2.1, Nat.le_trans hends.2.2.1 hle, hends.2.2.2⟩

def EndsPattern (input : Input) (node : Node) (last : Level) (after : Input) : Prop :=
  last.node = node ∧ after.rest.length ≤ input.rest.length ∧ ∀ c ∈ after.rest.head?, c = ')'

/-- Whether what stands in a group is read from any shorter input on. -/
def ReadsInside (text : String) (inside : Reading Node) (input : Input) : Prop :=
  ∀ opened groups after, after.On text → after.rest.length < input.rest.length →
    Reaches text opened (readPattern Level.start opened groups after) (EndsPattern after)
      (inside ⟨after.offset, groups, opened.length⟩)

def EndsAtom (input : Input) (level : Level) (node : Node) (last : Level) (after : Input) : Prop :=
  last = level.push node ∧ after.rest.length < input.rest.length

theorem reaches_group {inside : Reading Node} {input : Input} (hon : input.On text)
    (hinside : ReadsInside text inside input) {rest : List Char} (hrest : input.rest = '(' :: rest)
    (level : Level) (opened : List OpenGroup) (groups : Nat) :
    Reaches text opened (readPattern level opened groups input) (EndsAtom input level)
      (group text inside input.offset ⟨input.tail.offset, groups, opened.length⟩) := by
  have hstart := hon.isBoundary
  have htail := hon.tail
  have hshorter : input.tail.rest.length < input.rest.length :=
    Input.tail_length_lt (by rw [hrest]; exact List.cons_ne_nil _ _)
  rw [group, bind_ok (here_eq _)]
  by_cases hnesting : maxNesting ≤ opened.length
  · rw [if_pos hnesting]
    exact .fault hstart (readPattern_nested hrest hnesting)
  rw [if_neg hnesting, readPattern_opening hrest hnesting]
  have hopening := opening_eq htail input.offset groups opened.length
  cases hread : readOpening input.offset groups input.tail with
  | error e =>
      rw [hread] at hopening
      rw [bind_error hopening]
      exact .fault (position_of_readOpening hread ▸ hstart) rfl
  | ok result =>
      obtain ⟨⟨index, count⟩, after⟩ := result
      rw [hread] at hopening
      have hafter := on_of_readOpening htail hread
      have hlength := readOpening_length hread
      rw [bind_ok hopening, bind_ok (change_eq _ _)]
      -- What is open around the group stands in the stack; the call knows only how much there is.
      refine
        (hinside (⟨input.offset, index, level⟩ :: opened) count after hafter (by omega)).bind ?_
      intro body last groups further hfurther ⟨hbody, hle, hends⟩ hwhole
      rw [bind_ok (change_eq _ _)]
      have hclosing := Follows.eat hfurther ')'
      cases hhead : further.rest with
      | nil =>
          rw [Input.eat_other (by rw [hhead]; exact nofun)] at hclosing
          refine Reaches.after_follows hclosing fun _ => ?_
          exact .fault hstart (hwhole.trans (readPattern_unclosed hhead))
      | cons c behind =>
          obtain rfl : c = ')' := hends c (by rw [hhead]; exact rfl)
          have hshort := Input.tail_length_le further
          rw [Input.eat_head hhead] at hclosing
          refine Reaches.after_follows hclosing fun hlast => ?_
          refine .place hlast ⟨rfl, by omega⟩ (hwhole.trans ?_)
          rw [readPattern_close hhead, OpenGroup.close, hbody]

theorem reaches_atom {inside : Reading Node} {input : Input} (hon : input.On text)
    (hinside : ReadsInside text inside input) {c : Char} {rest : List Char}
    (hrest : input.rest = c :: rest) (hbar : c ≠ '|') (hclose : c ≠ ')')
    (hkind : Repeater.of? c = none) (level : Level) (opened : List OpenGroup) (groups : Nat) :
    Reaches text opened (readPattern level opened groups input) (EndsAtom input level)
      (atom text inside ⟨input.offset, groups, opened.length⟩) := by
  by_cases hopen : c = '('
  · subst hopen
    rw [atom, bind_ok ((Follows.offset hon).2 _ _), bind_ok ((Follows.bump hon hrest).2 _ _)]
    exact reaches_group hon hinside hrest level opened groups
  have hatom := Follows.atom hon hrest hopen inside
  rw [readPattern_item hrest hbar hclose hopen hkind]
  cases hread : readAtom c input.offset input.tail with
  | error e =>
      rw [hread] at hatom
      rw [hatom.2]
      exact .fault hatom.1 rfl
  | ok result =>
      obtain ⟨item, after⟩ := result
      have hlength := readAtom_length hread
      have hshorter : input.tail.rest.length < input.rest.length :=
        Input.tail_length_lt (by rw [hrest]; exact List.cons_ne_nil _ _)
      rw [hread] at hatom
      rw [hatom.2]
      exact .place hatom.1 ⟨rfl, by omega⟩ rfl

/-- Whether the rest of a branch is read from any place on, with so many rounds. -/
def ItemsReach (text : String) (rounds : Nat) : Prop :=
  ∀ level opened groups input, input.On text → 2 * input.rest.length + 1 ≤ rounds →
    Reaches text opened (readPattern level opened groups input) (EndsBranch input level)
      (items text rounds level.items level.repeated ⟨input.offset, groups, opened.length⟩)

def BranchesReach (text : String) (rounds : Nat) : Prop :=
  ∀ level opened groups input, input.On text → level.items = [] → level.repeated = false →
    2 * input.rest.length + 2 ≤ rounds →
    Reaches text opened (readPattern level opened groups input) (EndsPattern input)
      (alternation text rounds level.branches ⟨input.offset, groups, opened.length⟩)

theorem reaches_repetition {rounds : Nat} (hitems : ItemsReach text rounds) {input : Input}
    (hon : input.On text) {c : Char} {rest : List Char} (hrest : input.rest = c :: rest)
    {kind : Repeater} (hkind : Repeater.of? c = some kind) (level : Level) (groups : Nat)
    (hrounds : 2 * input.rest.length ≤ rounds) :
    Reaches text opened (readPattern level opened groups input) (EndsBranch input level)
      ((repetition text level.repeatable? >>= fun found => items text rounds found true)
        ⟨input.offset, groups, opened.length⟩) := by
  have hshorter : input.tail.rest.length < input.rest.length :=
    Input.tail_length_lt (by rw [hrest]; exact List.cons_ne_nil _ _)
  rw [readPattern_repeats hrest hkind]
  rcases level.repeatable? with _ | ⟨item, before⟩
  · have hfail : Follows text (repetition text none) input
        (malformed input.offset .nothingToRepeat) :=
      (Follows.offset hon).bind fun hon => Follows.fail hon.isBoundary _
    exact Reaches.of_follows_error _ hfail rfl
  have hrepetition := Follows.repetition hon hrest hkind item before
  cases hread : readRepeater kind input.offset input.tail with
  | error e =>
      rw [hread] at hrepetition
      exact Reaches.of_follows_error _ hrepetition rfl
  | ok result =>
      obtain ⟨bounds, after⟩ := result
      have hlength := readRepeater_length hread
      have heaten := after.eat_length_le '?'
      rw [hread] at hrepetition
      refine Reaches.after_follows hrepetition fun hlast => ?_
      exact (hitems (level.pushRepeated item before bounds !(after.eat '?').1) opened groups
        (after.eat '?').2 hlast (by omega)).mono fun _ _ _ hends => hends.mono rfl (by omega)

theorem itemsReach_succ {rounds : Nat} (hitems : ItemsReach text rounds)
    (hbranches : BranchesReach text rounds) : ItemsReach text (rounds + 1) := by
  intro level opened groups input hon hrounds
  rw [items, bind_ok ((Follows.peek hon).2 _ _)]
  cases hrest : input.rest with
  | nil =>
      refine .place hon ⟨rfl, rfl, Nat.le_refl _, ?_⟩ rfl
      rw [hrest]
      exact nofun
  | cons c rest =>
      rw [List.head?_cons]
      dsimp only
      by_cases hends : (c == '|' || c == ')') = true
      · rw [if_pos hends]
        refine .place hon ⟨rfl, rfl, Nat.le_refl _, ?_⟩ rfl
        rw [hrest]
        rintro d hd
        cases hd
        simpa using hends
      rw [if_neg hends]
      cases hkind : Repeater.of? c with
      | some kind =>
          rw [Option.isSome_some, if_pos rfl]
          exact reaches_repetition hitems hon hrest hkind level groups (by omega)
      | none =>
          rw [Option.isSome_none, if_neg Bool.false_ne_true]
          have hinside : ReadsInside text (alternation text rounds []) input :=
            fun opened groups after hafter hlt =>
              hbranches Level.start opened groups after hafter rfl rfl (by omega)
          simp only [Bool.or_eq_true, beq_iff_eq, not_or] at hends
          refine (reaches_atom hon hinside hrest hends.1 hends.2 hkind level opened groups).bind ?_
          rintro item last count after hafter ⟨rfl, hlt⟩ hwhole
          rw [hwhole]
          exact (hitems (level.push item) opened count after hafter (by omega)).mono
            fun _ _ _ hends => hends.mono rfl (by omega)

theorem branchesReach_succ {rounds : Nat} (hitems : ItemsReach text rounds)
    (hbranches : BranchesReach text rounds) : BranchesReach text (rounds + 1) := by
  intro level opened groups input hon hnone hrepeated hrounds
  rw [alternation]
  have hfirst := hitems level opened groups input hon (by omega)
  rw [hnone, hrepeated] at hfirst
  refine hfirst.bind ?_
  rintro branch last count after hafter ⟨hbefore, hbranch, hle, hends⟩ hwhole
  have hbar := Follows.eat hafter '|'
  by_cases hhead : after.rest.head? = some '|'
  · obtain ⟨behind, hrest⟩ := List.head?_eq_some_iff.mp hhead
    have hshorter : after.tail.rest.length < after.rest.length :=
      Input.tail_length_lt (by rw [hrest]; exact List.cons_ne_nil _ _)
    rw [Input.eat_head hrest] at hbar
    refine Reaches.after_follows hbar fun hnext => ?_
    have hlater := hbranches last.nextBranch opened count after.tail hnext rfl rfl (by omega)
    rw [Level.nextBranch, hbranch, hbefore] at hlater
    rw [hwhole, readPattern_bar hrest, Level.nextBranch, hbranch, hbefore]
    exact hlater.mono fun _ _ _ hends => ⟨hends.1, by have := hends.2.1; omega, hends.2.2⟩
  · rw [Input.eat_other hhead] at hbar
    refine Reaches.after_follows hbar fun _ => ?_
    refine .place hafter ⟨Level.node_eq hbefore hbranch, hle, fun c hc => ?_⟩ hwhole
    exact (hends c hc).resolve_left fun heq => hhead (heq ▸ hc)

theorem reach (text : String) (rounds : Nat) :
    ItemsReach text rounds ∧ BranchesReach text rounds := by
  -- An alternation spends a round before it has taken a character, so it needs one more.
  induction rounds with
  | zero =>
      exact ⟨fun _ _ _ _ _ hrounds => absurd hrounds (by omega),
        fun _ _ _ _ _ _ _ hrounds => absurd hrounds (by omega)⟩
  | succ rounds ih => exact ⟨itemsReach_succ ih.1 ih.2, branchesReach_succ ih.1 ih.2⟩

/-- A pattern is either read as by characters, or has the same fault between two characters. -/
theorem pattern_eq (text : String) :
    (∃ e, pattern text ⟨0, 0, 0⟩ = some (.error e) ∧ parse text = .error e ∧
      IsBoundary text e.position) ∨
    ∃ parsed place, pattern text ⟨0, 0, 0⟩ = some (.ok (parsed, place)) ∧
      parse text = .ok parsed := by
  have hflags := Follows.flagGroup text
  unfold parse
  cases hread : readFlags (Input.ofString text) with
  | error e =>
      rw [hread] at hflags
      exact .inl ⟨e, bind_error (hflags.2 0 0), rfl, hflags.1⟩
  | ok result =>
      obtain ⟨flags, input⟩ := result
      rw [hread] at hflags
      obtain ⟨hon, hflags⟩ := hflags
      have hlength := hon.length_le
      have hflags : flagGroup text ⟨0, 0, 0⟩ = some (.ok (flags, ⟨input.offset, 0, 0⟩)) :=
        hflags 0 0
      have hreach : Reaches text [] (readPattern Level.start [] 0 input) (EndsPattern input)
          (alternation text (2 * text.length + 2) [] ⟨input.offset, 0, 0⟩) :=
        (reach text (2 * text.length + 2)).2 Level.start [] 0 input hon rfl rfl (by omega)
      dsimp only
      rw [pattern, bind_ok hflags]
      generalize hresult : alternation text (2 * text.length + 2) [] ⟨input.offset, 0, 0⟩ = result
        at hreach
      cases hreach with
      | fault hboundary hwhole =>
          rw [hwhole]
          exact .inl ⟨_, bind_error hresult, rfl, hboundary⟩
      | @place node last groups after hafter hends hwhole =>
          obtain ⟨rfl, -, hclosing⟩ := hends
          rw [hwhole, bind_ok hresult, bind_ok ((Follows.peek hafter).2 _ _), bind_ok (here_eq _)]
          cases hrest : after.rest with
          | nil =>
              rw [readPattern_end hrest]
              exact .inr ⟨_, _, rfl, rfl⟩
          | cons c rest =>
              obtain rfl : c = ')' := hclosing c (by rw [hrest]; exact rfl)
              rw [readPattern_unbalanced hrest]
              exact .inl ⟨_, rfl, rfl, hafter.isBoundary⟩

end Reading

/-- Patterns are read by bytes to their end or up to a fault, and a fault shows between two
characters. -/
theorem parseByBytes_eq_parse (text : String) :
    parseByBytes? text = some (parse text) ∧
      ((∃ parsed, parse text = .ok parsed) ∨
        ∃ e, parse text = .error e ∧ IsBoundary text e.position ∧
          e.position ≤ text.utf8ByteSize) := by
  rw [parseByBytes?]
  obtain ⟨e, hwhole, hparse, hboundary⟩ | ⟨parsed, place, hwhole, hparse⟩ := Reading.pattern_eq text
  · rw [hwhole, hparse]
    exact ⟨rfl, .inr ⟨e, rfl, hboundary, hboundary.le⟩⟩
  · rw [hwhole, hparse]
    exact ⟨rfl, .inl ⟨parsed, rfl⟩⟩

end TextColumns.Pattern
