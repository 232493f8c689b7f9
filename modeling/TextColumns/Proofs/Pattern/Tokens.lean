import TextColumns.Proofs.Pattern.Bracket

/-!
The tokens of patterns.  A pattern that is read is spelled by tokens, each of which looks at no more
than one character behind it, and the tree is built from the tokens alone.
-/

namespace TextColumns.Pattern

inductive Token where
  | bar
  | close
  /-- The opening of a group that does not capture. -/
  | group
  | capture
  | repeater (min : Nat) (max : Option Nat) (greedy : Bool)
  | atom (node : Node)

inductive SpellsAtom : List Char → Node → Prop
  | literal {c : Char} (hc : c ∉ metacharacters) : SpellsAtom [c] (.literal c)
  | escaped {spelled : List Char} {c : Char} (hc : SpellsChar ('\x5c' :: spelled) c) :
      SpellsAtom ('\x5c' :: spelled) (.literal c)
  | named (set : NamedSet) (negated : Bool) :
      SpellsAtom ['\x5c', set.letter negated] (.oneOf (set.codeSet negated))
  | bracket {text : List Char} {negated : Bool} {items : List ClassItem}
      (hspells : SpellsClass [] text negated items) :
      SpellsAtom ('[' :: text) (.oneOf (ClassItem.codeSet items negated))
  | assertion {letter : Char} {a : Assertion}
      (hletter : Escape.ofLetter? letter = some (.assertion a)) :
      SpellsAtom ['\x5c', letter] (.assertion a)
  | any : SpellsAtom ['.'] .any
  | caret : SpellsAtom ['^'] (.assertion .caret)
  | dollar : SpellsAtom ['$'] (.assertion .dollar)

/-- How a token is spelled in front of `tail`, which must not begin with what would belong to the
token. -/
inductive SpellsToken (tail : List Char) : List Char → Token → Prop
  | bar : SpellsToken tail ('|' :: tail) .bar
  | close : SpellsToken tail (')' :: tail) .close
  | group : SpellsToken tail ('(' :: '?' :: ':' :: tail) .group
  | capture (htail : tail.head? ≠ some '?') : SpellsToken tail ('(' :: tail) .capture
  | repeater {spelled : List Char} {min : Nat} {max : Option Nat} (greedy : Bool)
      (hbounds : SpellsRepeater spelled min max)
      (hmark : greedy = true → tail.head? ≠ some '?') :
      SpellsToken tail (spelled ++ (mark greedy ++ tail)) (.repeater min max greedy)
  | atom {spelled : List Char} {node : Node} (hatom : SpellsAtom spelled node) :
      SpellsToken tail (spelled ++ tail) (.atom node)

inductive SpellsTokens : List Char → List Token → Prop
  | nil : SpellsTokens [] []
  | cons {text tail : List Char} {token : Token} {tokens : List Token}
      (htoken : SpellsToken tail text token) (htokens : SpellsTokens tail tokens) :
      SpellsTokens text (token :: tokens)

/-- What has been built of a tree, with the indices and the levels of the groups that are open. -/
structure Stage where
  level : Level
  opened : List (Option Nat × Level)
  groups : Nat

def Stage.start : Stage :=
  ⟨.start, [], 0⟩

def Level.repeat? (min : Nat) (max : Option Nat) (greedy : Bool) (level : Level) : Option Level :=
  level.repeatable?.map fun found => level.pushRepeated found.1 found.2 (min, max) greedy

def Token.step (stage : Stage) : Token → Option Stage
  | .bar => some { stage with level := stage.level.nextBranch }
  | .close =>
    match stage.opened with
    | [] => none
    | (index, outer) :: opened =>
      some { stage with level := outer.push (.group index stage.level.node), opened := opened }
  | .group =>
    if maxNesting ≤ stage.opened.length then none
    else some ⟨.start, (none, stage.level) :: stage.opened, stage.groups⟩
  | .capture =>
    if maxNesting ≤ stage.opened.length ∨ maxGroups ≤ stage.groups then none
    else some ⟨.start, (some (stage.groups + 1), stage.level) :: stage.opened, stage.groups + 1⟩
  | .repeater min max greedy =>
    (stage.level.repeat? min max greedy).map fun level => { stage with level := level }
  | .atom node => some { stage with level := stage.level.push node }

def build (stage : Stage) : List Token → Option (Node × Nat)
  | [] => if stage.opened.isEmpty then some (stage.level.node, stage.groups) else none
  | token :: tokens => (token.step stage).bind (build · tokens)

def Stage.of (level : Level) (opened : List OpenGroup) (groups : Nat) : Stage :=
  ⟨level, opened.map fun group => (group.index, group.outer), groups⟩

variable {input after : Input} {tail : List Char}

structure StartsAtom (c : Char) : Prop where
  bar : c ≠ '|'
  close : c ≠ ')'
  opening : c ≠ '('
  repeater : Repeater.of? c = none

theorem startsAtom_plain {c : Char} (hc : c ∉ metacharacters) : StartsAtom c := by
  have hne {d : Char} (hd : d ∈ metacharacters) : c ≠ d := fun heq => hc (heq ▸ hd)
  exact ⟨hne (by decide), hne (by decide), hne (by decide), Repeater.of?_plain hc⟩

theorem startsAtom_marked {c : Char} (hc : c ∈ ['[', '.', '^', '$', '\x5c']) : StartsAtom c := by
  simp only [List.mem_cons, List.not_mem_nil, or_false] at hc
  rcases hc with rfl | rfl | rfl | rfl | rfl <;> exact ⟨by decide, by decide, by decide, rfl⟩

theorem SpellsAtom.read {spelled : List Char} {node : Node} (hspells : SpellsAtom spelled node)
    (hrest : input.rest = spelled ++ tail) :
    ∃ c rest further, input.rest = c :: rest ∧ StartsAtom c ∧ further.rest = tail ∧
      readAtom c input.offset input.tail = .ok (node, further) := by
  have hescape {letter : Char} {escape : Escape} (hletter : Escape.ofLetter? letter = some escape)
      (hx : letter ≠ 'x') (hrest : input.rest = '\x5c' :: letter :: tail) :
      ∃ further, further.rest = tail ∧
        readEscape input.offset input.tail = .ok (escape, further) := by
    have hfirst : input.tail.rest = letter :: tail := Input.tail_rest hrest
    exact ⟨input.tail.tail, Input.tail_rest hfirst, by rw [readEscape_letter hfirst hx, hletter]⟩
  cases hspells with
  | literal hc =>
      exact ⟨_, _, input.tail, hrest, startsAtom_plain hc, Input.tail_rest hrest,
        readAtom_plain _ _ hc⟩
  | escaped hc =>
      obtain ⟨further, hfurther, hread⟩ :=
        readEscape_spelled hc (Input.tail_rest hrest) input.offset
      refine ⟨_, _, further, hrest, startsAtom_marked (by decide), hfurther, ?_⟩
      rw [readAtom, hread]
  | named set negated =>
      have hx : set.letter negated ≠ 'x' := by cases set <;> cases negated <;> decide
      obtain ⟨further, hfurther, hread⟩ := hescape (ofLetter?_letter set negated) hx hrest
      refine ⟨_, _, further, hrest, startsAtom_marked (by decide), hfurther, ?_⟩
      rw [readAtom, hread]
  | bracket hspells =>
      obtain ⟨used, rfl, hused⟩ := hspells.exists_spelled
      have hinside : input.tail.rest = used ++ ']' :: tail := by
        rw [Input.tail_rest hrest, List.append_eq, List.append_assoc]
        rfl
      obtain ⟨further, hfurther, hread⟩ :=
        readClass_spelled (hinside ▸ hused tail) input.offset
      refine ⟨_, _, further, hrest, startsAtom_marked (by decide), hfurther, ?_⟩
      rw [readAtom, hread]
  | @assertion letter a hletter =>
      have hx : letter ≠ 'x' := by
        rintro rfl
        cases hletter
      obtain ⟨further, hfurther, hread⟩ := hescape hletter hx hrest
      refine ⟨_, _, further, hrest, startsAtom_marked (by decide), hfurther, ?_⟩
      rw [readAtom, hread]
  | any | caret | dollar =>
      exact ⟨_, _, input.tail, hrest, startsAtom_marked (by decide), Input.tail_rest hrest, rfl⟩

/-- A token that is spelled takes the reader to the next stage. -/
theorem SpellsToken.read {token : Token} (hspells : SpellsToken tail input.rest token)
    {level : Level} {opened : List OpenGroup} {groups : Nat} {next : Stage}
    (hstep : token.step (.of level opened groups) = some next) :
    ∃ nextOpened further, further.rest = tail ∧ .of next.level nextOpened next.groups = next ∧
      readPattern level opened groups input =
        readPattern next.level nextOpened next.groups further := by
  generalize htext : input.rest = text at hspells
  cases hspells with
  | bar =>
      cases hstep
      exact ⟨opened, input.tail, Input.tail_rest htext, rfl, readPattern_bar htext⟩
  | close =>
      cases opened with
      | nil => cases hstep
      | cons group opened =>
          cases hstep
          exact ⟨opened, input.tail, Input.tail_rest htext, rfl, readPattern_close htext⟩
  | group =>
      simp only [Token.step, Stage.of, List.length_map] at hstep
      by_cases hnesting : maxNesting ≤ opened.length
      · rw [if_pos hnesting] at hstep
        cases hstep
      · rw [if_neg hnesting] at hstep
        cases hstep
        have hinside : input.tail.rest = '?' :: ':' :: tail := Input.tail_rest htext
        exact ⟨⟨input.offset, none, level⟩ :: opened, input.tail.tail.tail,
          Input.tail_rest (Input.tail_rest hinside), rfl,
          readPattern_open htext hnesting (readOpening_plain hinside)⟩
  | capture htail =>
      simp only [Token.step, Stage.of, List.length_map] at hstep
      by_cases hfull : maxNesting ≤ opened.length ∨ maxGroups ≤ groups
      · rw [if_pos hfull] at hstep
        cases hstep
      · rw [if_neg hfull] at hstep
        obtain ⟨hnesting, hgroups⟩ := not_or.mp hfull
        cases hstep
        have hinside : input.tail.rest = tail := Input.tail_rest htext
        refine ⟨⟨input.offset, some (groups + 1), level⟩ :: opened, input.tail, hinside, rfl,
          readPattern_open htext hnesting ?_⟩
        rw [readOpening_capture (by rwa [hinside]), if_neg hgroups]
  | repeater greedy hbounds hmark =>
      obtain ⟨c, rest, kind, behind, hcons, hkind, hbehind, hread⟩ :=
        hbounds.read input.offset htext
      obtain ⟨hgreedy, hfurther⟩ := eat_mark hbehind hmark
      simp only [Token.step, Stage.of, Level.repeat?] at hstep
      cases hrepeatable : level.repeatable? with
      | none =>
          rw [hrepeatable] at hstep
          cases hstep
      | some found =>
          rw [hrepeatable] at hstep
          cases hstep
          refine ⟨opened, _, hfurther, rfl, ?_⟩
          rw [readPattern_repeater hcons hkind hrepeatable hread, hgreedy, Bool.not_not]
  | atom hatom =>
      cases hstep
      obtain ⟨c, rest, further, hcons, hstarts, hfurther, hread⟩ := hatom.read htext
      refine ⟨opened, further, hfurther, rfl, ?_⟩
      rw [readPattern_item hcons hstarts.bar hstarts.close hstarts.opening hstarts.repeater, hread]
      rfl

theorem SpellsTokens.read {tokens : List Token} (hspells : SpellsTokens input.rest tokens)
    {level : Level} {opened : List OpenGroup} {groups : Nat} {result : Node × Nat}
    (hbuild : build (.of level opened groups) tokens = some result) :
    readPattern level opened groups input = .ok result := by
  generalize htext : input.rest = text at hspells
  induction hspells generalizing input level opened groups with
  | nil =>
      cases opened with
      | nil =>
          cases hbuild
          exact readPattern_end htext
      | cons group outer => cases hbuild
  | @cons text tail token tokens htoken _ ih =>
      rw [build, Option.bind_eq_some_iff] at hbuild
      obtain ⟨next, hstep, hbuild⟩ := hbuild
      obtain ⟨nextOpened, further, hfurther, hnext, hread⟩ := (htext ▸ htoken).read hstep
      rw [hread]
      exact ih (by rwa [hnext]) hfurther

theorem StartsAtom.not_mem {c : Char} (hstarts : StartsAtom c)
    (hc : c ∉ ['[', '.', '^', '$', '\x5c']) : c ∉ metacharacters := by
  have hall : metacharacters.all (fun d => d == '|' || d == ')' || d == '(' ||
      (Repeater.of? d).isSome || ['[', '.', '^', '$', '\x5c'].contains d) = true := by decide
  intro hmem
  have hother := List.all_eq_true.mp hall c hmem
  simp [hstarts.bar, hstarts.close, hstarts.opening, hstarts.repeater, hc] at hother

theorem spells_of_readAtom {c : Char} {position : Nat} {node : Node}
    (hread : readAtom c position input = .ok (node, after)) :
    (c ∉ ['[', '.', '^', '$', '\x5c'] ∧ node = .literal c ∧ input = after) ∨
      ∃ spelled, SpellsAtom (c :: spelled) node ∧ input.rest = spelled ++ after.rest := by
  revert hread
  fun_cases readAtom c position input with
  | case1 | case3 => intro hread; cases hread
  | case2 set next hclass =>
      intro hread
      cases hread
      obtain ⟨negated, items, hspells, rfl⟩ := spells_of_readClass hclass
      obtain ⟨used, hrest, hused⟩ := hspells.exists_spelled
      refine .inr ⟨used ++ [']'], .bracket (hused []), ?_⟩
      rw [hrest, List.append_assoc]
      rfl
  | case4 d next hescape | case5 set next hescape | case6 a next hescape =>
      intro hread
      cases hread
      rcases spells_of_readEscape hescape with
        ⟨d, spelled, heq, hd, hrest⟩ | ⟨set, negated, heq, hrest⟩ | ⟨a, letter, heq, hletter, hrest⟩
      · cases heq <;> exact .inr ⟨spelled, .escaped hd, hrest⟩
      · cases heq <;> exact .inr ⟨_, .named set negated, hrest⟩
      · cases heq <;> exact .inr ⟨_, .assertion hletter, hrest⟩
  | case7 =>
      intro hread
      cases hread
      exact .inr ⟨[], .any, rfl⟩
  | case8 =>
      intro hread
      cases hread
      exact .inr ⟨[], .caret, rfl⟩
  | case9 =>
      intro hread
      cases hread
      exact .inr ⟨[], .dollar, rfl⟩
  | case10 c hbracket hbackslash hdot hcaret hdollar =>
      intro hread
      cases hread
      refine .inl ⟨?_, rfl, rfl⟩
      simp only [List.mem_cons, List.not_mem_nil, or_false, not_or]
      exact ⟨hbracket, hdot, hcaret, hdollar, hbackslash⟩

theorem SpellsAtom.of_readAtom {c : Char} {position : Nat} {node : Node} (hstarts : StartsAtom c)
    (hread : readAtom c position input = .ok (node, after)) :
    ∃ spelled, SpellsAtom (c :: spelled) node ∧ input.rest = spelled ++ after.rest := by
  rcases spells_of_readAtom hread with ⟨hc, rfl, rfl⟩ | hspelled
  · exact ⟨[], .literal (hstarts.not_mem hc), rfl⟩
  · exact hspelled

theorem spells_mark (input : Input) :
    input.rest = mark (!(input.eat '?').1) ++ (input.eat '?').2.rest ∧
      ((!(input.eat '?').1) = true → (input.eat '?').2.rest.head? ≠ some '?') := by
  rcases heat : input.eat '?' with ⟨eaten, further⟩
  cases eaten with
  | true => exact ⟨Input.rest_of_eat heat, nofun⟩
  | false =>
      obtain rfl := Input.eq_of_eat_eq_false heat
      refine ⟨rfl, fun _ hhead => ?_⟩
      obtain ⟨rest, hrest⟩ := List.head?_eq_some_iff.mp hhead
      rw [Input.eat_head hrest] at heat
      cases heat

theorem token_of_readOpening {position groups count : Nat} {index : Option Nat} (level : Level)
    (opened : List OpenGroup) (hnesting : ¬ maxNesting ≤ opened.length)
    (hread : readOpening position groups input = .ok ((index, count), after)) :
    ∃ token, SpellsToken after.rest ('(' :: input.rest) token ∧
      token.step (.of level opened groups) =
        some (.of .start (⟨position, index, level⟩ :: opened) count) := by
  revert hread
  fun_cases readOpening position groups input with
  | case1 rest hrest =>
      intro hread
      cases hread
      refine ⟨.group, ?_, ?_⟩
      · rw [hrest, Input.tail_rest (Input.tail_rest hrest)]
        exact .group
      · simp only [Token.step, Stage.of, List.length_map, if_neg hnesting]
        rfl
  | case2 | case3 => intro hread; cases hread
  | case4 hgroups _ hquestion =>
      intro hread
      cases hread
      refine ⟨.capture, .capture fun hhead => ?_, ?_⟩
      · obtain ⟨rest, hrest⟩ := List.head?_eq_some_iff.mp hhead
        exact hquestion rest hrest
      · simp only [Token.step, Stage.of, List.length_map, if_neg (not_or.mpr ⟨hnesting, hgroups⟩)]
        rfl

/-- What the reader goes over is spelled by tokens that build the same tree. -/
theorem tokens_of_readPattern {level : Level} {opened : List OpenGroup} {groups : Nat}
    {result : Node × Nat} (hread : readPattern level opened groups input = .ok result) :
    ∃ tokens, SpellsTokens input.rest tokens ∧
      build (.of level opened groups) tokens = some result := by
  have hcons {input : Input} {c : Char} {rest : List Char} (hrest : input.rest = c :: rest) :
      input.rest = c :: input.tail.rest := by
    rw [hrest, Input.tail_rest hrest]
  fun_induction readPattern level opened groups input with
  | case1 level groups input hrest =>
      cases hread
      exact ⟨[], hrest ▸ .nil, rfl⟩
  | case3 level opened groups input c rest hrest hshorter hbar ih =>
      obtain rfl : c = '|' := eq_of_beq hbar
      obtain ⟨tokens, htokens, hbuild⟩ := ih hread
      exact ⟨.bar :: tokens, .cons (hcons hrest ▸ .bar) htokens, hbuild⟩
  | case5 level groups input c rest hrest hshorter hbar hclose group outer ih =>
      obtain rfl : c = ')' := eq_of_beq hclose
      obtain ⟨tokens, htokens, hbuild⟩ := ih hread
      exact ⟨.close :: tokens, .cons (hcons hrest ▸ .close) htokens, hbuild⟩
  | case8 level opened groups input c rest hrest hshorter hbar hclose hopen hnesting index number
      after hopening hlength ih =>
      obtain rfl : c = '(' := eq_of_beq hopen
      obtain ⟨tokens, htokens, hbuild⟩ := ih hread
      obtain ⟨token, htoken, hstep⟩ := token_of_readOpening level opened hnesting hopening
      refine ⟨token :: tokens, .cons (hcons hrest ▸ htoken) htokens, ?_⟩
      rw [build, hstep]
      exact hbuild
  | case11 level opened groups input c rest hrest hshorter hbar hclose hopen kind hkind item before
      hrepeatable bounds after hbounds =>
      rename_i ih
      obtain ⟨tokens, htokens, hbuild⟩ := ih hread
      obtain ⟨spelled, hspelled, hbehind⟩ := spells_of_readRepeater hkind hbounds
      obtain ⟨hmark, hgreedy⟩ := spells_mark after
      refine ⟨.repeater bounds.1 bounds.2 (!(after.eat '?').1) :: tokens, .cons ?_ htokens, ?_⟩
      · rw [hcons hrest, hbehind, hmark]
        exact .repeater _ hspelled hgreedy
      · rw [build, Token.step, Stage.of, Level.repeat?, hrepeatable]
        exact hbuild
  | case13 level opened groups input c rest hrest hshorter hbar hclose hopen hkind item after hatom
      hlength ih =>
      obtain ⟨tokens, htokens, hbuild⟩ := ih hread
      have hstarts : StartsAtom c := ⟨by simpa using hbar, by simpa using hclose,
        by simpa using hopen, hkind⟩
      obtain ⟨spelled, hspelled, hbehind⟩ := SpellsAtom.of_readAtom hstarts hatom
      refine ⟨.atom item :: tokens, .cons ?_ htokens, hbuild⟩
      rw [hcons hrest, hbehind]
      exact .atom hspelled
  | _ => cases hread

/-- A pattern is read just where it is spelled by tokens that build a tree. -/
theorem readPattern_eq_ok_iff {level : Level} {opened : List OpenGroup} {groups : Nat}
    {result : Node × Nat} :
    readPattern level opened groups input = .ok result ↔
      ∃ tokens, SpellsTokens input.rest tokens ∧
        build (.of level opened groups) tokens = some result :=
  ⟨tokens_of_readPattern, fun ⟨_, htokens, hbuild⟩ => htokens.read hbuild⟩

theorem SpellsAtom.exists_cons {spelled : List Char} {node : Node}
    (hspells : SpellsAtom spelled node) : ∃ c rest, spelled = c :: rest ∧ StartsAtom c := by
  have halone : (Input.mk spelled 0).rest = spelled ++ [] := (List.append_nil spelled).symm
  obtain ⟨c, rest, -, hrest, hstarts, -⟩ := hspells.read halone
  exact ⟨c, rest, hrest, hstarts⟩

theorem SpellsRepeater.exists_cons {spelled : List Char} {min : Nat} {max : Option Nat}
    (hspells : SpellsRepeater spelled min max) :
    ∃ c rest, spelled = c :: rest ∧ (Repeater.of? c).isSome = true := by
  cases hspells <;> exact ⟨_, _, rfl, rfl⟩

theorem SpellsTokens.head?_eq_colon {text rest : List Char} {tokens : List Token}
    (hspells : SpellsTokens text tokens) (htext : text = '(' :: '?' :: rest) :
    rest.head? = some ':' := by
  cases hspells with
  | nil => cases htext
  | cons htoken =>
      cases htoken with
      | bar | close => cases htext
      | group =>
          cases htext
          rfl
      | capture htail =>
          obtain rfl := (List.cons.inj htext).2
          exact absurd rfl htail
      | repeater _ hbounds =>
          obtain ⟨c, more, rfl, hkind⟩ := hbounds.exists_cons
          obtain rfl : c = '(' := (List.cons.inj htext).1
          cases hkind
      | atom hatom =>
          obtain ⟨c, more, rfl, hstarts⟩ := hatom.exists_cons
          exact absurd (List.cons.inj htext).1 hstarts.opening

theorem SpellsTokens.parse {text : String} {tokens : List Token} {node : Node} {groups : Nat}
    (hspells : SpellsTokens text.toList tokens)
    (hbuild : build .start tokens = some (node, groups)) :
    parse text = .ok ⟨node, groups, .none⟩ := by
  have hflags : readFlags (.ofString text) = .ok (.none, .ofString text) :=
    readFlags_none fun rest => hspells.head?_eq_colon
  have hpattern : readPattern Level.start [] 0 (.ofString text) = .ok (node, groups) :=
    SpellsTokens.read hspells hbuild
  simp only [Pattern.parse, hflags, hpattern]

end TextColumns.Pattern
