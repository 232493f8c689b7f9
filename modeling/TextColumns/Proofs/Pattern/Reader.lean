import TextColumns.Pattern.Parse

namespace TextColumns.Pattern

variable {input : Input} {c : Char} {rest : List Char}

namespace Input

theorem tail_eq (hrest : input.rest = c :: rest) :
    input.tail = ⟨rest, input.offset + c.utf8Size⟩ := by
  rw [Input.tail, hrest]

theorem tail_rest (hrest : input.rest = c :: rest) : input.tail.rest = rest := by
  rw [tail_eq hrest]

theorem eat_head (hrest : input.rest = c :: rest) : input.eat c = (true, input.tail) := by
  simp [Input.eat, hrest]

theorem eat_other (hhead : input.rest.head? ≠ some c) : input.eat c = (false, input) := by
  simp [Input.eat, hhead]

theorem rest_of_eat {further : Input} (heat : input.eat c = (true, further)) :
    input.rest = c :: further.rest := by
  by_cases hhead : (input.rest.head? == some c) = true
  · rw [Input.eat, if_pos hhead] at heat
    obtain ⟨rest, hrest⟩ := List.head?_eq_some_iff.mp (eq_of_beq hhead)
    cases heat
    rw [hrest, tail_rest hrest]
  · rw [Input.eat, if_neg hhead] at heat
    cases heat

theorem eq_of_eat_eq_false {further : Input} (heat : input.eat c = (false, further)) :
    further = input := by
  unfold Input.eat at heat
  split at heat
  · cases heat
  · cases heat
    rfl

end Input

theorem readEscape_hex (hrest : input.rest = 'x' :: rest)
    (position : Nat) : readEscape position input = readHex position input.tail := by
  rw [readEscape, hrest]
  rfl

theorem readEscape_letter (hrest : input.rest = c :: rest) (hc : c ≠ 'x') (position : Nat) :
    readEscape position input =
      match Escape.ofLetter? c with
      | some escape => .ok (escape, input.tail)
      | none => malformed position (.invalidEscape c) := by
  unfold readEscape
  rw [hrest]
  split
  next hnil => cases hnil
  next hcons => exact absurd (List.cons.inj hcons).1 hc
  next hcons =>
    obtain ⟨rfl, -⟩ := List.cons.inj hcons
    rfl

theorem readMember_escape (hrest : input.rest = '\x5c' :: rest) :
    readMember input =
      match readEscape input.offset input.tail with
      | .error e => .error e
      | .ok (.char c, after) => .ok (.char c, after)
      | .ok (.set set, after) => .ok (.ranges set.positiveRanges, after)
      | .ok (.assertion _, _) => malformed input.offset .assertionInClass := by
  rw [readMember, hrest]
  rfl

theorem readMember_char (hrest : input.rest = c :: rest) (hc : c ≠ '\x5c') :
    readMember input = .ok (.char c, input.tail) := by
  unfold readMember
  rw [hrest]
  split
  next hnil => cases hnil
  next hcons => exact absurd (List.cons.inj hcons).1 hc
  next hcons =>
    obtain ⟨rfl, -⟩ := List.cons.inj hcons
    rfl

theorem startsRange_eq (input : Input) :
    startsRange input = (input.rest.head? == some '-' && input.rest[1]?.any (· != ']')) := by
  fun_cases startsRange input with
  | case1 c rest hrest =>
      rw [hrest]
      rfl
  | case2 hother =>
      rcases hrest : input.rest with _ | ⟨c, _ | ⟨d, rest⟩⟩
      · rfl
      · exact (Bool.and_false _).symm
      · have hc : c ≠ '-' := by
          rintro rfl
          exact hother d rest hrest
        rw [List.head?_cons, beq_false_of_ne (fun heq => hc (Option.some.inj heq)), Bool.false_and]

theorem readItems_end {opened : Nat} {first : Bool} {found : List CodeRange}
    (hrest : input.rest = []) :
    readItems opened first input found = malformed opened .unterminatedClass := by
  obtain ⟨_, offset⟩ := input
  subst hrest
  rw [readItems]

theorem readItems_cons {opened : Nat} {first : Bool} {found : List CodeRange}
    (hrest : input.rest = c :: rest) :
    readItems opened first input found =
      if c == ']' && !first then .ok (found, input.tail)
      else
        match readItem input with
        | .error e => .error e
        | .ok (ranges, after) => readItems opened false after (ranges ++ found) := by
  obtain ⟨_, offset⟩ := input
  subst hrest
  rw [readItems]
  dsimp only
  by_cases hclosing : (c == ']' && !first) = true
  · rw [if_pos hclosing, if_pos hclosing]
  · rw [if_neg hclosing, if_neg hclosing]
    split
    next herror => rw [herror]
    next hok => rw [hok]

theorem rest_of_startsRange (hrange : startsRange input = true) :
    ∃ rest, input.rest = '-' :: rest := by
  rw [startsRange_eq, Bool.and_eq_true_iff] at hrange
  exact List.head?_eq_some_iff.mp (eq_of_beq hrange.1)

theorem readFlags_group (hrest : input.rest = '(' :: '?' :: rest) :
    readFlags input =
      if rest.head? == some ':' then .ok (.none, input) else readFlagLetters .none 2 rest := by
  unfold readFlags
  rw [hrest]
  split
  next hcons =>
    cases hcons
    rfl
  next hcolon hcons =>
    cases hcons
    rw [if_neg]
    rw [beq_iff_eq, List.head?_eq_some_iff]
    rintro ⟨further, rfl⟩
    exact hcolon further rfl
  next hnone => exact absurd rfl (hnone rest)

theorem readFlags_plain (hrest : ¬ ['(', '?'].isPrefixOf input.rest = true) :
    readFlags input = .ok (.none, input) := by
  fun_cases readFlags input with
  | case1 | case3 => rfl
  | case2 rest _ hcons =>
      rw [hcons] at hrest
      exact absurd rfl hrest

theorem readFlags_none
    (hrest : ∀ rest, input.rest = '(' :: '?' :: rest → rest.head? = some ':') :
    readFlags input = .ok (.none, input) := by
  by_cases hgroup : ['(', '?'].isPrefixOf input.rest = true
  · obtain ⟨rest, heq⟩ := List.isPrefixOf_iff_prefix.mp hgroup
    have hopen : input.rest = '(' :: '?' :: rest := heq.symm
    rw [readFlags_group hopen, if_pos (beq_iff_eq.mpr (hrest rest hopen))]
  · exact readFlags_plain hgroup

theorem readOpening_plain {position groups : Nat} (hrest : input.rest = '?' :: ':' :: rest) :
    readOpening position groups input = .ok ((none, groups), input.tail.tail) := by
  rw [readOpening, hrest]
  rfl

theorem readOpening_unsupported {position groups : Nat} (hrest : input.rest = '?' :: rest)
    (hcolon : rest.head? ≠ some ':') :
    readOpening position groups input = malformed position .unsupportedGroup := by
  unfold readOpening
  rw [hrest]
  split
  next hcons =>
    cases hcons
    exact absurd rfl hcolon
  next => rfl
  next hnone => exact absurd rfl (hnone rest)

theorem readOpening_capture {position groups : Nat} (hquestion : input.rest.head? ≠ some '?') :
    readOpening position groups input =
      if maxGroups ≤ groups then malformed position .tooManyGroups
      else .ok ((some (groups + 1), groups + 1), input) := by
  fun_cases readOpening position groups input with
  | case1 rest hcons | case2 rest _ hcons =>
      rw [hcons] at hquestion
      exact absurd rfl hquestion
  | case3 hgroups => rw [if_pos hgroups]
  | case4 hgroups => rw [if_neg hgroups]

section Steps

variable {level : Level} {opened : List OpenGroup} {groups : Nat}

theorem readPattern_end (hrest : input.rest = []) :
    readPattern level [] groups input = .ok (level.node, groups) := by
  obtain ⟨_, offset⟩ := input
  subst hrest
  refine (readPattern.eq_def ..).trans ?_
  rfl

theorem readPattern_unclosed {group : OpenGroup} {outer : List OpenGroup}
    (hrest : input.rest = []) :
    readPattern level (group :: outer) groups input = malformed group.position .unclosedGroup := by
  obtain ⟨_, offset⟩ := input
  subst hrest
  exact readPattern.eq_def ..

theorem readPattern_unbalanced (hrest : input.rest = ')' :: rest) :
    readPattern level [] groups input = malformed input.offset .unbalancedParenthesis := by
  obtain ⟨_, offset⟩ := input
  subst hrest
  exact readPattern.eq_def ..

theorem readPattern_bar (hrest : input.rest = '|' :: rest) :
    readPattern level opened groups input =
      readPattern level.nextBranch opened groups input.tail := by
  obtain ⟨_, offset⟩ := input
  subst hrest
  refine (readPattern.eq_def ..).trans ?_
  rfl

theorem readPattern_close {group : OpenGroup} {outer : List OpenGroup}
    (hrest : input.rest = ')' :: rest) :
    readPattern level (group :: outer) groups input =
      readPattern (group.close level) outer groups input.tail := by
  obtain ⟨_, offset⟩ := input
  subst hrest
  refine (readPattern.eq_def ..).trans ?_
  rfl

theorem readPattern_nested (hrest : input.rest = '(' :: rest)
    (hnesting : maxNesting ≤ opened.length) :
    readPattern level opened groups input = malformed input.offset .nestedTooDeeply := by
  obtain ⟨_, offset⟩ := input
  subst hrest
  refine (readPattern.eq_def ..).trans ?_
  dsimp only
  rw [if_neg (by decide), if_neg (by decide), if_pos (by decide), if_pos hnesting]

theorem readPattern_opening (hrest : input.rest = '(' :: rest)
    (hnesting : ¬ maxNesting ≤ opened.length) :
    readPattern level opened groups input =
      match readOpening input.offset groups input.tail with
      | .error e => .error e
      | .ok ((index, groups), after) =>
        readPattern Level.start (⟨input.offset, index, level⟩ :: opened) groups after := by
  obtain ⟨_, offset⟩ := input
  subst hrest
  refine (readPattern.eq_def ..).trans ?_
  dsimp only
  rw [if_neg (by decide), if_neg (by decide), if_pos (by decide), if_neg hnesting]
  split
  next herror => rw [herror]
  next hok => rw [hok]

theorem readPattern_repeats {kind : Repeater} (hrest : input.rest = c :: rest)
    (hkind : Repeater.of? c = some kind) :
    readPattern level opened groups input =
      match level.repeatable? with
      | none => malformed input.offset .nothingToRepeat
      | some (item, before) =>
        match readRepeater kind input.offset input.tail with
        | .error e => .error e
        | .ok (bounds, after) =>
          readPattern (level.pushRepeated item before bounds !(after.eat '?').1) opened groups
            (after.eat '?').2 := by
  obtain ⟨_, offset⟩ := input
  subst hrest
  have hne {d : Char} (hd : Repeater.of? d = none) : ¬ (c == d) = true := by
    rw [beq_iff_eq]
    rintro rfl
    cases hkind.symm.trans hd
  refine (readPattern.eq_def ..).trans ?_
  dsimp only
  rw [if_neg (hne rfl), if_neg (hne rfl), if_neg (hne rfl)]
  rw [hkind]
  dsimp only
  cases level.repeatable? with
  | none => rfl
  | some result =>
      dsimp only
      split
      next herror => rw [herror]
      next hok => rw [hok]

theorem readPattern_item (hrest : input.rest = c :: rest) (hbar : c ≠ '|') (hclose : c ≠ ')')
    (hopen : c ≠ '(') (hkind : Repeater.of? c = none) :
    readPattern level opened groups input =
      match readAtom c input.offset input.tail with
      | .error e => .error e
      | .ok (item, after) => readPattern (level.push item) opened groups after := by
  obtain ⟨_, offset⟩ := input
  subst hrest
  refine (readPattern.eq_def ..).trans ?_
  dsimp only
  rw [if_neg (by simpa using hbar), if_neg (by simpa using hclose), if_neg (by simpa using hopen)]
  rw [hkind]
  dsimp only
  split
  next herror => rw [herror]
  next hok => rw [hok]

end Steps

end TextColumns.Pattern
