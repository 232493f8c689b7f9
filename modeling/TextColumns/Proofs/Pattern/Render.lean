import TextColumns.Proofs.Pattern.Bounds
import TextColumns.Proofs.Pattern.Canonical
import TextColumns.Proofs.Pattern.Literal

/-!
Trees as texts.  The text of a tree names the ranges of its sets one by one and every bound in
decimal; what is written for a bound, a set or an assertion is read as such, whatever follows it.
-/

namespace TextColumns.Pattern

/-- The characters that a bracket expression does not take for themselves everywhere. -/
def bracketCharacters : List Char :=
  "\\][^-".toList

def memberText (c : Char) : List Char :=
  if c ∈ bracketCharacters then ['\x5c', c] else [c]

def CodeRange.text (range : CodeRange) : List Char :=
  if range.low = range.high then memberText (.ofNat range.low)
  else memberText (.ofNat range.low) ++ '-' :: memberText (.ofNat range.high)

def rangesText (ranges : List CodeRange) : List Char :=
  ranges.flatMap CodeRange.text

def CodeSet.text (set : CodeSet) : List Char :=
  '[' :: ((if set.negated then ['^'] else []) ++ (rangesText set.ranges ++ [']']))

def Assertion.text : Assertion → List Char
  | .caret => ['^']
  | .dollar => ['$']
  | .startText => ['\x5c', 'A']
  | .endText => ['\x5c', 'z']
  | .wordBoundary => ['\x5c', 'b']
  | .notWordBoundary => ['\x5c', 'B']
  | .startLine | .endLine => []

def boundText (bound : Nat) : List Char :=
  Nat.toDigits 10 bound

def boundsText (min : Nat) (max : Option Nat) : List Char :=
  '\x7b' :: (boundText min ++ ',' :: (max.elim [] boundText ++ ['\x7d']))

def openingText : Option Nat → List Char
  | some _ => ['(']
  | none => ['(', '?', ':']

section

variable (marked : Char → Bool)

mutual

/-- The text of a tree, with a backslash in front of each marked character. -/
def Node.text : Node → List Char
  | .empty => []
  | .literal c => escapedChars marked [c]
  | .any => ['.']
  | .oneOf set => set.text
  | .assertion a => a.text
  | .group index body => openingText index ++ (body.text ++ [')'])
  | .concat items => textInTurn items
  | .alternate branches => textOfBranches branches
  | .repetition body min max greedy => body.text ++ (boundsText min max ++ mark greedy)

def textInTurn : List Node → List Char
  | [] => []
  | item :: items => item.text ++ textInTurn items

def textOfBranches : List Node → List Char
  | [] => []
  | [branch] => branch.text
  | branch :: branches => branch.text ++ '|' :: textOfBranches branches

end

def Node.render (node : Node) : String :=
  .ofList (node.text marked)

end

theorem textOfBranches_cons (marked : Char → Bool) (branch other : Node) (others : List Node) :
    textOfBranches marked (branch :: other :: others) =
      branch.text marked ++ '|' :: textOfBranches marked (other :: others) := by
  rw [textOfBranches]
  exact nofun

variable {input : Input} {tail : List Char}

theorem boundValue_eq (digits : List Char) :
    boundValue digits = min (Nat.ofDigitChars 10 digits 0) (maxBoundText + 1) := by
  suffices hfold : ∀ n, digits.foldl
      (fun n c => min (10 * n + digitValue c) (maxBoundText + 1)) (min n (maxBoundText + 1)) =
        min (Nat.ofDigitChars 10 digits n) (maxBoundText + 1) by
    exact hfold 0
  induction digits with
  | nil => exact fun n => rfl
  | cons c digits ih =>
      intro n
      rw [List.foldl_cons, Nat.ofDigitChars_cons, ← ih]
      congr 1
      simp only [digitValue]
      omega

theorem spellsBound_text {bound : Nat} (hbound : bound ≤ maxRepeat) :
    SpellsBound (boundText bound) bound where
  nonempty := Nat.toDigits_ne_nil
  isDigit c hc := Nat.isDigit_of_mem_toDigits (by decide) (by decide) hc
  value := by
    rw [boundValue_eq, boundText, Nat.ofDigitChars_toDigits (by decide) (by decide)]
    simp only [maxRepeat] at hbound
    simp only [maxBoundText]
    omega
  le := hbound

theorem spellsRepeater_text {min : Nat} {max : Option Nat} (hbounds : BoundsFit min max) :
    SpellsRepeater (boundsText min max) min max := by
  have hmin := spellsBound_text hbounds.min_le
  cases max with
  | none => exact .braces hmin .unbounded
  | some bound =>
      exact .braces hmin
        (.bounded (spellsBound_text (hbounds.max_le bound rfl)) (hbounds.ordered bound rfl))

theorem readRepeater_text {min : Nat} {max : Option Nat} (hbounds : BoundsFit min max)
    (position : Nat) (hrest : input.rest = boundsText min max ++ tail) :
    ∃ further, further.rest = tail ∧
      readRepeater .braces position input.tail = .ok ((min, max), further) := by
  obtain ⟨c, rest, kind, further, hcons, hkind, hfurther, hread⟩ :=
    (spellsRepeater_text hbounds).read position hrest
  obtain rfl : c = '\x7b' := by
    rw [hrest] at hcons
    exact (List.cons.inj hcons).1.symm
  obtain rfl : Repeater.braces = kind := Option.some.inj hkind
  exact ⟨further, hfurther, hread⟩

/-- What stands first for a member is nothing that means something else in its place. -/
theorem exists_memberText (c : Char) :
    ∃ d rest, memberText c = d :: rest ∧ d ≠ ']' ∧ d ≠ '^' ∧ d ≠ '-' := by
  by_cases hc : c ∈ bracketCharacters
  · rw [memberText, if_pos hc]
    exact ⟨'\x5c', [c], rfl, by decide⟩
  · rw [memberText, if_neg hc]
    have hne {d : Char} (hd : d ∈ bracketCharacters) : c ≠ d := fun heq => hc (heq ▸ hd)
    exact ⟨c, [], rfl, hne (by decide), hne (by decide), hne (by decide)⟩

theorem readMember_text {c : Char} (hrest : input.rest = memberText c ++ tail) :
    ∃ further, further.rest = tail ∧ readMember input = .ok (.char c, further) := by
  rw [memberText] at hrest
  by_cases hc : c ∈ bracketCharacters
  · rw [if_pos hc] at hrest
    have hescapable : isEscapable c = true :=
      List.all_eq_true.mp (by decide : bracketCharacters.all isEscapable = true) c hc
    obtain ⟨hx, hletter⟩ := ofLetter?_of_isEscapable hescapable
    have htail : input.tail.rest = c :: tail := Input.tail_rest hrest
    refine ⟨input.tail.tail, Input.tail_rest htail, ?_⟩
    rw [readMember_escape hrest, readEscape_letter htail hx, hletter]
  · rw [if_neg hc] at hrest
    have hplain : c ≠ '\x5c' := fun heq => hc (heq ▸ by decide)
    exact ⟨input.tail, Input.tail_rest hrest, readMember_char hrest hplain⟩

theorem toNat_ofNat_of_valid {code : Nat} (hcode : code.isValidChar) :
    (Char.ofNat code).toNat = code := by
  rw [Char.ofNat, dif_pos hcode]
  rfl

theorem readItem_text {range : CodeRange} (hproper : range.Proper)
    (hrest : input.rest = range.text ++ tail) (htail : tail.head? ≠ some '-') :
    ∃ further, further.rest = tail ∧ readItem input = .ok ([range], further) := by
  obtain ⟨low, high⟩ := range
  have hlow : (Char.ofNat low).toNat = low := toNat_ofNat_of_valid hproper.low
  have hhigh : (Char.ofNat high).toNat = high := toNat_ofNat_of_valid hproper.high
  rw [CodeRange.text] at hrest
  dsimp only at hrest
  by_cases heq : low = high
  · rw [if_pos heq] at hrest
    subst heq
    obtain ⟨further, hfurther, hmember⟩ := readMember_text hrest
    have hrange : startsRange further = false := by
      rw [startsRange_eq, hfurther, beq_false_of_ne htail, Bool.false_and]
    refine ⟨further, hfurther, ?_⟩
    simp only [readItem, hmember, hrange, CodeRange.single, hlow, Bool.false_eq_true, if_false]
  · rw [if_neg heq, List.append_assoc, List.cons_append] at hrest
    obtain ⟨dash, hdash, hfirst⟩ := readMember_text hrest
    obtain ⟨further, hfurther, hsecond⟩ := readMember_text (Input.tail_rest hdash)
    have hrange : startsRange dash = true := by
      obtain ⟨d, rest, htext, hne, -⟩ := exists_memberText (.ofNat high)
      rw [startsRange, hdash, htext]
      exact bne_iff_ne.mpr hne
    have hordered : ¬ Char.ofNat high < Char.ofNat low := by
      intro hlt
      have hlt : (Char.ofNat high).toNat < (Char.ofNat low).toNat := hlt
      rw [hlow, hhigh] at hlt
      exact Nat.not_lt.mpr hproper.ordered hlt
    refine ⟨further, hfurther, ?_⟩
    simp only [readItem, hfirst, hrange, hsecond, if_neg hordered, CodeRange.between, hlow, hhigh,
      if_true]

theorem rangesText_cons (range : CodeRange) (ranges : List CodeRange) :
    rangesText (range :: ranges) = range.text ++ rangesText ranges :=
  List.flatMap_cons

theorem exists_rangeText (range : CodeRange) (tail : List Char) :
    ∃ d rest, range.text ++ tail = d :: rest ∧ d ≠ ']' ∧ d ≠ '^' ∧ d ≠ '-' := by
  rw [CodeRange.text]
  obtain ⟨d, rest, htext, hd⟩ := exists_memberText (.ofNat range.low)
  split
  · exact ⟨d, rest ++ tail, by rw [htext]; rfl, hd⟩
  · exact ⟨d, _, by rw [htext]; rfl, hd⟩

theorem readItems_text {ranges : List CodeRange} (hproper : ∀ range ∈ ranges, range.Proper)
    (opened : Nat) (first : Bool) (hfirst : first = true → ranges ≠ [])
    (hrest : input.rest = rangesText ranges ++ ']' :: tail) (found : List CodeRange) :
    ∃ further, further.rest = tail ∧
      readItems opened first input found = .ok (ranges.reverse ++ found, further) := by
  induction ranges generalizing input first found with
  | nil =>
      have hlater : first = false := by
        cases first with
        | false => rfl
        | true => exact absurd rfl (hfirst rfl)
      exact ⟨input.tail, Input.tail_rest hrest, readItems_closing hrest (by rw [hlater]; rfl)⟩
  | cons range ranges ih =>
      obtain ⟨hrange, hothers⟩ := List.forall_mem_cons.mp hproper
      rw [rangesText_cons, List.append_assoc] at hrest
      have htail : (rangesText ranges ++ ']' :: tail).head? ≠ some '-' := by
        cases ranges with
        | nil => exact nofun
        | cons next others =>
            obtain ⟨d, rest, htext, -, -, hd⟩ :=
              exists_rangeText next (rangesText others ++ ']' :: tail)
            rw [rangesText_cons, List.append_assoc, htext]
            exact fun heq => hd (Option.some.inj heq)
      obtain ⟨next, hnext, hitem⟩ := readItem_text hrange hrest htail
      obtain ⟨further, hfurther, hitems⟩ :=
        ih hothers false (fun hfalse => nomatch hfalse) hnext ([range] ++ found)
      refine ⟨further, hfurther, ?_⟩
      obtain ⟨d, rest, htext, hd, -⟩ := exists_rangeText range (rangesText ranges ++ ']' :: tail)
      have hopen : ¬ (d == ']' && !first) = true := by
        rw [beq_false_of_ne hd]
        exact Bool.false_ne_true
      rw [readItems_item (hrest.trans htext) hopen hitem, hitems]
      simp

theorem eat_negation {set : CodeSet} (hset : set.Canonical)
    (hrest : input.rest =
      (if set.negated then ['^'] else []) ++ (rangesText set.ranges ++ ']' :: tail)) :
    ∃ inside, inside.rest = rangesText set.ranges ++ ']' :: tail ∧
      input.eat '^' = (set.negated, inside) := by
  cases hnegated : set.negated with
  | true =>
      rw [hnegated] at hrest
      exact ⟨input.tail, Input.tail_rest hrest, Input.eat_head hrest⟩
  | false =>
      rw [hnegated] at hrest
      refine ⟨input, hrest, ?_⟩
      obtain ⟨range, ranges, hranges⟩ := List.exists_cons_of_ne_nil hset.nonempty
      obtain ⟨d, rest, htext, -, hd, -⟩ :=
        exists_rangeText range (rangesText ranges ++ ']' :: tail)
      have hhead : input.rest = d :: rest := by
        rw [hrest, hranges, rangesText_cons, List.append_assoc, htext]
        rfl
      have hne : (input.rest.head? == some '^') = false := by
        rw [hhead]
        exact beq_false_of_ne fun heq => hd (Option.some.inj heq)
      rw [Input.eat, hne, if_neg Bool.false_ne_true]

theorem readClass_text {set : CodeSet} (hset : set.Canonical) (opened : Nat)
    (hrest : input.rest = set.text ++ tail) :
    ∃ further, further.rest = tail ∧ readClass opened input.tail = .ok (set, further) := by
  simp only [CodeSet.text, List.append_assoc, List.cons_append, List.nil_append] at hrest
  obtain ⟨inside, hinside, hnegated⟩ := eat_negation hset (Input.tail_rest hrest)
  obtain ⟨further, hfurther, hitems⟩ :=
    readItems_text hset.proper opened true (fun _ => hset.nonempty) hinside []
  refine ⟨further, hfurther, ?_⟩
  rw [List.append_nil] at hitems
  simp only [readClass, hnegated, hitems, CodeSet.ofRanges_ranges hset (List.reverse_perm _)]

theorem readAtom_assertion {a : Assertion} (ha : a.IsWritten)
    (hrest : input.rest = a.text ++ tail) :
    ∃ c rest further, input.rest = c :: rest ∧ further.rest = tail ∧ c ∈ ['^', '$', '\x5c'] ∧
      readAtom c input.offset input.tail = .ok (.assertion a, further) := by
  obtain ⟨_, offset⟩ := input
  subst hrest
  cases a with
  | startLine => exact absurd rfl ha.1
  | endLine => exact absurd rfl ha.2
  | _ => exact ⟨_, _, _, rfl, rfl, by decide, rfl⟩

end TextColumns.Pattern
