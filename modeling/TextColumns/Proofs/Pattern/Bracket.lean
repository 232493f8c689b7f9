import TextColumns.Proofs.Pattern.Canonical
import TextColumns.Proofs.Pattern.Render
import TextColumns.Proofs.Program.CharClass

/-!
Bracket expressions.  A bracket expression spells items, each a character, a range of characters or
a set with a letter of its own; the class that is made of it accepts what some item holds.
-/

namespace TextColumns.Pattern

open CodeRange (covered)

/-- The sets of characters that have a letter of their own. -/
inductive NamedSet where
  | digits
  | wordChars
  | blanks

namespace NamedSet

def contains : NamedSet → Char → Bool
  | .digits, c => c.isDigit
  | .wordChars, c => isWordChar c
  | .blanks, c => Unicode.isBlank c

/-- The letter that stands, behind a backslash, for the set or for its complement. -/
def letter : NamedSet → (negated : Bool) → Char
  | .digits, negated => if negated then 'D' else 'd'
  | .wordChars, negated => if negated then 'W' else 'w'
  | .blanks, negated => if negated then 'S' else 's'

def ranges : NamedSet → List CodeRange
  | .digits => CodeSet.digits
  | .wordChars => CodeSet.wordChars
  | .blanks => CodeSet.blanks

def codeSet (set : NamedSet) (negated : Bool) : CodeSet :=
  .ofRanges set.ranges negated

end NamedSet

inductive ClassItem where
  | char (c : Char)
  | range (low high : Char)
  | named (set : NamedSet) (negated : Bool)

namespace ClassItem

def contains : ClassItem → Char → Bool
  | .char d, c => c == d
  | .range low high, c => low ≤ c && c ≤ high
  | .named set negated, c => set.contains c != negated

def ranges : ClassItem → List CodeRange
  | .char c => [.single c]
  | .range low high => [.between low high]
  | .named set negated => (set.codeSet negated).positiveRanges

/-- The set that items stand for; the reader puts the latest first. -/
def codeSet (items : List ClassItem) (negated : Bool) : CodeSet :=
  .ofRanges (items.reverse.flatMap ranges) negated

/-- Plain membership in items; with `fold` also by way of the simple case mappings. -/
def accept (items : List ClassItem) (negated : Bool) (c : Char) (fold : Bool) : Bool :=
  (items.any (·.contains c) ||
    (fold && (items.any (·.contains (Unicode.simpleLower c)) ||
      items.any (·.contains (Unicode.simpleUpper c))))) != negated

end ClassItem

theorem toNat_le_lastCode (c : Char) : c.toNat ≤ lastCode := by
  have hvalid := c.valid
  have hcode : c.toNat = c.val.toNat := rfl
  simp only [UInt32.isValidChar, Nat.isValidChar] at hvalid
  rw [hcode, lastCode]
  omega

theorem covered_between (low high c : Char) :
    (CodeRange.between low high).contains c.toNat = (low ≤ c && c ≤ high) := by
  rfl

theorem covered_single (d c : Char) : (CodeRange.single d).contains c.toNat = (c == d) := by
  rw [Bool.eq_iff_iff, beq_iff_eq, CodeRange.contains, CodeRange.single, Bool.and_eq_true,
    decide_eq_true_eq, decide_eq_true_eq]
  constructor
  · rintro ⟨hlow, hhigh⟩
    exact Char.toNat_inj.mp (Nat.le_antisymm hhigh hlow)
  · rintro rfl
    exact ⟨Nat.le_refl _, Nat.le_refl _⟩

theorem covered_blanks (c : Char) : covered CodeSet.blanks c.toNat = Unicode.isBlank c := by
  have hrising : Unicode.blankTable.toList.Pairwise fun a b =>
      a.last < b.first ∧ b.first ≤ b.last := by
    decide +kernel
  have hlast : Unicode.blankTable.toList.Pairwise fun a b =>
      decide (c.toNat ≤ a.last) = true → decide (c.toNat ≤ b.last) = true := by
    refine hrising.imp fun hgap hle => ?_
    simp only [decide_eq_true_eq] at hle ⊢
    omega
  have hfirst : Unicode.blankTable.toList.Pairwise fun a b =>
      decide (c.toNat ≤ a.last) = true → b.contains c.toNat = false := by
    refine hrising.imp fun hgap hle => ?_
    simp only [Unicode.Stretch.contains, decide_eq_true_eq, Bool.and_eq_false_iff,
      decide_eq_false_iff_not] at hle ⊢
    omega
  have hdense : ∀ stretch ∈ Unicode.blankTable.toList, stretch.step = 1 := by decide +kernel
  unfold Unicode.isBlank Unicode.Stretch.covers Unicode.Stretch.find?
  dsimp only
  rw [getElem?_bisect (p := fun stretch => decide (c.toNat ≤ stretch.last)) _ hlast]
  · refine Eq.trans ?_ ((any_find? hfirst).symm.trans Option.isSome_filter.symm)
    rw [covered, CodeSet.blanks, List.any_map, Bool.eq_iff_iff, List.any_eq_true, List.any_eq_true]
    refine exists_congr fun stretch => and_congr_right fun hstretch => ?_
    simp only [Function.comp_apply, CodeRange.contains, Unicode.Stretch.contains,
      hdense stretch hstretch, Nat.mod_one, beq_self_eq_true, Bool.and_eq_true, decide_eq_true_eq,
      and_true]
    omega
  · intro i stretch hstretch
    rw [hstretch]
    rfl

theorem NamedSet.covered_ranges (set : NamedSet) (c : Char) :
    covered set.ranges c.toNat = set.contains c := by
  cases set with
  | digits => exact Bool.or_false _
  | wordChars =>
      have hupper : (CodeRange.between 'A' 'Z').contains c.toNat = c.isUpper :=
        (Bool.decide_and _ _).symm
      rw [covered, ranges, CodeSet.wordChars]
      simp only [List.any_cons, List.any_nil, hupper, covered_single, Bool.or_false]
      change (c.isDigit || (c.isUpper || (c == '_' || c.isLower))) =
        (c.isUpper || c.isLower || c.isDigit || c == '_')
      ac_rfl
  | blanks => exact covered_blanks c

theorem NamedSet.canonical (set : NamedSet) (negated : Bool) : (set.codeSet negated).Canonical := by
  cases set <;> exact CodeSet.canonical_ofRanges (by decide) (by decide) negated

theorem NamedSet.covered_codeSet (set : NamedSet) (negated : Bool) (c : Char) :
    covered (set.codeSet negated).ranges c.toNat =
      [ClassItem.named set false].any (·.contains c) := by
  rw [codeSet, CodeSet.ofRanges, CodeRange.covered_normalize, set.covered_ranges]
  simp [ClassItem.contains]

theorem ClassItem.covered_ranges (item : ClassItem) (c : Char) :
    covered item.ranges c.toNat = item.contains c := by
  cases item with
  | char d => exact (Bool.or_false _).trans (covered_single d c)
  | range low high => exact (Bool.or_false _).trans (covered_between low high c)
  | named set negated =>
      rw [ranges, CodeSet.covered_positiveRanges (set.canonical negated) (toNat_le_lastCode c)]
      rw [NamedSet.codeSet, CodeSet.ofRanges, CodeRange.covered_normalize, set.covered_ranges]
      rfl

theorem ClassItem.covered_codeSet (items : List ClassItem) (negated : Bool) (c : Char) :
    covered (codeSet items negated).ranges c.toNat = items.any (·.contains c) := by
  rw [codeSet, CodeSet.ofRanges, CodeRange.covered_normalize, covered, List.any_flatMap,
    List.any_reverse]
  exact congrArg items.any (funext fun item => item.covered_ranges c)

def controlLetters : List (Char × Char) :=
  [('n', '\n'), ('t', '\t'), ('r', '\r'), ('f', '\x0c'), ('v', '\x0b'), ('0', '\x00')]

inductive SpellsChar : List Char → Char → Prop
  | plain {c : Char} (hc : c ≠ '\x5c') : SpellsChar [c] c
  | escaped {c : Char} (hc : isEscapable c = true) : SpellsChar ['\x5c', c] c
  | control {letter c : Char} (hletter : (letter, c) ∈ controlLetters) :
      SpellsChar ['\x5c', letter] c
  | hex {a b : Char} {x y : Nat} (ha : hexValue? a = some x) (hb : hexValue? b = some y) :
      SpellsChar ['\x5c', 'x', a, b] (Char.ofNat (16 * x + y))

/-- How an item is spelled in front of `tail`.  A character with a dash behind it is none but the
lower end of a range, unless the dash is the last character of the expression. -/
inductive SpellsItem (tail : List Char) : List Char → ClassItem → Prop
  | char {spelled : List Char} {c : Char} (hc : SpellsChar spelled c)
      (halone : ∀ d rest, tail = '-' :: d :: rest → d = ']') :
      SpellsItem tail (spelled ++ tail) (.char c)
  | range {spelled other : List Char} {low high : Char} (hlow : SpellsChar spelled low)
      (hhigh : SpellsChar other high) (hopen : other.head? ≠ some ']') (hle : low ≤ high) :
      SpellsItem tail (spelled ++ '-' :: (other ++ tail)) (.range low high)
  | named (set : NamedSet) (negated : Bool) :
      SpellsItem tail ('\x5c' :: set.letter negated :: tail) (.named set negated)

/-- How items are spelled up to the closing bracket, in front of `behind`.  A bracket closes the
expression unless it comes first. -/
inductive SpellsItems (behind : List Char) : (first : Bool) → List Char → List ClassItem → Prop
  | close : SpellsItems behind false (']' :: behind) []
  | item {first : Bool} {text tail : List Char} {item : ClassItem} {items : List ClassItem}
      (hitem : SpellsItem tail text item) (hopen : first = true ∨ text.head? ≠ some ']')
      (hrest : SpellsItems behind false tail items) : SpellsItems behind first text (item :: items)

inductive SpellsClass (behind : List Char) : List Char → (negated : Bool) → List ClassItem → Prop
  | plain {text : List Char} {items : List ClassItem} (hopen : text.head? ≠ some '^')
      (hitems : SpellsItems behind true text items) : SpellsClass behind text false items
  | negated {text : List Char} {items : List ClassItem}
      (hitems : SpellsItems behind true text items) : SpellsClass behind ('^' :: text) true items

variable {input after : Input} {tail : List Char}

theorem ofLetter?_letter (set : NamedSet) (negated : Bool) :
    Escape.ofLetter? (set.letter negated) = some (.set (set.codeSet negated)) := by
  cases set <;> cases negated <;> rfl

theorem ofLetter?_eq_set {c : Char} {codeSet : CodeSet}
    (hletter : Escape.ofLetter? c = some (.set codeSet)) :
    ∃ (set : NamedSet) (negated : Bool),
      c = set.letter negated ∧ codeSet = set.codeSet negated := by
  unfold Escape.ofLetter? at hletter
  split at hletter
  case h_7 => cases hletter; exact ⟨.digits, false, rfl, rfl⟩
  case h_8 => cases hletter; exact ⟨.digits, true, rfl, rfl⟩
  case h_9 => cases hletter; exact ⟨.wordChars, false, rfl, rfl⟩
  case h_10 => cases hletter; exact ⟨.wordChars, true, rfl, rfl⟩
  case h_11 => cases hletter; exact ⟨.blanks, false, rfl, rfl⟩
  case h_12 => cases hletter; exact ⟨.blanks, true, rfl, rfl⟩
  case h_17 => split at hletter <;> cases hletter
  all_goals cases hletter

theorem ofLetter?_control {letter c : Char} (hletter : (letter, c) ∈ controlLetters) :
    letter ≠ 'x' ∧ Escape.ofLetter? letter = some (.char c) := by
  simp only [controlLetters, List.mem_cons, Prod.mk.injEq, List.not_mem_nil, or_false] at hletter
  rcases hletter with ⟨rfl, rfl⟩ | ⟨rfl, rfl⟩ | ⟨rfl, rfl⟩ | ⟨rfl, rfl⟩ | ⟨rfl, rfl⟩ | ⟨rfl, rfl⟩
  all_goals exact ⟨by decide, rfl⟩

theorem ofLetter?_eq_char {letter c : Char} (hletter : Escape.ofLetter? letter = some (.char c)) :
    (letter, c) ∈ controlLetters ∨ (c = letter ∧ isEscapable letter = true) := by
  unfold Escape.ofLetter? at hletter
  split at hletter
  case h_17 =>
    split at hletter
    next hescapable =>
      cases hletter
      exact .inr ⟨rfl, hescapable⟩
    next => cases hletter
  all_goals cases hletter
  all_goals exact .inl (by decide)

theorem readEscape_spelled {spelled : List Char} {c : Char}
    (hspells : SpellsChar ('\x5c' :: spelled) c) (hrest : input.rest = spelled ++ tail)
    (position : Nat) :
    ∃ further, further.rest = tail ∧ readEscape position input = .ok (.char c, further) := by
  have hletter {letter : Char} (hrest : input.rest = letter :: tail) (hx : letter ≠ 'x')
      (hletter : Escape.ofLetter? letter = some (.char c)) :
      ∃ further, further.rest = tail ∧ readEscape position input = .ok (.char c, further) :=
    ⟨input.tail, Input.tail_rest hrest, by rw [readEscape_letter hrest hx, hletter]⟩
  cases hspells with
  | plain hc => exact absurd rfl hc
  | escaped hc =>
      obtain ⟨hx, hescape⟩ := ofLetter?_of_isEscapable hc
      exact hletter hrest hx hescape
  | control hcontrol =>
      obtain ⟨hx, hescape⟩ := ofLetter?_control hcontrol
      exact hletter hrest hx hescape
  | @hex a b x y ha hb =>
      have hfirst : input.tail.rest = a :: b :: tail := Input.tail_rest hrest
      refine ⟨input.tail.tail.tail, Input.tail_rest (Input.tail_rest hfirst), ?_⟩
      rw [readEscape_hex hrest, readHex, hfirst]
      simp only [ha, hb]

theorem readMember_char_of_spells {spelled : List Char} {c : Char} (hspells : SpellsChar spelled c)
    (hrest : input.rest = spelled ++ tail) :
    ∃ further, further.rest = tail ∧ readMember input = .ok (.char c, further) := by
  have hescape {behind : List Char} (hspells : SpellsChar ('\x5c' :: behind) c)
      (hrest : input.rest = '\x5c' :: (behind ++ tail)) :
      ∃ further, further.rest = tail ∧ readMember input = .ok (.char c, further) := by
    obtain ⟨further, hfurther, hread⟩ :=
      readEscape_spelled hspells (Input.tail_rest hrest) input.offset
    exact ⟨further, hfurther, by rw [readMember_escape hrest, hread]⟩
  cases hspells with
  | plain hc => exact ⟨input.tail, Input.tail_rest hrest, readMember_char hrest hc⟩
  | escaped hc => exact hescape (.escaped hc) hrest
  | control hletter => exact hescape (.control hletter) hrest
  | hex ha hb => exact hescape (.hex ha hb) hrest

theorem readMember_named (set : NamedSet) (negated : Bool)
    (hrest : input.rest = '\x5c' :: set.letter negated :: tail) :
    ∃ further, further.rest = tail ∧
      readMember input = .ok (.ranges (set.codeSet negated).positiveRanges, further) := by
  have htail : input.tail.rest = set.letter negated :: tail := Input.tail_rest hrest
  have hx : set.letter negated ≠ 'x' := by cases set <;> cases negated <;> decide
  refine ⟨input.tail.tail, Input.tail_rest htail, ?_⟩
  rw [readMember_escape hrest, readEscape_letter htail hx, ofLetter?_letter]

theorem spells_of_readHex {position : Nat} {escape : Escape}
    (hread : readHex position input = .ok (escape, after)) :
    ∃ c spelled, escape = .char c ∧ SpellsChar ('\x5c' :: 'x' :: spelled) c ∧
      input.rest = spelled ++ after.rest := by
  revert hread
  fun_cases readHex position input with
  | case1 a b rest hrest x y hb ha =>
      intro hread
      cases hread
      refine ⟨_, [a, b], rfl, .hex ha hb, ?_⟩
      rw [hrest, Input.tail_rest (Input.tail_rest hrest)]
      rfl
  | case2 | case3 => intro hread; cases hread

theorem spells_of_readEscape {position : Nat} {escape : Escape}
    (hread : readEscape position input = .ok (escape, after)) :
    (∃ c spelled, escape = .char c ∧ SpellsChar ('\x5c' :: spelled) c ∧
        input.rest = spelled ++ after.rest) ∨
      (∃ (set : NamedSet) (negated : Bool), escape = .set (set.codeSet negated) ∧
        input.rest = set.letter negated :: after.rest) ∨
      ∃ a letter, escape = .assertion a ∧ Escape.ofLetter? letter = some (.assertion a) ∧
        input.rest = letter :: after.rest := by
  rcases hrest : input.rest with _ | ⟨letter, rest⟩
  · rw [readEscape, hrest] at hread
    cases hread
  by_cases hx : letter = 'x'
  · subst hx
    rw [readEscape_hex hrest] at hread
    obtain ⟨c, spelled, hchar, hspells, hbehind⟩ := spells_of_readHex hread
    rw [Input.tail_rest hrest] at hbehind
    exact .inl ⟨c, 'x' :: spelled, hchar, hspells, congrArg ('x' :: ·) hbehind⟩
  · rw [readEscape_letter hrest hx] at hread
    cases hletter : Escape.ofLetter? letter with
    | none =>
        rw [hletter] at hread
        cases hread
    | some escape =>
        rw [hletter] at hread
        cases hread
        rw [Input.tail_rest hrest]
        cases escape with
        | char c =>
            rcases ofLetter?_eq_char hletter with hcontrol | ⟨rfl, hescapable⟩
            · exact .inl ⟨c, [letter], rfl, .control hcontrol, rfl⟩
            · exact .inl ⟨c, [c], rfl, .escaped hescapable, rfl⟩
        | set codeSet =>
            obtain ⟨set, negated, rfl, rfl⟩ := ofLetter?_eq_set hletter
            exact .inr (.inl ⟨set, negated, rfl, rfl⟩)
        | assertion a => exact .inr (.inr ⟨a, letter, rfl, hletter, rfl⟩)

theorem spells_of_readMember {member : Member} (hread : readMember input = .ok (member, after)) :
    (∃ c spelled, member = .char c ∧ SpellsChar spelled c ∧ input.rest = spelled ++ after.rest) ∨
      ∃ (set : NamedSet) (negated : Bool),
        member = .ranges (set.codeSet negated).positiveRanges ∧
          input.rest = '\x5c' :: set.letter negated :: after.rest := by
  rcases hrest : input.rest with _ | ⟨c, rest⟩
  · rw [readMember, hrest] at hread
    cases hread
  by_cases hc : c = '\x5c'
  · subst hc
    rw [readMember_escape hrest] at hread
    cases hescape : readEscape input.offset input.tail with
    | error e =>
        rw [hescape] at hread
        cases hread
    | ok found =>
        obtain ⟨escape, further⟩ := found
        have hspelled := spells_of_readEscape hescape
        rw [hescape] at hread
        rw [Input.tail_rest hrest] at hspelled
        rcases hspelled with
          ⟨c, spelled, rfl, hspells, hbehind⟩ | ⟨set, negated, rfl, hbehind⟩ | ⟨a, letter, rfl, -⟩
        · cases hread
          exact .inl ⟨c, _, rfl, hspells, congrArg ('\x5c' :: ·) hbehind⟩
        · cases hread
          exact .inr ⟨set, negated, rfl, congrArg ('\x5c' :: ·) hbehind⟩
        · cases hread
  · rw [readMember_char hrest hc] at hread
    cases hread
    rw [Input.tail_rest hrest]
    exact .inl ⟨c, [c], rfl, .plain hc, rfl⟩

theorem SpellsChar.ne_nil {spelled : List Char} {c : Char} (hspells : SpellsChar spelled c) :
    spelled ≠ [] := by
  cases hspells <;> exact List.cons_ne_nil _ _

theorem SpellsItem.exists_cons {text : List Char} {item : ClassItem}
    (hspells : SpellsItem tail text item) : ∃ c rest, text = c :: rest := by
  cases hspells with
  | char hc => exact List.exists_cons_of_ne_nil (List.append_ne_nil_of_left_ne_nil hc.ne_nil _)
  | range hlow => exact List.exists_cons_of_ne_nil (List.append_ne_nil_of_left_ne_nil hlow.ne_nil _)
  | named => exact ⟨_, _, rfl⟩

theorem startsRange_eq_false (halone : ∀ d rest, input.rest = '-' :: d :: rest → d = ']') :
    startsRange input = false := by
  fun_cases startsRange input with
  | case1 d rest hrest =>
      rw [halone d rest hrest]
      rfl
  | case2 => rfl

theorem readItem_spelled {item : ClassItem} (hspells : SpellsItem tail input.rest item) :
    ∃ further, further.rest = tail ∧ readItem input = .ok (item.ranges, further) := by
  generalize htext : input.rest = text at hspells
  cases hspells with
  | @char spelled c hc halone =>
      obtain ⟨further, rfl, hmember⟩ := readMember_char_of_spells hc htext
      refine ⟨further, rfl, ?_⟩
      rw [readItem, hmember]
      dsimp only
      rw [startsRange_eq_false halone, if_neg Bool.false_ne_true]
      rfl
  | @range spelled other low high hlow hhigh hopen hle =>
      obtain ⟨dash, hdash, hfirst⟩ := readMember_char_of_spells hlow htext
      obtain ⟨further, hfurther, hsecond⟩ := readMember_char_of_spells hhigh (Input.tail_rest hdash)
      have hrange : startsRange dash = true := by
        rcases other with _ | ⟨d, rest⟩
        · exact absurd rfl hhigh.ne_nil
        · rw [startsRange, hdash]
          exact bne_iff_ne.mpr fun heq => hopen (congrArg some heq)
      refine ⟨further, hfurther, ?_⟩
      simp only [readItem, hfirst, hrange, hsecond, if_true, if_neg (Char.not_lt.mpr hle)]
      rfl
  | named set negated =>
      obtain ⟨further, hfurther, hmember⟩ := readMember_named set negated htext
      refine ⟨further, hfurther, ?_⟩
      rw [readItem, hmember]
      rfl

theorem spells_of_readMember_char {c : Char} (hread : readMember input = .ok (.char c, after)) :
    ∃ spelled, SpellsChar spelled c ∧ input.rest = spelled ++ after.rest := by
  rcases spells_of_readMember hread with ⟨d, spelled, hchar, hspells, hrest⟩ | ⟨_, _, hset, -⟩
  · obtain rfl := Member.char.inj hchar
    exact ⟨spelled, hspells, hrest⟩
  · cases hset

theorem spells_of_readItem {ranges : List CodeRange}
    (hread : readItem input = .ok (ranges, after)) :
    ∃ item : ClassItem, ranges = item.ranges ∧ SpellsItem after.rest input.rest item := by
  revert hread
  fun_cases readItem input with
  | case1 | case3 | case4 | case5 => intro hread; cases hread
  | case2 ranges next hmember =>
      intro hread
      cases hread
      rcases spells_of_readMember hmember with ⟨c, spelled, hchar, -⟩ | ⟨set, negated, hset, hrest⟩
      · cases hchar
      · obtain rfl := Member.ranges.inj hset
        rw [hrest]
        exact ⟨.named set negated, rfl, .named set negated⟩
  | case6 low next hlow hrange high last hhigh hordered =>
      intro hread
      cases hread
      obtain ⟨spelledLow, hlow, hrest⟩ := spells_of_readMember_char hlow
      obtain ⟨spelledHigh, hhigh, hbehind⟩ := spells_of_readMember_char hhigh
      obtain ⟨rest, hdash⟩ := rest_of_startsRange hrange
      rw [Input.tail_rest hdash] at hbehind
      rw [hrest, hdash, hbehind]
      refine ⟨.range low high, rfl, .range hlow hhigh ?_ (Char.not_lt.mp hordered)⟩
      intro hclosing
      obtain ⟨more, rfl⟩ := List.head?_eq_some_iff.mp hclosing
      rw [startsRange, hdash, hbehind] at hrange
      cases hrange
  | case7 low next hlow halone =>
      intro hread
      cases hread
      obtain ⟨spelled, hlow, hrest⟩ := spells_of_readMember_char hlow
      rw [hrest]
      refine ⟨.char low, rfl, .char hlow fun d rest hdash => ?_⟩
      rw [startsRange, hdash] at halone
      simpa using halone

/-- Items that are spelled are read, in front of what has been found before. -/
theorem readItems_spelled {behind : List Char} {first : Bool} {items : List ClassItem}
    (hspells : SpellsItems behind first input.rest items) (opened : Nat) (found : List CodeRange) :
    ∃ further, further.rest = behind ∧ readItems opened first input found =
      .ok (items.reverse.flatMap ClassItem.ranges ++ found, further) := by
  generalize htext : input.rest = text at hspells
  induction hspells generalizing input found with
  | close => exact ⟨input.tail, Input.tail_rest htext, readItems_closing htext rfl⟩
  | @item first text tail item items hitem hopen _ ih =>
      obtain ⟨c, rest, rfl⟩ := hitem.exists_cons
      have hclosing : ¬ (c == ']' && !first) = true := by
        rcases hopen with rfl | hne
        · simp
        · simpa using fun heq => absurd (congrArg some heq) hne
      rw [← htext] at hitem
      obtain ⟨next, hnext, hread⟩ := readItem_spelled hitem
      obtain ⟨further, hfurther, hitems⟩ := ih (item.ranges ++ found) hnext
      refine ⟨further, hfurther, ?_⟩
      rw [readItems_item htext hclosing hread, hitems, List.reverse_cons, List.flatMap_append,
        List.flatMap_singleton, List.append_assoc]

theorem spells_of_readItems {opened : Nat} {first : Bool} {found ranges : List CodeRange}
    (hread : readItems opened first input found = .ok (ranges, after)) :
    ∃ items, SpellsItems after.rest first input.rest items ∧
      ranges = items.reverse.flatMap ClassItem.ranges ++ found := by
  fun_induction readItems opened first input found with
  | case1 => cases hread
  | case2 first input found c rest hrest hclosing =>
      cases hread
      obtain ⟨hc, hfirst⟩ := Bool.and_eq_true_iff.mp hclosing
      obtain rfl : c = ']' := eq_of_beq hc
      obtain rfl : first = false := by simpa using hfirst
      rw [hrest, Input.tail_rest hrest]
      exact ⟨[], .close, rfl⟩
  | case3 => cases hread
  | case4 first input found c rest hrest hclosing item next hitem hshorter ih =>
      obtain ⟨items, hitems, rfl⟩ := ih hread
      obtain ⟨item, rfl, hspells⟩ := spells_of_readItem hitem
      refine ⟨item :: items, .item hspells ?_ hitems, ?_⟩
      · rw [hrest, List.head?_cons]
        cases first with
        | true => exact .inl rfl
        | false => exact .inr fun heq => hclosing (by rw [Option.some.inj heq]; rfl)
      · rw [List.reverse_cons, List.flatMap_append, List.flatMap_singleton, List.append_assoc]

theorem readClass_spelled {behind : List Char} {negated : Bool} {items : List ClassItem}
    (hspells : SpellsClass behind input.rest negated items) (opened : Nat) :
    ∃ further, further.rest = behind ∧
      readClass opened input = .ok (ClassItem.codeSet items negated, further) := by
  generalize htext : input.rest = text at hspells
  cases hspells with
  | plain hopen hitems =>
      rw [← htext] at hitems hopen
      obtain ⟨further, hfurther, hread⟩ := readItems_spelled hitems opened []
      refine ⟨further, hfurther, ?_⟩
      simp only [readClass, Input.eat_other hopen, hread, List.append_nil]
      rfl
  | negated hitems =>
      have htail : input.tail.rest = _ := Input.tail_rest htext
      rw [← htail] at hitems
      obtain ⟨further, hfurther, hread⟩ := readItems_spelled hitems opened []
      refine ⟨further, hfurther, ?_⟩
      simp only [readClass, Input.eat_head htext, hread, List.append_nil]
      rfl

theorem spells_of_readClass {opened : Nat} {set : CodeSet}
    (hread : readClass opened input = .ok (set, after)) :
    ∃ negated items, SpellsClass after.rest input.rest negated items ∧
      set = ClassItem.codeSet items negated := by
  revert hread
  fun_cases readClass opened input with
  | case1 => intro hread; cases hread
  | case2 negation ranges next hitems =>
      intro hread
      cases hread
      obtain ⟨items, hspells, rfl⟩ := spells_of_readItems hitems
      simp only [negation] at hspells ⊢
      rw [List.append_nil]
      by_cases hopen : input.rest.head? = some '^'
      · obtain ⟨rest, hrest⟩ := List.head?_eq_some_iff.mp hopen
        rw [Input.eat_head hrest, Input.tail_rest hrest] at hspells
        rw [Input.eat_head hrest, hrest]
        exact ⟨true, items, .negated hspells, rfl⟩
      · rw [Input.eat_other hopen] at hspells
        rw [Input.eat_other hopen]
        exact ⟨false, items, .plain hopen hspells, rfl⟩

/-! ### What stands behind

An expression is spelled by the same characters whatever stands behind it. -/

theorem SpellsItem.exists_spelled {used behind text : List Char} {item : ClassItem}
    (hspells : SpellsItem (used ++ ']' :: behind) text item) :
    ∃ spelled, spelled ≠ [] ∧ text = spelled ++ (used ++ ']' :: behind) ∧
      ∀ other, SpellsItem (used ++ ']' :: other) (spelled ++ (used ++ ']' :: other)) item := by
  cases hspells with
  | @char spelled c hc halone =>
      refine ⟨spelled, hc.ne_nil, rfl, fun other => .char hc fun d rest hdash => ?_⟩
      match used with
      | [] => exact absurd (List.cons.inj hdash).1 (by decide)
      | [dash] => exact (List.cons.inj (List.cons.inj hdash).2).1.symm
      | dash :: first :: used =>
          obtain ⟨rfl, hbehind⟩ := List.cons.inj hdash
          obtain ⟨rfl, -⟩ := List.cons.inj hbehind
          exact halone first _ rfl
  | @range spelled other low high hlow hhigh hopen hle =>
      refine ⟨spelled ++ '-' :: other, by simp, by simp, fun behind => ?_⟩
      rw [List.append_assoc, List.cons_append]
      exact .range hlow hhigh hopen hle
  | named set negated =>
      exact ⟨['\x5c', set.letter negated], List.cons_ne_nil _ _, rfl, fun _ => .named set negated⟩

theorem SpellsItems.exists_spelled {behind text : List Char} {first : Bool}
    {items : List ClassItem} (hspells : SpellsItems behind first text items) :
    ∃ used, text = used ++ ']' :: behind ∧
      ∀ other, SpellsItems other first (used ++ ']' :: other) items := by
  induction hspells with
  | close => exact ⟨[], rfl, fun _ => .close⟩
  | item hitem hopen _ ih =>
      obtain ⟨used, rfl, hused⟩ := ih
      obtain ⟨spelled, hnonempty, rfl, hspelled⟩ := hitem.exists_spelled
      refine ⟨spelled ++ used, (List.append_assoc ..).symm, fun other => ?_⟩
      rw [List.append_assoc]
      refine .item (hspelled other) ?_ (hused other)
      rwa [List.head?_append_of_ne_nil _ hnonempty] at hopen ⊢

theorem SpellsClass.exists_spelled {behind text : List Char} {negated : Bool}
    {items : List ClassItem} (hspells : SpellsClass behind text negated items) :
    ∃ used, text = used ++ ']' :: behind ∧
      ∀ other, SpellsClass other (used ++ ']' :: other) negated items := by
  cases hspells with
  | plain hopen hitems =>
      obtain ⟨used, rfl, hused⟩ := hitems.exists_spelled
      refine ⟨used, rfl, fun other => .plain ?_ (hused other)⟩
      cases used with
      | nil => exact nofun
      | cons c rest => exact hopen
  | negated hitems =>
      obtain ⟨used, rfl, hused⟩ := hitems.exists_spelled
      exact ⟨'^' :: used, rfl, fun other => .negated (hused other)⟩

/-- The class of a set accepts by plain membership in the items that it covers. -/
theorem accepts_ofSet_spelled {set : CodeSet} (hset : set.Canonical) {items : List ClassItem}
    (hcovered : ∀ c : Char, covered set.ranges c.toNat = items.any (·.contains c)) (c : Char)
    (fold : Bool) :
    (CharClass.ofSet set).accepts c fold = ClassItem.accept items set.negated c fold := by
  rw [CharClass.accepts_ofSet hset, hcovered, hcovered, hcovered]
  rfl

theorem SpellsClass.accepts {behind text : List Char} {negated : Bool} {items : List ClassItem}
    (hspells : SpellsClass behind text negated items) (c : Char) (fold : Bool) :
    (CharClass.ofSet (ClassItem.codeSet items negated)).accepts c fold =
      ClassItem.accept items negated c fold := by
  obtain ⟨_, -, hread⟩ := @readClass_spelled ⟨text, 0⟩ behind negated items hspells 0
  exact accepts_ofSet_spelled (canonical_of_readClass hread)
    (ClassItem.covered_codeSet items negated) c fold

end TextColumns.Pattern
