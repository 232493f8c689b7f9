import Mathlib.Data.List.Forall2
import TextColumns.Proofs.Pattern.Parse

/-!
Patterns in parentheses.  The reader takes a pattern that stands in a group as it takes the pattern
alone, for no part of a pattern looks past a closing parenthesis that is not its own.
-/

namespace TextColumns.Pattern

variable {back : List Char} {input wider : Input}

/-- Whether an input goes on where another one ends, with a closing parenthesis. -/
def Input.Enclosed (back : List Char) (input wider : Input) : Prop :=
  wider.rest = input.rest ++ ')' :: back

/-- Whether what is read from an input is read where the input is enclosed. -/
def Widens (back : List Char) (read readWider : Reads α) : Prop :=
  ∀ value after, read = .ok (value, after) →
    ∃ further, readWider = .ok (value, further) ∧ after.Enclosed back further

namespace Input.Enclosed

theorem tail (henclosed : input.Enclosed back wider) (hrest : input.rest ≠ []) :
    input.tail.Enclosed back wider.tail := by
  obtain ⟨rest, offset⟩ := input
  obtain ⟨restWider, offsetWider⟩ := wider
  cases rest with
  | nil => exact absurd rfl hrest
  | cons c rest =>
      obtain rfl : restWider = c :: (rest ++ ')' :: back) := henclosed
      rfl

theorem head?_ne (henclosed : input.Enclosed back wider) {c : Char} (hc : c ≠ ')') :
    (wider.rest.head? == some c) = (input.rest.head? == some c) := by
  rw [henclosed]
  cases input.rest with
  | nil => simpa using hc.symm
  | cons d rest => rfl

theorem eat (henclosed : input.Enclosed back wider) {c : Char} (hc : c ≠ ')') :
    (wider.eat c).1 = (input.eat c).1 ∧ (input.eat c).2.Enclosed back (wider.eat c).2 := by
  simp only [Input.eat, henclosed.head?_ne hc]
  by_cases hhead : (input.rest.head? == some c) = true
  · rw [if_pos hhead, if_pos hhead]
    refine ⟨rfl, henclosed.tail fun hnil => ?_⟩
    rw [hnil] at hhead
    cases hhead
  · rw [if_neg hhead, if_neg hhead]
    exact ⟨rfl, henclosed⟩

theorem eat_eq (henclosed : input.Enclosed back wider) {c : Char} (hc : c ≠ ')') {eaten : Bool}
    {next : Input} (heat : input.eat c = (eaten, next)) :
    ∃ nextWider, wider.eat c = (eaten, nextWider) ∧ next.Enclosed back nextWider := by
  obtain ⟨heaten, hnext⟩ := henclosed.eat hc
  rw [heat] at heaten hnext
  exact ⟨(wider.eat c).2, Prod.ext heaten rfl, hnext⟩

end Input.Enclosed

theorem takeDigits_enclosed (rest : List Char) (offset offsetWider : Nat) :
    (Input.takeDigits (rest ++ ')' :: back) offsetWider).1 = (Input.takeDigits rest offset).1 ∧
      (Input.takeDigits rest offset).2.Enclosed back
        (Input.takeDigits (rest ++ ')' :: back) offsetWider).2 := by
  induction rest generalizing offset offsetWider with
  | nil => exact ⟨rfl, rfl⟩
  | cons c rest ih =>
      obtain ⟨hdigits, hafter⟩ := ih (offset + 1) (offsetWider + 1)
      rw [List.cons_append, Input.takeDigits, Input.takeDigits]
      split
      · exact ⟨congrArg (c :: ·) hdigits, hafter⟩
      · exact ⟨rfl, rfl⟩

theorem widens_readBound (opened openedWider : Nat) (henclosed : input.Enclosed back wider) :
    Widens back (readBound opened input) (readBound openedWider wider) := by
  obtain ⟨hdigits, hafter⟩ := @takeDigits_enclosed back input.rest input.offset wider.offset
  rw [← henclosed] at hdigits hafter
  intro bound after
  fun_cases readBound opened input with
  | case1 | case2 | case3 => intro hread; cases hread
  | case4 digits next htaken value hoverflow hempty hlarge =>
      intro hread
      obtain ⟨rfl, rfl⟩ := Prod.mk.inj (Except.ok.inj hread)
      rw [htaken] at hdigits hafter
      simp only [readBound, hdigits]
      rw [if_neg hoverflow, if_neg hempty, if_neg hlarge]
      exact ⟨_, rfl, hafter⟩

theorem widens_readUpper (opened openedWider min : Nat) (henclosed : input.Enclosed back wider) :
    Widens back (readUpper opened min input) (readUpper openedWider min wider) := by
  intro bound after
  fun_cases readUpper opened min input with
  | case1 next heat =>
      intro hread
      cases hread
      obtain ⟨nextWider, heatWider, -⟩ := henclosed.eat_eq (by decide) heat
      rw [readUpper, heatWider]
      exact ⟨wider, rfl, henclosed⟩
  | case2 next heat hclosing =>
      intro hread
      cases hread
      obtain ⟨nextWider, heatWider, hnext⟩ := henclosed.eat_eq (by decide) heat
      rw [readUpper, heatWider]
      dsimp only
      rw [hnext.head?_ne (by decide), if_pos hclosing]
      exact ⟨nextWider, rfl, hnext⟩
  | case3 => intro hread; cases hread
  | case4 next heat hclosing max last hbound =>
      intro hread
      cases hread
      obtain ⟨nextWider, heatWider, hnext⟩ := henclosed.eat_eq (by decide) heat
      obtain ⟨further, hfurther, hafter⟩ := widens_readBound opened openedWider hnext _ _ hbound
      rw [readUpper, heatWider]
      dsimp only
      rw [hnext.head?_ne (by decide), if_neg hclosing, hfurther]
      exact ⟨further, rfl, hafter⟩

theorem widens_readBraces (opened openedWider : Nat) (henclosed : input.Enclosed back wider) :
    Widens back (readBraces opened input) (readBraces openedWider wider) := by
  intro bounds after
  fun_cases readBraces opened input with
  | case1 | case2 | case3 | case4 => intro hread; cases hread
  | case5 min next hmin max last hmax behind heat hordered =>
      intro hread
      cases hread
      obtain ⟨nextWider, hminWider, hnext⟩ :=
        widens_readBound opened openedWider henclosed _ _ hmin
      obtain ⟨lastWider, hmaxWider, hlast⟩ :=
        widens_readUpper opened openedWider min hnext _ _ hmax
      obtain ⟨behindWider, heatWider, hbehind⟩ := hlast.eat_eq (by decide) heat
      refine ⟨behindWider, ?_, hbehind⟩
      rw [readBraces, hminWider]
      dsimp only
      rw [hmaxWider]
      dsimp only
      rw [heatWider]
      dsimp only
      rw [if_neg hordered]

theorem widens_readRepeater (kind : Repeater) (position positionWider : Nat)
    (henclosed : input.Enclosed back wider) :
    Widens back (readRepeater kind position input) (readRepeater kind positionWider wider) := by
  cases kind with
  | star | plus | optional =>
      intro bounds after hread
      cases hread
      exact ⟨wider, rfl, henclosed⟩
  | braces => exact widens_readBraces position positionWider henclosed

theorem Input.Enclosed.rest_eq_cons (henclosed : input.Enclosed back wider) {c : Char}
    {rest : List Char} (hrest : input.rest = c :: rest) :
    wider.rest = c :: (rest ++ ')' :: back) := by
  rw [henclosed, hrest]
  rfl

theorem Input.Enclosed.tail_of_cons (henclosed : input.Enclosed back wider) {c : Char}
    {rest : List Char} (hrest : input.rest = c :: rest) :
    input.tail.Enclosed back wider.tail :=
  henclosed.tail (by rw [hrest]; exact List.cons_ne_nil c rest)

theorem widens_readHex (position positionWider : Nat) (henclosed : input.Enclosed back wider) :
    Widens back (readHex position input) (readHex positionWider wider) := by
  intro escape after
  fun_cases readHex position input with
  | case1 a b rest hrest x y hy hx =>
      intro hread
      cases hread
      have hrestTail : input.tail.rest = b :: rest := by simp [Input.tail, hrest]
      rw [readHex, henclosed.rest_eq_cons hrest]
      dsimp only [List.cons_append]
      rw [hx, hy]
      exact ⟨_, rfl, (henclosed.tail_of_cons hrest).tail_of_cons hrestTail⟩
  | case2 | case3 => intro hread; cases hread

theorem widens_readEscape (position positionWider : Nat) (henclosed : input.Enclosed back wider) :
    Widens back (readEscape position input) (readEscape positionWider wider) := by
  intro escape after
  fun_cases readEscape position input with
  | case1 | case4 => intro hread; cases hread
  | case2 rest hrest =>
      intro hread
      rw [readEscape_hex (henclosed.rest_eq_cons hrest)]
      exact widens_readHex position positionWider (henclosed.tail_of_cons hrest) _ _ hread
  | case3 c rest hx hrest escape hescape =>
      intro hread
      cases hread
      rw [readEscape_letter (henclosed.rest_eq_cons hrest) hx, hescape]
      exact ⟨_, rfl, henclosed.tail_of_cons hrest⟩

theorem widens_readMember (henclosed : input.Enclosed back wider) :
    Widens back (readMember input) (readMember wider) := by
  intro member after
  fun_cases readMember input with
  | case1 | case2 | case5 => intro hread; cases hread
  | case3 rest hrest c next hescape | case4 rest hrest set next hescape =>
      intro hread
      cases hread
      obtain ⟨further, hfurther, hafter⟩ :=
        widens_readEscape _ wider.offset (henclosed.tail_of_cons hrest) _ _ hescape
      rw [readMember_escape (henclosed.rest_eq_cons hrest), hfurther]
      exact ⟨further, rfl, hafter⟩
  | case6 c rest hbackslash hrest =>
      intro hread
      cases hread
      exact ⟨_, readMember_char (henclosed.rest_eq_cons hrest) hbackslash,
        henclosed.tail_of_cons hrest⟩

/-- A dash in front of the end is not seen to start a range, but one in front of the parenthesis
is. -/
theorem startsRange_enclosed (henclosed : input.Enclosed back wider) (hdash : input.rest ≠ ['-']) :
    startsRange wider = startsRange input := by
  unfold startsRange
  rw [henclosed]
  match hrest : input.rest with
  | [] => rfl
  | [c] =>
      rw [hrest] at hdash
      have hc : c ≠ '-' := fun heq => hdash (heq ▸ rfl)
      simp [hc]
  | c :: d :: rest =>
      by_cases hc : c = '-'
      · subst hc
        rfl
      · simp [hc]

theorem widens_readItem (henclosed : input.Enclosed back wider) {ranges : List CodeRange}
    {after : Input} (hread : readItem input = .ok (ranges, after)) (hdash : after.rest ≠ ['-']) :
    ∃ further, readItem wider = .ok (ranges, further) ∧ after.Enclosed back further := by
  revert hread
  fun_cases readItem input with
  | case1 | case3 | case4 | case5 => intro hread; cases hread
  | case2 members next hmember =>
      intro hread
      cases hread
      obtain ⟨further, hfurther, hafter⟩ := widens_readMember henclosed _ _ hmember
      rw [readItem, hfurther]
      exact ⟨further, rfl, hafter⟩
  | case6 low next hlow hrange high last hhigh hordered =>
      intro hread
      cases hread
      have hlonger : next.rest ≠ ['-'] := fun heq => by simp [startsRange, heq] at hrange
      have hsome : next.rest ≠ [] := fun heq => by simp [startsRange, heq] at hrange
      obtain ⟨nextWider, hlowWider, hnext⟩ := widens_readMember henclosed _ _ hlow
      obtain ⟨lastWider, hhighWider, hlast⟩ := widens_readMember (hnext.tail hsome) _ _ hhigh
      refine ⟨lastWider, ?_, hlast⟩
      rw [readItem, hlowWider]
      dsimp only
      rw [startsRange_enclosed hnext hlonger, if_pos hrange, hhighWider]
      dsimp only
      rw [if_neg hordered]
  | case7 low next hlow hrange =>
      intro hread
      cases hread
      obtain ⟨nextWider, hlowWider, hnext⟩ := widens_readMember henclosed _ _ hlow
      refine ⟨nextWider, ?_, hnext⟩
      rw [readItem, hlowWider]
      dsimp only
      rw [startsRange_enclosed hnext hdash, if_neg hrange]

theorem readItems_closing {opened : Nat} {first : Bool} {found : List CodeRange} {c : Char}
    {rest : List Char} (hrest : input.rest = c :: rest) (hclosing : (c == ']' && !first) = true) :
    readItems opened first input found = .ok (found, input.tail) := by
  rw [readItems_cons hrest, if_pos hclosing]

theorem readItems_item {opened : Nat} {first : Bool} {found item : List CodeRange} {c : Char}
    {rest : List Char} {next : Input} (hrest : input.rest = c :: rest)
    (hclosing : ¬ (c == ']' && !first) = true) (hitem : readItem input = .ok (item, next)) :
    readItems opened first input found = readItems opened false next (item ++ found) := by
  rw [readItems_cons hrest, if_neg hclosing, hitem]

theorem readItems_dash {opened : Nat} {found ranges : List CodeRange} {after : Input}
    (hrest : input.rest = ['-']) :
    readItems opened false input found ≠ .ok (ranges, after) := by
  obtain ⟨_, offset⟩ := input
  subst hrest
  have hitem : readItem ⟨['-'], offset⟩ = .ok ([.single '-'], ⟨[], offset + 1⟩) := rfl
  rw [readItems_item rfl (by decide) hitem, readItems_end rfl]
  rintro ⟨⟩

theorem widens_readItems (opened openedWider : Nat) {first : Bool} {found : List CodeRange}
    (henclosed : input.Enclosed back wider) :
    Widens back (readItems opened first input found) (readItems openedWider first wider found) := by
  intro ranges after hread
  fun_induction readItems opened first input found generalizing wider with
  | case1 => cases hread
  | case2 first input found c rest hrest hclosing =>
      cases hread
      rw [readItems_closing (henclosed.rest_eq_cons hrest) hclosing]
      exact ⟨_, rfl, henclosed.tail_of_cons hrest⟩
  | case3 => cases hread
  | case4 first input found c rest hrest hclosing item next hitem hshorter ih =>
      have hdash : next.rest ≠ ['-'] := fun heq => readItems_dash heq hread
      obtain ⟨further, hfurther, hnext⟩ := widens_readItem henclosed hitem hdash
      rw [readItems_item (henclosed.rest_eq_cons hrest) hclosing hfurther]
      exact ih hnext hread

theorem widens_readClass (opened openedWider : Nat) (henclosed : input.Enclosed back wider) :
    Widens back (readClass opened input) (readClass openedWider wider) := by
  intro set after
  obtain ⟨hnegated, hbehind⟩ := henclosed.eat (show '^' ≠ ')' by decide)
  fun_cases readClass opened input with
  | case1 => intro hread; cases hread
  | case2 negation ranges next hitems =>
      intro hread
      cases hread
      obtain ⟨further, hfurther, hafter⟩ :=
        widens_readItems opened openedWider hbehind _ _ hitems
      refine ⟨further, ?_, hafter⟩
      simp only [readClass, hfurther, hnegated]
      rfl

theorem widens_readAtom (c : Char) (position positionWider : Nat)
    (henclosed : input.Enclosed back wider) :
    Widens back (readAtom c position input) (readAtom c positionWider wider) := by
  intro node after
  fun_cases readAtom c position input with
  | case1 | case3 => intro hread; cases hread
  | case2 set next hclass =>
      intro hread
      cases hread
      obtain ⟨further, hfurther, hafter⟩ :=
        widens_readClass position positionWider henclosed _ _ hclass
      refine ⟨further, ?_, hafter⟩
      simp only [readAtom, hfurther]
  | case4 c next hescape | case5 set next hescape | case6 a next hescape =>
      intro hread
      cases hread
      obtain ⟨further, hfurther, hafter⟩ :=
        widens_readEscape position positionWider henclosed _ _ hescape
      refine ⟨further, ?_, hafter⟩
      simp only [readAtom, hfurther]
  | case7 | case8 | case9 =>
      intro hread
      cases hread
      exact ⟨wider, rfl, henclosed⟩
  | case10 c hbracket hbackslash hdot hcaret hdollar =>
      intro hread
      cases hread
      exact ⟨wider, readAtom.eq_6 c _ _ hbracket hbackslash hdot hcaret hdollar, henclosed⟩

section Steps

variable {level : Level} {opened : List OpenGroup} {groups : Nat} {c : Char} {rest : List Char}

theorem readPattern_open {index : Option Nat} {count : Nat} {after : Input}
    (hrest : input.rest = '(' :: rest) (hnesting : ¬ maxNesting ≤ opened.length)
    (hopening : readOpening input.offset groups input.tail = .ok ((index, count), after)) :
    readPattern level opened groups input =
      readPattern Level.start (⟨input.offset, index, level⟩ :: opened) count after := by
  rw [readPattern_opening hrest hnesting, hopening]

theorem nesting_of_readPattern {result : Node × Nat} (hrest : input.rest = '(' :: rest)
    (hread : readPattern level opened groups input = .ok result) :
    ¬ maxNesting ≤ opened.length := by
  intro hnesting
  rw [readPattern_nested hrest hnesting] at hread
  cases hread

theorem readPattern_repeater {kind : Repeater} {item : Node} {before : List Node}
    {bounds : Nat × Option Nat} {after : Input} (hrest : input.rest = c :: rest)
    (hkind : Repeater.of? c = some kind) (hrepeatable : level.repeatable? = some (item, before))
    (hbounds : readRepeater kind input.offset input.tail = .ok (bounds, after)) :
    readPattern level opened groups input =
      readPattern (level.pushRepeated item before bounds !(after.eat '?').1) opened groups
        (after.eat '?').2 := by
  rw [readPattern_repeats hrest hkind, hrepeatable]
  dsimp only
  rw [hbounds]

theorem readPattern_atom {item : Node} {after : Input} (hrest : input.rest = c :: rest)
    (hbar : ¬ (c == '|') = true) (hclose : ¬ (c == ')') = true) (hopen : ¬ (c == '(') = true)
    (hkind : Repeater.of? c = none)
    (hatom : readAtom c input.offset input.tail = .ok (item, after)) :
    readPattern level opened groups input = readPattern (level.push item) opened groups after := by
  rw [beq_iff_eq] at hbar hclose hopen
  rw [readPattern_item hrest hbar hclose hopen hkind, hatom]

end Steps

theorem widens_readOpening (position positionWider groups : Nat)
    (henclosed : input.Enclosed back wider) :
    Widens back (readOpening position groups input) (readOpening positionWider groups wider) := by
  intro kind after
  fun_cases readOpening position groups input with
  | case1 rest hrest =>
      intro hread
      cases hread
      refine ⟨_, readOpening_plain (henclosed.rest_eq_cons hrest), ?_⟩
      exact (henclosed.tail_of_cons hrest).tail_of_cons (Input.tail_rest hrest)
  | case2 | case3 => intro hread; cases hread
  | case4 hgroups _ hquestion =>
      intro hread
      cases hread
      refine ⟨wider, ?_, henclosed⟩
      rw [readOpening_capture ?_, if_neg hgroups]
      rw [← beq_eq_false_iff_ne, henclosed.head?_ne (by decide), beq_eq_false_iff_ne]
      intro hhead
      obtain ⟨rest, hrest⟩ := List.head?_eq_some_iff.mp hhead
      exact hquestion rest hrest

def OpenGroup.Alike (group other : OpenGroup) : Prop :=
  group.index = other.index ∧ group.outer = other.outer

theorem OpenGroup.Alike.close_eq {group other : OpenGroup} (halike : group.Alike other)
    (body : Level) : group.close body = other.close body := by
  simp only [OpenGroup.close, halike.1, halike.2]

/-- What is read of a pattern alone is read of it in a group, up to the closing parenthesis. -/
theorem readPattern_enclosed {level : Level} {opened openedWider base : List OpenGroup}
    {groups count : Nat} {node : Node} {result : Node × Nat}
    (hread : readPattern level opened groups input = .ok (node, count))
    (henclosed : input.Enclosed back wider)
    (hopened : List.Forall₂ OpenGroup.Alike opened openedWider)
    (hwider : readPattern level (openedWider ++ base) groups wider = .ok result) :
    ∃ last further, last.node = node ∧ further.rest = ')' :: back ∧
      readPattern last base count further = .ok result := by
  fun_induction readPattern level opened groups input generalizing wider openedWider with
  | case1 level groups input hrest =>
      cases hread
      cases hopened
      exact ⟨level, wider, rfl, by rw [henclosed, hrest]; rfl, hwider⟩
  | case3 level opened groups input c rest hrest hshorter hbar ih =>
      obtain rfl : c = '|' := by simpa using hbar
      rw [readPattern_bar (henclosed.rest_eq_cons hrest)] at hwider
      exact ih hread (henclosed.tail_of_cons hrest) hopened hwider
  | case5 level groups input c rest hrest hshorter hbar hclose group outer ih =>
      obtain rfl : c = ')' := by simpa using hclose
      cases hopened with
      | cons halike houter =>
          rw [List.cons_append, readPattern_close (henclosed.rest_eq_cons hrest),
            ← halike.close_eq] at hwider
          exact ih hread (henclosed.tail_of_cons hrest) houter hwider
  | case8 level opened groups input c rest hrest hshorter hbar hclose hopen hnesting index number
      after hopening hlength ih =>
      obtain rfl : c = '(' := by simpa using hopen
      have hnesting := nesting_of_readPattern (henclosed.rest_eq_cons hrest) hwider
      have halike : OpenGroup.Alike ⟨input.offset, index, level⟩ ⟨wider.offset, index, level⟩ :=
        ⟨rfl, rfl⟩
      obtain ⟨further, hfurther, hafter⟩ := widens_readOpening _ wider.offset groups
        (henclosed.tail_of_cons hrest) _ _ hopening
      rw [readPattern_open (henclosed.rest_eq_cons hrest) hnesting hfurther] at hwider
      exact ih hread hafter (.cons halike hopened) hwider
  | case11 level opened groups input c rest hrest hshorter hbar hclose hopen kind hkind item before
      hrepeatable bounds after hbounds =>
      rename_i ih
      obtain ⟨further, hfurther, hafter⟩ := widens_readRepeater kind _ wider.offset
        (henclosed.tail_of_cons hrest) _ _ hbounds
      obtain ⟨hmark, hbehind⟩ := hafter.eat (show '?' ≠ ')' by decide)
      rw [readPattern_repeater (henclosed.rest_eq_cons hrest) hkind hrepeatable hfurther,
        hmark] at hwider
      exact ih hread hbehind hopened hwider
  | case13 level opened groups input c rest hrest hshorter hbar hclose hopen hkind item after hatom
      hlength ih =>
      obtain ⟨further, hfurther, hafter⟩ := widens_readAtom c _ wider.offset
        (henclosed.tail_of_cons hrest) _ _ hatom
      rw [readPattern_atom (henclosed.rest_eq_cons hrest) hbar hclose hopen hkind hfurther]
        at hwider
      exact ih hread hafter hopened hwider
  | _ => cases hread

section Groups

variable {level : Level} {opened : List OpenGroup} {groups count : Nat} {node : Node}
  {result : Node × Nat}

theorem readPattern_openPlain {rest : List Char} (hrest : input.rest = '(' :: '?' :: ':' :: rest)
    (hread : readPattern level opened groups input = .ok result) :
    ∃ after, after.rest = rest ∧
      readPattern Level.start (⟨input.offset, none, level⟩ :: opened) groups after =
        .ok result := by
  obtain ⟨_, offset⟩ := input
  subst hrest
  rw [readPattern_open rfl (nesting_of_readPattern rfl hread) rfl] at hread
  exact ⟨_, rfl, hread⟩

theorem readPattern_group (hread : readPattern Level.start [] groups input = .ok (node, count))
    (hrest : wider.rest = '(' :: '?' :: ':' :: (input.rest ++ ')' :: back))
    (hwider : readPattern level opened groups wider = .ok result) :
    ∃ further, further.rest = back ∧
      readPattern (level.push (.group none node)) opened count further = .ok result := by
  obtain ⟨after, hafter, hwider⟩ := readPattern_openPlain hrest hwider
  have hopened : List.Forall₂ OpenGroup.Alike [] [] := .nil
  obtain ⟨last, further, rfl, hfurther, hlast⟩ := readPattern_enclosed hread hafter hopened hwider
  rw [readPattern_close hfurther] at hlast
  exact ⟨further.tail, by simp [Input.tail, hfurther], hlast⟩

end Groups

theorem ne_none_of_readFlagLetters {letters : List Char} {flags read : Flags} {offset : Nat}
    {after : Input} (hread : readFlagLetters flags offset letters = .ok (read, after))
    (hflags : flags ≠ .none ∨ offset = 2) : read ≠ .none := by
  fun_induction readFlagLetters flags offset letters with
  | case1 => cases hread
  | case2 _ _ _ ih | case3 _ _ _ ih | case4 _ _ _ ih =>
      exact ih hread (.inl (by simp [Flags.none]))
  | case5 flags offset c rest _ _ _ hclosing =>
      cases hread
      obtain ⟨-, hlt⟩ : c = ')' ∧ 2 < offset := by simpa using hclosing
      exact hflags.resolve_right (Nat.ne_of_gt hlt)
  | case6 => cases hread

theorem readFlags_keeps {flags : Flags} {after : Input} (hread : readFlags input = .ok (flags, after))
    (hflags : flags = .none) : after = input := by
  revert hread
  fun_cases readFlags input with
  | case1 | case3 =>
      intro hread
      cases hread
      rfl
  | case2 =>
      intro hread
      exact absurd hflags (ne_none_of_readFlagLetters hread (.inr rfl))

theorem readPattern_of_parse {text : String} {parsed : Parsed} (hparse : parse text = .ok parsed)
    (hflags : parsed.flags = .none) :
    readPattern Level.start [] 0 (.ofString text) = .ok (parsed.node, parsed.groups) := by
  revert hparse
  fun_cases parse text with
  | case1 | case2 => intro hparse; cases hparse
  | case3 flags input hread node groups hpattern =>
      intro hparse
      cases hparse
      rwa [readFlags_keeps hread hflags] at hpattern

theorem flags_of_parse_group {text : String} {parsed : Parsed} {rest : List Char}
    (htext : text.toList = '(' :: '?' :: ':' :: rest) (hparse : parse text = .ok parsed) :
    parsed.flags = .none := by
  have hread : readFlags (.ofString text) = .ok (.none, .ofString text) := by
    simp only [readFlags, Input.ofString, htext]
  rw [parse, hread] at hparse
  dsimp only at hparse
  cases hpattern : readPattern Level.start [] 0 (.ofString text) with
  | error e =>
      rw [hpattern] at hparse
      cases hparse
  | ok result =>
      rw [hpattern] at hparse
      cases hparse
      rfl

/-- What stands behind a repeater that prefers few rounds. -/
def mark (greedy : Bool) : List Char :=
  if greedy then [] else ['?']

theorem eat_mark {greedy : Bool} {rest : List Char} (hrest : input.rest = mark greedy ++ rest)
    (hmark : greedy = true → rest.head? ≠ some '?') :
    (input.eat '?').1 = (!greedy) ∧ (input.eat '?').2.rest = rest := by
  obtain ⟨_, offset⟩ := input
  subst hrest
  cases greedy with
  | true => simp [mark, Input.eat, hmark rfl]
  | false => exact ⟨rfl, rfl⟩

theorem readPattern_marked {kind : Repeater} {bounds : Nat × Option Nat} (greedy : Bool)
    (level : Level) (item : Node) (opened : List OpenGroup) (groups : Nat) {c : Char}
    {rest : List Char} (hrest : input.rest = c :: (mark greedy ++ rest))
    (hkind : Repeater.of? c = some kind)
    (hbounds : ∀ position input, readRepeater kind position input = .ok (bounds, input))
    (hmark : rest.head? ≠ some '?') :
    ∃ further, further.rest = rest ∧
      readPattern (level.push item) opened groups input =
        readPattern (level.pushRepeated item level.items bounds greedy) opened groups further := by
  have htail : input.tail.rest = mark greedy ++ rest := by simp [Input.tail, hrest]
  obtain ⟨hgreedy, hbehind⟩ := eat_mark htail fun _ => hmark
  refine ⟨_, hbehind, ?_⟩
  rw [readPattern_repeater hrest hkind rfl (hbounds _ _), hgreedy, Bool.not_not]
  rfl

theorem parse_star {text x : String} {greedy : Bool} {inner parsed : Parsed}
    (hinner : parse x = .ok inner) (hflags : inner.flags = .none)
    (htext : text.toList = '(' :: '?' :: ':' :: (x.toList ++ ')' :: '*' :: mark greedy))
    (hparse : parse text = .ok parsed) :
    parsed = ⟨.repetition (.group none inner.node) 0 none greedy, inner.groups, .none⟩ := by
  have hnone := flags_of_parse_group htext hparse
  obtain ⟨star, hstar, hgroup⟩ := readPattern_group (readPattern_of_parse hinner hflags) htext
    (readPattern_of_parse hparse hnone)
  have hrest : star.rest = '*' :: (mark greedy ++ []) := by rw [hstar, List.append_nil]
  obtain ⟨last, hlast, hrepeated⟩ := readPattern_marked greedy Level.start
    (.group none inner.node) [] inner.groups hrest rfl (fun _ _ => rfl) (Option.some_ne_none _).symm
  rw [hrepeated, readPattern_end hlast] at hgroup
  obtain ⟨node, groups, flags⟩ := parsed
  cases hgroup
  cases hnone
  rfl

theorem parse_optionalPlus {text x : String} {greedy : Bool} {inner parsed : Parsed}
    (hinner : parse x = .ok inner) (hflags : inner.flags = .none)
    (htext : text.toList = '(' :: '?' :: ':' :: '(' :: '?' :: ':' ::
      (x.toList ++ ')' :: '+' :: (mark greedy ++ ')' :: '?' :: mark greedy)))
    (hparse : parse text = .ok parsed) :
    parsed = ⟨.repetition (.group none (.repetition (.group none inner.node) 1 none greedy)) 0
      (some 1) greedy, inner.groups, .none⟩ := by
  have hnone := flags_of_parse_group htext hparse
  obtain ⟨inside, hinside, hread⟩ := readPattern_openPlain htext (readPattern_of_parse hparse hnone)
  obtain ⟨plus, hplus, hread⟩ :=
    readPattern_group (readPattern_of_parse hinner hflags) hinside hread
  obtain ⟨closing, hclosing, hrepeated⟩ := readPattern_marked greedy Level.start
    (.group none inner.node) [_] inner.groups hplus rfl (fun _ _ => rfl) (by simp)
  rw [hrepeated, readPattern_close hclosing] at hread
  have htail : closing.tail.rest = '?' :: (mark greedy ++ []) := by
    simp [Input.tail, hclosing]
  obtain ⟨last, hlast, hoptional⟩ := readPattern_marked greedy Level.start
    (.group none (.repetition (.group none inner.node) 1 none greedy)) [] inner.groups htail rfl
    (fun _ _ => rfl) (Option.some_ne_none _).symm
  have hread := hoptional.symm.trans hread
  rw [readPattern_end hlast] at hread
  obtain ⟨node, groups, flags⟩ := parsed
  cases hread
  cases hnone
  rfl

end TextColumns.Pattern
