import TextColumns.Proofs.Pattern.Enclosed
import TextColumns.Proofs.Pattern.Preference

/-!
Texts as patterns.  With a backslash in front of each metacharacter a text is read as its own
characters, through which there is one way where they follow and none elsewhere.
-/

namespace TextColumns.Pattern

open Search (Slots)
open Text (Cursor)

/-- The characters that do not stand for themselves in a pattern. -/
def metacharacters : List Char :=
  "\\.*+?()[\x7b|^$".toList

/-- A choice of characters that a text is escaped by: at least those that have to be. -/
structure Escaping (marked : Char → Bool) : Prop where
  all : ∀ c ∈ metacharacters, marked c = true
  only : ∀ c, marked c = true → isEscapable c = true

theorem escaping_isEscapable : Escaping isEscapable where
  all := List.all_eq_true.mp (by decide)
  only _ hc := hc

def escapedChars (marked : Char → Bool) (chars : List Char) : List Char :=
  chars.flatMap fun c => if marked c then ['\x5c', c] else [c]

/-- A text with a backslash in front of each marked character. -/
def escaped (marked : Char → Bool) (text : String) : String :=
  .ofList (escapedChars marked text.toList)

theorem ofLetter?_of_isEscapable {c : Char} (hc : isEscapable c = true) :
    c ≠ 'x' ∧ Escape.ofLetter? c = some (.char c) := by
  have hnone : "\\.*+?()[]\x7b\x7d|^$/-".toList.all
      (fun c => c ≠ 'x' ∧ c ∉ "ntrfv0dDwWsSbBAz".toList) = true := by decide
  obtain ⟨hx, hletter⟩ :=
    of_decide_eq_true (List.all_eq_true.mp hnone c (List.contains_iff_mem.mp hc))
  refine ⟨hx, ?_⟩
  unfold Escape.ofLetter?
  split
  case h_17 => rw [if_pos hc]
  all_goals exact absurd (by decide) hletter

theorem readAtom_escaped {c : Char} {rest : List Char} {input : Input} (position : Nat)
    (hrest : input.rest = c :: rest) (hc : isEscapable c = true) :
    readAtom '\x5c' position input = .ok (.literal c, input.tail) := by
  obtain ⟨hx, hletter⟩ := ofLetter?_of_isEscapable hc
  have hread : readEscape position input = .ok (.char c, input.tail) := by
    rw [readEscape_letter hrest hx, hletter]
  rw [readAtom, hread]

theorem readAtom_plain {c : Char} (position : Nat) (input : Input) (hc : c ∉ metacharacters) :
    readAtom c position input = .ok (.literal c, input) := by
  unfold readAtom
  split
  case h_6 => rfl
  all_goals exact absurd (by decide) hc

theorem Repeater.of?_plain {c : Char} (hc : c ∉ metacharacters) : Repeater.of? c = none := by
  unfold Repeater.of?
  split
  case h_5 => rfl
  all_goals exact absurd (by decide) hc

section Reading

variable {marked : Char → Bool}

theorem Escaping.not_mem (hmarked : Escaping marked) {c : Char} (hc : ¬ marked c = true) :
    c ∉ metacharacters :=
  fun hmem => hc (hmarked.all c hmem)

/-- A character of an escaped text is read as an item of its own, whatever follows it. -/
theorem readPattern_literal (hmarked : Escaping marked) (level : Level) (opened : List OpenGroup)
    (groups : Nat) {input : Input} {c : Char} {tail : List Char}
    (hrest : input.rest = escapedChars marked [c] ++ tail) :
    ∃ further, further.rest = tail ∧
      readPattern level opened groups input =
        readPattern (level.push (.literal c)) opened groups further := by
  rw [escapedChars, List.flatMap_singleton] at hrest
  by_cases hc : marked c = true
  · rw [if_pos hc] at hrest
    have htail : input.tail.rest = c :: tail := by simp [Input.tail, hrest]
    refine ⟨input.tail.tail, by simp [Input.tail, hrest], ?_⟩
    exact readPattern_atom hrest (by decide) (by decide) (by decide) rfl
      (readAtom_escaped input.offset htail (hmarked.only c hc))
  · rw [if_neg hc] at hrest
    have hplain := hmarked.not_mem hc
    have hne {d : Char} (hd : d ∈ metacharacters) : ¬ (c == d) = true := by
      rw [beq_iff_eq]
      exact fun heq => hplain (heq ▸ hd)
    refine ⟨input.tail, by simp [Input.tail, hrest], ?_⟩
    exact readPattern_atom hrest (hne (by decide)) (hne (by decide)) (hne (by decide))
      (Repeater.of?_plain hplain) (readAtom_plain input.offset input.tail hplain)

theorem escapedChars_cons (c : Char) (chars : List Char) :
    escapedChars marked (c :: chars) = escapedChars marked [c] ++ escapedChars marked chars := by
  rw [escapedChars, escapedChars, escapedChars, List.flatMap_cons, List.flatMap_singleton]

theorem readPattern_escaped (hmarked : Escaping marked) (level : Level) (groups : Nat)
    {input : Input} {chars : List Char} (hrest : input.rest = escapedChars marked chars) :
    ∃ last : Level, last.branches = level.branches ∧
      last.items.reverse = level.items.reverse ++ chars.map .literal ∧
      readPattern level [] groups input = .ok (last.node, groups) := by
  induction chars generalizing level input with
  | nil => exact ⟨level, rfl, (List.append_nil _).symm, readPattern_end hrest⟩
  | cons c chars ih =>
      obtain ⟨further, hfurther, hread⟩ :=
        readPattern_literal hmarked level [] groups (hrest.trans (escapedChars_cons c chars))
      obtain ⟨last, hbranches, hitems, hlast⟩ := ih (level.push (.literal c)) hfurther
      refine ⟨last, hbranches, ?_, hread.trans hlast⟩
      rw [hitems, List.map_cons, Level.push, List.reverse_cons, List.append_assoc]
      rfl

theorem rest_escaped (marked : Char → Bool) (text : String) :
    (Input.ofString (escaped marked text)).rest = escapedChars marked text.toList :=
  String.toList_ofList

theorem readFlags_escaped (hmarked : Escaping marked) (text : String) :
    readFlags (.ofString (escaped marked text)) = .ok (.none, .ofString (escaped marked text)) := by
  have hhead : (escapedChars marked text.toList).head? ≠ some '(' := by
    cases text.toList with
    | nil => exact nofun
    | cons c chars =>
        rw [escapedChars, List.flatMap_cons]
        by_cases hc : marked c = true
        · rw [if_pos hc]
          exact nofun
        · rw [if_neg hc]
          intro heq
          exact hmarked.not_mem hc (Option.some.inj heq ▸ by decide)
  unfold readFlags
  rw [rest_escaped]
  split
  next => rfl
  next hcons => exact absurd (congrArg List.head? hcons) hhead
  next => rfl

theorem Level.ways_branch (level : Level) (flags : Flags) :
    level.branch.ways flags = waysInTurn flags level.items.reverse := by
  funext progress
  fun_cases Level.branch level with
  | case1 hitems =>
      rw [hitems]
      rfl
  | case2 item hitems =>
      rw [hitems]
      exact (List.flatMap_singleton' _).symm
  | case3 => rfl

theorem Level.loopsConsume_branch (level : Level) :
    level.branch.loopsConsume = allLoopsConsume level.items.reverse := by
  fun_cases Level.branch level with
  | case1 hitems =>
      rw [hitems]
      rfl
  | case2 item hitems =>
      rw [hitems]
      exact (Bool.and_true _).symm
  | case3 => rfl

theorem allLoopsConsume_literals (chars : List Char) :
    allLoopsConsume (chars.map .literal) = true := by
  induction chars with
  | nil => rfl
  | cons c chars ih => exact ih

theorem parse_escaped (hmarked : Escaping marked) (text : String) :
    ∃ node : Node, parse (escaped marked text) = .ok ⟨node, 0, .none⟩ ∧
      node.loopsConsume = true ∧
      ∀ flags, node.ways flags = waysInTurn flags (text.toList.map .literal) := by
  obtain ⟨last, hbranches, hitems, hread⟩ :=
    readPattern_escaped hmarked Level.start 0 (rest_escaped marked text)
  have hnode : last.node = last.branch := by
    rw [Level.node, hbranches]
    rfl
  have hliterals : last.items.reverse = text.toList.map .literal := hitems
  refine ⟨last.node, ?_, ?_, fun flags => ?_⟩
  · simp only [parse, readFlags_escaped hmarked, hread]
  · rw [hnode, Level.loopsConsume_branch, hliterals, allLoopsConsume_literals]
  · rw [hnode, Level.ways_branch, hliterals]

end Reading

theorem waysInTurn_literals (chars : List Char) (progress : Progress) :
    waysInTurn .none (chars.map .literal) progress =
      if chars.isPrefixOf progress.cursor.rest then
        [⟨progress.cursor.past chars, progress.slots⟩]
      else [] := by
  induction chars generalizing progress with
  | nil => rfl
  | cons c chars ih =>
      obtain ⟨⟨offset, before, rest⟩, slots⟩ := progress
      rw [List.map_cons, waysInTurn, Node.ways, Progress.across]
      cases rest with
      | nil => rfl
      | cons d rest =>
          have hsame : sameChar d c Flags.none.ignoreCase = (c == d) := by
            rw [sameChar, Flags.none, Bool.false_and, Bool.or_false, Bool.beq_comm]
          simp only [Cursor.next?, hsame, List.isPrefixOf]
          by_cases hd : c = d
          · subst hd
            simp only [beq_self_eq_true, if_true, Bool.true_and, List.flatMap_cons,
              List.flatMap_nil, List.append_nil]
            exact ih _
          · simp only [beq_false_of_ne hd, Bool.false_and, Bool.false_eq_true, if_false,
              List.flatMap_nil]

def literalSlots (chars : List Char) (place : Cursor) : Slots :=
  #[some place.offset, some (place.offset + Text.sizeOf chars)]

theorem captures_literals {node : Node} {chars : List Char}
    (hways : node.ways .none = waysInTurn .none (chars.map .literal)) (cursor : Cursor) :
    Parsed.captures ⟨node, 0, .none⟩ .none cursor =
      (cursor.seekChars? chars).map (literalSlots chars) := by
  rw [Parsed.captures, Cursor.seekChars?, ← List.findSome?_guard, List.map_findSome?]
  congr 1
  funext place
  have hbody (slots : Slots) : node.ways .none ⟨place, slots⟩ =
      if chars.isPrefixOf place.rest then [⟨place.past chars, slots⟩] else [] := by
    rw [hways]
    exact waysInTurn_literals chars ⟨place, slots⟩
  simp only [Node.ways, Progress.record, hbody, Function.comp_apply, Option.guard]
  by_cases hfollows : chars.isPrefixOf place.rest = true
  · rw [if_pos hfollows, if_pos hfollows, List.map_singleton, List.head?_cons,
      Cursor.offset_past]
    rfl
  · rw [if_neg hfollows, if_neg hfollows]
    rfl

end TextColumns.Pattern
