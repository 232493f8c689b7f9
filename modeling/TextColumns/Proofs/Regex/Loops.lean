import Mathlib
import TextColumns.Proofs.Pattern.EmptyMatch
import TextColumns.Proofs.Pattern.Enclosed
import TextColumns.Proofs.Pattern.Preference
import TextColumns.Proofs.Regex.Matcher
import TextColumns.Proofs.Search.Loops

/-!
Any number of rounds, written as a star or as an optional plus.  The two programs differ in one
instruction, the one behind the body: the star goes back to the choice in front of the body, the
plus chooses itself.
-/

namespace TextColumns

open Search (ChoosesAnew Mode everywhere explore startVisit starts)
open Text (Cursor)

namespace Pattern

theorem Flags.union_none (flags : Flags) : flags.union .none = flags := by
  simp [Flags.union, Flags.none]

/-- The program of a pattern that is a loop, with the instruction behind its body. -/
def loopProgram (flags : Flags) (body : Node) (groups : Nat) (greedy : Bool)
    (last : Instruction) : Program where
  instructions :=
    (.save 0 :: fork greedy 2 (2 + body.codeSize + 1) ::
      (body.code flags 2 0 ++ [last, .save 1, .accept])).toArray
  classes := body.classes.toArray
  slots := 2 * (groups + 1)
  start := 0

section Programs

variable {flags : Flags} {body : Node} {groups : Nat} {greedy : Bool} {last : Instruction}

theorem program_star (read : Flags) :
    Parsed.program ⟨.repetition (.group none body) 0 none greedy, groups, read⟩ flags =
      loopProgram flags body groups greedy (.jump 1) := by
  have hexit : 1 + body.codeSize + 2 = 2 + body.codeSize + 1 := by omega
  simp [Parsed.program, loopProgram, Node.code, Code.repetition, Code.star, Node.codeSize, hexit,
    Node.classes, writtenRounds]

theorem program_optionalPlus (read : Flags) :
    Parsed.program ⟨.repetition (.group none (.repetition (.group none body) 1 none greedy)) 0
        (some 1) greedy, groups, read⟩ flags =
      loopProgram flags body groups greedy (fork greedy 2 (2 + body.codeSize + 1)) := by
  have hexit : 1 + (body.codeSize + 1 + 1) = 2 + body.codeSize + 1 := by omega
  have hnone (size : Nat) : Code.laidOut size 0 = 0 := ite_self 0
  simp [Parsed.program, loopProgram, Node.code, Code.repetition, Code.plus, Code.optionalCopies,
    Code.copies, hnone, Node.codeSize, repetitionCost, hexit, Node.classes, writtenRounds]

theorem standsAt_loopProgram (hbody : body.WellFormed) :
    let program := loopProgram flags body groups greedy last
    program.instructions[0]? = some (.save 0) ∧
      program.instructions[1]? = some (fork greedy 2 (2 + body.codeSize + 1)) ∧
      Fragment program flags body 2 (2 + body.codeSize) ∧
      program.instructions[2 + body.codeSize]? = some last ∧
      program.instructions[2 + body.codeSize + 1]? = some (.save 1) ∧
      program.instructions[2 + body.codeSize + 2]? = some .accept := by
  intro program
  have hcode := standsAt_toList program.instructions
  have hclasses := standsAt_toList program.classes
  simp only [program, loopProgram, standsAt_cons, standsAt_append, length_code hbody] at hcode
  obtain ⟨hsave, hfork, hinside, hlast, hstop, haccept, -⟩ := hcode
  exact ⟨hsave, hfork, compiles_of_wellFormed hbody 2 0 hinside hclasses, hlast, hstop, haccept⟩

theorem choosesAnew_loopProgram (hbody : body.WellFormed) :
    ChoosesAnew (loopProgram flags body groups true (.jump 1))
      (loopProgram flags body groups true (fork true 2 (2 + body.codeSize + 1)))
      1 (2 + body.codeSize) where
  choice := (standsAt_loopProgram hbody).2.1
  returns := (standsAt_loopProgram hbody).2.2.2.1
  chooses := (standsAt_loopProgram hbody).2.2.2.1
  elsewhere address hne := by
    have hlength := @length_code flags body hbody 2 0
    simp only [loopProgram, List.getElem?_toArray, ← List.cons_append, List.getElem?_append,
      List.length_cons, hlength]
    split
    · rfl
    · have hbehind : address - (body.codeSize + 1 + 1) ≠ 0 := by omega
      obtain ⟨distance, hdistance⟩ := Nat.exists_eq_succ_of_ne_zero hbehind
      rw [hdistance, List.getElem?_cons_succ, List.getElem?_cons_succ]
  classes := rfl

/-- A greedy loop finds the same in either form, if no round is empty. -/
theorem explore_loopProgram (hbody : body.WellFormed) {text : String} {cursor : Cursor}
    (hon : Cursor.On text cursor)
    (hempty : ∀ offset, ¬ body.MatchesBetween flags text offset offset) :
    let star := loopProgram flags body groups true (.jump 1)
    let plus := loopProgram flags body groups true (fork true 2 (2 + body.codeSize + 1))
    explore star (everywhere star text) (starts star ⟨false, false⟩ true false cursor) =
      explore plus (everywhere plus text) (starts plus ⟨false, false⟩ true false cursor) := by
  intro star plus
  have hretains (cursor : Cursor) : ∃ inside, Cursor.On text cursor →
      Search.Retains star cursor 2 (2 + body.codeSize) inside := by
    by_cases hcursor : Cursor.On text cursor
    · have hplace := Cursor.at?_eq_some_iff.mpr ⟨hcursor, rfl⟩
      obtain ⟨inside, hinside⟩ := (standsAt_loopProgram hbody).2.2.1.retains
        fun hmatches => hempty cursor.offset ⟨cursor, cursor, hplace, hplace, hmatches⟩
      exact ⟨inside, fun _ => hinside⟩
    · exact ⟨fun _ => False, fun honCursor => absurd honCursor hcursor⟩
  choose inside hinside using hretains
  refine Search.explore_eq_of_choosesAnew (choosesAnew_loopProgram hbody) ?_ hinside ?_
  · simp [star, plus, loopProgram, Program.size]
  · exact List.forall_mem_map.mpr fun place hplace => ((Cursor.mem_places hon).mp hplace).1

theorem explore_loopProgram_lazy (hbody : body.WellFormed) {text : String} {cursor : Cursor}
    (hon : Cursor.On text cursor) :
    let program := loopProgram flags body groups false last
    let first : Progress := ⟨cursor, Array.replicate (2 * (groups + 1)) none⟩
    explore program (everywhere program text) (starts program ⟨false, false⟩ true false cursor) =
      some ((first.record 0).record 1).slots := by
  intro program first
  obtain ⟨hsave, hfork, -, -, hstop, haccept⟩ :=
    @standsAt_loopProgram flags body groups false last hbody
  obtain ⟨others, hplaces⟩ : ∃ others, cursor.places = cursor :: others := by
    unfold Cursor.places
    cases hrest : cursor.rest <;> exact ⟨_, congrArg (· :: _) (hrest ▸ rfl)⟩
  have hleads : Leads program [first.visitAt 0]
      [((first.record 0).record 1).visitAt (2 + body.codeSize + 2),
        (first.record 0).visitAt 2] :=
    (leads_save hsave).trans ((leads_split hfork).trans ((leads_save hstop).append (.refl _)))
  have hlater := hleads.append (Leads.refl (others.map (startVisit program)))
  obtain ⟨steps, hfinds⟩ := hlater _ ⟨0, .accept (beq_iff_eq.mpr haccept)⟩
  have hstarts : starts program ⟨false, false⟩ true false cursor =
      [first.visitAt 0] ++ others.map (startVisit program) := congrArg (List.map _) hplaces
  rw [← hstarts] at hfinds
  refine Search.explore_eq_of_finds ?_ hfinds
  exact List.forall_mem_map.mpr fun place hplace => ((Cursor.mem_places hon).mp hplace).1

end Programs

end Pattern

namespace Regex

open Pattern (Flags Parsed)

theorem captures_eq_explore {pattern : String} {flags : Flags} {regex : Regex}
    (hcompile : Regex.compile pattern flags = .ok regex) (text : String) :
    regex.captures text =
      (explore regex.program (everywhere regex.program text)
        (starts regex.program ⟨false, false⟩ true false (.start text))).map (·.groups) := by
  have hready := Matcher.ready_ofProgram regex.program
  have hrun := (hready.run_eq (check_of_compile hcompile) (Cursor.on_start text) ⟨false, false⟩).2
  exact congrArg _ (hrun rfl)

variable {x : String} {inner : Parsed} {flags : Flags} {regex : Regex}

theorem program_of_compile_star (greedy : Bool) (hparse : Pattern.parse x = .ok inner)
    (hflags : inner.flags = .none) {pattern : String}
    (htext : pattern.toList =
      '(' :: '?' :: ':' :: (x.toList ++ ')' :: '*' :: Pattern.mark greedy))
    (hcompile : Regex.compile pattern flags = .ok regex) :
    regex.program = Pattern.loopProgram flags inner.node inner.groups greedy (.jump 1) := by
  obtain ⟨parsed, hparsed, hprogram, -⟩ := Pattern.compile_spec (program_of_compile hcompile)
  obtain rfl := Pattern.parse_star hparse hflags htext hparsed
  rw [hprogram, Flags.union_none, Pattern.program_star]

theorem program_of_compile_optionalPlus (greedy : Bool) (hparse : Pattern.parse x = .ok inner)
    (hflags : inner.flags = .none) {pattern : String}
    (htext : pattern.toList = '(' :: '?' :: ':' :: '(' :: '?' :: ':' ::
      (x.toList ++ ')' :: '+' :: (Pattern.mark greedy ++ ')' :: '?' :: Pattern.mark greedy)))
    (hcompile : Regex.compile pattern flags = .ok regex) :
    regex.program = Pattern.loopProgram flags inner.node inner.groups greedy
      (Pattern.fork greedy 2 (2 + inner.node.codeSize + 1)) := by
  obtain ⟨parsed, hparsed, hprogram, -⟩ := Pattern.compile_spec (program_of_compile hcompile)
  obtain rfl := Pattern.parse_optionalPlus hparse hflags htext hparsed
  rw [hprogram, Flags.union_none, Pattern.program_optionalPlus]

/-- Any number of rounds finds the same as a star and as an optional plus: always when few rounds
are preferred, and when many are, in each text in which no round is empty. -/
theorem captures_star_eq_captures_plus (hparse : Pattern.parse x = .ok inner)
    (hflags : inner.flags = .none) (flags : Flags) (text : String) :
    (∀ star plus, Regex.compile ("(?:" ++ x ++ ")*?") flags = .ok star →
      Regex.compile ("(?:(?:" ++ x ++ ")+?)??") flags = .ok plus →
        star.captures text = plus.captures text) ∧
    ((∀ offset, ¬ inner.node.MatchesBetween flags text offset offset) →
      ∀ star plus, Regex.compile ("(?:" ++ x ++ ")*") flags = .ok star →
        Regex.compile ("(?:(?:" ++ x ++ ")+)?") flags = .ok plus →
          star.captures text = plus.captures text) := by
  have hbody := Pattern.wellFormed_of_parse hparse
  have hon := Cursor.on_start text
  constructor
  · intro star plus hstar hplus
    rw [captures_eq_explore hstar, captures_eq_explore hplus,
      program_of_compile_star false hparse hflags (by simp [Pattern.mark]) hstar,
      program_of_compile_optionalPlus false hparse hflags (by simp [Pattern.mark]) hplus,
      Pattern.explore_loopProgram_lazy hbody hon, Pattern.explore_loopProgram_lazy hbody hon]
  · intro hempty star plus hstar hplus
    rw [captures_eq_explore hstar, captures_eq_explore hplus,
      program_of_compile_star true hparse hflags (by simp [Pattern.mark]) hstar,
      program_of_compile_optionalPlus true hparse hflags (by simp [Pattern.mark]) hplus,
      Pattern.explore_loopProgram hbody hon hempty]

theorem captures_star_eq_captures_plus_letters :
    let inner : Parsed :=
      ⟨.alternate [.group (some 1) (.literal 'a'), .literal 'b'], 1, Flags.none⟩
    let loop (pattern : String) (greedy : Bool) (last : Instruction) : Regex :=
      ⟨pattern, Flags.none, Pattern.loopProgram Flags.none inner.node 1 greedy last⟩
    let lazyStar := loop "(?:(a)|b)*?" false (.jump 1)
    let lazyPlus := loop "(?:(?:(a)|b)+?)??" false (.split 9 2)
    let star := loop "(?:(a)|b)*" true (.jump 1)
    let plus := loop "(?:(?:(a)|b)+)?" true (.split 2 9)
    Pattern.parse "(a)|b" = .ok inner ∧ inner.flags = .none ∧
      (Regex.compile "(?:(a)|b)*?" Flags.none = .ok lazyStar ∧
        Regex.compile "(?:(?:(a)|b)+?)??" Flags.none = .ok lazyPlus ∧
        lazyStar.captures "abc" = lazyPlus.captures "abc") ∧
      (∀ offset, ¬ inner.node.MatchesBetween Flags.none "abc" offset offset) ∧
      Regex.compile "(?:(a)|b)*" Flags.none = .ok star ∧
      Regex.compile "(?:(?:(a)|b)+)?" Flags.none = .ok plus ∧
      star.captures "abc" = plus.captures "abc" := by
  intro inner loop lazyStar lazyPlus star plus
  have hparse : Pattern.parse "(a)|b" = .ok inner := by cbv
  have hlazyStar : Regex.compile "(?:(a)|b)*?" Flags.none = .ok lazyStar := by decide +kernel
  have hlazyPlus : Regex.compile "(?:(?:(a)|b)+?)??" Flags.none = .ok lazyPlus := by
    decide +kernel
  have hstar : Regex.compile "(?:(a)|b)*" Flags.none = .ok star := by decide +kernel
  have hplus : Regex.compile "(?:(?:(a)|b)+)?" Flags.none = .ok plus := by decide +kernel
  have hempty : ∀ offset, ¬ inner.node.MatchesBetween Flags.none "abc" offset offset := by
    rintro offset ⟨first, last, hfirst, hlast, hmatches⟩
    obtain rfl : first = last := Option.some.inj (hfirst.symm.trans hlast)
    rcases hmatches with ⟨d, hnext, -⟩ | ⟨d, hnext, -⟩ | hnone
    · exact Nat.lt_irrefl _ (Cursor.offset_lt_of_next? hnext)
    · exact Nat.lt_irrefl _ (Cursor.offset_lt_of_next? hnext)
    · exact hnone
  obtain ⟨hlazy, hgreedy⟩ := captures_star_eq_captures_plus hparse rfl Flags.none "abc"
  exact ⟨hparse, rfl, ⟨hlazyStar, hlazyPlus, hlazy _ _ hlazyStar hlazyPlus⟩, hempty, hstar, hplus,
    hgreedy hempty _ _ hstar hplus⟩

/-- A round that would rather be empty: the star takes a letter, the plus does not. -/
theorem captures_star_ne_captures_plus :
    let inner : Parsed := ⟨.alternate [.empty, .literal 'a'], 0, Flags.none⟩
    let loop (pattern : String) (last : Instruction) : Regex :=
      ⟨pattern, Flags.none, Pattern.loopProgram Flags.none inner.node 0 true last⟩
    let star := loop "(?:|a)*" (.jump 1)
    let plus := loop "(?:(?:|a)+)?" (.split 2 6)
    Pattern.parse "|a" = .ok inner ∧ Regex.compile "(?:|a)*" Flags.none = .ok star ∧
      Regex.compile "(?:(?:|a)+)?" Flags.none = .ok plus ∧
      star.captures "a" = some [some ⟨0, 1⟩] ∧ plus.captures "a" = some [some ⟨0, 0⟩] := by
  intro inner loop star plus
  have hparse : Pattern.parse "|a" = .ok inner := by cbv
  have hstar : Regex.compile "(?:|a)*" Flags.none = .ok star := by decide +kernel
  have hplus : Regex.compile "(?:(?:|a)+)?" Flags.none = .ok plus := by decide +kernel
  exact ⟨hparse, hstar, hplus, by decide +kernel, by decide +kernel⟩

end Regex

end TextColumns
