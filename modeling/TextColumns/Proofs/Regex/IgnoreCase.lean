import TextColumns.Proofs.Pattern.Instructions
import TextColumns.Proofs.Program.CharClass
import TextColumns.Proofs.Regex.WholeMatch
import TextColumns.Proofs.Search.Mapping
import TextColumns.Proofs.Text.Boundary

/-!
Searches that ignore case.  Their programs compare every character in either case, so they cannot
tell a text from the one in which `Char.toLower`, which maps the letters of ASCII alone, has been
put to every character.
-/

namespace TextColumns

open Pattern (Flags Parsed)
open Search (Mode)
open Text (Cursor Extent IsBoundary)

namespace Program.Blind

variable {program : Program} {f : Char → Char} (hblind : program.Blind f)
include hblind

theorem matchFrom?_map (cursor : Cursor) :
    program.matchFrom? (cursor.map f) = program.matchFrom? cursor := by
  simp only [matchFrom?, Matcher.capturesFrom, Matcher.ofProgram, Matcher.run, hblind.search_map]

theorem resume?_map (emptyMatch : Bool) (stop : Cursor) :
    Matcher.resume? emptyMatch (stop.map f) =
      (Matcher.resume? emptyMatch stop).map (Cursor.map f) := by
  cases emptyMatch with
  | false => rfl
  | true =>
      rw [Matcher.resume?, Matcher.resume?, if_pos rfl, if_pos rfl, Cursor.next?_map hblind.size,
        Option.map_map, Option.map_map]
      rfl

theorem matchesFrom_map (cursor : Cursor) (lastStop : Option Nat) :
    program.matchesFrom (cursor.map f) lastStop = program.matchesFrom cursor lastStop := by
  have hmapped := hblind.matchFrom?_map
  have hresumed (emptyMatch : Bool) (cursor : Cursor) (target : Nat) :
      Matcher.resume? emptyMatch ((cursor.map f).seek target) =
        (Matcher.resume? emptyMatch (cursor.seek target)).map (Cursor.map f) := by
    rw [Cursor.seek_map hblind.size, hblind.resume?_map]
  fun_induction matchesFrom program cursor lastStop with
  | case1 cursor lastStop hmatch => exact matchesFrom_of_none ((hmapped cursor).trans hmatch)
  | case2 cursor lastStop slots hmatch hgroup =>
      exact matchesFrom_of_group ((hmapped cursor).trans hmatch) hgroup
  | case3 cursor lastStop slots hmatch extent hgroup here hresume =>
      rw [matchesFrom_of_some ((hmapped cursor).trans hmatch) hgroup, matchesBehind, hresumed,
        hresume]
      exact List.append_nil _
  | case4 cursor lastStop slots hmatch extent hgroup here next hresume hlt _ ih =>
      rw [matchesFrom_of_some ((hmapped cursor).trans hmatch) hgroup, matchesBehind, hresumed,
        hresume, ← ih]
      exact congrArg (here ++ ·) (if_pos hlt)
  | case5 cursor lastStop slots hmatch extent hgroup here next hresume hlt =>
      rw [matchesFrom_of_some ((hmapped cursor).trans hmatch) hgroup, matchesBehind, hresumed,
        hresume]
      exact (congrArg (here ++ ·) (if_neg hlt)).trans (List.append_nil _)

theorem extentsIn_map (text : String) :
    program.extentsIn (text.map f) = program.extentsIn text := by
  rw [extentsIn, extentsIn, ← Cursor.start_map, hblind.matchesFrom_map]

end Program.Blind

/-- Whether an instruction that compares characters does so in either case, or else as they are. -/
def Instruction.Folds (fold : Bool) : Instruction → Prop
  | .char _ own | .oneOf _ own => own = fold
  | _ => True

theorem Pattern.folds_code (flags : Flags) (node : Node) :
    (node.code flags).Each (Instruction.Folds flags.ignoreCase) := by
  have hlinks : Instruction.Links (Instruction.Folds flags.ignoreCase) :=
    ⟨fun _ _ => trivial, fun _ => trivial⟩
  induction node with
  | empty => exact fun _ _ _ _ hmem => nomatch hmem
  | literal | oneOf => exact each_of_singleton fun _ _ => ⟨_, rfl, rfl⟩
  | any | assertion => exact each_of_singleton fun _ _ => ⟨_, rfl, trivial⟩
  | group index body ih => exact each_group (fun _ _ => ⟨trivial, trivial⟩) ih
  | concat items ih => exact each_concatCode ih
  | alternate branches ih => exact each_alternate hlinks ih
  | repetition body min max greedy ih => exact each_repetition hlinks ih min max

theorem sameChar_toLower (c d : Char) : sameChar c.toLower d true = sameChar c d true := by
  have hsame (a b : Char) : sameChar a b true =
      (Unicode.simpleLower a == Unicode.simpleLower b ||
        Unicode.simpleUpper a == Unicode.simpleUpper b) := by
    rw [sameChar, Bool.true_and, Bool.or_eq_right_iff_imp]
    intro heq
    rw [eq_of_beq heq, beq_self_eq_true, Bool.true_or]
  rw [hsame, hsame, Unicode.simpleLower_toLower, Unicode.simpleUpper_toLower]

namespace Program

theorem blind_toLower {program : Program}
    (hfolds : ∀ instruction ∈ program.instructions, instruction.Folds true) :
    program.Blind Char.toLower where
  size := Unicode.utf8Size_toLower
  word := Unicode.apply_toLower isWordChar (by decide +kernel)
  lineFeed := Unicode.apply_toLower (· == '\n') (by decide +kernel)
  accepts instruction hmem c := by
    have hfold := hfolds instruction hmem
    cases instruction with
    | char d fold =>
        obtain rfl : fold = true := hfold
        rw [accepts?, accepts?, sameChar_toLower]
    | any newline =>
        have hlineFeed : (c.toLower != '\n') = (c != '\n') :=
          Unicode.apply_toLower (· != '\n') (by decide +kernel) c
        rw [accepts?, accepts?, hlineFeed]
    | oneOf cls fold =>
        obtain rfl : fold = true := hfold
        simp only [accepts?, CharClass.accepts_toLower]
    | _ => rfl

end Program

namespace Regex

variable {pattern : String} {flags : Flags} {regex : Regex} {parsed : Parsed}

theorem blind_of_compile (hcompile : Regex.compile pattern flags = .ok regex)
    (hparse : Pattern.parse pattern = .ok parsed)
    (hignore : flags.ignoreCase = true ∨ parsed.flags.ignoreCase = true) :
    regex.program.Blind Char.toLower := by
  obtain ⟨other, hother, hprogram, -⟩ := Pattern.compile_spec (program_of_compile hcompile)
  obtain rfl : parsed = other := Except.ok.inj (hparse.symm.trans hother)
  have hfold : (flags.union parsed.flags).ignoreCase = true := by
    rw [Flags.union, Bool.or_eq_true]
    exact hignore
  refine Program.blind_toLower fun instruction hmem => ?_
  rw [hprogram, Parsed.program, List.mem_toArray, List.mem_cons, List.mem_append] at hmem
  rcases hmem with rfl | hmem | hmem
  · trivial
  · have hcode := Pattern.folds_code (flags.union parsed.flags) parsed.node
    rw [hfold] at hcode
    exact hcode 1 0 Nat.one_pos instruction hmem
  · cases hmem with
    | head => trivial
    | tail _ hmem => exact List.mem_singleton.mp hmem ▸ trivial

/-- A pattern that ignores case, by a flag that it is given or that it sets itself, cannot tell
texts apart that differ in the case of letters of ASCII: a search from any offset between characters
finds the same slots in both or in neither, and the matches of the two texts are the same. -/
theorem ignores_case (hcompile : Regex.compile pattern flags = .ok regex)
    (hparse : Pattern.parse pattern = .ok parsed)
    (hignore : flags.ignoreCase = true ∨ parsed.flags.ignoreCase = true) {text other : String}
    (hcase : text.toLower = other.toLower) (searches otherSearches : List (Mode × Cursor)) :
    let matcher := regex.matcher.after searches
    let otherMatcher := regex.matcher.after otherSearches
    (∀ offset, IsBoundary text offset → ∃ cursor place,
      Cursor.at? text offset = some cursor ∧ Cursor.at? other offset = some place ∧
        (matcher.capturesFrom cursor).1 = (otherMatcher.capturesFrom place).1) ∧
      ∀ limit, (matcher.findAll limit text).1 = (otherMatcher.findAll limit other).1 := by
  intro matcher otherMatcher
  have hmapped : text.map Char.toLower = other.map Char.toLower := hcase
  have hcheck := check_of_compile hcompile
  have hblind := blind_of_compile hcompile hparse hignore
  have hready : matcher.Ready regex.program :=
    (Matcher.ready_ofProgram regex.program).after hcheck searches
  have hother : otherMatcher.Ready regex.program :=
    (Matcher.ready_ofProgram regex.program).after hcheck otherSearches
  constructor
  · intro offset hoffset
    obtain ⟨cursor, hcursor⟩ := hoffset.exists_at?
    -- The place in the other text has the same lower case.
    have hlowered : (Cursor.at? other offset).map (Cursor.map Char.toLower) =
        some (cursor.map Char.toLower) := by
      rw [← Cursor.at?_map hblind.size, ← hmapped, Cursor.at?_map hblind.size, hcursor,
        Option.map_some]
    obtain ⟨place, hplace, hsame⟩ := Option.map_eq_some_iff.mp hlowered
    refine ⟨cursor, place, hcursor, hplace, ?_⟩
    rw [hready.capturesFrom_eq hcheck, hother.capturesFrom_eq hcheck, ← hblind.matchFrom?_map,
      ← hsame, hblind.matchFrom?_map]
  · intro limit
    rw [findAll_after hcompile, findAll_after hcompile, ← hblind.extentsIn_map, hmapped,
      hblind.extentsIn_map]

/-- The literal is the Kelvin sign, whose lower case is a letter of ASCII, and in front of it stands
a class that leaves letters out.  The second matcher has been used before. -/
theorem ignores_case_kelvin :
    let program : Program :=
      ⟨#[.save 0, .assertion .wordBoundary, .oneOf 0 true, .char '\u212a' true, .save 1, .accept],
        #[CharClass.ofSet ⟨[⟨97, 109⟩], true⟩], 2, 0⟩
    let regex : Regex := ⟨"(?i)\\b[^a-m]\u212a", Flags.none, program⟩
    let used := regex.matcher.after [(⟨true, true⟩, .start "nk")]
    Regex.compile "(?i)\\b[^a-m]\u212a" Flags.none = .ok regex ∧
      (∃ parsed, Pattern.parse "(?i)\\b[^a-m]\u212a" = .ok parsed ∧
        parsed.flags.ignoreCase = true) ∧
      "éK Sk-tK".toLower = "ék sK-Tk".toLower ∧ IsBoundary "éK Sk-tK" 5 ∧
      (used.capturesFrom ⟨5, some 's', ['K', '-', 'T', 'k']⟩).1 = some #[some 7, some 9] ∧
      (used.findAll none "ék sK-Tk").1 = [⟨4, 6⟩, ⟨7, 9⟩] := by
  intro program regex used
  have hcompile : Regex.compile "(?i)\\b[^a-m]\u212a" Flags.none = .ok regex := by decide +kernel
  have hflags : (Pattern.parse "(?i)\\b[^a-m]\u212a").toOption.map (·.flags) =
      some ⟨true, false, false⟩ := by decide +kernel
  obtain ⟨parsed, hparse, hignore⟩ : ∃ parsed,
      Pattern.parse "(?i)\\b[^a-m]\u212a" = .ok parsed ∧ parsed.flags.ignoreCase = true := by
    cases hparse : Pattern.parse "(?i)\\b[^a-m]\u212a" with
    | error e =>
        rw [hparse] at hflags
        cases hflags
    | ok parsed =>
        rw [hparse] at hflags
        exact ⟨parsed, rfl, congrArg Flags.ignoreCase (Option.some.inj hflags)⟩
  have hcase : "éK Sk-tK".map Char.toLower = "ék sK-Tk".map Char.toLower := by
    rw [← String.toList_inj, String.toList_map, String.toList_map]
    decide +kernel
  have hstart : Cursor.at? "éK Sk-tK" 5 = some ⟨5, some 'S', ['k', '-', 't', 'K']⟩ := by
    decide +kernel
  have hplace : Cursor.at? "ék sK-Tk" 5 = some ⟨5, some 's', ['K', '-', 'T', 'k']⟩ := by
    decide +kernel
  have hoffset : IsBoundary "éK Sk-tK" 5 := (Cursor.at?_eq_some_iff.mp hstart).1.isBoundary
  have hfound : (regex.matcher.capturesFrom ⟨5, some 'S', ['k', '-', 't', 'K']⟩).1 =
      some #[some 7, some 9] := by decide +kernel
  have hall : (regex.matcher.findAll none "éK Sk-tK").1 = [⟨4, 6⟩, ⟨7, 9⟩] := by
    refine (findAll_after hcompile [] none _).trans ?_
    decide +kernel
  obtain ⟨hslots, hmatches⟩ :=
    ignores_case hcompile hparse (.inr hignore) hcase [] [(⟨true, true⟩, .start "nk")]
  obtain ⟨cursor, place, hcursor, hother, hsame⟩ := hslots 5 hoffset
  obtain rfl := Option.some.inj (hstart.symm.trans hcursor)
  obtain rfl := Option.some.inj (hplace.symm.trans hother)
  exact ⟨hcompile, ⟨parsed, hparse, hignore⟩, hcase, hoffset, hsame.symm.trans hfound,
    (hmatches none).symm.trans hall⟩

end Regex

end TextColumns
