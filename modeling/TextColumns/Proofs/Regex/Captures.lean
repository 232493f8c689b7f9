import Mathlib
import TextColumns.Proofs.Pattern.Preference
import TextColumns.Proofs.Regex.Matcher

namespace TextColumns.Regex

open Pattern (Flags Parsed)
open Search (Mode)
open Text (Cursor)

/-- A matcher finds the preferred match of its pattern, with the slots of all groups, unless the
pattern has a loop whose body may match without consuming anything. -/
theorem capturesFrom_eq_captures {pattern : String} {flags : Flags} {regex : Regex}
    (hcompile : Regex.compile pattern flags = .ok regex) {parsed : Parsed}
    (hparse : Pattern.parse pattern = .ok parsed) (hloops : parsed.node.loopsConsume = true)
    {text : String} {offset : Nat} {cursor : Cursor}
    (hcursor : Cursor.at? text offset = some cursor) (searches : List (Mode × Cursor)) :
    ((regex.matcher.after searches).capturesFrom cursor).1 =
      parsed.captures (flags.union parsed.flags) cursor := by
  have hprogram := program_of_compile hcompile
  have hcheck := check_of_compile hcompile
  obtain ⟨hon, -⟩ := Cursor.at?_eq_some_iff.mp hcursor
  have hready := (Matcher.ready_ofProgram regex.program).after hcheck searches
  rw [← Pattern.explore_starts_eq_captures hprogram hparse hloops hon]
  exact (hready.run_eq hcheck hon ⟨false, false⟩).2 rfl

theorem capturesFrom_eq_captures_lazyLoop :
    let program : Program :=
      ⟨#[.save 0, .split 2 6, .save 2, .char 'a' false, .save 3, .jump 7, .char 'b' false,
        .split 8 1, .save 4, .split 10 12, .char 'c' false, .jump 14, .char 'c' false,
        .char 'd' false, .save 5, .save 1, .accept], #[], 6, 0⟩
    let regex : Regex := ⟨"(?:(a)|b)+?(c|cd)", Flags.none, program⟩
    let parsed : Parsed :=
      ⟨.concat
        [.repetition (.group none (.alternate [.group (some 1) (.literal 'a'), .literal 'b']))
          1 none false,
        .group (some 2) (.alternate [.literal 'c', .concat [.literal 'c', .literal 'd']])],
        2, Flags.none⟩
    let searches : List (Mode × Cursor) := [(⟨true, true⟩, .start "bc")]
    Regex.compile "(?:(a)|b)+?(c|cd)" Flags.none = .ok regex ∧
      Pattern.parse "(?:(a)|b)+?(c|cd)" = .ok parsed ∧ parsed.node.loopsConsume = true ∧
      Cursor.at? "xabcd" 1 = some ⟨1, some 'x', ['a', 'b', 'c', 'd']⟩ ∧
      ((regex.matcher.after searches).capturesFrom ⟨1, some 'x', ['a', 'b', 'c', 'd']⟩).1 =
        parsed.captures (Flags.none.union Flags.none) ⟨1, some 'x', ['a', 'b', 'c', 'd']⟩ := by
  intro program regex parsed searches
  have hcompile : Regex.compile "(?:(a)|b)+?(c|cd)" Flags.none = .ok regex := by decide +kernel
  have hparse : Pattern.parse "(?:(a)|b)+?(c|cd)" = .ok parsed := by cbv
  have hloops : parsed.node.loopsConsume = true := by decide +kernel
  have hcursor : Cursor.at? "xabcd" 1 = some ⟨1, some 'x', ['a', 'b', 'c', 'd']⟩ := by
    decide +kernel
  exact ⟨hcompile, hparse, hloops, hcursor,
    capturesFrom_eq_captures hcompile hparse hloops hcursor searches⟩

end TextColumns.Regex
