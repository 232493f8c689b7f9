import TextColumns.Proofs.Pattern.Emission
import TextColumns.Proofs.Pattern.OneChar
import TextColumns.Proofs.Regex.Loops
import TextColumns.Proofs.Regex.Slots

/-!
Searches with a literal and with the same character in brackets.  They find the same in every text
none of whose characters has the mapping of the literal without being mapped to it.
-/

namespace TextColumns

namespace Search

open Text (Cursor)

theorem Alike.explore_starts_eq {program other : Program} {text : String}
    (halike : Alike program other text) (mode : Mode) :
    explore program (everywhere program text) (starts program mode true false (.start text)) =
      explore other (everywhere other text) (starts other mode true false (.start text)) := by
  rw [← halike.everywhere_eq, ← halike.starts_eq]
  refine halike.explore_eq fun visit hvisit => ?_
  obtain ⟨place, ⟨hon, -⟩, rfl⟩ := on_of_mem_starts (Cursor.on_start text) hvisit
  exact hon

end Search

namespace Regex

open Pattern

variable {pattern text : String} {flags : Flags} {regex : Regex} {parsed : Parsed}
  {context : Context} {c : Char}

/-- The code keeps its size when a character in brackets takes the place of a literal, so it is
compiled as well. -/
theorem compile_in_place (hcompile : Regex.compile pattern flags = .ok regex)
    (hparse : parse pattern = .ok parsed) (hnode : parsed.node = context.fill (.literal c))
    {other : String}
    (hother : parse other = .ok { parsed with node := context.fill (.oneOf (.oneChar c)) }) :
    regex.program = parsed.program (flags.union parsed.flags) ∧
      Regex.compile other flags = .ok ⟨other, flags,
        Parsed.program { parsed with node := context.fill (.oneOf (.oneChar c)) }
          (flags.union parsed.flags)⟩ := by
  obtain ⟨node, groups, leading⟩ := parsed
  obtain rfl : node = context.fill (.literal c) := hnode
  have hprogram := program_of_compile hcompile
  rw [compile_eq hparse] at hprogram
  by_cases hroom : (context.fill (.literal c)).codeSize + 3 ≤ maxProgramSize
  · rw [if_pos hroom] at hprogram
    have hagrees : Node.Agrees default default "" Flags.none (context.fill (.literal c))
        (context.fill (.oneOf (.oneChar c))) :=
      (agrees_oneChar (by simp)).fill (wellFormed_of_parse hparse)
    rw [hagrees.size_eq] at hroom
    refine ⟨(Except.ok.inj hprogram).symm, ?_⟩
    rw [Regex.compile, compile_eq hother, if_pos hroom]
  · rw [if_neg hroom] at hprogram
    cases hprogram

/-- A character in brackets may be written for any literal of a pattern.  Its class accepts those
characters that the literal accepts and that are mapped to it, and captures are left as they are in
every text in which the literal accepts no others. -/
theorem captures_oneChar (hcompile : Regex.compile pattern flags = .ok regex) :
    ∃ parsed, parse pattern = .ok parsed ∧
      ∀ (context : Context) (c : Char), parsed.node = context.fill (.literal c) →
        (∀ d fold, (CharClass.ofSet (.oneChar c)).accepts d fold =
          (sameChar d c fold && reaches d c)) ∧
        ∃ front spelled back bracketed, pattern = .ofList (front ++ (spelled ++ back)) ∧
          SpellsAtom spelled (.literal c) ∧
          parse (.ofList (front ++ (bracketText c ++ back))) =
            .ok { parsed with node := context.fill (.oneOf (.oneChar c)) } ∧
          Regex.compile (.ofList (front ++ (bracketText c ++ back))) flags = .ok bracketed ∧
          ∀ text : String,
            ((flags.union parsed.flags).ignoreCase = true →
              ∀ d ∈ text.toList, sameChar d c true = true → reaches d c = true) →
            bracketed.captures text = regex.captures text := by
  obtain ⟨parsed, hparse, -⟩ := compile_spec (program_of_compile hcompile)
  refine ⟨parsed, hparse, fun context c hnode => ⟨accepts_oneChar c, ?_⟩⟩
  obtain ⟨front, spelled, back, hpattern, hspells, hplace⟩ := parse_in_place hparse hnode
  have hother := hplace (bracketText c) _ (spellsAtom_bracketText c)
  obtain ⟨hprogram, hbracketed⟩ := compile_in_place hcompile hparse hnode hother
  refine ⟨front, spelled, back, _, ?_, hspells, hother, hbracketed, fun text htext => ?_⟩
  · rw [← hpattern, String.ofList_toList]
  · rw [captures_eq_explore hbracketed, captures_eq_explore hcompile, hprogram]
    refine congrArg _ (Search.Alike.explore_starts_eq (alike_program parsed ?_) _).symm
    rw [hnode]
    exact (agrees_oneChar htext).fill (hnode ▸ wellFormed_of_parse hparse)

theorem captures_oneChar_kelvin :
    let flags : Flags := ⟨true, false, false⟩
    ∃ regex front spelled back bracketed, Regex.compile "(x|k)+" flags = .ok regex ∧
      "(x|k)+" = .ofList (front ++ (spelled ++ back)) ∧ SpellsAtom spelled (.literal 'k') ∧
      Regex.compile (.ofList (front ++ (bracketText 'k' ++ back))) flags = .ok bracketed ∧
      bracketed.captures "X\u212a" = some [some ⟨0, 4⟩, some ⟨1, 4⟩] := by
  intro flags
  let context : Context :=
    .repetition (.group (some 1) (.alternate [.literal 'x'] .here [])) 1 none true
  let parsed : Parsed := ⟨context.fill (.literal 'k'), 1, Flags.none⟩
  let regex : Regex := ⟨"(x|k)+", flags, parsed.program flags⟩
  have hparse : parse "(x|k)+" = .ok parsed := by cbv
  have hcompile : Regex.compile "(x|k)+" flags = .ok regex := by decide +kernel
  obtain ⟨found, hfound, hplace⟩ := captures_oneChar hcompile
  obtain rfl : parsed = found := Except.ok.inj (hparse.symm.trans hfound)
  obtain ⟨-, front, spelled, back, bracketed, hpattern, hspells, -, hbracketed, hcaptures⟩ :=
    hplace context 'k' rfl
  have hreaches : "X\u212a".toList.all (fun d => !sameChar d 'k' true || reaches d 'k') = true := by
    decide +kernel
  have htext : ∀ d ∈ "X\u212a".toList, sameChar d 'k' true = true → reaches d 'k' = true := by
    intro d hd hsame
    simpa [hsame] using List.all_eq_true.mp hreaches d hd
  refine ⟨regex, front, spelled, back, bracketed, hcompile, hpattern, hspells, hbracketed, ?_⟩
  rw [hcaptures "X\u212a" fun _ => htext]
  decide +kernel

/-- The long s has the upper case of s, but neither of its cases is s. -/
theorem captures_bracketed_ne_captures :
    let flags : Flags := ⟨true, false, false⟩
    let literal : Regex := ⟨"s", flags, Parsed.program ⟨.literal 's', 0, Flags.none⟩ flags⟩
    let bracketed : Regex :=
      ⟨"[s]", flags, Parsed.program ⟨.oneOf (.oneChar 's'), 0, Flags.none⟩ flags⟩
    parse "s" = .ok ⟨.literal 's', 0, Flags.none⟩ ∧
      parse "[s]" = .ok ⟨.oneOf (.oneChar 's'), 0, Flags.none⟩ ∧
      Regex.compile "s" flags = .ok literal ∧ Regex.compile "[s]" flags = .ok bracketed ∧
      literal.captures "ſ" = some [some ⟨0, 2⟩] ∧ bracketed.captures "ſ" = none := by
  intro flags literal bracketed
  have hliteral : SpellsTokens "s".toList [.atom (.literal 's')] :=
    .cons (.atom (.literal (by decide))) .nil
  have hbracketed : SpellsTokens "[s]".toList [.atom (.oneOf (.oneChar 's'))] :=
    .cons (.atom (spellsAtom_bracketText 's')) .nil
  exact ⟨hliteral.parse rfl, hbracketed.parse rfl, by decide +kernel, by decide +kernel,
    by decide +kernel, by decide +kernel⟩

end Regex

end TextColumns
