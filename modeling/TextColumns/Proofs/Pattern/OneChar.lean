import TextColumns.Proofs.Pattern.Places
import TextColumns.Proofs.Unicode.CaseMapping

/-!
A literal as a bracket expression of one character.  The expression accepts those characters that
the literal accepts and that are the literal itself or are mapped to it.
-/

namespace TextColumns.Pattern

open CodeRange (covered)
open Unicode (simpleLower simpleUpper)

def CodeSet.oneChar (c : Char) : CodeSet :=
  ⟨[.single c], false⟩

def bracketText (c : Char) : List Char :=
  '[' :: (memberText c ++ [']'])

/-- Whether a character is another one, or a simple case mapping takes it there. -/
def reaches (d c : Char) : Bool :=
  d == c || simpleLower d == c || simpleUpper d == c

theorem canonical_oneChar (c : Char) : (CodeSet.oneChar c).Canonical where
  nonempty := List.cons_ne_nil _ _
  proper := List.forall_mem_singleton.mpr (CodeRange.proper_single c)
  apart := List.pairwise_singleton _ _

/-- Mappings that have been made are not made again, so what reaches a character has its mapping. -/
theorem sameChar_of_reaches {c d : Char} (hreaches : reaches d c = true) :
    sameChar d c true = true := by
  simp only [reaches, Bool.or_eq_true, beq_iff_eq] at hreaches
  simp only [sameChar, Bool.true_and, Bool.or_eq_true, beq_iff_eq]
  rcases hreaches with (rfl | rfl) | rfl
  · exact .inl rfl
  · exact .inr (.inl (Unicode.simpleLower_simpleLower d).symm)
  · exact .inr (.inr (Unicode.simpleUpper_simpleUpper d).symm)

theorem accepts_oneChar (c d : Char) (fold : Bool) :
    (CharClass.ofSet (.oneChar c)).accepts d fold = (sameChar d c fold && reaches d c) := by
  have hcovered (e : Char) : covered (CodeSet.oneChar c).ranges e.toNat = (e == c) :=
    (Bool.or_false _).trans (covered_single c e)
  rw [CharClass.accepts_ofSet (canonical_oneChar c), hcovered, hcovered, hcovered]
  cases fold with
  | false => cases hsame : d == c <;> simp [CodeSet.oneChar, sameChar, reaches, hsame]
  | true =>
      have hreaches : (d == c || (true && (simpleLower d == c || simpleUpper d == c))) =
          reaches d c := by
        rw [Bool.true_and, ← Bool.or_assoc]
        rfl
      rw [hreaches]
      cases hreach : reaches d c with
      | false => simp [CodeSet.oneChar]
      | true => simp [CodeSet.oneChar, sameChar_of_reaches hreach]

theorem spellsChar_memberText (c : Char) : SpellsChar (memberText c) c := by
  have hescapable : bracketCharacters.all isEscapable = true := by decide
  by_cases hc : c ∈ bracketCharacters
  · rw [memberText, if_pos hc]
    exact .escaped (List.all_eq_true.mp hescapable c hc)
  · rw [memberText, if_neg hc]
    exact .plain fun heq => hc (heq ▸ by decide)

theorem spellsAtom_bracketText (c : Char) :
    SpellsAtom (bracketText c) (.oneOf (.oneChar c)) := by
  obtain ⟨d, rest, hmember, -, hcaret, -⟩ := exists_memberText c
  have hopen : (memberText c ++ [']']).head? ≠ some '^' := by
    rw [hmember]
    exact fun heq => hcaret (Option.some.inj heq)
  have halone (e : Char) (rest : List Char) (htail : [']'] = '-' :: e :: rest) : e = ']' := by
    cases htail
  have hset : ClassItem.codeSet [.char c] false = .oneChar c :=
    CodeSet.ofRanges_ranges (canonical_oneChar c) (List.Perm.refl _)
  rw [← hset]
  exact .bracket (.plain hopen (.item (.char (spellsChar_memberText c) halone) (.inl rfl) .close))

variable {program other : Program} {text : String} {flags : Flags} {c : Char}

theorem agrees_oneChar (htext : flags.ignoreCase = true →
      ∀ d ∈ text.toList, sameChar d c true = true → reaches d c = true) :
    Node.Agrees program other text flags (.literal c) (.oneOf (.oneChar c)) := by
  refine ⟨rfl, fun address firstClass otherFirst _ hothers => .cons ?_ .nil⟩
  refine Search.agree_of_accepts? rfl rfl fun d hd => ?_
  have hclass : other.classes[otherFirst]? = some (CharClass.ofSet (.oneChar c)) :=
    (standsAt_cons.mp hothers).1
  have hreaches : sameChar d c flags.ignoreCase = true → reaches d c = true := by
    cases hfold : flags.ignoreCase with
    | false => simp +contextual [sameChar, reaches]
    | true => exact htext hfold d hd
  have hsame : (sameChar d c flags.ignoreCase && reaches d c) = sameChar d c flags.ignoreCase :=
    Bool.and_eq_left_iff_imp.mpr hreaches
  rw [Program.accepts?, Program.accepts?, hclass]
  dsimp only
  rw [accepts_oneChar, hsame]

end TextColumns.Pattern
