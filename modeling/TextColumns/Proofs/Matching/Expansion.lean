import TextColumns.Proofs.Matching.Template
import TextColumns.Proofs.Pattern.Inside
import TextColumns.Proofs.Store.Reading

/-!
What templates mean.  A template is read piece by piece from its front; it is refused exactly where a
reference is malformed or the pattern has no such group, and otherwise each match is replaced by what
its pieces stand for.
-/

namespace TextColumns.Matching

open Pattern (Flags)
open Text (Extent)

namespace Template

structure IsNumber (digits : List Char) : Prop where
  ne_nil : digits ≠ []
  digits : ∀ c ∈ digits, c.isDigit = true

def decimalFrom (n : Nat) (digits : List Char) : Nat :=
  digits.foldl (fun n c => 10 * n + (c.toNat - 48)) n

def decimal (digits : List Char) : Nat :=
  decimalFrom 0 digits

theorem leadingNumber_eq (n : Nat) (chars : List Char) :
    leadingNumber (Word.saturate n) chars =
      (Word.saturate (decimalFrom n (chars.takeWhile Char.isDigit)),
        chars.dropWhile Char.isDigit) := by
  induction chars generalizing n with
  | nil => rfl
  | cons c rest ih =>
      by_cases hc : c.isDigit = true
      · have hstop : Word.saturate (Word.saturate (10 * Word.saturate n) + (c.toNat - 48)) =
            Word.saturate (10 * n + (c.toNat - 48)) := by
          simp only [Word.saturate, Word.greatest]
          omega
        rw [leadingNumber, if_pos hc, hstop, ih, List.takeWhile_cons_of_pos hc,
          List.dropWhile_cons_of_pos hc]
        rfl
      · rw [leadingNumber, if_neg hc, List.takeWhile_cons_of_neg hc, List.dropWhile_cons_of_neg hc]
        rfl

theorem foldl_capped (n : Nat) (digits : List Char) :
    digits.foldl (fun n c => min (10 * n + (c.toNat - 48)) Word.count) (min n Word.count) =
      min (decimalFrom n digits) Word.count := by
  induction digits generalizing n with
  | nil => rfl
  | cons c rest ih =>
      have hstop : min (10 * min n Word.count + (c.toNat - 48)) Word.count =
          min (10 * n + (c.toNat - 48)) Word.count := by
        simp only [Word.count]
        omega
      rw [List.foldl_cons, hstop, ih]
      rfl

theorem bracedNumber?_append {digits rest : List Char} (hdigits : IsNumber digits) :
    bracedNumber? (digits ++ '\x7d' :: rest) =
      if decimal digits < Word.count then some (decimal digits, rest) else none := by
  have hbrace : ∀ c ∈ ('\x7d' :: rest).head?, c.isDigit = false := by simp
  obtain ⟨htake, hdrop⟩ := Text.splitWhile hdigits.digits hbrace
  have hnumber : digits.foldl (fun n c => min (10 * n + (c.toNat - 48)) Word.count) 0 =
      min (decimal digits) Word.count := foldl_capped 0 digits
  have hsome : digits.isEmpty = false := by simpa using hdigits.ne_nil
  simp only [bracedNumber?, htake, hdrop, hnumber, hsome, Bool.false_or, decide_eq_true_eq]
  by_cases hroom : decimal digits < Word.count
  · rw [if_pos hroom, Nat.min_eq_left (Nat.le_of_lt hroom), if_neg (Nat.ne_of_lt hroom)]
  · rw [if_neg hroom, if_pos (Nat.min_eq_right (Nat.le_of_not_lt hroom))]

theorem bracedNumber?_eq_none {chars : List Char}
    (hchars : ∀ digits rest, IsNumber digits → chars ≠ digits ++ '\x7d' :: rest) :
    bracedNumber? chars = none := by
  cases hdrop : chars.dropWhile Char.isDigit with
  | nil => rw [bracedNumber?, hdrop]
  | cons c rest =>
      by_cases hc : c = '\x7d'
      · subst hc
        have hempty : chars.takeWhile Char.isDigit = [] := by
          by_contra hne
          refine hchars _ rest ⟨hne, fun c hc => List.mem_takeWhile_imp hc⟩ ?_
          rw [← hdrop, List.takeWhile_append_dropWhile]
        rw [bracedNumber?, hdrop, hempty]
        rfl
      · simp [bracedNumber?, hdrop, hc]

/-- Whether a character that a template goes on with begins neither an escape nor a reference. -/
structure Plain (c : Char) (rest : List Char) : Prop where
  backslash : c = '\x5c' → ∀ next ∈ rest.head?, next ≠ '\x5c' ∧ next.isDigit = false
  dollar : c = '$' → ∀ next ∈ rest.head?, next ≠ '$' ∧ next ≠ '\x7b'

/-- The piece that a template begins with, and the characters behind it. -/
inductive Takes : List Char → Piece → List Char → Prop
  | doubled {c : Char} {rest : List Char} (hc : c = '\x5c' ∨ c = '$') :
      Takes (c :: c :: rest) (.char c) rest
  | numbered {digits rest : List Char} (hdigits : IsNumber digits)
      (hend : ∀ c ∈ rest.head?, c.isDigit = false) :
      Takes ('\x5c' :: (digits ++ rest)) (.group (decimal digits)) rest
  | braced {digits rest : List Char} (hdigits : IsNumber digits) :
      Takes ('$' :: '\x7b' :: (digits ++ '\x7d' :: rest)) (.group (decimal digits)) rest
  | plain {c : Char} {rest : List Char} (hc : Plain c rest) : Takes (c :: rest) (.char c) rest

/-- Whether a dollar sign and a brace in front of some characters refer to no group by a number. -/
def Malformed (rest : List Char) : Prop :=
  ∀ digits behind, IsNumber digits → rest ≠ digits ++ '\x7d' :: behind

variable {groups size : Nat} {chars rest : List Char} {piece : Piece}

theorem parseFrom_plain {c : Char} (hc : Plain c rest) :
    parseFrom groups size (c :: rest) = (parseFrom groups size rest).map (.char c :: ·) := by
  generalize hchars : c :: rest = chars
  fun_cases parseFrom groups size chars with
  | case1 => cases hchars
  | case2 =>
      cases hchars
      exact absurd rfl (hc.backslash rfl _ rfl).1
  | case3 =>
      cases hchars
      exact absurd rfl (hc.dollar rfl _ rfl).1
  | case4 | case5 =>
      cases hchars
      exact absurd rfl (hc.dollar rfl _ rfl).2
  | case6 _ _ _ hd =>
      cases hchars
      rw [(hc.backslash rfl _ rfl).2] at hd
      cases hd
  | case7 | case8 =>
      cases hchars
      rfl

theorem parseFrom_numbered {digits : List Char} (hdigits : IsNumber digits)
    (hend : ∀ c ∈ rest.head?, c.isDigit = false) :
    parseFrom groups size ('\x5c' :: (digits ++ rest)) =
      reference groups (Word.saturate (decimal digits)) (parseFrom groups size rest) := by
  cases digits with
  | nil => exact absurd rfl hdigits.ne_nil
  | cons d digits =>
      obtain ⟨hd, htail⟩ := List.forall_mem_cons.mp hdigits.digits
      obtain ⟨htake, hdrop⟩ := Text.splitWhile htail hend
      have hother : d = '\x5c' → False := by
        rintro rfl
        cases hd
      have hfirst : Word.saturate (d.toNat - 48) = d.toNat - 48 := by
        have hle : d.toNat ≤ 57 := (Char.isDigit_iff_toNat.mp hd).2
        exact Nat.min_eq_left (by rw [Word.greatest]; omega)
      have hnumber : leadingNumber (d.toNat - 48) (digits ++ rest) =
          (Word.saturate (decimal (d :: digits)), rest) := by
        rw [← hfirst, leadingNumber_eq, htake, hdrop, decimal, decimalFrom, decimalFrom,
          List.foldl_cons, Nat.mul_zero, Nat.zero_add]
      rw [List.cons_append, parseFrom, if_pos hd, hnumber]
      exact hother

theorem parseFrom_braced {digits : List Char} (hdigits : IsNumber digits)
    (hroom : decimal digits < Word.count) :
    parseFrom groups size ('$' :: '\x7b' :: (digits ++ '\x7d' :: rest)) =
      reference groups (decimal digits) (parseFrom groups size rest) := by
  have hnumber := @bracedNumber?_append _ rest hdigits
  rw [if_pos hroom] at hnumber
  rw [parseFrom]
  split
  next hnone =>
    rw [hnone] at hnumber
    cases hnumber
  next hsome =>
    rw [hsome] at hnumber
    cases hnumber
    rfl

theorem parseFrom_malformed (hrest : bracedNumber? rest = none) :
    parseFrom groups size ('$' :: '\x7b' :: rest) =
      .error (.malformedReference (size - Text.sizeOf ('$' :: '\x7b' :: rest))) := by
  rw [parseFrom]
  split
  next => rfl
  next hsome =>
    rw [hrest] at hsome
    cases hsome

theorem reference_of_le {k : Nat} (hk : k ≤ groups) (read : Except TemplateFault Template) :
    reference groups k read = read.map (.group k :: ·) :=
  if_neg (Nat.not_lt.mpr hk)

theorem reference_of_lt {k : Nat} (hk : groups < k) (read : Except TemplateFault Template) :
    reference groups k read = .error (.missingGroup k groups) :=
  if_pos hk

def Piece.In (groups : Nat) (piece : Piece) : Prop :=
  ∀ k, piece = .group k → k ≤ groups

section Step

variable (hgroups : groups < Word.greatest) (htakes : Takes chars piece rest)
include hgroups htakes

theorem Takes.parseFrom_eq (hpiece : Piece.In groups piece) (size : Nat) :
    parseFrom groups size chars = (parseFrom groups size rest).map (piece :: ·) := by
  cases htakes with
  | doubled hc => rcases hc with rfl | rfl <;> rw [parseFrom]
  | @numbered digits _ hdigits hend =>
      have hle := hpiece _ rfl
      have hword : Word.saturate (decimal digits) = decimal digits :=
        Nat.min_eq_left (Nat.le_of_lt (Nat.lt_of_le_of_lt hle hgroups))
      rw [parseFrom_numbered hdigits hend, hword, reference_of_le hle]
  | braced hdigits =>
      have hle := hpiece _ rfl
      have hroom := Nat.lt_trans (Nat.lt_of_le_of_lt hle hgroups) (by decide : _ < Word.count)
      rw [parseFrom_braced hdigits hroom, reference_of_le hle]
  | plain hc => exact parseFrom_plain hc

theorem Takes.exists_error (hpiece : ¬ Piece.In groups piece) (size : Nat) :
    ∃ fault, parseFrom groups size chars = .error fault := by
  have hbeyond : ∃ k, piece = .group k ∧ groups < k := by
    simpa [Piece.In] using hpiece
  obtain ⟨k, rfl, hk⟩ := hbeyond
  cases htakes with
  | @numbered digits _ hdigits hend =>
      have hword : groups < Word.saturate (decimal digits) := Nat.lt_min.mpr ⟨hk, hgroups⟩
      exact ⟨_, by rw [parseFrom_numbered hdigits hend, reference_of_lt hword]⟩
  | @braced digits _ hdigits =>
      by_cases hroom : decimal digits < Word.count
      · exact ⟨_, by rw [parseFrom_braced hdigits hroom, reference_of_lt hk]⟩
      · refine ⟨_, parseFrom_malformed ?_⟩
        rw [bracedNumber?_append hdigits, if_neg hroom]

end Step

theorem Takes.length_lt (htakes : Takes chars piece rest) : rest.length < chars.length := by
  cases htakes with
  | doubled _ | numbered _ _ | braced _ | plain _ =>
      simp only [List.length_cons, List.length_append]
      omega

theorem exists_takes_numbered {d : Char} (hd : d.isDigit = true) (rest : List Char) :
    ∃ k behind, Takes ('\x5c' :: d :: rest) (.group k) behind := by
  have hnumber : IsNumber ((d :: rest).takeWhile Char.isDigit) := by
    refine ⟨?_, fun c hc => List.mem_takeWhile_imp hc⟩
    rw [List.takeWhile_cons_of_pos hd]
    exact List.cons_ne_nil _ _
  have hend : ∀ c ∈ ((d :: rest).dropWhile Char.isDigit).head?, c.isDigit = false := by
    intro c hc
    have hfirst := List.head?_dropWhile_not Char.isDigit (d :: rest)
    rwa [Option.mem_def.mp hc] at hfirst
  have htakes := Takes.numbered hnumber hend
  rw [List.takeWhile_append_dropWhile] at htakes
  exact ⟨_, _, htakes⟩

/-- A template begins with a piece, unless it begins with a reference that is malformed. -/
theorem exists_takes (c : Char) (rest : List Char) :
    (∃ piece behind, Takes (c :: rest) piece behind) ∨
      ∃ behind, c :: rest = '$' :: '\x7b' :: behind ∧ Malformed behind := by
  by_cases hplain : Plain c rest
  · exact .inl ⟨_, _, .plain hplain⟩
  obtain ⟨next, hnext, hspecial⟩ : ∃ next ∈ rest.head?,
      c = '\x5c' ∧ (next = '\x5c' ∨ next.isDigit = true) ∨
        c = '$' ∧ (next = '$' ∨ next = '\x7b') := by
    by_contra hnone
    push Not at hnone
    refine hplain ⟨fun hc next hnext => ?_, fun hc next hnext => ?_⟩
    · simpa using (hnone next hnext).1 hc
    · exact (hnone next hnext).2 hc
  obtain ⟨rest, rfl⟩ := List.head?_eq_some_iff.mp hnext
  rcases hspecial with ⟨rfl, rfl | hd⟩ | ⟨rfl, rfl | rfl⟩
  · exact .inl ⟨_, _, .doubled (.inl rfl)⟩
  · obtain ⟨k, behind, htakes⟩ := exists_takes_numbered hd rest
    exact .inl ⟨_, behind, htakes⟩
  · exact .inl ⟨_, _, .doubled (.inr rfl)⟩
  · by_cases hmalformed : Malformed rest
    · exact .inr ⟨rest, rfl, hmalformed⟩
    · simp only [Malformed, not_forall, not_not] at hmalformed
      obtain ⟨digits, behind, hdigits, rfl⟩ := hmalformed
      exact .inl ⟨_, behind, .braced hdigits⟩

inductive Scans : List Char → Template → List Char → Prop
  | done (rest : List Char) : Scans rest [] rest
  | step {chars rest behind : List Char} {piece : Piece} {pieces : Template}
      (htakes : Takes chars piece rest) (hscans : Scans rest pieces behind) :
      Scans chars (piece :: pieces) behind

/-- Whether all of a template can be read, and what it says then. -/
structure Means (groups : Nat) (chars : List Char) (template : Template) : Prop where
  scans : Scans chars template []
  within : ∀ k, .group k ∈ template → k ≤ groups

/-- Whether a template has a reference that it cannot have: to a group beyond the last one, or one
that is malformed. -/
inductive Faulty (groups : Nat) (chars : List Char) : Prop
  | missingGroup {pieces : Template} {rest : List Char} {k : Nat} (hscans : Scans chars pieces rest)
      (hk : .group k ∈ pieces) (hbeyond : groups < k)
  | malformed {pieces : Template} {rest : List Char}
      (hscans : Scans chars pieces ('$' :: '\x7b' :: rest)) (hrest : Malformed rest)

theorem Takes.means {template : Template} (htakes : Takes chars piece rest)
    (hpiece : Piece.In groups piece) (hrest : Means groups rest template) :
    Means groups chars (piece :: template) := by
  refine ⟨.step htakes hrest.scans, fun k hk => ?_⟩
  rcases List.mem_cons.mp hk with heq | hk
  · exact hpiece k heq.symm
  · exact hrest.within k hk

theorem Takes.faulty (htakes : Takes chars piece rest) (hrest : Faulty groups rest) :
    Faulty groups chars := by
  cases hrest with
  | missingGroup hscans hk hbeyond =>
      exact .missingGroup (.step htakes hscans) (.tail _ hk) hbeyond
  | malformed hscans hrest => exact .malformed (.step htakes hscans) hrest

/-- Every template can be read, or it has a reference that it cannot have. -/
theorem means_or_faulty (groups : Nat) (chars : List Char) :
    (∃ template, Means groups chars template) ∨ Faulty groups chars := by
  induction hlength : chars.length using Nat.strong_induction_on generalizing chars with
  | _ length ih =>
      subst hlength
      cases chars with
      | nil => exact .inl ⟨[], .done [], nofun⟩
      | cons c rest =>
          rcases exists_takes c rest with ⟨piece, behind, htakes⟩ | ⟨behind, hchars, hmalformed⟩
          · by_cases hpiece : Piece.In groups piece
            · rcases ih _ htakes.length_lt behind rfl with ⟨template, hmeans⟩ | hfaulty
              · exact .inl ⟨_, htakes.means hpiece hmeans⟩
              · exact .inr (htakes.faulty hfaulty)
            · obtain ⟨k, rfl, hk⟩ : ∃ k, piece = .group k ∧ groups < k := by
                simpa [Piece.In] using hpiece
              exact .inr (.missingGroup (.step htakes (.done _)) (.head _) hk)
          · rw [hchars]
            exact .inr (.malformed (.done _) hmalformed)

section Reading

variable (hgroups : groups < Word.greatest)
include hgroups

theorem Scans.exists_error {pieces : Template} (hscans : Scans chars pieces rest) (size : Nat)
    (hrest : (∃ k, .group k ∈ pieces ∧ groups < k) ∨
      ∃ fault, parseFrom groups size rest = .error fault) :
    ∃ fault, parseFrom groups size chars = .error fault := by
  induction hscans with
  | done =>
      rcases hrest with ⟨k, hk, -⟩ | herror
      · cases hk
      · exact herror
  | @step chars rest behind piece pieces htakes _ ih =>
      by_cases hpiece : Piece.In groups piece
      · obtain ⟨fault, hfault⟩ := ih <| hrest.imp_left fun ⟨k, hk, hbeyond⟩ => by
          rcases List.mem_cons.mp hk with rfl | hk
          · exact absurd (hpiece k rfl) (Nat.not_le.mpr hbeyond)
          · exact ⟨k, hk, hbeyond⟩
        exact ⟨fault, by rw [htakes.parseFrom_eq hgroups hpiece, hfault]; rfl⟩
      · exact htakes.exists_error hgroups hpiece size

theorem Faulty.exists_error (hfaulty : Faulty groups chars) (size : Nat) :
    ∃ fault, parseFrom groups size chars = .error fault := by
  cases hfaulty with
  | missingGroup hscans hk hbeyond =>
      exact hscans.exists_error hgroups size (.inl ⟨_, hk, hbeyond⟩)
  | malformed hscans hrest =>
      exact hscans.exists_error hgroups size
        (.inr ⟨_, parseFrom_malformed (bracedNumber?_eq_none hrest)⟩)

theorem Means.parseFrom_eq {template : Template} (hmeans : Means groups chars template)
    (size : Nat) : parseFrom groups size chars = .ok template := by
  obtain ⟨hscans, hwithin⟩ := hmeans
  generalize hbehind : ([] : List Char) = behind at hscans
  induction hscans with
  | done =>
      subst hbehind
      rw [parseFrom]
  | @step chars rest behind piece pieces htakes _ ih =>
      have hpiece : Piece.In groups piece := fun k hk => hwithin k (hk ▸ .head _)
      rw [htakes.parseFrom_eq hgroups hpiece,
        ih (fun k hk => hwithin k (.tail _ hk)) hbehind]
      rfl

/-- A template is taken just where it says something, and refused just where it is faulty. -/
theorem parse_cases (text : String) :
    (∃ template, Means groups text.toList template ∧ parse text groups = .ok template) ∨
      Faulty groups text.toList ∧ ∃ fault, parse text groups = .error (.template fault) := by
  rcases means_or_faulty groups text.toList with ⟨template, hmeans⟩ | hfaulty
  · exact .inl ⟨template, hmeans, by rw [parse, hmeans.parseFrom_eq hgroups]⟩
  · obtain ⟨fault, hfault⟩ := hfaulty.exists_error hgroups text.utf8ByteSize
    exact .inr ⟨hfaulty, fault, by rw [parse, hfault]⟩

theorem Means.parse_eq {text : String} {template : Template}
    (hmeans : Means groups text.toList template) : parse text groups = .ok template := by
  rw [parse, hmeans.parseFrom_eq hgroups]

end Reading

def escapedChar (c : Char) : List Char :=
  if c = '\x5c' ∨ c = '$' then [c, c] else [c]

/-- A text with every backslash and every dollar sign doubled. -/
def escaped (text : String) : String :=
  String.ofList (text.toList.flatMap escapedChar)

theorem scans_escaped (chars : List Char) :
    Scans (chars.flatMap escapedChar) (chars.map .char) [] := by
  induction chars with
  | nil => exact .done []
  | cons c rest ih =>
      rw [List.flatMap_cons, List.map_cons, escapedChar]
      split
      next hc => exact .step (.doubled hc) ih
      next hc =>
        exact .step (.plain ⟨fun hslash => absurd (.inl hslash) hc,
          fun hdollar => absurd (.inr hdollar) hc⟩) ih

theorem means_escaped (groups : Nat) (text : String) :
    Means groups (escaped text).toList (text.toList.map .char) := by
  refine ⟨?_, fun k hk => ?_⟩
  · rw [escaped, String.toList_ofList]
    exact scans_escaped text.toList
  · obtain ⟨c, -, hc⟩ := List.mem_map.mp hk
    cases hc

theorem means_wholes (groups : Nat) {template : String} (htemplate : template ∈ ["\\0", "$\x7b0\x7d"]) :
    Means groups template.toList [.group 0] := by
  have hzero : IsNumber ['0'] := ⟨List.cons_ne_nil _ _, List.forall_mem_singleton.mpr rfl⟩
  refine ⟨?_, fun k hk => ?_⟩
  · simp only [List.mem_cons, List.not_mem_nil, or_false] at htemplate
    have hnumbered : "\\0".toList = '\x5c' :: (['0'] ++ []) := by decide
    have hbraced : "$\x7b0\x7d".toList = '$' :: '\x7b' :: (['0'] ++ '\x7d' :: []) := by decide
    rcases htemplate with rfl | rfl
    · rw [hnumbered]
      exact .step (.numbered hzero nofun) (.done [])
    · rw [hbraced]
      exact .step (.braced hzero) (.done [])
  · cases List.mem_singleton.mp hk
    exact Nat.zero_le groups

end Template

variable {template : Template} {text replacement : String} {start : Nat} {found : List Groups}

theorem expansion_chars (chars : List Char) (text : String) (groups : Groups) :
    Template.expansion (chars.map .char) text groups = String.ofList chars := by
  induction chars with
  | nil => rfl
  | cons c rest ih =>
      rw [List.map_cons, Template.expansion, List.map_cons, String.join_cons,
        ← String.toList_inj, String.toList_append]
      rw [Template.expansion] at ih
      rw [ih]
      simp [Piece.text]

theorem GroupsIn.expandedFrom_eq_joinedFrom (hfound : GroupsIn text start found)
    (hexpansion : ∀ groups, template.expansion text groups = replacement) :
    expandedFrom template text start found =
      joinedFrom replacement text start (found.filterMap (Groups.get · 0)) := by
  induction hfound with
  | nil hstart => exact joinedFrom_nil.symm
  | cons hstart hgroups hwhole hle _ ih =>
      rw [expandedFrom_cons hwhole, @List.filterMap_cons_some _ _ (Groups.get · 0) _ _ _ hwhole,
        joinedFrom_cons, hexpansion, ih]

theorem GroupsIn.expandedFrom_wholes (hfound : GroupsIn text start found) :
    expandedFrom [.group 0] text start found = Text.between text start text.utf8ByteSize := by
  induction hfound with
  | nil hstart => rfl
  | @cons start groups whole rest hstart hgroups hwhole hle _ ih =>
      obtain ⟨hwithin, hproper⟩ := hgroups 0 whole hwhole
      have hend := Text.isBoundary_utf8ByteSize text
      have hexpansion : Template.expansion [.group 0] text groups =
          Text.between text whole.start whole.stop := by
        simp [Template.expansion, Piece.text, hwhole]
      rw [expandedFrom_cons hwhole, ih, hexpansion,
        Text.between_append hstart hwithin.start hwithin.stop hle hproper,
        Text.between_append hstart hwithin.stop hend (Nat.le_trans hle hproper) hwithin.stop.le]

section Stores

variable {pattern : String} {flags : Flags} {regex : Regex} {limit : Option Nat}
  (hcompile : Regex.compile pattern flags = .ok regex)
include hcompile

theorem groupCount_lt : regex.groupCount < Word.greatest := by
  obtain ⟨parsed, hparse, hprogram, -⟩ := Pattern.compile_spec (Regex.program_of_compile hcompile)
  have hgroups := Pattern.groups_le_of_parse hparse
  have hcount : regex.groupCount = parsed.groups := by
    rw [Regex.groupCount, hprogram]
    show 2 * (parsed.groups + 1) / 2 - 1 = parsed.groups
    omega
  rw [hcount]
  exact Nat.lt_of_le_of_lt hgroups (by decide)

theorem replaceByTemplate_eq {written : String}
    (hmeans : Template.Means regex.groupCount written.toList template) (store : Store)
    (hlimit : limit ≠ some 0) :
    replaceByTemplate store regex written limit =
      Store.build (store.texts.toList.map (Option.map fun text =>
        expandDraft template text (foundGroups regex limit text))) := by
  simp only [replaceByTemplate, hmeans.parse_eq (groupCount_lt hcompile)]
  rw [if_neg (by simpa using hlimit), mapRows_eq hcompile (.replaceByTemplate limit), drafts_eq]
  simp only [groupsOfMatches_eq hcompile hlimit]

theorem counted_replaceByTemplate {written : String}
    (hmeans : Template.Means regex.groupCount written.toList template) (store : Store)
    (hlimit : limit ≠ some 0) :
    Store.Counted
      (store.texts.toList.map (Option.map fun text =>
        expandedFrom template text 0 (foundGroups regex limit text)))
      (replaceByTemplate store regex written limit) := by
  rw [replaceByTemplate_eq hcompile hmeans store hlimit]
  exact Store.counted_of_counts fun text =>
    (groupsIn_foundGroups hcompile limit text).counts_expandDraft template

theorem replaceByTemplate_zero {written : String} (store : Store)
    (hmeans : Template.Means regex.groupCount written.toList template) :
    replaceByTemplate store regex written (some 0) = .ok store := by
  simp only [replaceByTemplate, hmeans.parse_eq (groupCount_lt hcompile)]
  rfl

theorem texts_replaceByTemplate {written : String} {store result : Store}
    (hmeans : Template.Means regex.groupCount written.toList template)
    (hresult : replaceByTemplate store regex written limit = .ok result) :
    result.texts.toList = store.texts.toList.map (Option.map fun text =>
      expandedFrom template text 0 (foundGroups regex limit text)) := by
  rcases eq_or_ne limit (some 0) with rfl | hlimit
  · rw [replaceByTemplate_zero hcompile store hmeans] at hresult
    cases hresult
    exact (Store.map_texts_eq_self fun text _ => Text.between_all text).symm
  · exact (counted_replaceByTemplate hcompile hmeans store hlimit).texts_eq hresult

theorem invalidArguments_iff {written : String} {store : Store} :
    (∃ failure, replaceByTemplate store regex written limit = .error failure ∧
      failure.kind = .invalidArguments) ↔ Template.Faulty regex.groupCount written.toList := by
  have hgroups := groupCount_lt hcompile
  constructor
  · rintro ⟨failure, hfailure, hkind⟩
    rcases Template.parse_cases hgroups written with ⟨template, hmeans, -⟩ | ⟨hfaulty, -⟩
    · rcases eq_or_ne limit (some 0) with rfl | hlimit
      · rw [replaceByTemplate_zero hcompile store hmeans] at hfailure
        cases hfailure
      · have hcounted := counted_replaceByTemplate hcompile hmeans store hlimit
        rcases hcounted.kind_of_error hfailure with hoverflow | hoverrun
        · cases hoverflow.symm.trans hkind
        · cases hoverrun.symm.trans hkind
    · exact hfaulty
  · intro hfaulty
    obtain ⟨fault, hfault⟩ := hfaulty.exists_error hgroups written.utf8ByteSize
    refine ⟨.template fault, ?_, rfl⟩
    simp only [replaceByTemplate, Template.parse, hfault]

theorem replaceByTemplate_escaped (store : Store) (replacement : String) (limit : Option Nat) :
    replaceByTemplate store regex (Template.escaped replacement) limit =
      replace store regex replacement limit := by
  have hmeans := Template.means_escaped regex.groupCount replacement
  rcases eq_or_ne limit (some 0) with rfl | hlimit
  · exact replaceByTemplate_zero hcompile store hmeans
  · rw [replaceByTemplate_eq hcompile hmeans store hlimit, replace_eq hcompile store _ hlimit]
    refine Store.build_eq_of_counts (fun text => ?_) fun text =>
      (orderedIn_extentsIn hcompile limit text).counts_replaceDraft replacement
    have hfound := groupsIn_foundGroups hcompile limit text
    have hcounts := hfound.counts_expandDraft (replacement.toList.map .char)
    rwa [hfound.expandedFrom_eq_joinedFrom (expansion_chars _ text), String.ofList_toList,
      wholes_foundGroups] at hcounts

theorem replaceByTemplate_wholes {written : String} (hwritten : written ∈ ["\\0", "$\x7b0\x7d"])
    (store : Store) (limit : Option Nat) :
    (limit = some 0 → replaceByTemplate store regex written limit = .ok store) ∧
      (limit ≠ some 0 →
        Store.Counted store.texts.toList (replaceByTemplate store regex written limit)) ∧
      ∀ result, replaceByTemplate store regex written limit = .ok result →
        result.sameTexts store = true := by
  have hmeans := Template.means_wholes regex.groupCount hwritten
  have hsame : store.texts.toList.map (Option.map fun text =>
      expandedFrom [.group 0] text 0 (foundGroups regex limit text)) = store.texts.toList :=
    Store.map_texts_eq_self fun text _ => by
      rw [(groupsIn_foundGroups hcompile limit text).expandedFrom_wholes, Text.between_all]
  refine ⟨?_, fun hlimit => ?_, fun result hresult => ?_⟩
  · rintro rfl
    exact replaceByTemplate_zero hcompile store hmeans
  · have hcounted := counted_replaceByTemplate hcompile hmeans store hlimit
    rwa [hsame] at hcounted
  · rw [Store.sameTexts_iff, texts_replaceByTemplate hcompile hmeans hresult, hsame]

/-- A template is refused for nothing but its references.  Any other one is put in the place of every
match with its escapes and references filled in; a text that is escaped is put there as it is, and a
template that is the whole match changes nothing. -/
theorem template_stands_for_pieces (store : Store) (limit : Option Nat) :
    (∀ written,
      let groups := regex.groupCount
      ((∃ failure, replaceByTemplate store regex written limit = .error failure ∧
          failure.kind = .invalidArguments) ↔ Template.Faulty groups written.toList) ∧
        (¬ Template.Faulty groups written.toList →
          ∃ template, Template.Means groups written.toList template) ∧
        ∀ template, Template.Means groups written.toList template →
          let expanded (text : String) :=
            expandedFrom template text 0 (foundGroups regex limit text)
          (limit = some 0 → replaceByTemplate store regex written limit = .ok store) ∧
            (limit ≠ some 0 → Store.Counted (store.texts.toList.map (·.map expanded))
              (replaceByTemplate store regex written limit)) ∧
            ∀ result, replaceByTemplate store regex written limit = .ok result →
              result.texts.toList = store.texts.toList.map (·.map expanded)) ∧
    (∀ replacement, replaceByTemplate store regex (Template.escaped replacement) limit =
      replace store regex replacement limit) ∧
    ∀ written ∈ ["\\0", "$\x7b0\x7d"],
      (limit = some 0 → replaceByTemplate store regex written limit = .ok store) ∧
        (limit ≠ some 0 →
          Store.Counted store.texts.toList (replaceByTemplate store regex written limit)) ∧
        ∀ result, replaceByTemplate store regex written limit = .ok result →
          result.sameTexts store = true := by
  refine ⟨fun written => ⟨invalidArguments_iff hcompile, fun hsound => ?_, fun template hmeans =>
    ⟨?_, fun hlimit => ?_, fun result => texts_replaceByTemplate hcompile hmeans⟩⟩,
    fun replacement => replaceByTemplate_escaped hcompile store replacement limit,
    fun written hwritten => replaceByTemplate_wholes hcompile hwritten store limit⟩
  · exact (Template.means_or_faulty _ _).resolve_right hsound
  · rintro rfl
    exact replaceByTemplate_zero hcompile store hmeans
  · exact counted_replaceByTemplate hcompile hmeans store hlimit

end Stores

/-- A group that takes part in one of two matches, with a reference and two escapes side by side, and
a reference to a group that there is not. -/
theorem template_stands_for_pieces_escapes :
    ∃ (regex : Regex) (store result : Store), Regex.compile "(ä)?b*" Flags.none = .ok regex ∧
      regex.groupCount = 1 ∧ store.texts.toList = [some "aäb", none] ∧
      Template.Means regex.groupCount "\\1\\\\$$".toList [.group 1, .char '\x5c', .char '$'] ∧
      replaceByTemplate store regex "\\1\\\\$$" none = .ok result ∧
      result.texts.toList = [some "\\$aä\\$", none] ∧
      Template.Faulty regex.groupCount "a$\x7b2\x7d".toList ∧
      ∃ failure, replaceByTemplate store regex "a$\x7b2\x7d" none = .error failure ∧
        failure.kind = .invalidArguments := by
  let regex : Regex := ⟨"(ä)?b*", Flags.none,
    ⟨#[.save 0, .split 2 5, .save 2, .char 'ä' false, .save 3, .split 6 8, .char 'b' false,
      .jump 5, .save 1, .accept], #[], 4, 0⟩⟩
  have hcompile : Regex.compile "(ä)?b*" Flags.none = .ok regex := by decide +kernel
  have hfits : FitsLimits [some "aäb", none] := fitsLimits_of_total (by decide)
  obtain ⟨store, hbuild⟩ := Store.ofTexts_ok_iff.mpr hfits
  have htexts := Store.texts_ofTexts hbuild
  have hgroups : regex.groupCount = 1 := by decide +kernel
  have hmeans : Template.Means regex.groupCount "\\1\\\\$$".toList
      [.group 1, .char '\x5c', .char '$'] := by
    have hchars : "\\1\\\\$$".toList = '\x5c' :: (['1'] ++ ['\x5c', '\x5c', '$', '$']) := by
      decide +kernel
    refine ⟨?_, by simp [hgroups]⟩
    rw [hchars]
    refine .step (.numbered ⟨List.cons_ne_nil _ _, List.forall_mem_singleton.mpr rfl⟩ ?_)
      (.step (.doubled (.inl rfl)) (.step (.doubled (.inr rfl)) (.done [])))
    rintro c ⟨⟩
    rfl
  have hfaulty : Template.Faulty regex.groupCount "a$\x7b2\x7d".toList := by
    have hchars : "a$\x7b2\x7d".toList = 'a' :: '$' :: '\x7b' :: (['2'] ++ ['\x7d']) := by
      decide +kernel
    rw [hchars]
    have hplain : Template.Plain 'a' ('$' :: '\x7b' :: (['2'] ++ ['\x7d'])) := ⟨nofun, nofun⟩
    have hnumber : Template.IsNumber ['2'] :=
      ⟨List.cons_ne_nil _ _, List.forall_mem_singleton.mpr rfl⟩
    exact .missingGroup (.step (.plain hplain) (.step (.braced hnumber) (.done [])))
      (.tail _ (.head _)) (by rw [hgroups]; decide)
  obtain ⟨hall, -, -⟩ := template_stands_for_pieces hcompile store none
  obtain ⟨-, -, hexpands⟩ := hall "\\1\\\\$$"
  obtain ⟨-, hbuilds, -⟩ := hexpands _ hmeans
  have hexpanded : expandedFrom [.group 1, .char '\x5c', .char '$'] "aäb" 0
      (foundGroups regex none "aäb") = "\\$aä\\$" := by decide +kernel
  have hresult := hbuilds nofun
  simp only [htexts, List.map_cons, List.map_nil, Option.map_some, Option.map_none, hexpanded]
    at hresult
  obtain ⟨result, hok, hwritten⟩ := hresult.stored (fitsLimits_of_total (by decide))
  exact ⟨regex, store, result, hcompile, hgroups, htexts, hmeans, hok, hwritten, hfaulty,
    (hall _).1.mpr hfaulty⟩

end TextColumns.Matching
