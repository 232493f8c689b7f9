import TextColumns.Proofs.Pattern.Literal
import TextColumns.Proofs.Pieces.Occurrence
import TextColumns.Proofs.Regex.WholeMatch

/-! An escaped text matches where it occurs, each time behind the occurrence before. -/

namespace TextColumns.Regex

open Pattern (Escaping Flags escaped isEscapable literalSlots)
open Search (Slots)
open Text (Cursor Extent Haystack Needle)

variable {marked : Char → Bool} {needle text : String} {regex : Regex} {cursor : Cursor}

theorem matchFrom?_escaped (hmarked : Escaping marked)
    (hcompile : Regex.compile (escaped marked needle) Flags.none = .ok regex)
    (hon : Cursor.On text cursor) :
    regex.program.matchFrom? cursor =
      (cursor.seekChars? needle.toList).map (literalSlots needle.toList) := by
  obtain ⟨node, hparse, hloops, hways⟩ := Pattern.parse_escaped hmarked needle
  rw [Program.matchFrom?_eq (check_of_compile hcompile) hon,
    Pattern.explore_starts_eq_captures (program_of_compile hcompile) hparse hloops hon]
  exact Pattern.captures_literals (hways .none) cursor

theorem group?_literalSlots (chars : List Char) (place : Cursor) :
    (literalSlots chars place).group? 0 =
      some ⟨place.offset, place.offset + Text.sizeOf chars⟩ := rfl

/-- What a match covers that begins at an occurrence. -/
def occurrence (needle : String) (place : Nat) : Extent :=
  ⟨place, place + needle.utf8ByteSize⟩

theorem matchesFrom_escaped (hmarked : Escaping marked) (hneedle : needle ≠ "")
    (hcompile : Regex.compile (escaped marked needle) Flags.none = .ok regex)
    (hon : Cursor.On text cursor) (lastStop : Option Nat) :
    (regex.program.matchesFrom cursor lastStop).filterMap (·.group? 0) =
      (Text.occurrencesFrom (.ofBytes text.toByteArray) (.ofText needle) cursor.offset).map
        (occurrence needle) := by
  have hpositive : 0 < needle.utf8ByteSize :=
    Nat.pos_of_ne_zero fun hzero => hneedle (String.utf8ByteSize_eq_zero_iff.mp hzero)
  induction hleft : text.utf8ByteSize - cursor.offset using Nat.strong_induction_on
    generalizing cursor lastStop with
  | _ left ih =>
      have hmatch := matchFrom?_escaped hmarked hcompile hon
      rw [hon.occurrencesFrom_eq hneedle]
      cases hplace : cursor.seekChars? needle.toList with
      | none =>
          rw [hplace, Option.map_none] at hmatch
          rw [Program.matchesFrom_of_none hmatch]
          rfl
      | some place =>
          rw [hplace, Option.map_some] at hmatch
          obtain ⟨honPlace, hle, hfollows⟩ := hon.of_seekChars? hplace
          have hbehind := honPlace.past hfollows
          have hstop := place.offset_past needle.toList
          rw [Text.sizeOf_toList] at hstop
          have hgroup : (literalSlots needle.toList place).group? 0 =
              some (occurrence needle place.offset) := by
            rw [group?_literalSlots, Text.sizeOf_toList, occurrence]
          have hend := hbehind.offset_le
          have hnext := ih (text.utf8ByteSize - (place.past needle.toList).offset) (by omega) hbehind
            (some (occurrence needle place.offset).stop) rfl
          have hlt : cursor.offset < (occurrence needle place.offset).stop :=
            Nat.lt_of_le_of_lt hle (Nat.lt_add_of_pos_right hpositive)
          rw [Program.matchesFrom_of_proper hon hbehind hmatch hgroup hstop
            (Nat.lt_add_of_pos_right hpositive) hlt]
          refine (List.filterMap_cons_some (f := (Slots.group? · 0)) hgroup).trans ?_
          rw [hnext, hstop]
          rfl

/-- The matches of an escaped text are the occurrences of the text. -/
theorem extentsIn_escaped (hmarked : Escaping marked) (hneedle : needle ≠ "")
    (hcompile : Regex.compile (escaped marked needle) Flags.none = .ok regex) (text : String) :
    regex.program.extentsIn text =
      (Text.occurrences text.toByteArray (.ofText needle)).map (occurrence needle) := by
  rw [Text.occurrences_eq]
  exact matchesFrom_escaped hmarked hneedle hcompile (Cursor.on_start text) none

theorem seek_self (hon : Cursor.On text cursor) : cursor.seek cursor.offset = cursor :=
  hon.seekFrom_eq hon (Nat.le_refl _)

theorem matchesFrom_empty (hcompile : Regex.compile "" Flags.none = .ok regex)
    (hon : Cursor.On text cursor) {lastStop : Option Nat} (hlast : lastStop ≠ some cursor.offset) :
    regex.program.matchesFrom cursor lastStop =
      literalSlots [] cursor :: regex.program.matchesBehind cursor ⟨cursor.offset, cursor.offset⟩ := by
  have hmatch : regex.program.matchFrom? cursor = some (literalSlots [] cursor) := by
    have hpattern : escaped isEscapable "" = "" := by decide
    rw [matchFrom?_escaped Pattern.escaping_isEscapable (hpattern.symm ▸ hcompile) hon]
    obtain ⟨offset, before, rest⟩ := cursor
    cases rest <;> rfl
  have hfirst : (lastStop == some cursor.offset) = false := beq_false_of_ne hlast
  rw [Program.matchesFrom_of_some hmatch (group?_literalSlots [] cursor), Text.sizeOf, Nat.add_zero,
    Program.isRepeated, hfirst, Bool.and_false]
  rfl

theorem length_matchesFrom_empty (hcompile : Regex.compile "" Flags.none = .ok regex)
    (hon : Cursor.On text cursor) {lastStop : Option Nat} (hlast : lastStop ≠ some cursor.offset) :
    (regex.program.matchesFrom cursor lastStop).length = cursor.rest.length + 1 := by
  induction hrest : cursor.rest generalizing cursor lastStop with
  | nil =>
      have hnext : cursor.next? = none := by rw [Cursor.next?, hrest]
      rw [matchesFrom_empty hcompile hon hlast, Program.matchesBehind, seek_self hon, beq_self_eq_true,
        Matcher.resume?, if_pos rfl, hnext]
      rfl
  | cons c rest ih =>
      have hnext : cursor.next? = some (c, cursor.behind c rest) := by rw [Cursor.next?, hrest]
      have hlt := Cursor.offset_lt_of_next? hnext
      have hfurther : some cursor.offset ≠ some (cursor.behind c rest).offset :=
        fun heq => Nat.ne_of_lt hlt (Option.some.inj heq)
      have hbehind := ih (hon.next? hnext) hfurther rfl
      rw [matchesFrom_empty hcompile hon hlast, Program.matchesBehind, seek_self hon, beq_self_eq_true,
        Matcher.resume?, if_pos rfl, hnext, Option.map_some, List.length_cons]
      show (if _ then _ else _ : List Slots).length + 1 = _
      rw [if_pos hlt, hbehind, List.length_cons]

theorem length_extentsIn_empty (hcompile : Regex.compile "" Flags.none = .ok regex) (text : String) :
    (regex.program.extentsIn text).length = text.length + 1 := by
  have hfirst : (none : Option Nat) ≠ some (Cursor.start text).offset := nofun
  rw [Program.length_extentsIn, length_matchesFrom_empty hcompile (Cursor.on_start text) hfirst,
    ← String.length_toList]
  rfl

end TextColumns.Regex
