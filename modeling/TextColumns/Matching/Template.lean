import TextColumns.Error
import TextColumns.Regex.Matcher
import TextColumns.Basic

/-!
Templates for replacements.  A backslash and a number, or a dollar sign and a number in braces,
stand for the text of a group; a doubled backslash or dollar sign stands for a single one.
-/

namespace TextColumns.Matching

open Text (Extent)

inductive Piece where
  | char (c : Char)
  | group (k : Nat)
  deriving DecidableEq, Repr

abbrev Template := List Piece

namespace Template

/-- The number that follows `n` in leading decimal digits, and what comes behind them; numbers
stop at the greatest word. -/
def leadingNumber (n : Nat) : List Char → Nat × List Char
  | c :: rest =>
    if c.isDigit then leadingNumber (Word.saturate (Word.saturate (10 * n) + (c.toNat - 48))) rest
    else (n, c :: rest)
  | [] => (n, [])

/-- The number in front of a closing brace, and what comes behind the brace.  There is none
without digits, or when it exceeds a word. -/
def bracedNumber? (chars : List Char) : Option (Nat × List Char) :=
  let digits := chars.takeWhile Char.isDigit
  match chars.dropWhile Char.isDigit with
  | '\x7d' :: rest =>
    let n := digits.foldl (fun n c => min (10 * n + (c.toNat - 48)) Word.count) 0
    if digits.isEmpty || n = Word.count then none else some (n, rest)
  | _ => none

theorem leadingNumber_length (n : Nat) (chars : List Char) :
    (leadingNumber n chars).2.length ≤ chars.length := by
  induction chars generalizing n with
  | nil => exact Nat.le_refl _
  | cons c rest ih =>
      simp only [leadingNumber]
      split
      · exact Nat.le_succ_of_le (ih _)
      · exact Nat.le_refl _

theorem bracedNumber?_length {chars rest : List Char} {n : Nat}
    (h : bracedNumber? chars = some (n, rest)) : rest.length < chars.length := by
  have hdrop := (List.dropWhile_suffix Char.isDigit (l := chars)).length_le
  revert h
  fun_cases bracedNumber? chars with
  | case1 | case3 => intro h; cases h
  | case2 digits after heq value =>
      intro h
      obtain ⟨-, rfl⟩ := Prod.mk.inj (Option.some.inj h)
      rw [heq] at hdrop
      exact hdrop

def reference (groups k : Nat) (rest : Except TemplateFault Template) :
    Except TemplateFault Template :=
  if groups < k then .error (.missingGroup k groups)
  else rest.map (.group k :: ·)

/-- Reads a template for a pattern with a number of groups; `size` is the size of the whole. -/
def parseFrom (groups size : Nat) (chars : List Char) : Except TemplateFault Template :=
  match chars with
  | [] => .ok []
  | '\x5c' :: '\x5c' :: rest => (parseFrom groups size rest).map (.char '\x5c' :: ·)
  | '$' :: '$' :: rest => (parseFrom groups size rest).map (.char '$' :: ·)
  | '$' :: '\x7b' :: rest =>
    match h : bracedNumber? rest with
    | none => .error (.malformedReference (size - Text.sizeOf ('$' :: '\x7b' :: rest)))
    | some (k, after) =>
      have := bracedNumber?_length h
      reference groups k (parseFrom groups size after)
  | '\x5c' :: d :: rest =>
    if d.isDigit then
      have := leadingNumber_length (d.toNat - 48) rest
      let number := leadingNumber (d.toNat - 48) rest
      reference groups number.1 (parseFrom groups size number.2)
    else
      (parseFrom groups size (d :: rest)).map (.char '\x5c' :: ·)
  | c :: rest => (parseFrom groups size rest).map (.char c :: ·)
termination_by chars.length

end Template

end TextColumns.Matching
