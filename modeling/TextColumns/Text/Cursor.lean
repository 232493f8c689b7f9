/-!
Parts of texts, and places in a text.  A cursor stands between two characters and knows the
characters behind it, the one before it, and how many bytes come before.
-/

namespace TextColumns.Text

structure Extent where
  start : Nat
  stop : Nat
  deriving DecidableEq, Repr, Inhabited

def Extent.size (extent : Extent) : Nat :=
  extent.stop - extent.start

def sizeOf : List Char → Nat
  | [] => 0
  | c :: rest => c.utf8Size + sizeOf rest

/-- The first of what has been found, as many as the limit says. -/
def upTo (limit : Option Nat) (found : List α) : List α :=
  match limit with
  | some n => found.take n
  | none => found

structure Cursor where
  offset : Nat
  before : Option Char
  rest : List Char
  deriving DecidableEq, Repr, Inhabited

namespace Cursor

def start (text : String) : Cursor :=
  ⟨0, none, text.toList⟩

/-- The place behind `c` when that is the next character and `rest` follows it. -/
def behind (cursor : Cursor) (c : Char) (rest : List Char) : Cursor :=
  ⟨cursor.offset + c.utf8Size, some c, rest⟩

def next? (cursor : Cursor) : Option (Char × Cursor) :=
  match cursor.rest with
  | [] => none
  | c :: rest => some (c, cursor.behind c rest)

/-- The first place from here on with at least `target` bytes before it. -/
def seekFrom (target offset : Nat) (before : Option Char) : List Char → Cursor
  | [] => ⟨offset, before, []⟩
  | c :: rest =>
    if target ≤ offset then ⟨offset, before, c :: rest⟩
    else seekFrom target (offset + c.utf8Size) (some c) rest

def seek (cursor : Cursor) (target : Nat) : Cursor :=
  seekFrom target cursor.offset cursor.before cursor.rest

theorem seekFrom_length (target offset : Nat) (before : Option Char) (rest : List Char) :
    (seekFrom target offset before rest).rest.length ≤ rest.length := by
  induction rest generalizing offset before with
  | nil => exact Nat.le_refl _
  | cons c rest ih =>
      simp only [seekFrom]
      split
      · exact Nat.le_refl _
      · exact Nat.le_succ_of_le (ih _ _)

theorem seek_length (cursor : Cursor) (target : Nat) :
    (cursor.seek target).rest.length ≤ cursor.rest.length :=
  seekFrom_length _ _ _ _

theorem seekFrom_length_lt {target offset : Nat} {before : Option Char} {rest : List Char}
    (h : offset < (seekFrom target offset before rest).offset) :
    (seekFrom target offset before rest).rest.length < rest.length := by
  cases rest with
  | nil => exact absurd h (Nat.lt_irrefl _)
  | cons c rest =>
      by_cases htarget : target ≤ offset
      · rw [seekFrom, if_pos htarget] at h
        exact absurd h (Nat.lt_irrefl _)
      · rw [seekFrom, if_neg htarget]
        exact Nat.lt_succ_of_le (seekFrom_length _ _ _ _)

/-- A place further on has fewer characters behind it. -/
theorem seek_length_lt {cursor : Cursor} {target : Nat}
    (h : cursor.offset < (cursor.seek target).offset) :
    (cursor.seek target).rest.length < cursor.rest.length :=
  seekFrom_length_lt h

theorem next?_eq_some {cursor next : Cursor} {c : Char} (h : cursor.next? = some (c, next)) :
    ∃ rest, cursor.rest = c :: rest ∧ cursor.behind c rest = next := by
  cases hrest : cursor.rest with
  | nil =>
      rw [next?, hrest] at h
      cases h
  | cons d rest =>
      rw [next?, hrest] at h
      obtain ⟨rfl, hnext⟩ := Prod.mk.inj (Option.some.inj h)
      exact ⟨rest, rfl, hnext⟩

theorem next?_length {cursor next : Cursor} {c : Char} (h : cursor.next? = some (c, next)) :
    next.rest.length < cursor.rest.length := by
  obtain ⟨rest, hrest, rfl⟩ := next?_eq_some h
  rw [hrest]
  exact Nat.lt_succ_self _

/-- The place in a text with that many bytes before it, if no character lies across it. -/
def at? (text : String) (offset : Nat) : Option Cursor :=
  let cursor := (start text).seek offset
  if cursor.offset == offset then some cursor else none

end Cursor

end TextColumns.Text
