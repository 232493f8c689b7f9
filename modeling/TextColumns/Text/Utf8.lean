/-!
Well-formed UTF-8.  A byte sequence is checked from left to right against the table of leading
bytes; the first place where it fails is described by how much of it could still have been part of
a character.
-/

namespace TextColumns.Text

/-- Where a byte sequence stops being UTF-8. -/
structure Utf8Fault where
  /-- The bytes before the fault, all of them well formed. -/
  validLength : Nat
  /-- The bytes that cannot be part of a character, or nothing when the sequence ends within one. -/
  faultLength : Option Nat
  deriving DecidableEq, Repr

def Utf8Fault.message (fault : Utf8Fault) : String :=
  match fault.faultLength with
  | some n =>
    "invalid utf-8 sequence of " ++ toString n ++ " bytes from index " ++
      toString fault.validLength
  | none => "incomplete utf-8 byte sequence from index " ++ toString fault.validLength

structure ByteRange where
  low : UInt8
  high : UInt8

def anyContinuation : ByteRange := ⟨0x80, 0xBF⟩

/-- The bytes that must follow a leading byte; nothing for a byte that leads no character. -/
def followers? (lead : UInt8) : Option (List ByteRange) :=
  if lead < 0x80 then some []
  else if lead < 0xC2 then none
  else if lead < 0xE0 then some [anyContinuation]
  else if lead == 0xE0 then some [⟨0xA0, 0xBF⟩, anyContinuation]
  else if lead == 0xED then some [⟨0x80, 0x9F⟩, anyContinuation]
  else if lead < 0xF0 then some [anyContinuation, anyContinuation]
  else if lead == 0xF0 then some [⟨0x90, 0xBF⟩, anyContinuation, anyContinuation]
  else if lead < 0xF4 then some [anyContinuation, anyContinuation, anyContinuation]
  else if lead == 0xF4 then some [⟨0x80, 0x8F⟩, anyContinuation, anyContinuation]
  else none

/-- Takes the bytes that must follow.  On failure gives the length of what had been taken, or
nothing when the bytes ran out. -/
def takeFollowers (taken : Nat) : List ByteRange → List UInt8 → Except (Option Nat) (List UInt8)
  | [], rest => .ok rest
  | _ :: _, [] => .error none
  | range :: ranges, b :: rest =>
    if range.low ≤ b && b ≤ range.high then takeFollowers (taken + 1) ranges rest
    else .error (some taken)

theorem takeFollowers_length {taken : Nat} {ranges : List ByteRange} {bytes rest : List UInt8}
    (h : takeFollowers taken ranges bytes = .ok rest) : rest.length ≤ bytes.length := by
  induction ranges generalizing taken bytes with
  | nil => cases h; exact Nat.le_refl _
  | cons range ranges ih =>
      cases bytes with
      | nil => cases h
      | cons b bytes =>
          simp only [takeFollowers] at h
          split at h
          · exact Nat.le_succ_of_le (ih h)
          · cases h

/-- The first fault of bytes that `offset` well-formed bytes come before. -/
def utf8FaultFrom (offset : Nat) (bytes : List UInt8) : Option Utf8Fault :=
  match bytes with
  | [] => none
  | lead :: rest =>
    match followers? lead with
    | none => some ⟨offset, some 1⟩
    | some ranges =>
      match h : takeFollowers 1 ranges rest with
      | .error length => some ⟨offset, length⟩
      | .ok after =>
        have := takeFollowers_length h
        utf8FaultFrom (offset + 1 + ranges.length) after
termination_by bytes.length
decreasing_by exact Nat.lt_succ_of_le this

def utf8Fault? (bytes : ByteArray) : Option Utf8Fault :=
  utf8FaultFrom 0 bytes.toList

end TextColumns.Text
