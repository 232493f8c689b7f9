/-!
Bytes of texts: whether one byte sequence stands in another, order, and the bytes that lead a
character.
-/

namespace TextColumns.Text

/-- Whether the bytes of `needle` from `i` on stand in `hay`, the first byte of `needle` being
at `place`. -/
def agreesFrom (hay needle : ByteArray) (place i : Nat) : Bool :=
  if h : i < needle.size then
    if hplace : place + i < hay.size then
      hay[place + i] == needle[i] && agreesFrom hay needle place (i + 1)
    else
      false
  else
    true
termination_by needle.size - i

def standsAt (hay needle : ByteArray) (place : Nat) : Bool :=
  place + needle.size ≤ hay.size && agreesFrom hay needle place 0

def startsWithBytes (hay needle : ByteArray) : Bool :=
  standsAt hay needle 0

def endsWithBytes (hay needle : ByteArray) : Bool :=
  needle.size ≤ hay.size && standsAt hay needle (hay.size - needle.size)

def compareFrom (a b : ByteArray) (i : Nat) : Ordering :=
  if ha : i < a.size then
    if hb : i < b.size then
      if a[i] < b[i] then .lt
      else if b[i] < a[i] then .gt
      else compareFrom a b (i + 1)
    else
      .gt
  else if i < b.size then
    .lt
  else
    .eq
termination_by a.size - i

def compareBytes (a b : ByteArray) : Ordering :=
  compareFrom a b 0

def isLeadByte (b : UInt8) : Bool :=
  b &&& 0xC0 != 0x80

/-- The number of characters that begin among the first `stop` bytes. -/
def leadsBefore (bytes : ByteArray) (stop : Nat) : Nat :=
  (bytes.extract 0 stop).toList.countP isLeadByte

end TextColumns.Text
