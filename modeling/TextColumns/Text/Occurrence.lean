import TextColumns.Text.Bytes
import TextColumns.Text.Fingerprint

/-!
Where one byte sequence occurs in another.  A place whose fingerprint differs is passed over
without a look at its bytes, so that a search takes time in proportion to the two lengths, and no
occurrence is missed by that (`occursAt_ofBytes`).
-/

namespace TextColumns.Text

/-- Bytes that are searched, with the fingerprints of all their prefixes. -/
structure Haystack where
  bytes : ByteArray
  prints : Array Nat

def Haystack.ofBytes (bytes : ByteArray) : Haystack :=
  ⟨bytes, Fingerprint.prefixes bytes.data.toList⟩

structure Needle where
  bytes : ByteArray
  print : Nat
  weight : Nat

def Needle.ofBytes (bytes : ByteArray) : Needle :=
  ⟨bytes, Fingerprint.ofBytes bytes.data.toList, Fingerprint.weight bytes.data.toList⟩

def Needle.ofText (text : String) : Needle :=
  .ofBytes text.toByteArray

def mayOccur (hay : Haystack) (needle : Needle) (place : Nat) : Bool :=
  (hay.prints.getD place 0 * needle.weight + needle.print) % Fingerprint.modulus
    == hay.prints.getD (place + needle.bytes.size) 0

def occursAt (hay : Haystack) (needle : Needle) (place : Nat) : Bool :=
  mayOccur hay needle place && standsAt hay.bytes needle.bytes place

theorem getElem_of_agreesFrom {hay needle : ByteArray} {place i : Nat}
    (h : agreesFrom hay needle place i) (j : Nat) (hij : i ≤ j) (hj : j < needle.size) :
    hay.data.toList[place + j]? = needle.data.toList[j]? := by
  fun_induction agreesFrom hay needle place i with
  | case1 i hi hplace ih =>
      rw [Bool.and_eq_true] at h
      obtain rfl | hlt := Nat.eq_or_lt_of_le hij
      · have := eq_of_beq h.1
        rw [ByteArray.getElem_eq_getElem_data, ByteArray.getElem_eq_getElem_data] at this
        simpa [hi, hplace] using this
      · exact ih h.2 hlt
  | case2 i hi hplace => simp at h
  | case3 i hi => omega

/-- What stands at a place is the needle, so that the bytes up to its end are those in front of
the place and the needle. -/
theorem take_of_standsAt {hay needle : ByteArray} {place : Nat} (h : standsAt hay needle place) :
    hay.data.toList.take (place + needle.size)
      = hay.data.toList.take place ++ needle.data.toList := by
  simp only [standsAt, Bool.and_eq_true, decide_eq_true_eq] at h
  obtain ⟨hsize, hagree⟩ := h
  rw [List.take_add]
  congr 1
  refine List.ext_getElem? fun j => ?_
  rw [List.getElem?_take]
  by_cases hj : j < needle.size
  · rw [if_pos hj, List.getElem?_drop]
    exact getElem_of_agreesFrom hagree j (Nat.zero_le j) hj
  · rw [if_neg hj]
    exact (List.getElem?_eq_none (Nat.le_of_not_lt hj)).symm

theorem mayOccur_of_standsAt {hay needle : ByteArray} {place : Nat}
    (h : standsAt hay needle place) :
    mayOccur (.ofBytes hay) (.ofBytes needle) place := by
  have hsize : place + needle.size ≤ hay.data.toList.length := by
    simp only [standsAt, Bool.and_eq_true, decide_eq_true_eq] at h
    exact h.1
  have hprint (n : Nat) (hn : n ≤ hay.data.toList.length) :
      (Haystack.ofBytes hay).prints.getD n 0
        = Fingerprint.ofBytes (hay.data.toList.take n) := by
    simp only [Haystack.ofBytes, Array.getD_eq_getD_getElem?,
      Fingerprint.getElem?_prefixes _ n hn, Option.getD_some]
  have hend := Fingerprint.ofBytes_append (hay.data.toList.take place) needle.data.toList
  rw [← take_of_standsAt h] at hend
  rw [mayOccur, hprint place (by omega), beq_iff_eq]
  exact (hend.symm.trans (hprint (place + needle.size) hsize).symm)

/-- Places that the fingerprints rule out hold no occurrence. -/
theorem occursAt_ofBytes (hay needle : ByteArray) (place : Nat) :
    occursAt (.ofBytes hay) (.ofBytes needle) place = standsAt hay needle place := by
  cases h : standsAt hay needle place with
  | false => simp [occursAt, Haystack.ofBytes, Needle.ofBytes, h]
  | true =>
      simp only [occursAt, mayOccur_of_standsAt h, Bool.true_and]
      exact h

/-- The first of the `count` places from `place` on at which the needle occurs. -/
def firstPlace (hay : Haystack) (needle : Needle) (place : Nat) : (count : Nat) → Option Nat
  | 0 => none
  | count + 1 =>
      if occursAt hay needle place then some place
      else firstPlace hay needle (place + 1) count

def lastPlace (hay : Haystack) (needle : Needle) : (count : Nat) → Option Nat
  | 0 => none
  | place + 1 => if occursAt hay needle place then some place else lastPlace hay needle place

def findBytes (hay : ByteArray) (needle : Needle) : Option Nat :=
  if needle.bytes.size ≤ hay.size then
    firstPlace (.ofBytes hay) needle 0 (hay.size + 1 - needle.bytes.size)
  else none

def findLastBytes (hay : ByteArray) (needle : Needle) : Option Nat :=
  if needle.bytes.size ≤ hay.size then
    lastPlace (.ofBytes hay) needle (hay.size + 1 - needle.bytes.size)
  else none

/-- The occurrences from `place` on that do not overlap, each taken as far left as possible. -/
def occurrencesFrom (hay : Haystack) (needle : Needle) (place : Nat) : List Nat :=
  if place + needle.bytes.size ≤ hay.bytes.size then
    if occursAt hay needle place then
      place :: occurrencesFrom hay needle (place + max 1 needle.bytes.size)
    else
      occurrencesFrom hay needle (place + 1)
  else
    []
termination_by hay.bytes.size + 1 - place

def occurrences (hay : ByteArray) (needle : Needle) : List Nat :=
  if needle.bytes.size ≤ hay.size then occurrencesFrom (.ofBytes hay) needle 0 else []

/-- The occurrences in front of `stop` that do not overlap, each taken as far right as
possible. -/
def occurrencesBefore (hay : Haystack) (needle : Needle) (stop : Nat) : List Nat :=
  if 0 < needle.bytes.size ∧ needle.bytes.size ≤ stop then
    let place := stop - needle.bytes.size
    if occursAt hay needle place then place :: occurrencesBefore hay needle place
    else occurrencesBefore hay needle (stop - 1)
  else
    []
termination_by stop

def occurrencesFromRight (hay : ByteArray) (needle : Needle) : List Nat :=
  if needle.bytes.size ≤ hay.size then occurrencesBefore (.ofBytes hay) needle hay.size else []

end TextColumns.Text
