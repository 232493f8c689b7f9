import TextColumns.Text.Bytes

/-!
Fingerprints of byte sequences.  Equal sequences have equal fingerprints, and the fingerprint of
two sequences one behind the other follows from theirs.  So the fingerprints of all prefixes of a
sequence tell in a few steps whether a part of it can be equal to another sequence.
-/

namespace TextColumns.Text

namespace Fingerprint

/-- Fingerprints are remainders by this prime. -/
def modulus : Nat := 2147483647

def base : Nat := 1000003

def extend (print : Nat) (b : UInt8) : Nat :=
  (print * base + b.toNat) % modulus

def ofBytes (bytes : List UInt8) : Nat :=
  bytes.foldl extend 0

/-- What the bytes in front count for in a fingerprint when these bytes follow. -/
def weight : List UInt8 → Nat
  | [] => 1
  | _ :: rest => base * weight rest % modulus

/-- Adds the fingerprints of all prefixes to `found`, the shortest first, when `print` is that of
what comes before. -/
def prefixesInto (found : Array Nat) (print : Nat) : List UInt8 → Array Nat
  | [] => found.push print
  | b :: rest => prefixesInto (found.push print) (extend print b) rest

/-- The fingerprints of all prefixes, each at the place of its length. -/
def prefixes (bytes : List UInt8) : Array Nat :=
  prefixesInto #[] 0 bytes

/-- The fingerprint of `bytes` behind a sequence with the fingerprint `print`. -/
def append (print : Nat) (bytes : List UInt8) : Nat :=
  (print * weight bytes + ofBytes bytes) % modulus

theorem foldl_extend_mod (print : Nat) (bytes : List UInt8) :
    bytes.foldl extend (print % modulus) = append print bytes := by
  induction bytes generalizing print with
  | nil => simp [append, weight, ofBytes]
  | cons b rest ih =>
      have hnext (n : Nat) : extend (n % modulus) b = (n * base + b.toNat) % modulus := by
        simp [extend, Nat.add_mod, Nat.mul_mod]
      have hfirst : ofBytes (b :: rest) = append b.toNat rest := by
        have h := hnext 0
        simp only [Nat.zero_mod, Nat.zero_mul, Nat.zero_add] at h
        simp only [ofBytes, List.foldl_cons, h]
        exact ih _
      rw [List.foldl_cons, hnext, ih, append, append, hfirst, append, weight]
      simp only [Nat.add_mod, Nat.mul_mod, Nat.mod_mod]
      simp only [← Nat.mul_mod, ← Nat.add_mod]
      congr 1
      rw [Nat.add_mul, Nat.mul_assoc, Nat.add_assoc]

theorem ofBytes_lt (bytes : List UInt8) : ofBytes bytes < modulus := by
  have h := foldl_extend_mod 0 bytes
  rw [Nat.zero_mod] at h
  rw [ofBytes, h]
  exact Nat.mod_lt _ (by decide)

/-- The fingerprint of two sequences one behind the other. -/
theorem ofBytes_append (first second : List UInt8) :
    ofBytes (first ++ second) = append (ofBytes first) second := by
  rw [← foldl_extend_mod, Nat.mod_eq_of_lt (ofBytes_lt first), ofBytes, List.foldl_append]
  rfl

theorem getElem?_prefixesInto_of_lt (found : Array Nat) (print : Nat) (bytes : List UInt8)
    (n : Nat) (h : n < found.size) : (prefixesInto found print bytes)[n]? = found[n]? := by
  induction bytes generalizing found print with
  | nil => simp [prefixesInto, Array.getElem?_push, Nat.ne_of_lt h]
  | cons b rest ih =>
      rw [prefixesInto, ih _ _ (by simp; omega), Array.getElem?_push, if_neg (Nat.ne_of_lt h)]

theorem getElem?_prefixesInto (found : Array Nat) (print : Nat) (bytes : List UInt8) (n : Nat)
    (h : n ≤ bytes.length) :
    (prefixesInto found print bytes)[found.size + n]?
      = some ((bytes.take n).foldl extend print) := by
  induction bytes generalizing found print n with
  | nil =>
      obtain rfl : n = 0 := Nat.le_zero.1 h
      simp [prefixesInto]
  | cons b rest ih =>
      cases n with
      | zero =>
          rw [prefixesInto, getElem?_prefixesInto_of_lt _ _ _ _ (by simp)]
          simp
      | succ n =>
          have := ih (found.push print) (extend print b) n (Nat.le_of_succ_le_succ h)
          rw [Array.size_push, Nat.add_assoc, Nat.add_comm 1 n] at this
          rw [prefixesInto, this, List.take_succ_cons, List.foldl_cons]

theorem getElem?_prefixes (bytes : List UInt8) (n : Nat) (h : n ≤ bytes.length) :
    (prefixes bytes)[n]? = some (ofBytes (bytes.take n)) := by
  simpa [prefixes, ofBytes] using getElem?_prefixesInto #[] 0 bytes n h

end Fingerprint

end TextColumns.Text
