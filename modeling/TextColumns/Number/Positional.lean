/-!
Powers of the radix of machine numbers and of decimal texts, and positional numbers.  The value of
digits is found by joining neighbours to digits of the squared radix, so that long texts take few
multiplications of large numbers.
-/

namespace TextColumns.Number

def twoTo (n : Nat) : Nat :=
  Nat.pow 2 n

def tenTo (n : Nat) : Nat :=
  Nat.pow 10 n

/-- Joins digits in pairs, the least significant one first. -/
def joinPairs (radix : Nat) : List Nat → List Nat
  | low :: high :: rest => (low + radix * high) :: joinPairs radix rest
  | rest => rest

theorem length_joinPairs (radix : Nat) (digits : List Nat) :
    (joinPairs radix digits).length = (digits.length + 1) / 2 := by
  fun_induction joinPairs radix digits with
  | case1 low high rest ih =>
      simp only [List.length_cons, ih]
      omega
  | case2 rest h =>
      match rest with
      | [] => rfl
      | [_] => simp
      | low :: high :: rest => exact absurd rfl (h low high rest)

def ofDigits (radix : Nat) (digits : List Nat) : Nat :=
  match digits with
  | [] => 0
  | [digit] => digit
  | low :: high :: rest =>
    ofDigits (radix * radix) (joinPairs radix (low :: high :: rest))
termination_by digits.length
decreasing_by
  simp only [length_joinPairs, List.length_cons]
  omega

theorem foldr_joinPairs (radix : Nat) (digits : List Nat) :
    (joinPairs radix digits).foldr (fun d n => d + radix * radix * n) 0
      = digits.foldr (fun d n => d + radix * n) 0 := by
  fun_induction joinPairs radix digits with
  | case1 low high rest ih =>
      simp only [List.foldr_cons, ih]
      simp only [Nat.mul_add, Nat.mul_assoc, Nat.add_assoc]
  | case2 rest h =>
      match rest with
      | [] | [_] => simp
      | low :: high :: rest => exact absurd rfl (h low high rest)

/-- Each digit counts the radix times what one in the place before it counts. -/
theorem ofDigits_eq_foldr (radix : Nat) (digits : List Nat) :
    ofDigits radix digits = digits.foldr (fun d n => d + radix * n) 0 := by
  fun_induction ofDigits radix digits with
  | case1 => rfl
  | case2 radix digit => simp
  | case3 radix low high rest ih => rw [ih, foldr_joinPairs]

end TextColumns.Number
