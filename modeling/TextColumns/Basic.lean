/-!
What the other modules count with: machine words, which wrap around or stop at the end of their
range, the sums of sizes, and the search by halving for the place in a range of indices where a
condition starts to hold, for a condition that keeps holding once it does.
-/

namespace TextColumns

namespace Word

def count : Nat := 18446744073709551616

def greatest : Nat := 18446744073709551615

/-- The word that remains when only the lowest 64 bits are kept. -/
def wrap (n : Nat) : Nat :=
  n % count

/-- The word that remains of a difference, which wraps around below zero. -/
def difference (a b : Nat) : Nat :=
  wrap (a + (count - wrap b))

def saturate (n : Nat) : Nat :=
  min n greatest

end Word

def total : List Nat → Nat
  | [] => 0
  | size :: rest => size + total rest

@[simp] theorem total_nil : total [] = 0 := rfl

@[simp] theorem total_cons (size : Nat) (rest : List Nat) :
    total (size :: rest) = size + total rest := rfl

@[simp] theorem total_append (first second : List Nat) :
    total (first ++ second) = total first + total second := by
  induction first with
  | nil => exact (Nat.zero_add _).symm
  | cons size rest ih => rw [List.cons_append, total_cons, total_cons, ih, Nat.add_assoc]

/-- The first index from `low` below `high` at which `after` holds, and `high` if there is none. -/
def bisect (after : Nat → Bool) (low high : Nat) : Nat :=
  if low < high then
    let middle := low + (high - low) / 2
    if after middle then bisect after low middle else bisect after (middle + 1) high
  else
    low
termination_by high - low

end TextColumns
