import TextColumns.Basic

namespace TextColumns

/-- A condition on a range of indices that keeps holding once it does. -/
def Keeps (after : Nat → Bool) (low high : Nat) : Prop :=
  ∀ i j, low ≤ i → i ≤ j → j < high → after i = true → after j = true

theorem bisect_mem {after : Nat → Bool} {low high : Nat} (hle : low ≤ high) :
    low ≤ bisect after low high ∧ bisect after low high ≤ high := by
  fun_induction bisect after low high with
  | case1 low high hlt middle hafter ih =>
      have hmiddle : low ≤ middle ∧ middle < high := by omega
      obtain ⟨hlow, hhigh⟩ := ih hmiddle.1
      exact ⟨hlow, by omega⟩
  | case2 low high hlt middle hbefore ih =>
      have hmiddle : low ≤ middle ∧ middle < high := by omega
      obtain ⟨hlow, hhigh⟩ := ih hmiddle.2
      exact ⟨by omega, hhigh⟩
  | case3 low high hge => exact ⟨Nat.le_refl _, hle⟩

theorem bisect_le_iff {after : Nat → Bool} {low high i : Nat} (hkeeps : Keeps after low high)
    (hlow : low ≤ i) (hhigh : i < high) :
    bisect after low high ≤ i ↔ after i = true := by
  fun_induction bisect after low high with
  | case1 low high hlt middle hafter ih =>
      have hmiddle : low ≤ middle ∧ middle < high := by omega
      have hfirst : Keeps after low middle := fun i j hi hij hj => hkeeps i j hi hij (by omega)
      by_cases hi : i < middle
      · exact ih hfirst hlow hi
      · have hplace : bisect after low middle ≤ middle := (bisect_mem hmiddle.1).2
        exact iff_of_true (by omega) (hkeeps middle i hmiddle.1 (by omega) hhigh hafter)
  | case2 low high hlt middle hbefore ih =>
      have hmiddle : low ≤ middle ∧ middle < high := by omega
      have hsecond : Keeps after (middle + 1) high := fun i j hi => hkeeps i j (by omega)
      by_cases hi : middle < i
      · exact ih hsecond hi hhigh
      · have hplace : middle + 1 ≤ bisect after (middle + 1) high := (bisect_mem hmiddle.2).1
        refine iff_of_false (by omega) fun hafter => hbefore ?_
        exact hkeeps i middle hlow (by omega) hmiddle.2 hafter
  | case3 low high hge => omega

theorem getElem?_bisect {entries : Array α} {p : α → Bool} {after : Nat → Bool}
    (hafter : ∀ i entry, entries[i]? = some entry → after i = p entry)
    (hlast : entries.toList.Pairwise fun a b => p a = true → p b = true) :
    entries[bisect after 0 entries.size]? = entries.toList.find? p := by
  have hentry {i : Nat} (hi : i < entries.size) : after i = p entries[i] :=
    hafter i _ (Array.getElem?_eq_getElem hi)
  have hkeeps : Keeps after 0 entries.size := by
    intro i j _ hij hj hi
    have hi' := Nat.lt_of_le_of_lt hij hj
    rcases Nat.lt_or_eq_of_le hij with hlt | rfl
    · rw [hentry hi'] at hi
      rw [hentry hj]
      exact List.pairwise_iff_getElem.mp hlast i j hi' hj hlt hi
    · exact hi
  have hplace {i : Nat} (hi : i < entries.size) :
      bisect after 0 entries.size ≤ i ↔ p entries[i] = true := by
    rw [bisect_le_iff hkeeps (Nat.zero_le i) hi, hentry hi]
  rcases Nat.lt_or_ge (bisect after 0 entries.size) entries.size with hlt | hge
  · rw [Array.getElem?_eq_getElem hlt]
    refine (List.find?_eq_some_iff_getElem.mpr ⟨(hplace hlt).mp (Nat.le_refl _), ?_⟩).symm
    refine ⟨_, hlt, rfl, fun j hj => ?_⟩
    rw [Bool.not_eq_true', Bool.eq_false_iff]
    intro hp
    exact Nat.not_le_of_lt hj ((hplace (Nat.lt_trans hj hlt)).mpr hp)
  · rw [Array.getElem?_eq_none hge]
    refine (List.find?_eq_none.mpr fun entry hentry hp => ?_).symm
    obtain ⟨i, hi, rfl⟩ := List.mem_iff_getElem.mp hentry
    exact Nat.not_lt_of_le hge (Nat.lt_of_le_of_lt ((hplace hi).mpr hp) hi)

/-- The first entry that meets a condition tells of all, when those behind one fail another. -/
theorem any_find? {entries : List α} {p q : α → Bool}
    (hfirst : entries.Pairwise fun a b => p a = true → q b = false) :
    (entries.find? p).any q = entries.any fun entry => p entry && q entry := by
  induction entries with
  | nil => rfl
  | cons entry rest ih =>
      obtain ⟨hentry, hrest⟩ := List.pairwise_cons.mp hfirst
      rw [List.find?_cons, List.any_cons]
      cases hp : p entry with
      | false => exact ih hrest
      | true =>
          have hnone : (rest.any fun other => p other && q other) = false := by
            rw [List.any_eq_false]
            intro other hother
            rw [hentry other hother hp, Bool.and_false]
            exact Bool.false_ne_true
          rw [hnone, Bool.true_and, Bool.or_false]
          rfl

end TextColumns
