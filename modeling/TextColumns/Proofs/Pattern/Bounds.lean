import TextColumns.Proofs.Pattern.Reader

/-!
Bounds of repetitions as they are spelled: one of three characters, or numbers in decimal between
braces.  What spells them is read in the same way whatever stands behind it.
-/

namespace TextColumns.Pattern

structure SpellsBound (digits : List Char) (bound : Nat) : Prop where
  nonempty : digits ≠ []
  isDigit : ∀ c ∈ digits, c.isDigit = true
  value : boundValue digits = bound
  le : bound ≤ maxRepeat

inductive SpellsUpper (min : Nat) : List Char → Option Nat → Prop
  | same : SpellsUpper min [] (some min)
  | unbounded : SpellsUpper min [','] none
  | bounded {digits : List Char} {max : Nat} (hmax : SpellsBound digits max)
      (hordered : min ≤ max) : SpellsUpper min (',' :: digits) (some max)

inductive SpellsRepeater : List Char → (min : Nat) → (max : Option Nat) → Prop
  | star : SpellsRepeater ['*'] 0 none
  | plus : SpellsRepeater ['+'] 1 none
  | optional : SpellsRepeater ['?'] 0 (some 1)
  | braces {digits upper : List Char} {min : Nat} {max : Option Nat} (hmin : SpellsBound digits min)
      (hmax : SpellsUpper min upper max) :
      SpellsRepeater ('\x7b' :: (digits ++ (upper ++ ['\x7d']))) min max

variable {input after : Input} {tail : List Char}

theorem takeDigits_append {digits : List Char} (hdigits : ∀ c ∈ digits, c.isDigit = true)
    (htail : tail.head?.all (!·.isDigit) = true) (offset : Nat) :
    ∃ further, Input.takeDigits (digits ++ tail) offset = (digits, further) ∧
      further.rest = tail := by
  induction digits generalizing offset with
  | nil =>
      cases tail with
      | nil => exact ⟨_, rfl, rfl⟩
      | cons c rest =>
          have hc : c.isDigit = false := by simpa using htail
          exact ⟨⟨c :: rest, offset⟩, by simp [Input.takeDigits, hc], rfl⟩
  | cons c digits ih =>
      obtain ⟨hc, hdigits⟩ := List.forall_mem_cons.mp hdigits
      obtain ⟨further, htake, hfurther⟩ := ih hdigits (offset + 1)
      refine ⟨further, ?_, hfurther⟩
      rw [List.cons_append, Input.takeDigits, if_pos hc, htake]

namespace SpellsBound

variable {digits : List Char} {bound : Nat}

theorem head?_ne (hspells : SpellsBound digits bound) {c : Char} (hc : c.isDigit = false) :
    (digits ++ tail).head? ≠ some c := by
  obtain ⟨d, rest, rfl⟩ := List.exists_cons_of_ne_nil hspells.nonempty
  have hd := hspells.isDigit d List.mem_cons_self
  intro hhead
  rw [Option.some.inj hhead, hc] at hd
  cases hd

theorem read (hspells : SpellsBound digits bound) (position : Nat)
    (hrest : input.rest = digits ++ tail) (htail : tail.head?.all (!·.isDigit) = true) :
    ∃ further, further.rest = tail ∧ readBound position input = .ok (bound, further) := by
  obtain ⟨hnonempty, hdigits, hvalue, hle⟩ := hspells
  obtain ⟨further, htake, hfurther⟩ := takeDigits_append hdigits htail input.offset
  have hfits : ¬ maxBoundText < bound := by
    simp only [maxRepeat] at hle
    simp only [maxBoundText]
    omega
  refine ⟨further, hfurther, ?_⟩
  simp only [readBound, hrest, htake, hvalue, List.isEmpty_eq_false_iff.mpr hnonempty,
    if_neg hfits, if_neg (Nat.not_lt.mpr hle), Bool.false_eq_true, if_false]

end SpellsBound

namespace SpellsUpper

variable {upper : List Char} {min : Nat} {max : Option Nat}

theorem ordered (hspells : SpellsUpper min upper max) : max.any (· < min) = false := by
  cases hspells with
  | same => simp
  | unbounded => rfl
  | bounded _ hordered => simpa using hordered

theorem head?_all (hspells : SpellsUpper min upper max) :
    (upper ++ '\x7d' :: tail).head?.all (!·.isDigit) = true := by
  cases hspells <;> rfl

theorem read (hspells : SpellsUpper min upper max) (position : Nat)
    (hrest : input.rest = upper ++ '\x7d' :: tail) :
    ∃ further, further.rest = '\x7d' :: tail ∧
      readUpper position min input = .ok (max, further) := by
  rw [readUpper]
  cases hspells with
  | same =>
      have hcomma : input.rest.head? ≠ some ',' := by
        rw [hrest]
        exact nofun
      exact ⟨input, hrest, by rw [Input.eat_other hcomma]⟩
  | unbounded =>
      have htail : input.tail.rest = '\x7d' :: tail := Input.tail_rest hrest
      refine ⟨input.tail, htail, ?_⟩
      rw [Input.eat_head hrest]
      dsimp only
      rw [htail, if_pos (by rfl)]
  | @bounded digits max hmax =>
      have htail : input.tail.rest = digits ++ '\x7d' :: tail := Input.tail_rest hrest
      have hbrace : '\x7d'.isDigit = false := rfl
      obtain ⟨further, hfurther, hread⟩ := hmax.read position htail rfl
      refine ⟨further, hfurther, ?_⟩
      rw [Input.eat_head hrest]
      dsimp only
      rw [htail, if_neg fun heq => hmax.head?_ne hbrace (eq_of_beq heq), hread]

end SpellsUpper

theorem SpellsRepeater.read {spelled : List Char} {min : Nat} {max : Option Nat}
    (hspells : SpellsRepeater spelled min max) (position : Nat)
    (hrest : input.rest = spelled ++ tail) :
    ∃ c rest kind further, input.rest = c :: rest ∧ Repeater.of? c = some kind ∧
      further.rest = tail ∧ readRepeater kind position input.tail = .ok ((min, max), further) := by
  cases hspells with
  | star | plus | optional =>
      exact ⟨_, _, _, input.tail, hrest, rfl, Input.tail_rest hrest, rfl⟩
  | braces hmin hmax =>
      rw [List.cons_append, List.append_assoc, List.append_assoc, List.singleton_append] at hrest
      obtain ⟨upper, hupper, hreadMin⟩ :=
        hmin.read position (Input.tail_rest hrest) hmax.head?_all
      obtain ⟨closing, hclosing, hreadMax⟩ := hmax.read position hupper
      refine ⟨_, _, .braces, closing.tail, hrest, rfl, Input.tail_rest hclosing, ?_⟩
      simp only [readRepeater, readBraces, hreadMin, hreadMax, Input.eat_head hclosing,
        hmax.ordered, Bool.false_eq_true, if_false]

section

variable {position : Nat}

theorem takeDigits_spec (rest : List Char) (offset : Nat) :
    rest = (Input.takeDigits rest offset).1 ++ (Input.takeDigits rest offset).2.rest ∧
      ∀ c ∈ (Input.takeDigits rest offset).1, c.isDigit = true := by
  induction rest generalizing offset with
  | nil => exact ⟨rfl, List.forall_mem_nil _⟩
  | cons c rest ih =>
      obtain ⟨hrest, hdigits⟩ := ih (offset + 1)
      rw [Input.takeDigits]
      by_cases hc : c.isDigit = true
      · rw [if_pos hc]
        exact ⟨congrArg (c :: ·) hrest, List.forall_mem_cons.mpr ⟨hc, hdigits⟩⟩
      · rw [if_neg hc]
        exact ⟨rfl, List.forall_mem_nil _⟩

theorem spells_of_readBound {bound : Nat} (hread : readBound position input = .ok (bound, after)) :
    ∃ digits, SpellsBound digits bound ∧ input.rest = digits ++ after.rest := by
  obtain ⟨hrest, hdigits⟩ := takeDigits_spec input.rest input.offset
  revert hread
  fun_cases readBound position input with
  | case1 | case2 | case3 => intro hread; cases hread
  | case4 digits next htaken value hoverflow hnonempty hle =>
      intro hread
      obtain ⟨rfl, rfl⟩ := Prod.mk.inj (Except.ok.inj hread)
      rw [htaken] at hrest hdigits
      exact ⟨digits, ⟨fun hnil => hnonempty (List.isEmpty_iff.mpr hnil), hdigits, rfl,
        Nat.le_of_not_lt hle⟩, hrest⟩

theorem spells_of_readUpper {min : Nat} {max : Option Nat}
    (hread : readUpper position min input = .ok (max, after))
    (hordered : ∀ bound ∈ max, min ≤ bound) :
    ∃ upper, SpellsUpper min upper max ∧ input.rest = upper ++ after.rest := by
  revert hread
  fun_cases readUpper position min input with
  | case1 =>
      intro hread
      cases hread
      exact ⟨[], .same, rfl⟩
  | case2 next hcomma =>
      intro hread
      cases hread
      exact ⟨[','], .unbounded, Input.rest_of_eat hcomma⟩
  | case3 => intro hread; cases hread
  | case4 next hcomma hclosing bound last hmax =>
      intro hread
      cases hread
      obtain ⟨digits, hdigits, hrest⟩ := spells_of_readBound hmax
      rw [Input.rest_of_eat hcomma]
      exact ⟨',' :: digits, .bounded hdigits (hordered bound rfl), congrArg (',' :: ·) hrest⟩

theorem spells_of_readBraces {bounds : Nat × Option Nat}
    (hread : readBraces position input = .ok (bounds, after)) :
    ∃ spelled, SpellsRepeater ('\x7b' :: spelled) bounds.1 bounds.2 ∧
      input.rest = spelled ++ after.rest := by
  revert hread
  fun_cases readBraces position input with
  | case1 | case2 | case3 | case4 => intro hread; cases hread
  | case5 min next hmin max last hmax behind hclosing hordered =>
      intro hread
      cases hread
      have hordered : ∀ bound ∈ max, min ≤ bound := by
        simpa [Option.any_eq_false] using hordered
      obtain ⟨digits, hdigits, hrest⟩ := spells_of_readBound hmin
      obtain ⟨upper, hupper, hbehind⟩ := spells_of_readUpper hmax hordered
      refine ⟨_, .braces hdigits hupper, ?_⟩
      rw [hrest, hbehind, Input.rest_of_eat hclosing]
      simp

theorem spells_of_readRepeater {c : Char} {kind : Repeater} (hkind : Repeater.of? c = some kind)
    {bounds : Nat × Option Nat} (hread : readRepeater kind position input = .ok (bounds, after)) :
    ∃ spelled, SpellsRepeater (c :: spelled) bounds.1 bounds.2 ∧
      input.rest = spelled ++ after.rest := by
  unfold Repeater.of? at hkind
  split at hkind
  · cases hkind
    cases hread
    exact ⟨[], .star, rfl⟩
  · cases hkind
    cases hread
    exact ⟨[], .plus, rfl⟩
  · cases hkind
    cases hread
    exact ⟨[], .optional, rfl⟩
  · cases hkind
    exact spells_of_readBraces hread
  · cases hkind

end

end TextColumns.Pattern
