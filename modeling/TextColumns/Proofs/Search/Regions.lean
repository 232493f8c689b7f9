import TextColumns.Proofs.Search.Explore

/-!
Parts of a program.  `LeadsBetween` says where the instructions of a part lead, `Retains` that a
part is not left at a place of the text without consuming a character.
-/

namespace TextColumns.Search

open Text (Cursor)

variable {program : Program} {cursor : Cursor}

def LeadsBetween (program : Program) (cursor : Cursor) (low high entry exit : Nat) : Prop :=
  ∀ address instruction, entry ≤ address → address < exit →
    program.instructions[address]? = some instruction →
    ∀ place ∈ moves program cursor address instruction, low ≤ place.1 ∧ place.1 ≤ high

namespace LeadsBetween

variable {low high entry middle exit address : Nat}

theorem nothing : LeadsBetween program cursor low high entry entry :=
  fun _ _ hle hlt => absurd hlt (Nat.not_lt.mpr hle)

theorem one {instruction : Instruction}
    (hinstruction : program.instructions[address]? = some instruction)
    (hplaces : ∀ place ∈ moves program cursor address instruction,
      low ≤ place.1 ∧ place.1 ≤ high) :
    LeadsBetween program cursor low high address (address + 1) := by
  intro other otherInstruction hle hlt hother
  obtain rfl : other = address := Nat.le_antisymm (Nat.le_of_lt_succ hlt) hle
  obtain rfl := Option.some.inj (hinstruction.symm.trans hother)
  exact hplaces

theorem append (hfirst : LeadsBetween program cursor low high entry middle)
    (hsecond : LeadsBetween program cursor low high middle exit) :
    LeadsBetween program cursor low high entry exit := by
  intro address instruction hle hlt hinstruction
  rcases Nat.lt_or_ge address middle with hbefore | hbehind
  · exact hfirst address instruction hle hbefore hinstruction
  · exact hsecond address instruction hbehind hlt hinstruction

theorem mono {least greatest : Nat} (hleads : LeadsBetween program cursor low high entry exit)
    (hlow : least ≤ low) (hhigh : high ≤ greatest) :
    LeadsBetween program cursor least greatest entry exit := by
  intro address instruction hle hlt hinstruction place hplace
  obtain ⟨hplaceLow, hplaceHigh⟩ := hleads address instruction hle hlt hinstruction place hplace
  exact ⟨Nat.le_trans hlow hplaceLow, Nat.le_trans hplaceHigh hhigh⟩

end LeadsBetween

theorem LeadsBetween.next {instruction : Instruction} {low high address : Nat}
    (hinstruction : program.instructions[address]? = some instruction)
    (hjump : ∀ target, instruction ≠ .jump target)
    (hsplit : ∀ primary secondary, instruction ≠ .split primary secondary)
    (hlow : low ≤ address) (hhigh : address + 1 ≤ high) :
    LeadsBetween program cursor low high address (address + 1) :=
  .one hinstruction fun place hplace => by
    rw [address_of_mem_moves hjump hsplit hplace]
    exact ⟨Nat.le_succ_of_le hlow, hhigh⟩

theorem LeadsBetween.save {slot low high address : Nat}
    (hinstruction : program.instructions[address]? = some (.save slot)) (hlow : low ≤ address)
    (hhigh : address + 1 ≤ high) : LeadsBetween program cursor low high address (address + 1) :=
  .next hinstruction nofun nofun hlow hhigh

theorem LeadsBetween.jump {low high address target : Nat}
    (hinstruction : program.instructions[address]? = some (.jump target)) (hlow : low ≤ target)
    (hhigh : target ≤ high) : LeadsBetween program cursor low high address (address + 1) :=
  .one hinstruction fun _ hplace => List.mem_singleton.mp hplace ▸ ⟨hlow, hhigh⟩

theorem LeadsBetween.split {low high address primary secondary : Nat}
    (hinstruction : program.instructions[address]? = some (.split primary secondary))
    (hlowPrimary : low ≤ primary) (hhighPrimary : primary ≤ high) (hlowSecondary : low ≤ secondary)
    (hhighSecondary : secondary ≤ high) :
    LeadsBetween program cursor low high address (address + 1) :=
  .one hinstruction fun place hplace => by
    rcases List.mem_cons.mp hplace with rfl | hplace
    · exact ⟨hlowPrimary, hhighPrimary⟩
    · exact List.mem_singleton.mp hplace ▸ ⟨hlowSecondary, hhighSecondary⟩

/-- Addresses from one up to another that hold the first and are not left without consuming a
character. -/
structure Retains (program : Program) (cursor : Cursor) (entry stop : Nat)
    (inside : Nat → Prop) : Prop where
  entered : inside entry
  between : ∀ address, inside address → entry ≤ address ∧ address < stop
  closed : ∀ address instruction place, inside address →
    program.instructions[address]? = some instruction →
    place ∈ moves program cursor address instruction → place.2 = cursor → inside place.1

section Retains

variable {entry middle exit : Nat} {inside insideOther : Nat → Prop}

theorem retains_one {instruction : Instruction}
    (hinstruction : program.instructions[entry]? = some instruction)
    (hplaces : ∀ place ∈ moves program cursor entry instruction, place.2 ≠ cursor) :
    Retains program cursor entry (entry + 1) (· = entry) where
  entered := rfl
  between address hinside := hinside ▸ ⟨Nat.le_refl _, Nat.lt_succ_self _⟩
  closed address other place hinside hother hplace hcursor := by
    subst hinside
    obtain rfl := Option.some.inj (hinstruction.symm.trans hother)
    exact absurd hcursor (hplaces place hplace)

theorem Retains.widen (hretains : Retains program cursor entry middle inside)
    (hle : middle ≤ exit) : Retains program cursor entry exit inside where
  entered := hretains.entered
  between address hinside :=
    have ⟨hentry, hlt⟩ := hretains.between address hinside
    ⟨hentry, Nat.lt_of_lt_of_le hlt hle⟩
  closed := hretains.closed

theorem Retains.behind (hretains : Retains program cursor middle exit inside)
    (hle : entry ≤ middle) (hleads : LeadsBetween program cursor entry middle entry middle) :
    Retains program cursor entry exit fun address =>
      entry ≤ address ∧ address < middle ∨ inside address where
  entered := by
    rcases Nat.lt_or_eq_of_le hle with hlt | rfl
    · exact .inl ⟨Nat.le_refl _, hlt⟩
    · exact .inr hretains.entered
  between address hinside := by
    obtain ⟨-, hlt⟩ := hretains.between middle hretains.entered
    rcases hinside with hbefore | hinside
    · omega
    · have hbetween := hretains.between address hinside
      omega
  closed address instruction place hinside hinstruction hplace hcursor := by
    rcases hinside with ⟨hentry, hlt⟩ | hinside
    · obtain ⟨hlow, hhigh⟩ := hleads address instruction hentry hlt hinstruction place hplace
      rcases Nat.lt_or_eq_of_le hhigh with hbefore | heq
      · exact .inl ⟨hlow, hbefore⟩
      · exact .inr (heq ▸ hretains.entered)
    · exact .inr (hretains.closed _ _ _ hinside hinstruction hplace hcursor)

theorem Retains.either {stop : Nat}
    (hinstruction : program.instructions[entry]? = some (.split (entry + 1) middle))
    (hfirst : Retains program cursor (entry + 1) stop inside)
    (hsecond : Retains program cursor middle exit insideOther) (hle : stop ≤ middle) :
    Retains program cursor entry exit fun address =>
      address = entry ∨ inside address ∨ insideOther address where
  entered := .inl rfl
  between address hinside := by
    have hstop := hfirst.between _ hfirst.entered
    have hexit := hsecond.between _ hsecond.entered
    rcases hinside with rfl | hinside | hinside
    · omega
    · have hbetween := hfirst.between address hinside
      omega
    · have hbetween := hsecond.between address hinside
      omega
  closed address instruction place hinside hother hplace hcursor := by
    rcases hinside with rfl | hinside | hinside
    · obtain rfl := Option.some.inj (hinstruction.symm.trans hother)
      rcases List.mem_cons.mp hplace with rfl | hplace
      · exact .inr (.inl hfirst.entered)
      · exact .inr (.inr (List.mem_singleton.mp hplace ▸ hsecond.entered))
    · exact .inr (.inl (hfirst.closed _ _ _ hinside hother hplace hcursor))
    · exact .inr (.inr (hsecond.closed _ _ _ hinside hother hplace hcursor))

end Retains

end TextColumns.Search
