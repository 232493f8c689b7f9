import TextColumns.Proofs.Pattern.Canonical
import TextColumns.Proofs.Pattern.Fragment
import TextColumns.Proofs.Program.Check

/-!
The program of a pattern stays inside of itself.  The code of a tree leads to no place outside of
its own two ends, names the slots of its own groups and its own entries of the class table.
-/

namespace TextColumns

/-- Whether an instruction leads to no other place than those from `low` to `high`, and names only
slots and classes that there are. -/
def Instruction.Between (program : Program) (low high : Nat) : Instruction → Prop
  | .split primary secondary =>
    (low ≤ primary ∧ primary ≤ high) ∧ low ≤ secondary ∧ secondary ≤ high
  | .jump target => low ≤ target ∧ target ≤ high
  | .save slot => slot < program.slots
  | .oneOf cls _ => cls < program.classes.size
  | .char .. | .any _ | .assertion _ => True
  | .accept => False

theorem Instruction.Between.staysInside {program : Program} {low high address : Nat}
    {instruction : Instruction} (hbetween : instruction.Between program low high)
    (hhigh : high < program.size) (haddress : address + 1 < program.size) :
    program.staysInside address instruction = true := by
  cases instruction with
  | split primary secondary =>
      obtain ⟨⟨-, hprimary⟩, -, hsecondary⟩ := hbetween
      simp only [Program.staysInside, Bool.and_eq_true, decide_eq_true_eq]
      omega
  | jump target => exact decide_eq_true (Nat.lt_of_le_of_lt hbetween.2 hhigh)
  | save slot => exact Bool.and_eq_true_iff.mpr ⟨decide_eq_true hbetween, decide_eq_true haddress⟩
  | oneOf cls fold =>
      exact Bool.and_eq_true_iff.mpr ⟨decide_eq_true hbetween, decide_eq_true haddress⟩
  | char | any | assertion => exact decide_eq_true haddress
  | accept => rfl

namespace Pattern

variable {program : Program} {flags : Flags} {low high entry middle exit : Nat}

/-- Whether all instructions from `entry` up to `exit` stay between two places. -/
def Keeps (program : Program) (low high entry exit : Nat) : Prop :=
  ∀ address, entry ≤ address → address < exit →
    ∃ instruction, program.instructions[address]? = some instruction ∧
      instruction.Between program low high

namespace Keeps

theorem nothing : Keeps program low high entry entry :=
  fun _ hentry hexit => absurd hexit (Nat.not_lt.mpr hentry)

theorem one {instruction : Instruction}
    (hentry : program.instructions[entry]? = some instruction)
    (hbetween : instruction.Between program low high) :
    Keeps program low high entry (entry + 1) := by
  intro address hle hlt
  obtain rfl : address = entry := Nat.le_antisymm (Nat.le_of_lt_succ hlt) hle
  exact ⟨instruction, hentry, hbetween⟩

theorem append (hfirst : Keeps program low high entry middle)
    (hsecond : Keeps program low high middle exit) : Keeps program low high entry exit := by
  intro address hle hlt
  by_cases hmiddle : address < middle
  · exact hfirst address hle hmiddle
  · exact hsecond address (Nat.le_of_not_lt hmiddle) hlt

end Keeps

theorem between_fork {greedy : Bool} {body : Nat} (hbody : low ≤ body ∧ body ≤ high)
    (hexit : low ≤ exit ∧ exit ≤ high) : (fork greedy body exit).Between program low high := by
  cases greedy with
  | true => exact ⟨hbody, hexit⟩
  | false => exact ⟨hexit, hbody⟩

theorem Fragment.le {node : Node} (hfragment : Fragment program flags node entry exit) :
    entry ≤ exit := by
  induction hfragment <;> omega

theorem Fragment.keeps {node : Node} (hfragment : Fragment program flags node entry exit)
    (hslots : ∀ k ∈ node.captures, 2 * k + 1 < program.slots) (hlow : low ≤ entry)
    (hhigh : exit ≤ high) : Keeps program low high entry exit := by
  -- The bounds stay those of the whole tree, since a choice or a jump leads out of its own part.
  induction hfragment with
  | empty | concatNil | noRound => exact .nothing
  | literal hentry | any hentry | assertion hentry => exact .one hentry trivial
  | oneOf hentry hclass => exact .one hentry (Array.getElem?_eq_some_iff.mp hclass).1
  | @capture k body entry stop hentry hbody hstop ih =>
      obtain ⟨hslot, hslots⟩ := List.forall_mem_cons.mp hslots
      have hfirst : 2 * k < program.slots := Nat.lt_trans (Nat.lt_succ_self _) hslot
      exact (Keeps.one hentry hfirst).append
        ((ih hslots (by omega) (by omega)).append (.one hstop hslot))
  | group _ ih => exact ih hslots hlow hhigh
  | concatCons hitem hitems ihItem ihItems =>
      have hnext := hitem.le
      have hexit := hitems.le
      obtain ⟨hfirst, hothers⟩ := List.forall_mem_append.mp hslots
      exact (ihItem hfirst hlow (by omega)).append (ihItems hothers (by omega) hhigh)
  | lastBranch _ ih =>
      exact ih (fun k hk => hslots k (List.mem_append_left _ hk)) hlow hhigh
  | @branch branch other others entry stop exit hentry hbranch hstop hothers ihBranch ihOthers =>
      have hnext := hbranch.le
      have hexit := hothers.le
      obtain ⟨hfirst, hlater⟩ := List.forall_mem_append.mp hslots
      have hsplit : Keeps program low high entry (entry + 1) :=
        .one hentry ⟨⟨by omega, by omega⟩, by omega, by omega⟩
      have hjump : Keeps program low high stop (stop + 1) := .one hstop ⟨by omega, hhigh⟩
      exact (hsplit.append (ihBranch hfirst (by omega) (by omega))).append
        (hjump.append (ihOthers hlater (by omega) hhigh))
  | round hbody hothers ihBody ihOthers =>
      have hnext := hbody.le
      have hexit := hothers.le
      exact (ihBody hslots hlow (by omega)).append (ihOthers hslots (by omega) hhigh)
  | @optionalRound body max greedy entry next exit hentry hbody hothers ihBody ihOthers =>
      have hnext := hbody.le
      have hexit := hothers.le
      have hfork : Keeps program low high entry (entry + 1) :=
        .one hentry (between_fork ⟨by omega, by omega⟩ ⟨by omega, hhigh⟩)
      exact (hfork.append (ihBody hslots (by omega) (by omega))).append
        (ihOthers hslots (by omega) hhigh)
  | @star body greedy entry stop hentry hbody hstop ih =>
      have hstopLe := hbody.le
      have hfork : Keeps program low high entry (entry + 1) :=
        .one hentry (between_fork ⟨by omega, by omega⟩ ⟨by omega, hhigh⟩)
      have hjump : Keeps program low high stop (stop + 1) := .one hstop ⟨hlow, by omega⟩
      exact (hfork.append (ih hslots (by omega) (by omega))).append hjump
  | @plus body greedy entry stop hbody hstop ih =>
      have hstopLe := hbody.le
      have hfork : Keeps program low high stop (stop + 1) :=
        .one hstop (between_fork ⟨hlow, by omega⟩ ⟨by omega, hhigh⟩)
      exact (ih hslots hlow (by omega)).append hfork

section Programs

variable {parsed : Parsed} (hnode : parsed.node.WellFormed)
  (hgroups : ∀ k ∈ parsed.node.captures, k ≤ parsed.groups)

include hnode

theorem size_program (flags : Flags) : (parsed.program flags).size = parsed.node.codeSize + 3 := by
  simp [Program.size, Parsed.program, length_code hnode]

theorem fragment_program (flags : Flags) :
    StandsAt (parsed.program flags).instructions 0 [.save 0] ∧
      Fragment (parsed.program flags) flags parsed.node 1 (1 + parsed.node.codeSize) ∧
      StandsAt (parsed.program flags).instructions (1 + parsed.node.codeSize)
        [.save 1, .accept] := by
  have hinstructions : StandsAt (parsed.program flags).instructions 0
      ([.save 0] ++ (parsed.node.code flags 1 0 ++ [.save 1, .accept])) := standsAt_toList _
  have hclasses : StandsAt (parsed.program flags).classes 0 parsed.node.classes := standsAt_toList _
  simp only [standsAt_append, length_code hnode] at hinstructions
  obtain ⟨hstart, hcode, hstop⟩ := hinstructions
  exact ⟨hstart, compiles_of_wellFormed hnode 1 0 hcode hclasses, hstop⟩

include hgroups

theorem keeps_program (flags : Flags) :
    Keeps (parsed.program flags) 1 (1 + parsed.node.codeSize) 1 (1 + parsed.node.codeSize) := by
  obtain ⟨-, hfragment, -⟩ := fragment_program hnode flags
  refine hfragment.keeps (fun k hk => ?_) (Nat.le_refl _) (Nat.le_refl _)
  have hle := hgroups k hk
  have hslots : (parsed.program flags).slots = 2 * (parsed.groups + 1) := rfl
  omega

theorem program_cases (flags : Flags) {address : Nat} {instruction : Instruction}
    (hinstruction : (parsed.program flags).instructions[address]? = some instruction) :
    (address = 0 ∧ instruction = .save 0) ∨
      (address ≤ parsed.node.codeSize ∧
        instruction.Between (parsed.program flags) 1 (1 + parsed.node.codeSize)) ∨
      (address = 1 + parsed.node.codeSize ∧ instruction = .save 1) ∨
      (address = parsed.node.codeSize + 2 ∧ instruction = .accept) := by
  obtain ⟨hstart, -, hstop⟩ := fragment_program hnode flags
  have hsize := size_program hnode flags
  have hlt : address < (parsed.program flags).size := (Array.getElem?_eq_some_iff.mp hinstruction).1
  rw [standsAt_cons, standsAt_cons, Nat.add_right_comm] at hstop
  by_cases hfirst : address = 0
  · subst hfirst
    exact .inl ⟨rfl, Option.some.inj (hinstruction.symm.trans (standsAt_cons.mp hstart).1)⟩
  by_cases hcode : address ≤ parsed.node.codeSize
  · obtain ⟨found, hfound, hbetween⟩ :=
      keeps_program hnode hgroups flags address (by omega) (by omega)
    obtain rfl : found = instruction := Option.some.inj (hfound.symm.trans hinstruction)
    exact .inr (.inl ⟨hcode, hbetween⟩)
  by_cases hlast : address = 1 + parsed.node.codeSize
  · subst hlast
    exact .inr (.inr (.inl ⟨rfl, Option.some.inj (hinstruction.symm.trans hstop.1)⟩))
  · obtain rfl : address = parsed.node.codeSize + 2 := by omega
    have haccept := hstop.2.1
    rw [show 1 + 1 + parsed.node.codeSize = parsed.node.codeSize + 2 by omega] at haccept
    exact .inr (.inr (.inr ⟨rfl, Option.some.inj (hinstruction.symm.trans haccept)⟩))

theorem acceptCount_program (flags : Flags) : (parsed.program flags).acceptCount = 1 := by
  have hcode : (parsed.node.code flags 1 0).countP (· == .accept) = 0 := by
    rw [List.countP_eq_zero]
    intro instruction hmem haccept
    obtain ⟨i, hi⟩ := List.mem_iff_getElem?.mp hmem
    have hlt : i < (parsed.node.code flags 1 0).length := (List.getElem?_eq_some_iff.mp hi).1
    have hinstruction : (parsed.program flags).instructions[i + 1]? = some instruction := by
      rw [Parsed.program, List.getElem?_toArray, List.getElem?_cons_succ,
        List.getElem?_append_left hlt, hi]
    rw [length_code hnode] at hlt
    obtain ⟨found, hfound, hbetween⟩ :=
      keeps_program hnode hgroups flags (i + 1) (by omega) (by omega)
    rw [hinstruction] at hfound
    rw [← Option.some.inj hfound, eq_of_beq haccept] at hbetween
    exact hbetween
  simp [Program.acceptCount, Parsed.program, List.countP_append, hcode]

theorem check_program (flags : Flags) : (parsed.program flags).check = .ok () := by
  have hsize := size_program hnode flags
  have hslots : (parsed.program flags).slots = 2 * (parsed.groups + 1) := rfl
  have hstart : (parsed.program flags).start = 0 := rfl
  refine Program.check_eq_ok_iff.mpr ⟨by omega, by omega, by omega,
    acceptCount_program hnode hgroups flags, fun address instruction hinstruction => ?_⟩
  rcases program_cases hnode hgroups flags hinstruction with
    ⟨rfl, rfl⟩ | ⟨haddress, hbetween⟩ | ⟨rfl, rfl⟩ | ⟨-, rfl⟩
  · simp only [Program.staysInside, Bool.and_eq_true, decide_eq_true_eq]
    omega
  · exact hbetween.staysInside (by omega) (by omega)
  · simp only [Program.staysInside, Bool.and_eq_true, decide_eq_true_eq]
    omega
  · rfl

theorem forward_program (flags : Flags) {instruction : Instruction}
    (hmem : instruction ∈ (parsed.program flags).instructions) :
    instruction ≠ .split 0 0 ∧ instruction ≠ .jump 0 := by
  obtain ⟨address, hinstruction⟩ := Array.mem_iff_getElem?.mp hmem
  rcases program_cases hnode hgroups flags hinstruction with
    ⟨-, rfl⟩ | ⟨-, hbetween⟩ | ⟨-, rfl⟩ | ⟨-, rfl⟩
  · exact ⟨nofun, nofun⟩
  · refine ⟨?_, ?_⟩
    · rintro rfl
      exact Nat.not_succ_le_zero 0 hbetween.1.1
    · rintro rfl
      exact Nat.not_succ_le_zero 0 hbetween.1
  · exact ⟨nofun, nofun⟩
  · exact ⟨nofun, nofun⟩

end Programs

theorem captures_le_of_parse {text : String} {parsed : Parsed} (hparse : parse text = .ok parsed) :
    ∀ k ∈ parsed.node.captures, k ≤ parsed.groups := by
  obtain ⟨input, hread⟩ := exists_readPattern_of_parse hparse
  have hstart : Level.start.Fits ([] : List OpenGroup).length := .start 0
  have hcaptures := (canonical_of_readPattern hstart trivial rfl (Nat.zero_le _) hread).captures
  intro k hk
  rw [hcaptures, List.mem_range'_1] at hk
  omega

theorem groups_le_of_parse {text : String} {parsed : Parsed} (hparse : parse text = .ok parsed) :
    parsed.groups ≤ maxGroups := by
  obtain ⟨input, hread⟩ := exists_readPattern_of_parse hparse
  have hstart : Level.start.Fits ([] : List OpenGroup).length := .start 0
  exact (canonical_of_readPattern hstart trivial rfl (Nat.zero_le _) hread).groups_le

end Pattern

end TextColumns
