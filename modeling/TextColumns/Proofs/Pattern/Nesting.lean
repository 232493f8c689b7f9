import TextColumns.Proofs.Pattern.Fragment
import TextColumns.Proofs.Search.Explore
import Mathlib.Data.Set.Insert

/-!
Groups in programs are opened and closed like brackets.  Every address of a fragment is labelled with
the groups that are open there, and each step of a thread leads from one label to another, until the
fragment is left with the groups open that were so when it was entered.
-/

namespace TextColumns

open Search (moves)

/-- How an instruction changes the groups that are open, of which the innermost comes first. -/
inductive Instruction.Changes : Instruction → (before after : List Nat) → Prop
  | opens {k : Nat} {opened : List Nat} : Changes (.save (2 * k)) opened (k :: opened)
  | closes {k : Nat} {opened : List Nat} : Changes (.save (2 * k + 1)) (k :: opened) opened
  | keeps {instruction : Instruction} {opened : List Nat}
      (hsave : ∀ slot, instruction ≠ .save slot) (haccept : instruction ≠ .accept) :
      Changes instruction opened opened

namespace Pattern

/-- An address with the groups that are open there. -/
abbrev Label := Nat × List Nat

def Label.LeadsTo (program : Program) (labels : Set Label) (label : Label) : Prop :=
  ∃ instruction after, program.instructions[label.1]? = some instruction ∧
    instruction.Changes label.2 after ∧
    ∀ cursor, ∀ place ∈ moves program cursor label.1 instruction, (place.1, after) ∈ labels

/-- Labels for a part of a program with one way in and one way out. -/
structure Labelling (program : Program) (entry exit : Label) (labels : Set Label) : Prop where
  entered : entry ∈ insert exit labels
  closed : ∀ label ∈ labels, label.LeadsTo program (insert exit labels)

/-- Whether there are labels for all that lies between two labels. -/
def Nests (program : Program) (entry exit : Label) : Prop :=
  ∃ labels, Labelling program entry exit labels

variable {program : Program} {labels others : Set Label} {entry middle exit first second : Label}

theorem Label.LeadsTo.mono {label : Label} (hleads : label.LeadsTo program labels)
    (hsubset : labels ⊆ others) : label.LeadsTo program others := by
  obtain ⟨instruction, after, hinstruction, hchanges, hplaces⟩ := hleads
  exact ⟨instruction, after, hinstruction, hchanges, fun cursor place hplace =>
    hsubset (hplaces cursor place hplace)⟩

section Steps

variable {address : Nat} {opened after : List Nat}

theorem leadsTo_next {instruction : Instruction}
    (hinstruction : program.instructions[address]? = some instruction)
    (hchanges : instruction.Changes opened after)
    (hjump : ∀ target, instruction ≠ .jump target)
    (hsplit : ∀ primary secondary, instruction ≠ .split primary secondary) :
    Label.LeadsTo program {(address + 1, after)} (address, opened) := by
  refine ⟨instruction, after, hinstruction, hchanges, fun cursor place hplace => ?_⟩
  rw [Search.address_of_mem_moves hjump hsplit hplace]
  exact rfl

theorem leadsTo_jump {target : Nat}
    (hinstruction : program.instructions[address]? = some (.jump target)) :
    Label.LeadsTo program {(target, opened)} (address, opened) := by
  refine ⟨_, opened, hinstruction, .keeps nofun nofun, fun cursor place hplace => ?_⟩
  rw [List.mem_singleton.mp hplace]
  exact rfl

theorem leadsTo_split {primary secondary : Nat}
    (hinstruction : program.instructions[address]? = some (.split primary secondary)) :
    Label.LeadsTo program {(primary, opened), (secondary, opened)} (address, opened) := by
  refine ⟨_, opened, hinstruction, .keeps nofun nofun, fun cursor place hplace => ?_⟩
  rcases List.mem_cons.mp hplace with rfl | hplace
  · exact .inl rfl
  · rw [List.mem_singleton.mp hplace]
    exact .inr rfl

theorem leadsTo_fork {greedy : Bool} {body exit : Nat}
    (hinstruction : program.instructions[address]? = some (fork greedy body exit)) :
    Label.LeadsTo program {(body, opened), (exit, opened)} (address, opened) := by
  cases greedy with
  | true => exact leadsTo_split hinstruction
  | false => exact (leadsTo_split hinstruction).mono (Set.pair_comm _ _).subset

end Steps

namespace Nests

theorem nothing (label : Label) : Nests program label label :=
  ⟨∅, .inl rfl, fun _ hlabel => absurd hlabel (Set.notMem_empty _)⟩

theorem one (hleads : entry.LeadsTo program {exit}) : Nests program entry exit := by
  refine ⟨{entry}, .inr rfl, fun label hlabel => ?_⟩
  rw [Set.mem_singleton_iff.mp hlabel]
  exact hleads.mono fun other hother => .inl hother

theorem append (hfirst : Nests program entry middle) (hsecond : Nests program middle exit) :
    Nests program entry exit := by
  obtain ⟨labels, hentry, hlabels⟩ := hfirst
  obtain ⟨others, hmiddle, hothers⟩ := hsecond
  have hothersSubset : insert exit others ⊆ insert exit (labels ∪ others) :=
    Set.insert_subset_insert Set.subset_union_right
  have hlabelsSubset : insert middle labels ⊆ insert exit (labels ∪ others) :=
    Set.insert_subset (hothersSubset hmiddle)
      (Set.subset_union_left.trans (Set.subset_insert _ _))
  refine ⟨labels ∪ others, hlabelsSubset hentry, ?_⟩
  rintro label (hlabel | hlabel)
  · exact (hlabels label hlabel).mono hlabelsSubset
  · exact (hothers label hlabel).mono hothersSubset

theorem either (hleads : entry.LeadsTo program {first, second})
    (hfirst : Nests program first exit) (hsecond : Nests program second exit) :
    Nests program entry exit := by
  obtain ⟨labels, hfirst, hlabels⟩ := hfirst
  obtain ⟨others, hsecond, hothers⟩ := hsecond
  have hlabelsSubset : insert exit labels ⊆ insert exit (insert entry (labels ∪ others)) :=
    Set.insert_subset_insert (Set.subset_union_left.trans (Set.subset_insert _ _))
  have hothersSubset : insert exit others ⊆ insert exit (insert entry (labels ∪ others)) :=
    Set.insert_subset_insert (Set.subset_union_right.trans (Set.subset_insert _ _))
  refine ⟨insert entry (labels ∪ others), .inr (.inl rfl), ?_⟩
  rintro label (rfl | hlabel | hlabel)
  · exact hleads.mono <| Set.insert_subset (hlabelsSubset hfirst) <|
      Set.singleton_subset_iff.mpr (hothersSubset hsecond)
  · exact (hlabels label hlabel).mono hlabelsSubset
  · exact (hothers label hlabel).mono hothersSubset

theorem loop (hleads : entry.LeadsTo program {first, exit}) (hround : Nests program first entry) :
    Nests program entry exit := by
  obtain ⟨labels, hfirst, hlabels⟩ := hround
  have hsubset : insert entry labels ⊆ insert exit (insert entry labels) := Set.subset_insert _ _
  refine ⟨insert entry labels, .inr (.inl rfl), ?_⟩
  rintro label (rfl | hlabel)
  · exact hleads.mono <| Set.insert_subset (hsubset hfirst) <|
      Set.singleton_subset_iff.mpr (.inl rfl)
  · exact (hlabels label hlabel).mono hsubset

end Nests

variable {flags : Flags}

/-- The groups that are open in front of a fragment are open again behind it, whichever way a thread
takes through it. -/
theorem Fragment.nests {node : Node} {entry exit : Nat}
    (hfragment : Fragment program flags node entry exit) (outer : List Nat) :
    Nests program (entry, outer) (exit, outer) := by
  induction hfragment generalizing outer with
  | empty | concatNil | noRound => exact .nothing _
  | literal hentry | any hentry | oneOf hentry _ | assertion hentry =>
      exact .one (leadsTo_next hentry (.keeps nofun nofun) nofun nofun)
  | @capture k body entry stop hentry _ hstop ih =>
      have hbody := ih (k :: outer)
      exact .append (.one (leadsTo_next hentry .opens nofun nofun)) <|
        .append hbody (.one (leadsTo_next hstop .closes nofun nofun))
  | group _ ih | lastBranch _ ih => exact ih outer
  | concatCons _ _ ihItem ihItems => exact (ihItem outer).append (ihItems outer)
  | branch hentry _ hstop _ ihBranch ihOthers =>
      have hbranch := (ihBranch outer).append (.one (leadsTo_jump hstop))
      exact .either (leadsTo_split hentry) hbranch (ihOthers outer)
  | round _ _ ihBody ihOthers => exact (ihBody outer).append (ihOthers outer)
  | optionalRound hentry _ _ ihBody ihOthers =>
      exact .either (leadsTo_fork hentry) ((ihBody outer).append (ihOthers outer)) (.nothing _)
  | star hentry _ hstop ih =>
      exact .loop (leadsTo_fork hentry) ((ih outer).append (.one (leadsTo_jump hstop)))
  | plus _ hstop ih => exact (ih outer).append (.loop (leadsTo_fork hstop) (ih outer))

theorem nests_of_compile {text : String} (hcompile : compile text flags = .ok program) :
    ∃ exit, program.instructions[exit]? = some .accept ∧
      Nests program (program.start, []) (exit, []) := by
  obtain ⟨parsed, -, -, -, exit, hfragment, haccept⟩ := compile_spec hcompile
  exact ⟨exit, haccept, hfragment.nests []⟩

end Pattern

end TextColumns
