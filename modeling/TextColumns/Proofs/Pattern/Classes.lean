import TextColumns.Proofs.Pattern.Emission
import TextColumns.Proofs.Pattern.Tokens
import TextColumns.Proofs.Regex.Matcher

/-!
The classes of a program.  Each of them stands in the text of the pattern, as a bracket expression
or as a set with a letter of its own, and accepts what is spelled there.
-/

namespace TextColumns.Pattern

inductive SpellsSet : List Char → (negated : Bool) → List ClassItem → Prop
  | bracket {behind text : List Char} {negated : Bool} {items : List ClassItem}
      (hspells : SpellsClass behind text negated items) : SpellsSet ('[' :: text) negated items
  | named (set : NamedSet) (negated : Bool) (behind : List Char) :
      SpellsSet ('\x5c' :: set.letter negated :: behind) negated [.named set false]

/-- Whether a class accepts what is spelled somewhere in a text. -/
def StandsIn (text : List Char) (cls : CharClass) : Prop :=
  ∃ front behind negated items, text = front ++ behind ∧ SpellsSet behind negated items ∧
    ∀ c fold, cls.accepts c fold = ClassItem.accept items negated c fold

theorem standsIn_of_readAtom {text : List Char} {c : Char} {position : Nat} {input after : Input}
    {node : Node} (htext : c :: input.rest <:+ text)
    (hread : readAtom c position input = .ok (node, after)) :
    ∀ cls ∈ node.classes, StandsIn text cls := by
  obtain ⟨front, rfl⟩ := htext
  rcases spells_of_readAtom hread with ⟨-, rfl, -⟩ | ⟨spelled, hspelled, hrest⟩
  · exact nofun
  · rw [hrest]
    cases hspelled with
    | named set negated =>
        exact List.forall_mem_singleton.mpr ⟨front, _, negated, _, rfl, .named set negated _,
          accepts_ofSet_spelled (set.canonical negated) (set.covered_codeSet negated)⟩
    | @bracket _ negated items hspells =>
        obtain ⟨used, rfl, hused⟩ := hspells.exists_spelled
        have hplace : SpellsClass after.rest (used ++ [']'] ++ after.rest) negated items := by
          rw [List.append_assoc]
          exact hused after.rest
        exact List.forall_mem_singleton.mpr ⟨front, _, negated, items, rfl, .bracket hplace,
          hspells.accepts⟩
    | _ => exact nofun

theorem mem_classesOf {cls : CharClass} {nodes : List Node} :
    cls ∈ classesOf nodes ↔ ∃ node ∈ nodes, cls ∈ node.classes := by
  induction nodes with
  | nil => simp [classesOf]
  | cons node rest ih => rw [classesOf, List.mem_append, ih, List.exists_mem_cons_iff]

/-- Every class of a tree that is read from a text stands in the text. -/
theorem standsIn_of_parse {text : String} {parsed : Parsed} (hparse : parse text = .ok parsed) :
    ∀ cls ∈ parsed.node.classes, StandsIn text.toList cls := by
  have hlist {nodes : List Node}
      (hnodes : ∀ node ∈ nodes, ∀ cls ∈ node.classes, StandsIn text.toList cls) :
      ∀ cls ∈ classesOf nodes, StandsIn text.toList cls := by
    intro cls hcls
    obtain ⟨node, hnode, hcls⟩ := mem_classesOf.mp hcls
    exact hnodes node hnode cls hcls
  refine parse_induct nofun standsIn_of_readAtom (fun _ _ _ hbody => hbody) (fun _ => hlist)
    (fun _ _ => hlist) (fun body min max _ _ hbody cls hcls => ?_) (List.suffix_refl _) hparse
  obtain ⟨classes, hclasses, hcls⟩ := List.mem_flatten.mp hcls
  rw [List.eq_of_mem_replicate hclasses] at hcls
  exact hbody cls hcls

theorem compile_bracket {text : List Char} {negated : Bool} {items : List ClassItem}
    (hspells : SpellsClass [] text negated items) (flags : Flags) :
    ∃ regex cls, Regex.compile (String.ofList ('[' :: text)) flags = .ok regex ∧
      regex.program.classes = #[cls] ∧
        ∀ c fold, cls.accepts c fold = ClassItem.accept items negated c fold := by
  let pattern := String.ofList ('[' :: text)
  let set := ClassItem.codeSet items negated
  have htokens : SpellsTokens pattern.toList [.atom (.oneOf set)] := by
    rw [String.toList_ofList, ← List.append_nil ('[' :: text)]
    exact .cons (.atom (.bracket hspells)) .nil
  have hparse : parse pattern = .ok ⟨.oneOf set, 0, .none⟩ := htokens.parse rfl
  refine ⟨⟨pattern, flags, (⟨.oneOf set, 0, .none⟩ : Parsed).program (flags.union .none)⟩, _, ?_,
    rfl, hspells.accepts⟩
  rw [Regex.compile, compile_eq hparse, if_pos (by rw [Node.codeSize]; decide)]

/-- What a bracket expression spells is plain membership in its items: an expression is read just
where items are spelled, the class that is made of it accepts what some item holds, and no class of
a program comes from elsewhere. -/
theorem brackets_by_membership :
    (∀ position input node after, readAtom '[' position input = .ok (node, after) →
      ∃ negated items, SpellsClass after.rest input.rest negated items) ∧
    (∀ (input : Input) (behind : List Char) negated items,
      SpellsClass behind input.rest negated items → ∀ position, ∃ set after,
        readAtom '[' position input = .ok (.oneOf set, after) ∧ after.rest = behind ∧
          ∀ c fold, (CharClass.ofSet set).accepts c fold =
            ClassItem.accept items negated c fold) ∧
    (∀ text negated items, SpellsClass [] text negated items → ∀ flags, ∃ regex cls,
      Regex.compile (String.ofList ('[' :: text)) flags = .ok regex ∧
        regex.program.classes = #[cls] ∧
          ∀ c fold, cls.accepts c fold = ClassItem.accept items negated c fold) ∧
    ∀ pattern flags regex, Regex.compile pattern flags = .ok regex →
      ∀ cls ∈ regex.program.classes, StandsIn pattern.toList cls := by
  refine ⟨fun position input node after hread => ?_, ?_, fun _ _ _ => compile_bracket, ?_⟩
  · cases hclass : readClass position input with
    | error e =>
        rw [readAtom, hclass] at hread
        cases hread
    | ok found =>
        rw [readAtom, hclass] at hread
        cases hread
        obtain ⟨negated, items, hspells, -⟩ := spells_of_readClass hclass
        exact ⟨negated, items, hspells⟩
  · intro input behind negated items hspells position
    obtain ⟨after, hafter, hread⟩ := readClass_spelled hspells position
    refine ⟨ClassItem.codeSet items negated, after, ?_, hafter, hspells.accepts⟩
    rw [readAtom, hread]
  · intro pattern flags regex hcompile cls hcls
    obtain ⟨parsed, hparse, hprogram, -⟩ := compile_spec (Regex.program_of_compile hcompile)
    rw [hprogram] at hcls
    exact standsIn_of_parse hparse cls (by simpa [Parsed.program] using hcls)

theorem brackets_by_membership_mixed :
    let text := ['^', ']', 'A', '-', 'F', '\x5c', 'W', '-', ']']
    let items : List ClassItem := [.char ']', .range 'A' 'F', .named .wordChars true, .char '-']
    SpellsClass [] text true items ∧
      (∃ set after, readAtom '[' 0 ⟨text, 1⟩ = .ok (.oneOf set, after) ∧ after.rest = [] ∧
        (∃ negated items, SpellsClass after.rest text negated items) ∧
        ∀ c fold, (CharClass.ofSet set).accepts c fold = ClassItem.accept items true c fold) ∧
      ∃ regex cls, Regex.compile (String.ofList ('[' :: text)) Flags.none = .ok regex ∧
        regex.program.classes = #[cls] ∧ StandsIn ('[' :: text) cls ∧
          cls.accepts 'b' false = true ∧ cls.accepts 'b' true = false := by
  intro text items
  obtain ⟨hspelled, haccepts, hcompiles, hclasses⟩ := brackets_by_membership
  have hspells : SpellsClass [] text true items :=
    .negated <| .item (.char (.plain (by decide) : SpellsChar [']'] _) nofun) (.inl rfl) <|
      .item (.range (.plain (by decide)) (.plain (by decide)) (by decide) (by decide))
        (.inr (by decide)) <|
      .item (.named .wordChars true) (.inr (by decide)) <|
      .item (.char (.plain (by decide)) nofun) (.inr (by decide)) .close
  obtain ⟨set, after, hread, hafter, hset⟩ := haccepts ⟨text, 1⟩ [] true items hspells 0
  obtain ⟨regex, cls, hcompile, hcls, hmembership⟩ := hcompiles text true items hspells Flags.none
  refine ⟨hspells, ⟨set, after, hread, hafter, hspelled 0 _ _ after hread, hset⟩, regex, cls,
    hcompile, hcls, ?_, ?_, ?_⟩
  · rw [← String.toList_ofList (l := '[' :: text)]
    exact hclasses _ _ _ hcompile cls (by rw [hcls]; exact Array.mem_singleton.mpr rfl)
  · rw [hmembership]
    decide +kernel
  · rw [hmembership]
    decide +kernel

end TextColumns.Pattern
