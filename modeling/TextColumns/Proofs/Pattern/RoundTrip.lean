import TextColumns.Proofs.Pattern.Render

/-!
Reading what has been written.  The text of a tree is read as that tree at whichever place it stands;
what follows it must only not begin with a question mark, which would belong to a repetition.
-/

namespace TextColumns.Pattern

/-- Whether a text begins neither with a question mark nor with a group of flags. -/
structure Unflagged (text : List Char) : Prop where
  head : text.head? ≠ some '?'
  flags : ∀ rest, text = '(' :: '?' :: rest → rest.head? = some ':'

theorem unflagged_cons {c : Char} {rest : List Char} (hquestion : c ≠ '?') (hopen : c ≠ '(') :
    Unflagged (c :: rest) :=
  ⟨fun heq => hquestion (Option.some.inj heq), fun _ heq => absurd (List.cons.inj heq).1 hopen⟩

theorem unflagged_group {rest : List Char} (hhead : rest.head? ≠ some '?') :
    Unflagged ('(' :: rest) := by
  refine ⟨nofun, fun further heq => ?_⟩
  rw [(List.cons.inj heq).2] at hhead
  exact absurd rfl hhead

theorem unflagged_plainGroup (rest : List Char) : Unflagged ('(' :: '?' :: ':' :: rest) := by
  refine ⟨nofun, fun further heq => ?_⟩
  cases heq
  rfl

variable {marked : Char → Bool}

theorem unflagged_literal (hmarked : Escaping marked) (c : Char) (tail : List Char) :
    Unflagged (escapedChars marked [c] ++ tail) := by
  rw [escapedChars, List.flatMap_singleton]
  by_cases hc : marked c = true
  · rw [if_pos hc]
    exact unflagged_cons (by decide) (by decide)
  · rw [if_neg hc]
    have hne {d : Char} (hd : d ∈ metacharacters) : c ≠ d :=
      fun heq => hmarked.not_mem hc (heq ▸ hd)
    exact unflagged_cons (hne (by decide)) (hne (by decide))

theorem unflagged_assertion {a : Assertion} (ha : a.IsWritten) (tail : List Char) :
    Unflagged (a.text ++ tail) := by
  cases a with
  | startLine => exact absurd rfl ha.1
  | endLine => exact absurd rfl ha.2
  | _ => exact unflagged_cons (by decide) (by decide)

theorem unflagged_inTurn {items : List Node}
    (hitems : ∀ item ∈ items, ∀ tail, Unflagged tail → Unflagged (item.text marked ++ tail))
    {tail : List Char} (htail : Unflagged tail) : Unflagged (textInTurn marked items ++ tail) := by
  induction items with
  | nil => exact htail
  | cons item items ih =>
      obtain ⟨hitem, hitems⟩ := List.forall_mem_cons.mp hitems
      rw [textInTurn, List.append_assoc]
      exact hitem _ (ih hitems)

theorem unflagged_branches {branches : List Node}
    (hbranches : ∀ branch ∈ branches, ∀ tail, Unflagged tail →
      Unflagged (branch.text marked ++ tail))
    {tail : List Char} (htail : Unflagged tail) :
    Unflagged (textOfBranches marked branches ++ tail) := by
  match branches with
  | [] => exact htail
  | [branch] => exact hbranches branch List.mem_cons_self tail htail
  | branch :: other :: others =>
      rw [textOfBranches_cons, List.append_assoc]
      exact hbranches branch List.mem_cons_self _ (unflagged_cons (by decide) (by decide))

theorem Node.Fits.unflagged (hmarked : Escaping marked) {rank : Rank} {node : Node}
    (hnode : node.Fits rank) {tail : List Char} (htail : Unflagged tail) :
    Unflagged (node.text marked ++ tail) := by
  induction hnode generalizing tail with
  | literal c => exact unflagged_literal hmarked c tail
  | any => exact unflagged_cons (by decide) (by decide)
  | oneOf => exact unflagged_cons (by decide) (by decide)
  | assertion ha => exact unflagged_assertion ha tail
  | group index _ ih =>
      cases index with
      | none => exact unflagged_plainGroup _
      | some k =>
          rw [Node.text, List.append_assoc, List.append_assoc]
          exact unflagged_group (ih (unflagged_cons (by decide) (by decide))).head
  | atom _ ih | item _ ih | branch _ ih => exact ih htail
  | repetition greedy _ _ ih =>
      rw [Node.text, List.append_assoc]
      exact ih (unflagged_cons (by decide) (by decide))
  | empty => exact htail
  | concat _ _ ih => exact unflagged_inTurn (fun item hitem tail => ih item hitem) htail
  | alternate _ _ ih => exact unflagged_branches (fun branch hbranch tail => ih branch hbranch) htail

/-- Whether groups with these indices are counted next, and can be opened with this many in one
another. -/
structure Admits (opened : List OpenGroup) (groups : Nat) (captures : List Nat) (nesting : Nat) :
    Prop where
  captures_eq : captures = List.range' (groups + 1) captures.length
  groups_le : groups + captures.length ≤ maxGroups
  nesting_le : opened.length + nesting ≤ maxNesting

theorem Admits.split {opened : List OpenGroup} {groups : Nat} {captures others : List Nat}
    {nesting otherNesting : Nat}
    (hadmits : Admits opened groups (captures ++ others) (max nesting otherNesting)) :
    Admits opened groups captures nesting ∧
      Admits opened (groups + captures.length) others otherNesting := by
  obtain ⟨hcaptures, hgroups, hnesting⟩ := hadmits
  rw [List.length_append] at hcaptures hgroups
  rw [← List.range'_append_1] at hcaptures
  obtain ⟨hfirst, hsecond⟩ := List.append_inj hcaptures List.length_range'.symm
  have hleft := Nat.le_max_left nesting otherNesting
  have hright := Nat.le_max_right nesting otherNesting
  refine ⟨⟨hfirst, by omega, by omega⟩, ⟨?_, by omega, by omega⟩⟩
  rwa [Nat.add_right_comm]

theorem Admits.group {opened : List OpenGroup} {groups : Nat} {index : Option Nat}
    {captures : List Nat} {nesting : Nat}
    (hadmits : Admits opened groups (index.toList ++ captures) (nesting + 1)) (group : OpenGroup) :
    index.toList = List.range' (groups + 1) index.toList.length ∧
      groups + index.toList.length ≤ maxGroups ∧ opened.length < maxNesting ∧
      Admits (group :: opened) (groups + index.toList.length) captures nesting := by
  have hsplit : Admits opened groups (index.toList ++ captures) (max 0 (nesting + 1)) := by
    rwa [Nat.zero_max]
  obtain ⟨hindex, hcaptures⟩ := hsplit.split
  have hnesting := hcaptures.nesting_le
  refine ⟨hindex.captures_eq, hindex.groups_le, by omega, hcaptures.captures_eq,
    hcaptures.groups_le, ?_⟩
  rw [List.length_cons]
  omega

theorem readOpening_text {index : Option Nat} {groups : Nat} {input : Input} {tail : List Char}
    (hindex : index.toList = List.range' (groups + 1) index.toList.length)
    (hgroups : groups + index.toList.length ≤ maxGroups)
    (hrest : input.rest = openingText index ++ tail) (htail : tail.head? ≠ some '?')
    (position : Nat) :
    ∃ after, after.rest = tail ∧ readOpening position groups input.tail =
      .ok ((index, groups + index.toList.length), after) := by
  cases index with
  | none =>
      have hinside : input.tail.rest = '?' :: ':' :: tail := Input.tail_rest hrest
      exact ⟨input.tail.tail.tail, Input.tail_rest (Input.tail_rest hinside),
        readOpening_plain hinside⟩
  | some k =>
      have hinside : input.tail.rest = tail := Input.tail_rest hrest
      obtain rfl : k = groups + 1 := by simpa using hindex
      refine ⟨input.tail, hinside, ?_⟩
      rw [readOpening_capture (by rwa [hinside]), if_neg (Nat.not_le.mpr hgroups)]
      rfl

/-- The levels at which a tree of a rank can begin. -/
def Rank.Begins : Rank → Level → Prop
  | .atom, _ | .item, _ => True
  | .branch, level => level.items = []
  | .pattern, level => level.branches = [] ∧ level.items = []

/-- What a level has become when a tree of a rank has been read. -/
def Rank.Reached : Rank → (level : Level) → Node → (last : Level) → Prop
  | .atom, level, node, last => last = level.push node
  | .item, level, node, last => last.branches = level.branches ∧ last.items = node :: level.items
  | .branch, level, node, last => last.branches = level.branches ∧ last.branch = node
  | .pattern, _, node, last => last.node = node

/-- Whether reading goes on, from a text that makes a number of groups, at such a level. -/
def ReadsOn (opened : List OpenGroup) (level : Level) (groups count : Nat) (input : Input)
    (tail : List Char) (Reached : Level → Prop) : Prop :=
  ∃ last further, further.rest = tail ∧ Reached last ∧
    readPattern level opened groups input = readPattern last opened (groups + count) further

/-- Whether the text of a tree is read as the tree, wherever a tree of that rank can stand. -/
def Node.ReadsBack (marked : Char → Bool) (rank : Rank) (node : Node) : Prop :=
  ∀ opened level groups input tail, input.rest = node.text marked ++ tail → Unflagged tail →
    rank.Begins level → Admits opened groups node.captures node.nesting →
    ReadsOn opened level groups node.captures.length input tail (rank.Reached level node)

section Atoms

variable {opened : List OpenGroup} {level : Level} {groups : Nat} {input after : Input}
  {tail : List Char}

theorem readsOn_atom {c : Char} {rest : List Char} {node : Node} (hrest : input.rest = c :: rest)
    (hc : c ∈ ['[', '.', '^', '$', '\x5c'])
    (hatom : readAtom c input.offset input.tail = .ok (node, after)) (hafter : after.rest = tail) :
    ReadsOn opened level groups 0 input tail (Rank.atom.Reached level node) := by
  have hheads : ∀ d ∈ ['[', '.', '^', '$', '\x5c'],
      ¬ (d == '|') = true ∧ ¬ (d == ')') = true ∧ ¬ (d == '(') = true ∧
        (Repeater.of? d).isNone = true := by
    simp [Repeater.of?]
  obtain ⟨hbar, hclose, hopen, hkind⟩ := hheads c hc
  exact ⟨level.push node, after, hafter, rfl,
    readPattern_atom hrest hbar hclose hopen (Option.isNone_iff_eq_none.mp hkind) hatom⟩

theorem readsOn_oneOf {set : CodeSet} (hset : set.Canonical)
    (hrest : input.rest = set.text ++ tail) :
    ReadsOn opened level groups 0 input tail (Rank.atom.Reached level (.oneOf set)) := by
  obtain ⟨after, hafter, hclass⟩ := readClass_text hset input.offset hrest
  exact readsOn_atom hrest (by decide) (by rw [readAtom, hclass]) hafter

theorem readsOn_assertion {a : Assertion} (ha : a.IsWritten)
    (hrest : input.rest = a.text ++ tail) :
    ReadsOn opened level groups 0 input tail (Rank.atom.Reached level (.assertion a)) := by
  obtain ⟨c, rest, after, hcons, hafter, hc, hatom⟩ := readAtom_assertion ha hrest
  exact readsOn_atom hcons (List.mem_cons_of_mem _ (List.mem_cons_of_mem _ hc)) hatom hafter

end Atoms

theorem readsBack_group (hmarked : Escaping marked) {index : Option Nat} {body : Node}
    (hfits : body.Fits .pattern) (hbody : body.ReadsBack marked .pattern) :
    (Node.group index body).ReadsBack marked .atom := by
  intro opened level groups input tail hrest _ _ hadmits
  have hrest : input.rest = openingText index ++ (body.text marked ++ ')' :: tail) := by
    simpa [Node.text] using hrest
  have hclosing : Unflagged (')' :: tail) := unflagged_cons (by decide) (by decide)
  obtain ⟨hindex, hgroups, hroom, hinside⟩ := hadmits.group ⟨input.offset, index, level⟩
  obtain ⟨after, hafter, hopening⟩ := readOpening_text hindex hgroups hrest
    (hfits.unflagged hmarked hclosing).head input.offset
  have hopen : ∃ rest, input.rest = '(' :: rest := by
    rw [hrest]
    cases index <;> exact ⟨_, rfl⟩
  obtain ⟨rest, hopen⟩ := hopen
  obtain ⟨last, further, hfurther, hlast, hread⟩ :=
    hbody _ Level.start _ after _ hafter hclosing ⟨rfl, rfl⟩ hinside
  refine ⟨level.push (.group index body), further.tail, Input.tail_rest hfurther, rfl, ?_⟩
  rw [readPattern_open hopen (Nat.not_le.mpr hroom) hopening, hread, readPattern_close hfurther,
    OpenGroup.close, Node.captures, List.length_append, Nat.add_assoc]
  exact congrArg (fun node => readPattern (level.push (.group index node)) _ _ _) hlast

theorem readsBack_repetition {body : Node} {min : Nat} {max : Option Nat} (greedy : Bool)
    (hbounds : BoundsFit min max) (hbody : body.ReadsBack marked .atom) :
    (Node.repetition body min max greedy).ReadsBack marked .item := by
  intro opened level groups input tail hrest htail _ hadmits
  rw [Node.text, List.append_assoc, List.append_assoc] at hrest
  have hbraces : Unflagged (boundsText min max ++ (mark greedy ++ tail)) :=
    unflagged_cons (by decide) (by decide)
  obtain ⟨last, braces, hrest, rfl, hread⟩ :=
    hbody opened level groups input _ hrest hbraces trivial hadmits
  obtain ⟨after, hafter, hbounds⟩ := readRepeater_text hbounds braces.offset hrest
  obtain ⟨hgreedy, hfurther⟩ := eat_mark hafter fun _ => htail.head
  refine ⟨_, _, hfurther, ?_, hread.trans (readPattern_repeater hrest rfl rfl hbounds)⟩
  rw [hgreedy, Bool.not_not]
  exact ⟨rfl, rfl⟩

theorem readsOn_inTurn (hmarked : Escaping marked) {items : List Node}
    (hfits : ∀ item ∈ items, item.Fits .item)
    (hitems : ∀ item ∈ items, item.ReadsBack marked .item) {opened : List OpenGroup} {level : Level}
    {groups : Nat} {input : Input} {tail : List Char}
    (hrest : input.rest = textInTurn marked items ++ tail) (htail : Unflagged tail)
    (hadmits : Admits opened groups (capturesOf items) (nestingOf items)) :
    ReadsOn opened level groups (capturesOf items).length input tail fun last =>
      last.branches = level.branches ∧ last.items = items.reverse ++ level.items := by
  induction items generalizing level groups input with
  | nil => exact ⟨level, input, hrest, ⟨rfl, rfl⟩, rfl⟩
  | cons item items ih =>
      obtain ⟨hfit, hfits⟩ := List.forall_mem_cons.mp hfits
      obtain ⟨hitem, hitems⟩ := List.forall_mem_cons.mp hitems
      obtain ⟨hfirst, hothers⟩ := Admits.split hadmits
      have hbehind : Unflagged (textInTurn marked items ++ tail) :=
        unflagged_inTurn (fun item hitem tail => (hfits item hitem).unflagged hmarked) htail
      rw [textInTurn, List.append_assoc] at hrest
      obtain ⟨next, further, hfurther, ⟨hbranches, hnext⟩, hread⟩ :=
        hitem opened level groups input _ hrest hbehind trivial hfirst
      obtain ⟨last, end', hend, ⟨hlastBranches, hlast⟩, hreadOthers⟩ :=
        ih hfits hitems hfurther hothers
      refine ⟨last, end', hend, ⟨hlastBranches.trans hbranches, ?_⟩, ?_⟩
      · rw [hlast, hnext, List.reverse_cons, List.append_assoc, List.singleton_append]
      · rw [hread, hreadOthers, capturesOf, List.length_append, Nat.add_assoc]

theorem readsBack_concat (hmarked : Escaping marked) {items : List Node}
    (hlength : 2 ≤ items.length)
    (hfits : ∀ item ∈ items, item.Fits .item)
    (hitems : ∀ item ∈ items, item.ReadsBack marked .item) :
    (Node.concat items).ReadsBack marked .branch := by
  intro opened level groups input tail hrest htail hlevel hadmits
  obtain ⟨last, further, hfurther, ⟨hbranches, hlast⟩, hread⟩ :=
    readsOn_inTurn hmarked hfits hitems hrest htail hadmits
  refine ⟨last, further, hfurther, ⟨hbranches, ?_⟩, hread⟩
  have hlevel : level.items = [] := hlevel
  rw [hlevel, List.append_nil] at hlast
  have hlong : 2 ≤ last.items.length := by rwa [hlast, List.length_reverse]
  fun_cases Level.branch last with
  | case1 hnone =>
      rw [hnone] at hlong
      cases hlong
  | case2 item hone =>
      rw [hone] at hlong
      exact absurd hlong (Nat.not_le.mpr Nat.one_lt_two)
  | case3 => rw [hlast, List.reverse_reverse]

theorem readsOn_branches {branches : List Node} (hnonempty : branches ≠ [])
    (hbranches : ∀ branch ∈ branches, branch.ReadsBack marked .branch) {opened : List OpenGroup}
    {level : Level} {groups : Nat} {input : Input} {tail : List Char} (hlevel : level.items = [])
    (hrest : input.rest = textOfBranches marked branches ++ tail) (htail : Unflagged tail)
    (hadmits : Admits opened groups (capturesOf branches) (nestingOf branches)) :
    ReadsOn opened level groups (capturesOf branches).length input tail fun last =>
      last.branch :: last.branches = branches.reverse ++ level.branches := by
  induction branches generalizing level groups input with
  | nil => exact absurd rfl hnonempty
  | cons branch others ih =>
      obtain ⟨hbranch, hothers⟩ := List.forall_mem_cons.mp hbranches
      obtain ⟨hfirst, hlater⟩ := Admits.split hadmits
      cases others with
      | nil =>
          obtain ⟨last, further, hfurther, ⟨hbefore, hlast⟩, hread⟩ :=
            hbranch opened level groups input tail hrest htail hlevel hfirst
          refine ⟨last, further, hfurther, ?_, ?_⟩
          · dsimp only
            rw [hlast, hbefore]
            rfl
          · rw [hread, capturesOf, capturesOf, List.append_nil]
      | cons other others =>
          rw [textOfBranches_cons, List.append_assoc] at hrest
          obtain ⟨next, bar, hbar, ⟨hbefore, hnext⟩, hread⟩ := hbranch opened level groups input _
            hrest (unflagged_cons (by decide) (by decide)) hlevel hfirst
          obtain ⟨last, further, hfurther, hlast, hreadOthers⟩ :=
            ih (List.cons_ne_nil _ _) hothers (show next.nextBranch.items = [] from rfl)
              (Input.tail_rest hbar) hlater
          refine ⟨last, further, hfurther, ?_, ?_⟩
          · simp [hlast, Level.nextBranch, hnext, hbefore]
          · have hcount : capturesOf (branch :: other :: others) =
                branch.captures ++ capturesOf (other :: others) := rfl
            rw [hread, readPattern_bar hbar, hreadOthers, hcount, List.length_append,
              Nat.add_assoc]

theorem readsBack_alternate {branches : List Node} (hlength : 2 ≤ branches.length)
    (hbranches : ∀ branch ∈ branches, branch.ReadsBack marked .branch) :
    (Node.alternate branches).ReadsBack marked .pattern := by
  intro opened level groups input tail hrest htail hlevel hadmits
  have hnonempty : branches ≠ [] := List.ne_nil_of_length_pos (by omega)
  obtain ⟨last, further, hfurther, hlast, hread⟩ :=
    readsOn_branches hnonempty hbranches hlevel.2 hrest htail hadmits
  refine ⟨last, further, hfurther, ?_, hread⟩
  rw [hlevel.1, List.append_nil] at hlast
  -- A level with one branch has that branch for its tree; here there are at least two.
  have hlong : 2 ≤ (last.branch :: last.branches).length := by rwa [hlast, List.length_reverse]
  show last.node = .alternate branches
  fun_cases Level.node last with
  | case1 hnone =>
      rw [hnone] at hlong
      exact absurd hlong (Nat.not_le.mpr Nat.one_lt_two)
  | case2 => rw [hlast, List.reverse_reverse]

/-- The text of a tree of any rank is read as the tree. -/
theorem Node.Fits.readsBack (hmarked : Escaping marked) {rank : Rank} {node : Node}
    (hnode : node.Fits rank) : node.ReadsBack marked rank := by
  induction hnode with
  | literal c =>
      intro opened level groups input tail hrest _ _ _
      obtain ⟨further, hfurther, hread⟩ := readPattern_literal hmarked level opened groups hrest
      exact ⟨_, further, hfurther, rfl, hread⟩
  | any =>
      exact fun _ _ _ _ _ hrest _ _ _ =>
        readsOn_atom hrest (by decide) rfl (Input.tail_rest hrest)
  | oneOf hset => exact fun _ _ _ _ _ hrest _ _ _ => readsOn_oneOf hset hrest
  | assertion ha => exact fun _ _ _ _ _ hrest _ _ _ => readsOn_assertion ha hrest
  | group index hbody ih => exact readsBack_group hmarked hbody ih
  | atom _ ih =>
      intro opened level groups input tail hrest htail _ hadmits
      obtain ⟨_, further, hfurther, rfl, hread⟩ :=
        ih opened level groups input tail hrest htail trivial hadmits
      exact ⟨level.push _, further, hfurther, ⟨rfl, rfl⟩, hread⟩
  | repetition greedy hbounds _ ih => exact readsBack_repetition greedy hbounds ih
  | empty =>
      intro opened level groups input tail hrest _ hlevel _
      have hlevel : level.items = [] := hlevel
      exact ⟨level, input, hrest, ⟨rfl, by rw [Level.branch, hlevel]⟩, rfl⟩
  | item _ ih =>
      intro opened level groups input tail hrest htail hlevel hadmits
      obtain ⟨last, further, hfurther, ⟨hbranches, hlast⟩, hread⟩ :=
        ih opened level groups input tail hrest htail trivial hadmits
      have hlevel : level.items = [] := hlevel
      rw [hlevel] at hlast
      exact ⟨last, further, hfurther, ⟨hbranches, by rw [Level.branch, hlast]⟩, hread⟩
  | concat hlength hfits ih => exact readsBack_concat hmarked hlength hfits ih
  | branch _ ih =>
      intro opened level groups input tail hrest htail hlevel hadmits
      obtain ⟨last, further, hfurther, ⟨hbranches, hlast⟩, hread⟩ :=
        ih opened level groups input tail hrest htail hlevel.2 hadmits
      refine ⟨last, further, hfurther, ?_, hread⟩
      show last.node = _
      rw [Level.node, hbranches, hlevel.1]
      exact hlast
  | alternate hlength _ ih => exact readsBack_alternate hlength ih

def Flags.ofLetters (letters : List Char) : Flags :=
  ⟨letters.contains 'i', letters.contains 'm', letters.contains 's'⟩

theorem readFlagLetters_text {letters : List Char} (hletters : ∀ c ∈ letters, c ∈ ['i', 'm', 's'])
    (flags : Flags) {offset : Nat} (hoffset : 2 < offset + letters.length) (tail : List Char) :
    ∃ after, after.rest = tail ∧ readFlagLetters flags offset (letters ++ ')' :: tail) =
      .ok (flags.union (.ofLetters letters), after) := by
  induction letters generalizing flags offset with
  | nil =>
      have hclosing : (')' == ')' && decide (2 < offset)) = true := by simpa using hoffset
      refine ⟨⟨tail, offset + 1⟩, rfl, (if_pos hclosing).trans ?_⟩
      simp [Flags.union, Flags.ofLetters]
  | cons c letters ih =>
      obtain ⟨hc, hothers⟩ := List.forall_mem_cons.mp hletters
      have hlater : 2 < offset + 1 + letters.length := by
        rw [List.length_cons] at hoffset
        omega
      simp only [List.mem_cons, List.not_mem_nil, or_false] at hc
      obtain rfl | rfl | rfl := hc
      all_goals
        obtain ⟨after, hafter, hread⟩ := ih hothers _ hlater
        refine ⟨after, hafter, hread.trans ?_⟩
        simp [Flags.union, Flags.ofLetters]

theorem readFlags_text {input : Input} {letters tail : List Char} (hnonempty : letters ≠ [])
    (hletters : ∀ c ∈ letters, c ∈ ['i', 'm', 's'])
    (hrest : input.rest = '(' :: '?' :: (letters ++ ')' :: tail)) :
    ∃ after, after.rest = tail ∧ readFlags input = .ok (.ofLetters letters, after) := by
  have hlength := List.length_pos_iff.mpr hnonempty
  obtain ⟨after, hafter, hread⟩ :=
    readFlagLetters_text hletters .none (show 2 < 2 + letters.length by omega) tail
  have hcolon : ¬ ((letters ++ ')' :: tail).head? == some ':') = true := by
    obtain ⟨c, others, rfl⟩ := List.exists_cons_of_ne_nil hnonempty
    rw [beq_iff_eq]
    intro heq
    exact absurd (hletters ':' (Option.some.inj heq ▸ List.mem_cons_self)) (by decide)
  refine ⟨after, hafter, ?_⟩
  rw [readFlags_group hrest, if_neg hcolon, hread]
  simp [Flags.union, Flags.none]

theorem readFlags_unflagged {input : Input} (hrest : Unflagged input.rest) :
    readFlags input = .ok (.none, input) :=
  readFlags_none hrest.flags

theorem readPattern_render (hmarked : Escaping marked) {node : Node} {groups : Nat}
    (hnode : node.Canonical groups) {input : Input} (hrest : input.rest = node.text marked) :
    readPattern Level.start [] 0 input = .ok (node, groups) := by
  have hlength : node.captures.length = groups := by rw [hnode.captures, List.length_range']
  have hadmits : Admits [] 0 node.captures node.nesting := by
    refine ⟨?_, ?_, ?_⟩
    · rw [hlength, hnode.captures]
    · rw [hlength, Nat.zero_add]
      exact hnode.groups_le
    · rw [List.length_nil, Nat.zero_add]
      exact hnode.nesting_le
  obtain ⟨last, further, hfurther, hlast, hread⟩ := hnode.fits.readsBack hmarked [] Level.start 0
    input [] (hrest.trans (List.append_nil _).symm) ⟨nofun, nofun⟩ ⟨rfl, rfl⟩ hadmits
  have hlast : last.node = node := hlast
  rw [hread, readPattern_end hfurther, hlast, hlength, Nat.zero_add]

/-- Writing a tree and reading the text gives the tree, and flags in front of the text are the flags
that are read. -/
theorem parse_render (hmarked : Escaping marked) {node : Node} {groups : Nat}
    (hnode : node.Canonical groups) :
    parse (node.render marked) = .ok ⟨node, groups, .none⟩ ∧
      ∀ letters ≠ [], (∀ c ∈ letters, c ∈ ['i', 'm', 's']) →
        parse ("(?" ++ .ofList letters ++ ")" ++ node.render marked) =
          .ok ⟨node, groups, .ofLetters letters⟩ := by
  refine ⟨?_, fun letters hnonempty hletters => ?_⟩
  · have hrest : (Input.ofString (node.render marked)).rest = node.text marked :=
      String.toList_ofList
    have hunflagged : Unflagged (Input.ofString (node.render marked)).rest := by
      rw [hrest, ← List.append_nil (node.text marked)]
      exact hnode.fits.unflagged hmarked ⟨nofun, nofun⟩
    simp only [parse, readFlags_unflagged hunflagged, readPattern_render hmarked hnode hrest]
  · have hrest : (Input.ofString ("(?" ++ .ofList letters ++ ")" ++ node.render marked)).rest =
        '(' :: '?' :: (letters ++ ')' :: node.text marked) := by
      simp [Input.ofString, Node.render]
    obtain ⟨after, hafter, hflags⟩ := readFlags_text hnonempty hletters hrest
    simp only [parse, hflags, readPattern_render hmarked hnode hafter]

theorem parse_render_alternation :
    ∃ node : Node, node.render isEscapable = "\\+(.|)\x7b2,5\x7d?|[^\\]a-c](?:\\b)" ∧
      parse "\\+(.|)\x7b2,5\x7d?|[^\\]a-c](?:\\b)" = .ok ⟨node, 1, .none⟩ ∧
      parse "(?si)\\+(.|)\x7b2,5\x7d?|[^\\]a-c](?:\\b)" =
        .ok ⟨node, 1, ⟨true, false, true⟩⟩ := by
  let group : Node := .group (some 1) (.alternate [.any, .empty])
  let set : CodeSet := ⟨[⟨93, 93⟩, ⟨97, 99⟩], true⟩
  let node : Node := .alternate [.concat [.literal '+', .repetition group 2 (some 5) false],
    .concat [.oneOf set, .group none (.assertion .wordBoundary)]]
  have hgroup : group.Fits .atom :=
    .group _ (.alternate (by decide) (List.forall_mem_cons.mpr ⟨.item (.atom .any),
      List.forall_mem_singleton.mpr .empty⟩))
  have hfirst : Node.Fits .branch (.concat [.literal '+', .repetition group 2 (some 5) false]) :=
    .concat (by decide) (List.forall_mem_cons.mpr ⟨.atom (.literal _),
      List.forall_mem_singleton.mpr (.repetition _ ⟨by decide, by decide, by decide⟩ hgroup)⟩)
  have hsecond :
      Node.Fits .branch (.concat [.oneOf set, .group none (.assertion .wordBoundary)]) :=
    .concat (by decide) (List.forall_mem_cons.mpr ⟨.atom (.oneOf (by decide)),
      List.forall_mem_singleton.mpr (.atom (.group _ (.branch (.item (.atom
        (.assertion ⟨nofun, nofun⟩))))))⟩)
  have hnode : node.Canonical 1 :=
    ⟨.alternate (by decide) (List.forall_mem_cons.mpr ⟨hfirst,
      List.forall_mem_singleton.mpr hsecond⟩), rfl, by decide, by decide⟩
  have hrender : node.render isEscapable = "\\+(.|)\x7b2,5\x7d?|[^\\]a-c](?:\\b)" := by
    decide +kernel
  obtain ⟨hplain, hflags⟩ := parse_render escaping_isEscapable hnode
  rw [hrender] at hplain hflags
  exact ⟨node, hrender, hplain, hflags ['s', 'i'] (by decide) (by simp)⟩

end TextColumns.Pattern
