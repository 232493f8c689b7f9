import TextColumns.Proofs.Pattern.Suffix

namespace TextColumns.Pattern

/-- Induction over trees, with the claim at hand for each member of a list. -/
@[induction_eliminator]
theorem Node.induct {P : Node → Prop} (empty : P .empty) (literal : ∀ c, P (.literal c))
    (any : P .any) (oneOf : ∀ set, P (.oneOf set)) (assertion : ∀ a, P (.assertion a))
    (group : ∀ index body, P body → P (.group index body))
    (concat : ∀ items, (∀ item ∈ items, P item) → P (.concat items))
    (alternate : ∀ branches, (∀ branch ∈ branches, P branch) → P (.alternate branches))
    (repetition : ∀ body min max greedy, P body → P (.repetition body min max greedy))
    (node : Node) : P node :=
  @Node.rec P (fun nodes => ∀ node ∈ nodes, P node) empty literal any oneOf assertion group
    concat alternate repetition (by simp)
    (fun _ _ hhead htail => List.forall_mem_cons.mpr ⟨hhead, htail⟩) node

theorem min_le_of_readBraces {opened : Nat} {input after : Input} {bounds : Nat × Option Nat}
    (hread : readBraces opened input = .ok (bounds, after)) :
    ∀ bound ∈ bounds.2, bounds.1 ≤ bound := by
  revert hread
  fun_cases readBraces opened input with
  | case1 | case2 | case3 | case4 => intro hread; cases hread
  | case5 min next hmin max last hmax behind heat hordered =>
      intro hread
      cases hread
      simpa [Option.any_eq_false] using hordered

theorem min_le_of_readRepeater {kind : Repeater} {position : Nat} {input after : Input}
    {bounds : Nat × Option Nat} (hread : readRepeater kind position input = .ok (bounds, after)) :
    ∀ bound ∈ bounds.2, bounds.1 ≤ bound := by
  cases kind with
  | star | plus | optional =>
      cases hread
      simp
  | braces => exact min_le_of_readBraces hread

theorem pos_of_readOpening {position groups count : Nat} {input after : Input}
    {index : Option Nat} (hread : readOpening position groups input = .ok ((index, count), after)) :
    ∀ k ∈ index, 0 < k := by
  unfold readOpening at hread
  split at hread
  · cases hread
    exact nofun
  · cases hread
  · split at hread
    · cases hread
    · cases hread
      exact fun k hk => Option.some.inj hk ▸ Nat.succ_pos groups

def Level.Holds (P : Node → Prop) (level : Level) : Prop :=
  (∀ branch ∈ level.branches, P branch) ∧ ∀ item ∈ level.items, P item

section Reading

variable {P : Node → Prop} {chars : List Char} (empty : P .empty)
  (atom : ∀ {c position input node after}, c :: input.rest <:+ chars →
    readAtom c position input = .ok (node, after) → P node)
  (group : ∀ index body, (∀ k ∈ index, 0 < k) → P body → P (.group index body))
  (concat : ∀ items, (∀ item ∈ items, P item) → P (.concat items))
  (alternate : ∀ branches, branches ≠ [] → (∀ branch ∈ branches, P branch) →
    P (.alternate branches))
  (repetition : ∀ body min max greedy, (∀ bound ∈ max, min ≤ bound) → P body →
    P (.repetition body min max greedy))

include empty concat in
theorem Level.Holds.branch {level : Level} (hlevel : level.Holds P) : P level.branch := by
  fun_cases Level.branch level with
  | case1 => exact empty
  | case2 item hitems => exact hlevel.2 item (by simp [hitems])
  | case3 => exact concat _ fun item hitem => hlevel.2 item (List.mem_reverse.mp hitem)

include empty concat alternate in
theorem Level.Holds.node {level : Level} (hlevel : level.Holds P) : P level.node := by
  have hbranch := hlevel.branch empty concat
  unfold Level.node
  split
  · exact hbranch
  · refine alternate _ (by simp) fun branch hmem => ?_
    rcases List.mem_cons.mp (List.mem_reverse.mp hmem) with rfl | hmem
    · exact hbranch
    · exact hlevel.1 branch hmem

include empty concat in
theorem Level.Holds.nextBranch {level : Level} (hlevel : level.Holds P) :
    level.nextBranch.Holds P :=
  ⟨List.forall_mem_cons.mpr ⟨hlevel.branch empty concat, hlevel.1⟩, by simp [Level.nextBranch]⟩

theorem Level.Holds.push {level : Level} (hlevel : level.Holds P) {item : Node} (hitem : P item) :
    (level.push item).Holds P :=
  ⟨hlevel.1, List.forall_mem_cons.mpr ⟨hitem, hlevel.2⟩⟩

include repetition in
theorem Level.Holds.pushRepeated {level : Level} (hlevel : level.Holds P) {item : Node}
    {before : List Node} (hrepeatable : level.repeatable? = some (item, before))
    {bounds : Nat × Option Nat} (hbounds : ∀ bound ∈ bounds.2, bounds.1 ≤ bound)
    (greedy : Bool) : (level.pushRepeated item before bounds greedy).Holds P := by
  revert hrepeatable
  fun_cases Level.repeatable? level with
  | case1 | case3 => intro hrepeatable; cases hrepeatable
  | case2 latest others hitems =>
      intro hrepeatable
      cases hrepeatable
      obtain ⟨hlatest, hothers⟩ := List.forall_mem_cons.mp (hitems ▸ hlevel.2)
      exact ⟨hlevel.1,
        List.forall_mem_cons.mpr ⟨repetition _ _ _ greedy hbounds hlatest, hothers⟩⟩

include empty atom group concat alternate repetition in
theorem readPattern_induct {level : Level} {opened : List OpenGroup} {groups count : Nat}
    {input : Input} {node : Node} (hlevel : level.Holds P)
    (hopened : ∀ group ∈ opened, (∀ k ∈ group.index, 0 < k) ∧ group.outer.Holds P)
    (hinput : input.rest <:+ chars)
    (hread : readPattern level opened groups input = .ok (node, count)) : P node := by
  have hbehind (input : Input) (hinput : input.rest <:+ chars) : input.tail.rest <:+ chars :=
    input.tail_suffix.trans hinput
  fun_induction readPattern level opened groups input with
  | case1 =>
      cases hread
      exact hlevel.node empty concat alternate
  | case3 _ _ _ input _ _ _ _ _ ih =>
      exact ih (hlevel.nextBranch empty concat) hopened (hbehind input hinput) hread
  | case5 level groups input c rest hrest hshorter hbar hclose _ _ ih =>
      obtain ⟨⟨hindex, houter⟩, hopened⟩ := List.forall_mem_cons.mp hopened
      exact ih (houter.push (group _ _ hindex (hlevel.node empty concat alternate))) hopened
        (hbehind _ hinput) hread
  | case8 level opened groups input c rest hrest hshorter hbar hclose hopen hnesting index number
      after hopening hlength ih =>
      exact ih ⟨by simp [Level.start], by simp [Level.start]⟩
        (List.forall_mem_cons.mpr ⟨⟨pos_of_readOpening hopening, hlevel⟩, hopened⟩)
        ((suffix_of_readOpening hopening).trans (hbehind _ hinput)) hread
  | case11 level opened groups input c rest hrest hshorter hbar hclose hopen kind hkind item before
      hrepeatable bounds after hbounds =>
      rename_i ih
      exact ih (hlevel.pushRepeated repetition hrepeatable (min_le_of_readRepeater hbounds) _)
        hopened ((Input.eat_suffix _ _).trans
          ((suffix_of_readRepeater hbounds).trans (hbehind _ hinput))) hread
  | case13 level opened groups input c rest hrest hshorter hbar hclose hopen hkind item after hatom
      hlength ih =>
      have hhere : c :: input.tail.rest <:+ chars := by
        rwa [Input.tail, hrest, ← hrest]
      exact ih (hlevel.push (atom hhere hatom)) hopened
        ((suffix_of_readAtom hatom).trans (hbehind input hinput)) hread
  | _ => cases hread

include empty atom group concat alternate repetition in
/-- A property of trees that every rule of the reader preserves holds of what it reads. -/
theorem parse_induct {text : String} {parsed : Parsed} (htext : text.toList <:+ chars)
    (hparse : parse text = .ok parsed) : P parsed.node := by
  revert hparse
  fun_cases parse text with
  | case1 | case2 => intro hparse; cases hparse
  | case3 flags input hflags node groups hread =>
      intro hparse
      cases hparse
      exact readPattern_induct empty atom group concat alternate repetition
        ⟨by simp [Level.start], by simp [Level.start]⟩ (by simp)
        ((suffix_of_readFlags hflags).trans htext) hread

end Reading

/-- Trees whose alternations have a branch and whose repetitions have their bounds in order. -/
inductive Node.WellFormed : Node → Prop
  | empty : WellFormed .empty
  | literal (c : Char) : WellFormed (.literal c)
  | any : WellFormed .any
  | oneOf (set : CodeSet) : WellFormed (.oneOf set)
  | assertion (a : Assertion) : WellFormed (.assertion a)
  | group (index : Option Nat) {body : Node} : WellFormed body → WellFormed (.group index body)
  | concat {items : List Node} :
      (∀ item ∈ items, WellFormed item) → WellFormed (.concat items)
  | alternate {branches : List Node} : branches ≠ [] →
      (∀ branch ∈ branches, WellFormed branch) → WellFormed (.alternate branches)
  | repetition {body : Node} {min : Nat} {max : Option Nat} (greedy : Bool) :
      (∀ bound ∈ max, min ≤ bound) → WellFormed body →
      WellFormed (.repetition body min max greedy)

theorem wellFormed_of_readAtom {c : Char} {position : Nat} {input after : Input} {node : Node}
    (hread : readAtom c position input = .ok (node, after)) : node.WellFormed := by
  unfold readAtom at hread
  split at hread
  · split at hread
    · cases hread
    · cases hread
      exact .oneOf _
  · split at hread
    · cases hread
    · cases hread
      exact .literal _
    · cases hread
      exact .oneOf _
    · cases hread
      exact .assertion _
  · cases hread
    exact .any
  · cases hread
    exact .assertion _
  · cases hread
    exact .assertion _
  · cases hread
    exact .literal _

theorem wellFormed_of_parse {text : String} {parsed : Parsed} (hparse : parse text = .ok parsed) :
    parsed.node.WellFormed :=
  parse_induct .empty (fun _ => wellFormed_of_readAtom) (fun index _ _ => .group index)
    (fun _ => .concat) (fun _ => .alternate) (fun _ _ _ greedy => .repetition greedy)
    (List.suffix_refl _) hparse

end TextColumns.Pattern
