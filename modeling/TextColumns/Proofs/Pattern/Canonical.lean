import Mathlib
import TextColumns.Proofs.Pattern.CodeSet
import TextColumns.Proofs.Pattern.Parse

/-!
The trees of patterns.  `Node.Fits` is their grammar; a tree that is read fits it, counts the groups
that capture from one on in the order in which they open, and keeps within the bounds of the reader.
-/

namespace TextColumns.Pattern

/-- What a tree stands for in a pattern; each rank takes in the trees of those before it. -/
inductive Rank where
  | atom
  | item
  | branch
  | pattern

/-- Whether an assertion can be written; the others are what the caret and the dollar become. -/
def Assertion.IsWritten (a : Assertion) : Prop :=
  a ≠ .startLine ∧ a ≠ .endLine

structure BoundsFit (min : Nat) (max : Option Nat) : Prop where
  min_le : min ≤ maxRepeat
  max_le : ∀ bound ∈ max, bound ≤ maxRepeat
  ordered : ∀ bound ∈ max, min ≤ bound

/-- The trees of each rank.  Only an atom is repeated, only items stand in turn, and only branches
are alternatives. -/
inductive Node.Fits : Rank → Node → Prop
  | literal (c : Char) : Fits .atom (.literal c)
  | any : Fits .atom .any
  | oneOf {set : CodeSet} (hset : set.Canonical) : Fits .atom (.oneOf set)
  | assertion {a : Assertion} (ha : a.IsWritten) : Fits .atom (.assertion a)
  | group (index : Option Nat) {body : Node} (hbody : Fits .pattern body) :
      Fits .atom (.group index body)
  | atom {node : Node} (hatom : Fits .atom node) : Fits .item node
  | repetition {body : Node} {min : Nat} {max : Option Nat} (greedy : Bool)
      (hbounds : BoundsFit min max) (hbody : Fits .atom body) :
      Fits .item (.repetition body min max greedy)
  | empty : Fits .branch .empty
  | item {node : Node} (hitem : Fits .item node) : Fits .branch node
  | concat {items : List Node} (hlength : 2 ≤ items.length)
      (hitems : ∀ item ∈ items, Fits .item item) : Fits .branch (.concat items)
  | branch {node : Node} (hbranch : Fits .branch node) : Fits .pattern node
  | alternate {branches : List Node} (hlength : 2 ≤ branches.length)
      (hbranches : ∀ branch ∈ branches, Fits .branch branch) : Fits .pattern (.alternate branches)

mutual

/-- The indices of the groups that capture, in the order of their opening parentheses. -/
def Node.captures : Node → List Nat
  | .empty | .literal _ | .any | .oneOf _ | .assertion _ => []
  | .group index body => index.toList ++ body.captures
  | .concat items => capturesOf items
  | .alternate branches => capturesOf branches
  | .repetition body _ _ _ => body.captures

def capturesOf : List Node → List Nat
  | [] => []
  | node :: rest => node.captures ++ capturesOf rest

end

mutual

def Node.nesting : Node → Nat
  | .empty | .literal _ | .any | .oneOf _ | .assertion _ => 0
  | .group _ body => body.nesting + 1
  | .concat items => nestingOf items
  | .alternate branches => nestingOf branches
  | .repetition body _ _ _ => body.nesting

def nestingOf : List Node → Nat
  | [] => 0
  | node :: rest => max node.nesting (nestingOf rest)

end

theorem capturesOf_append (nodes others : List Node) :
    capturesOf (nodes ++ others) = capturesOf nodes ++ capturesOf others := by
  induction nodes with
  | nil => rfl
  | cons node nodes ih => rw [List.cons_append, capturesOf, capturesOf, ih, List.append_assoc]

theorem nestingOf_le_iff {nodes : List Node} {bound : Nat} :
    nestingOf nodes ≤ bound ↔ ∀ node ∈ nodes, node.nesting ≤ bound := by
  induction nodes with
  | nil => simp [nestingOf]
  | cons node nodes ih => rw [nestingOf, Nat.max_le, ih, List.forall_mem_cons]

structure Node.Canonical (node : Node) (groups : Nat) : Prop where
  fits : node.Fits .pattern
  captures : node.captures = List.range' 1 groups
  groups_le : groups ≤ maxGroups
  nesting_le : node.nesting ≤ maxNesting

/-- Sets in normal form of which what they match consists of proper ranges too. -/
structure CodeSet.Positive (set : CodeSet) : Prop where
  canonical : set.Canonical
  nonempty : set.positiveRanges ≠ []
  proper : ∀ range ∈ set.positiveRanges, range.Proper

instance (set : CodeSet) : Decidable set.Positive :=
  decidable_of_iff
    (set.Canonical ∧ set.positiveRanges ≠ [] ∧ ∀ range ∈ set.positiveRanges, range.Proper)
    ⟨fun h => ⟨h.1, h.2.1, h.2.2⟩, fun h => ⟨h.canonical, h.nonempty, h.proper⟩⟩

theorem CodeSet.Positive.ofRanges {ranges : List CodeRange} {negated : Bool}
    (hset : (⟨ranges, negated⟩ : CodeSet).Positive) : (CodeSet.ofRanges ranges negated).Positive :=
  (CodeSet.ofRanges_ranges hset.canonical (.refl ranges)).symm ▸ hset

theorem positive_of_letter {c : Char} {set : CodeSet}
    (hletter : Escape.ofLetter? c = some (.set set)) : set.Positive := by
  unfold Escape.ofLetter? at hletter
  split at hletter
  case h_7 | h_8 | h_9 | h_10 | h_11 | h_12 =>
    cases hletter
    exact .ofRanges (by decide +kernel)
  case h_17 => split at hletter <;> cases hletter
  all_goals cases hletter

theorem char_of_readHex {position : Nat} {input after : Input} {escape : Escape}
    (hread : readHex position input = .ok (escape, after)) : ∃ c, escape = .char c := by
  revert hread
  fun_cases readHex position input with
  | case1 =>
      intro hread
      cases hread
      exact ⟨_, rfl⟩
  | case2 | case3 => intro hread; cases hread

theorem letter_of_readEscape {position : Nat} {input after : Input} {escape : Escape}
    (hread : readEscape position input = .ok (escape, after)) :
    (∃ c, escape = .char c) ∨ ∃ c, Escape.ofLetter? c = some escape := by
  revert hread
  fun_cases readEscape position input with
  | case1 | case4 => intro hread; cases hread
  | case2 => exact fun hread => .inl (char_of_readHex hread)
  | case3 c rest hc hrest escape hletter =>
      intro hread
      cases hread
      exact .inr ⟨c, hletter⟩

theorem positive_of_readEscape {position : Nat} {input after : Input} {set : CodeSet}
    (hread : readEscape position input = .ok (.set set, after)) : set.Positive := by
  obtain ⟨c, hchar⟩ | ⟨c, hletter⟩ := letter_of_readEscape hread
  · cases hchar
  · exact positive_of_letter hletter

theorem written_of_letter {c : Char} {a : Assertion}
    (hletter : Escape.ofLetter? c = some (.assertion a)) : a.IsWritten := by
  unfold Escape.ofLetter? at hletter
  split at hletter
  case h_17 => split at hletter <;> cases hletter
  all_goals cases hletter
  all_goals exact ⟨nofun, nofun⟩

theorem written_of_readEscape {position : Nat} {input after : Input} {a : Assertion}
    (hread : readEscape position input = .ok (.assertion a, after)) : a.IsWritten := by
  obtain ⟨c, hchar⟩ | ⟨c, hletter⟩ := letter_of_readEscape hread
  · cases hchar
  · exact written_of_letter hletter

theorem proper_of_readMember {input after : Input} {ranges : List CodeRange}
    (hread : readMember input = .ok (.ranges ranges, after)) :
    ranges ≠ [] ∧ ∀ range ∈ ranges, range.Proper := by
  revert hread
  fun_cases readMember input with
  | case1 | case2 | case3 | case5 | case6 => intro hread; cases hread
  | case4 rest hrest set next hescape =>
      intro hread
      cases hread
      have hset := positive_of_readEscape hescape
      exact ⟨hset.nonempty, hset.proper⟩

theorem proper_of_readItem {input after : Input} {ranges : List CodeRange}
    (hread : readItem input = .ok (ranges, after)) :
    ranges ≠ [] ∧ ∀ range ∈ ranges, range.Proper := by
  revert hread
  fun_cases readItem input with
  | case1 | case3 | case4 | case5 => intro hread; cases hread
  | case2 members next hmember =>
      intro hread
      cases hread
      exact proper_of_readMember hmember
  | case6 low next hlow hrange high last hhigh hordered =>
      intro hread
      cases hread
      refine ⟨List.cons_ne_nil _ _, List.forall_mem_singleton.mpr ?_⟩
      exact CodeRange.proper_between (Char.not_lt.mp hordered)
  | case7 =>
      intro hread
      cases hread
      exact ⟨List.cons_ne_nil _ _, List.forall_mem_singleton.mpr (CodeRange.proper_single _)⟩

/-- A bracket expression has a member at least, for a bracket that comes first is one. -/
theorem proper_of_readItems {opened : Nat} {first : Bool} {input after : Input}
    {found ranges : List CodeRange}
    (hread : readItems opened first input found = .ok (ranges, after))
    (hfound : first = true ∨ found ≠ []) (hproper : ∀ range ∈ found, range.Proper) :
    ranges ≠ [] ∧ ∀ range ∈ ranges, range.Proper := by
  fun_induction readItems opened first input found with
  | case1 => cases hread
  | case2 first input found c rest hrest hclosing =>
      cases hread
      have hfirst : first = false := by simpa using (Bool.and_eq_true_iff.mp hclosing).2
      exact ⟨hfound.resolve_left (by rw [hfirst]; exact Bool.false_ne_true), hproper⟩
  | case3 => cases hread
  | case4 first input found c rest hrest hclosing item next hitem hshorter ih =>
      obtain ⟨hnonempty, hitems⟩ := proper_of_readItem hitem
      refine ih hread (.inr (by simp [hnonempty])) fun range hmem => ?_
      exact (List.mem_append.mp hmem).elim (hitems range) (hproper range)

theorem canonical_of_readClass {opened : Nat} {input after : Input} {set : CodeSet}
    (hread : readClass opened input = .ok (set, after)) : set.Canonical := by
  revert hread
  fun_cases readClass opened input with
  | case1 => intro hread; cases hread
  | case2 negation ranges next hitems =>
      intro hread
      cases hread
      obtain ⟨hnonempty, hproper⟩ := proper_of_readItems hitems (.inl rfl) (by simp)
      exact CodeSet.canonical_ofRanges hnonempty hproper _

theorem fits_of_readAtom {c : Char} {position : Nat} {input after : Input} {node : Node}
    (hread : readAtom c position input = .ok (node, after)) :
    node.Fits .atom ∧ node.captures = [] ∧ node.nesting = 0 := by
  revert hread
  fun_cases readAtom c position input with
  | case1 | case3 => intro hread; cases hread
  | case2 set next hclass =>
      intro hread
      cases hread
      exact ⟨.oneOf (canonical_of_readClass hclass), rfl, rfl⟩
  | case4 | case10 =>
      intro hread
      cases hread
      exact ⟨.literal _, rfl, rfl⟩
  | case5 set next hescape =>
      intro hread
      cases hread
      exact ⟨.oneOf (positive_of_readEscape hescape).canonical, rfl, rfl⟩
  | case6 a next hescape =>
      intro hread
      cases hread
      exact ⟨.assertion (written_of_readEscape hescape), rfl, rfl⟩
  | case7 =>
      intro hread
      cases hread
      exact ⟨.any, rfl, rfl⟩
  | case8 | case9 =>
      intro hread
      cases hread
      exact ⟨.assertion (by simp [Assertion.IsWritten]), rfl, rfl⟩

theorem le_of_readBound {opened bound : Nat} {input after : Input}
    (hread : readBound opened input = .ok (bound, after)) : bound ≤ maxRepeat := by
  revert hread
  fun_cases readBound opened input with
  | case1 | case2 | case3 => intro hread; cases hread
  | case4 digits next htaken value hoverflow hempty hlarge =>
      intro hread
      obtain ⟨rfl, -⟩ := Prod.mk.inj (Except.ok.inj hread)
      exact Nat.le_of_not_lt hlarge

theorem le_of_readUpper {opened min : Nat} {input after : Input} {max : Option Nat}
    (hmin : min ≤ maxRepeat) (hread : readUpper opened min input = .ok (max, after)) :
    ∀ bound ∈ max, bound ≤ maxRepeat := by
  revert hread
  fun_cases readUpper opened min input with
  | case1 =>
      intro hread
      cases hread
      exact fun bound hbound => Option.some.inj hbound ▸ hmin
  | case2 =>
      intro hread bound hbound
      cases hread
      cases hbound
  | case3 => intro hread; cases hread
  | case4 next heat hclosing max last hmax =>
      intro hread
      cases hread
      exact fun bound hbound => Option.some.inj hbound ▸ le_of_readBound hmax

theorem le_of_readBraces {opened : Nat} {input after : Input} {bounds : Nat × Option Nat}
    (hread : readBraces opened input = .ok (bounds, after)) :
    bounds.1 ≤ maxRepeat ∧ ∀ bound ∈ bounds.2, bound ≤ maxRepeat := by
  revert hread
  fun_cases readBraces opened input with
  | case1 | case2 | case3 | case4 => intro hread; cases hread
  | case5 min next hmin max last hmax =>
      intro hread
      cases hread
      exact ⟨le_of_readBound hmin, le_of_readUpper (le_of_readBound hmin) hmax⟩

theorem fit_of_readRepeater {kind : Repeater} {position : Nat} {input after : Input}
    {bounds : Nat × Option Nat} (hread : readRepeater kind position input = .ok (bounds, after)) :
    BoundsFit bounds.1 bounds.2 := by
  have hordered := min_le_of_readRepeater hread
  cases kind with
  | star | plus | optional =>
      cases hread
      exact ⟨by decide, by decide, hordered⟩
  | braces =>
      obtain ⟨hmin, hmax⟩ := le_of_readBraces hread
      exact ⟨hmin, hmax, hordered⟩

/-- Levels of which all that has been read fits, where a number of groups is open. -/
structure Level.Fits (depth : Nat) (level : Level) : Prop where
  branches : ∀ branch ∈ level.branches, branch.Fits .branch ∧ depth + branch.nesting ≤ maxNesting
  items : ∀ item ∈ level.items, item.Fits .item ∧ depth + item.nesting ≤ maxNesting
  latest : level.repeated = false → ∀ item ∈ level.items.head?, item.Fits .atom

def Level.captures (level : Level) : List Nat :=
  capturesOf level.branches.reverse ++ capturesOf level.items.reverse

theorem two_le_length {items : List α} (hnone : items ≠ []) (hone : ∀ item, items ≠ [item]) :
    2 ≤ items.length := by
  match items with
  | [] => exact absurd rfl hnone
  | [item] => exact absurd rfl (hone item)
  | _ :: _ :: _ => simp

namespace Level.Fits

variable {depth : Nat} {level : Level}

theorem start (depth : Nat) : Level.start.Fits depth :=
  ⟨nofun, nofun, fun _ => nofun⟩

theorem branch (hlevel : level.Fits depth) (hdepth : depth ≤ maxNesting) :
    level.branch.Fits .branch ∧ depth + level.branch.nesting ≤ maxNesting := by
  fun_cases Level.branch level with
  | case1 => exact ⟨.empty, hdepth⟩
  | case2 item hitems =>
      have hitem := hlevel.items item (by rw [hitems]; exact List.mem_singleton_self item)
      exact ⟨.item hitem.1, hitem.2⟩
  | case3 hnone hone =>
      have hlength : 2 ≤ level.items.reverse.length := by
        rw [List.length_reverse]
        exact two_le_length hnone hone
      have hmem {item : Node} (hitem : item ∈ level.items.reverse) :=
        hlevel.items item (List.mem_reverse.mp hitem)
      refine ⟨.concat hlength fun item hitem => (hmem hitem).1, ?_⟩
      have hnesting : nestingOf level.items.reverse ≤ maxNesting - depth :=
        nestingOf_le_iff.mpr fun item hitem => Nat.le_sub_of_add_le' (hmem hitem).2
      rw [Node.nesting]
      omega

theorem node (hlevel : level.Fits depth) (hdepth : depth ≤ maxNesting) :
    level.node.Fits .pattern ∧ depth + level.node.nesting ≤ maxNesting := by
  have hbranch := hlevel.branch hdepth
  fun_cases Level.node level with
  | case1 => exact ⟨.branch hbranch.1, hbranch.2⟩
  | case2 hsome =>
      have hlength : 2 ≤ (level.branch :: level.branches).reverse.length := by
        have hpositive := List.length_pos_iff.mpr hsome
        rw [List.length_reverse, List.length_cons]
        omega
      have hmem : ∀ branch ∈ (level.branch :: level.branches).reverse,
          branch.Fits .branch ∧ depth + branch.nesting ≤ maxNesting := by
        intro branch hbranches
        rcases List.mem_cons.mp (List.mem_reverse.mp hbranches) with rfl | hbranches
        · exact hbranch
        · exact hlevel.branches branch hbranches
      refine ⟨.alternate hlength fun branch hbranches => (hmem branch hbranches).1, ?_⟩
      have hnesting : nestingOf (level.branch :: level.branches).reverse ≤ maxNesting - depth :=
        nestingOf_le_iff.mpr fun branch hbranches =>
          Nat.le_sub_of_add_le' (hmem branch hbranches).2
      rw [Node.nesting]
      omega

theorem nextBranch (hlevel : level.Fits depth) (hdepth : depth ≤ maxNesting) :
    level.nextBranch.Fits depth :=
  ⟨List.forall_mem_cons.mpr ⟨hlevel.branch hdepth, hlevel.branches⟩, nofun, fun _ => nofun⟩

theorem push (hlevel : level.Fits depth) {item : Node} (hitem : item.Fits .atom)
    (hnesting : depth + item.nesting ≤ maxNesting) : (level.push item).Fits depth :=
  ⟨hlevel.branches, List.forall_mem_cons.mpr ⟨⟨.atom hitem, hnesting⟩, hlevel.items⟩,
    fun _ _ hlatest => Option.some.inj hlatest ▸ hitem⟩

end Level.Fits

theorem Level.repeatable?_eq_some {level : Level} {item : Node} {before : List Node}
    (hrepeatable : level.repeatable? = some (item, before)) :
    level.items = item :: before ∧ level.repeated = false := by
  revert hrepeatable
  fun_cases Level.repeatable? level with
  | case1 | case3 => intro hrepeatable; cases hrepeatable
  | case2 latest earlier hitems hrepeated =>
      intro hrepeatable
      cases hrepeatable
      exact ⟨hitems, by simpa using hrepeated⟩

theorem Level.Fits.pushRepeated {depth : Nat} {level : Level} (hlevel : level.Fits depth)
    {item : Node} {before : List Node} (hrepeatable : level.repeatable? = some (item, before))
    {bounds : Nat × Option Nat} (hbounds : BoundsFit bounds.1 bounds.2) (greedy : Bool) :
    (level.pushRepeated item before bounds greedy).Fits depth := by
  obtain ⟨hitems, hrepeated⟩ := Level.repeatable?_eq_some hrepeatable
  obtain ⟨hitem, hbefore⟩ := List.forall_mem_cons.mp (hitems ▸ hlevel.items)
  have hatom : item.Fits .atom := hlevel.latest hrepeated item (by rw [hitems]; exact rfl)
  refine ⟨hlevel.branches, ?_, nofun⟩
  exact List.forall_mem_cons.mpr ⟨⟨.repetition greedy hbounds hatom, hitem.2⟩, hbefore⟩

theorem Level.captures_branch (level : Level) :
    level.branch.captures = capturesOf level.items.reverse := by
  fun_cases Level.branch level with
  | case1 hitems =>
      rw [hitems]
      rfl
  | case2 item hitems =>
      rw [hitems]
      exact (List.append_nil _).symm
  | case3 => rfl

theorem Level.captures_nextBranch (level : Level) : level.nextBranch.captures = level.captures := by
  simp only [Level.captures, Level.nextBranch, List.reverse_cons, capturesOf_append,
    Level.captures_branch, capturesOf, List.reverse_nil, List.append_nil]

theorem Level.captures_node (level : Level) : level.node.captures = level.captures := by
  fun_cases Level.node level with
  | case1 hbranches =>
      rw [Level.captures, hbranches, Level.captures_branch]
      rfl
  | case2 =>
      rw [Node.captures, List.reverse_cons, capturesOf_append, capturesOf, capturesOf,
        List.append_nil, Level.captures_branch]
      rfl

theorem Level.captures_push (level : Level) (item : Node) :
    (level.push item).captures = level.captures ++ item.captures := by
  simp only [Level.captures, Level.push, List.reverse_cons, capturesOf_append, capturesOf,
    List.append_nil, List.append_assoc]

theorem Level.captures_pushRepeated {level : Level} {item : Node} {before : List Node}
    (hrepeatable : level.repeatable? = some (item, before)) (bounds : Nat × Option Nat)
    (greedy : Bool) :
    (level.pushRepeated item before bounds greedy).captures = level.captures := by
  simp only [Level.captures, Level.pushRepeated, (Level.repeatable?_eq_some hrepeatable).1,
    List.reverse_cons, capturesOf_append, capturesOf, Node.captures]

def openCaptures : List OpenGroup → List Nat
  | [] => []
  | group :: outer => openCaptures outer ++ group.outer.captures ++ group.index.toList

def OpenFits : List OpenGroup → Prop
  | [] => True
  | group :: outer => outer.length < maxNesting ∧ group.outer.Fits outer.length ∧ OpenFits outer

theorem OpenFits.length_le {opened : List OpenGroup} (hopened : OpenFits opened) :
    opened.length ≤ maxNesting := by
  cases opened with
  | nil => exact Nat.zero_le _
  | cons group outer => exact hopened.1

theorem groups_of_readOpening {position groups count : Nat} {input after : Input}
    {index : Option Nat} (hread : readOpening position groups input = .ok ((index, count), after))
    (hgroups : groups ≤ maxGroups) :
    count ≤ maxGroups ∧ List.range' 1 count = List.range' 1 groups ++ index.toList := by
  revert hread
  fun_cases readOpening position groups input with
  | case1 =>
      intro hread
      cases hread
      exact ⟨hgroups, (List.append_nil _).symm⟩
  | case2 | case3 => intro hread; cases hread
  | case4 hmore =>
      intro hread
      cases hread
      refine ⟨Nat.lt_of_not_le hmore, ?_⟩
      rw [List.range'_1_concat, Nat.add_comm 1 groups]
      rfl

/-- A tree that is read up to the end fits, whatever had been read before. -/
theorem canonical_of_readPattern {level : Level} {opened : List OpenGroup} {groups count : Nat}
    {input : Input} {node : Node} (hlevel : level.Fits opened.length) (hopened : OpenFits opened)
    (hcaptures : openCaptures opened ++ level.captures = List.range' 1 groups)
    (hgroups : groups ≤ maxGroups)
    (hread : readPattern level opened groups input = .ok (node, count)) :
    node.Canonical count := by
  fun_induction readPattern level opened groups input with
  | case1 level groups input hrest =>
      cases hread
      obtain ⟨hfits, hnesting⟩ := hlevel.node hopened.length_le
      rw [openCaptures, List.nil_append] at hcaptures
      exact ⟨hfits, level.captures_node.trans hcaptures, hgroups,
        Nat.le_trans (Nat.le_add_left _ _) hnesting⟩
  | case3 level opened groups input c rest hrest hshorter hbar ih =>
      refine ih (hlevel.nextBranch hopened.length_le) hopened ?_ hgroups hread
      rw [Level.captures_nextBranch, hcaptures]
  | case5 level groups input c rest hrest hshorter hbar hclose group outer ih =>
      obtain ⟨hroom, houter, hothers⟩ := hopened
      obtain ⟨hfits, hnesting⟩ := hlevel.node hroom
      refine ih (houter.push (.group _ hfits) ?_) hothers ?_ hgroups hread
      · rw [List.length_cons] at hnesting
        rw [Node.nesting]
        omega
      · rw [← hcaptures, OpenGroup.close, Level.captures_push, Node.captures, Level.captures_node]
        simp only [openCaptures, List.append_assoc]
  | case8 level opened groups input c rest hrest hshorter hbar hclose hopen hnesting index number
      after hopening hlength ih =>
      obtain ⟨hnumber, hrange⟩ := groups_of_readOpening hopening hgroups
      refine ih (.start _) ⟨Nat.lt_of_not_le hnesting, hlevel, hopened⟩ ?_ hnumber hread
      rw [openCaptures, hcaptures, hrange]
      exact List.append_nil _
  | case11 level opened groups input c rest hrest hshorter hbar hclose hopen kind hkind item before
      hrepeatable bounds after hbounds =>
      rename_i ih
      refine ih (hlevel.pushRepeated hrepeatable (fit_of_readRepeater hbounds) _) hopened ?_ hgroups
        hread
      rw [Level.captures_pushRepeated hrepeatable, hcaptures]
  | case13 level opened groups input c rest hrest hshorter hbar hclose hopen hkind item after hatom
      hlength ih =>
      obtain ⟨hfits, hnone, hflat⟩ := fits_of_readAtom hatom
      refine ih (hlevel.push hfits ?_) hopened ?_ hgroups hread
      · rw [hflat]
        exact hopened.length_le
      · rw [Level.captures_push, hnone, List.append_nil, hcaptures]
  | _ => cases hread

theorem exists_readPattern_of_parse {text : String} {parsed : Parsed}
    (hparse : parse text = .ok parsed) :
    ∃ input, readPattern Level.start [] 0 input = .ok (parsed.node, parsed.groups) := by
  revert hparse
  fun_cases parse text with
  | case1 | case2 => intro hparse; cases hparse
  | case3 flags input hflags node groups hread =>
      intro hparse
      cases hparse
      exact ⟨input, hread⟩

/-- Whatever the text, its tree fits the grammar, counts its groups and keeps within the bounds. -/
theorem canonical_of_parse {text : String} {parsed : Parsed} (hparse : parse text = .ok parsed) :
    parsed.node.Canonical parsed.groups := by
  obtain ⟨input, hread⟩ := exists_readPattern_of_parse hparse
  have hstart : Level.start.Fits ([] : List OpenGroup).length := .start 0
  exact canonical_of_readPattern hstart trivial rfl (Nat.zero_le _) hread

theorem canonical_of_parse_nested :
    ∃ parsed, parse "(?i)a(?:\\b|(c\\D)*)|.\x7b2,5\x7d?$" = .ok parsed ∧
      parsed.node.Canonical parsed.groups := by
  have hparse : parse "(?i)a(?:\\b|(c\\D)*)|.\x7b2,5\x7d?$" =
      .ok ⟨.alternate [
        .concat [.literal 'a', .group none (.alternate [.assertion .wordBoundary,
          .repetition (.group (some 1) (.concat [.literal 'c',
            .oneOf (.ofRanges CodeSet.digits true)])) 0 none true])],
        .concat [.repetition .any 2 (some 5) false, .assertion .dollar]],
        1, ⟨true, false, false⟩⟩ := by cbv
  exact ⟨_, hparse, canonical_of_parse hparse⟩

end TextColumns.Pattern
