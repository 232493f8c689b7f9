import TextColumns.Proofs.Pattern.Context
import TextColumns.Proofs.Pattern.Tokens

/-!
Places of atoms.  Each literal of a tree stands at a place of the pattern's text, and another atom
that is written at that place stands in the tree where the literal stood.
-/

namespace TextColumns.Pattern

inductive LevelContext where
  | inBranch (before : List Node) (branch : Context) (behind items : List Node) (repeated : Bool)
  | inItem (branches before : List Node) (item : Context) (behind : List Node) (repeated : Bool)

def LevelContext.fill (node : Node) : LevelContext → Level
  | .inBranch before branch behind items repeated =>
    ⟨before ++ branch.fill node :: behind, items, repeated⟩
  | .inItem branches before item behind repeated =>
    ⟨branches, before ++ item.fill node :: behind, repeated⟩

/-- A stage with one place left open, in the level that is being read or in one around it. -/
inductive StageContext where
  | inside (level : LevelContext) (opened : List (Option Nat × Level)) (groups : Nat)
  | outside (level : Level) (before : List (Option Nat × Level)) (index : Option Nat)
    (outer : LevelContext) (behind : List (Option Nat × Level)) (groups : Nat)

def StageContext.fill (node : Node) : StageContext → Stage
  | .inside level opened groups => ⟨level.fill node, opened, groups⟩
  | .outside level before index outer behind groups =>
    ⟨level, before ++ (index, outer.fill node) :: behind, groups⟩

/-! ### Where a literal comes from

A literal at a place of what has been built comes from the same place of what was there before, or
it is what has just been read. -/

variable {c : Char} {level : Level} {stage : Stage}

theorem branch_of_two_le (branches : List Node) {items : List Node} (repeated : Bool)
    (hlength : 2 ≤ items.length) :
    Level.branch ⟨branches, items, repeated⟩ = .concat items.reverse := by
  match items with
  | [] | [_] => simp at hlength
  | _ :: _ :: _ => rfl

theorem node_of_ne_nil {branches : List Node} (items : List Node) (repeated : Bool)
    (hbranches : branches ≠ []) :
    Level.node ⟨branches, items, repeated⟩ =
      .alternate (Level.branch ⟨branches, items, repeated⟩ :: branches).reverse := by
  match branches with
  | [] => exact absurd rfl hbranches
  | _ :: _ => rfl

theorem open_of_branch {context : Context} (hbranch : level.branch = context.fill (.literal c)) :
    ∃ before item behind, level.items = before ++ Context.fill (.literal c) item :: behind ∧
      ∀ branches repeated node,
        Level.branch ⟨branches, before ++ item.fill node :: behind, repeated⟩ =
          context.fill node := by
  obtain ⟨branches, items, repeated⟩ := level
  match items with
  | [] => cases context <;> cases hbranch
  | [item] =>
      obtain rfl : item = context.fill (.literal c) := hbranch
      exact ⟨[], context, [], rfl, fun _ _ _ => rfl⟩
  | first :: second :: items =>
      cases context with
      | concat before item behind =>
          have hitems : first :: second :: items =
              behind.reverse ++ item.fill (.literal c) :: before.reverse := by
            rw [← List.reverse_inj, Node.concat.inj hbranch]
            simp
          refine ⟨behind.reverse, item, before.reverse, hitems, fun branches repeated node => ?_⟩
          have hlength : 2 ≤ (behind.reverse ++ item.fill node :: before.reverse).length := by
            have hlength := congrArg List.length hitems
            simp only [List.length_append, List.length_cons] at hlength ⊢
            omega
          rw [branch_of_two_le branches repeated hlength]
          simp [Context.fill]
      | _ => cases hbranch

theorem open_of_node {context : Context} (hnode : level.node = context.fill (.literal c)) :
    ∃ place : LevelContext, place.fill (.literal c) = level ∧
      ∀ node, (place.fill node).node = context.fill node := by
  obtain ⟨branches, items, repeated⟩ := level
  match branches with
  | [] =>
      obtain ⟨before, item, behind, hitems, hbranch⟩ := open_of_branch hnode
      exact ⟨.inItem [] before item behind repeated, congrArg (Level.mk [] · repeated) hitems.symm,
        fun node => hbranch [] repeated node⟩
  | last :: branches =>
      cases context with
      | alternate before branch behind =>
          have hbranches : Level.branch ⟨last :: branches, items, repeated⟩ :: last :: branches =
              behind.reverse ++ branch.fill (.literal c) :: before.reverse := by
            rw [← List.reverse_inj]
            simpa using Node.alternate.inj hnode
          rcases List.cons_eq_append_iff.mp hbranches with
            ⟨hbehind, hfirst⟩ | ⟨front, hbehind, hothers⟩
          · obtain ⟨hbranch, hothers⟩ := List.cons.inj hfirst
            obtain ⟨before', item, behind', hitems, hopen⟩ := open_of_branch hbranch.symm
            refine ⟨.inItem (last :: branches) before' item behind' repeated,
              congrArg (Level.mk _ · repeated) hitems.symm, fun node => ?_⟩
            rw [LevelContext.fill, node_of_ne_nil _ _ (List.cons_ne_nil _ _), hopen, ← hothers]
            simp [Context.fill, List.reverse_eq_nil_iff.mp hbehind]
          · refine ⟨.inBranch front branch before.reverse items repeated,
              congrArg (Level.mk · items repeated) hothers.symm, fun node => ?_⟩
            rw [LevelContext.fill, node_of_ne_nil _ _ (by simp)]
            have hbehind := congrArg List.reverse hbehind
            rw [List.reverse_reverse] at hbehind
            rw [hbehind]
            simp [Context.fill, Level.branch]
      | _ => cases hnode

theorem open_of_nextBranch {place : LevelContext}
    (hnext : place.fill (.literal c) = level.nextBranch) :
    ∃ earlier : LevelContext, earlier.fill (.literal c) = level ∧
      ∀ node, (earlier.fill node).nextBranch = place.fill node := by
  obtain ⟨branches, items, repeated⟩ := level
  cases place with
  | inItem _ before item behind =>
      cases before <;> cases hnext
  | inBranch before branch behind _ _ =>
      obtain ⟨hbranches, rfl, rfl⟩ := Level.mk.inj hnext
      rcases List.append_eq_cons_iff.mp hbranches with ⟨rfl, hfirst⟩ | ⟨front, rfl, rfl⟩
      · obtain ⟨hbranch, rfl⟩ := List.cons.inj hfirst
        obtain ⟨before, item, others, hitems, hopen⟩ := open_of_branch hbranch.symm
        refine ⟨.inItem behind before item others repeated,
          congrArg (Level.mk _ · repeated) hitems.symm, fun node => ?_⟩
        exact congrArg (Level.mk · [] false) (congrArg (· :: behind) (hopen behind repeated node))
      · exact ⟨.inBranch front branch behind items repeated, rfl, fun _ => rfl⟩

theorem open_of_push {place : LevelContext} {item : Node}
    (hnext : place.fill (.literal c) = level.push item) :
    (∃ context : Context, context.fill (.literal c) = item ∧
        ∀ node, level.push (context.fill node) = place.fill node) ∨
      ∃ earlier : LevelContext, earlier.fill (.literal c) = level ∧
        ∀ node, (earlier.fill node).push item = place.fill node := by
  obtain ⟨branches, items, repeated⟩ := level
  cases place with
  | inBranch before branch behind _ _ =>
      obtain ⟨rfl, rfl, rfl⟩ := Level.mk.inj hnext
      exact .inr ⟨.inBranch before branch behind items repeated, rfl, fun _ => rfl⟩
  | inItem branches before context behind _ =>
      obtain ⟨rfl, hitems, rfl⟩ := Level.mk.inj hnext
      rcases List.append_eq_cons_iff.mp hitems with ⟨rfl, hfirst⟩ | ⟨front, rfl, rfl⟩
      · obtain ⟨hitem, rfl⟩ := List.cons.inj hfirst
        exact .inl ⟨context, hitem, fun _ => rfl⟩
      · exact .inr ⟨.inItem branches front context behind repeated, rfl, fun _ => rfl⟩

theorem open_of_repeat? {place : LevelContext} {min : Nat} {max : Option Nat} {greedy : Bool}
    (hnext : level.repeat? min max greedy = some (place.fill (.literal c))) :
    ∃ earlier : LevelContext, earlier.fill (.literal c) = level ∧
      ∀ node, (earlier.fill node).repeat? min max greedy = some (place.fill node) := by
  obtain ⟨branches, items, repeated⟩ := level
  match items, repeated with
  | [], _ | _ :: _, true => cases hnext
  | item :: items, false =>
      have hnext := Option.some.inj hnext
      cases place with
      | inBranch before branch behind _ _ =>
          obtain ⟨rfl, rfl, rfl⟩ := Level.mk.inj hnext
          exact ⟨.inBranch before branch behind (item :: items) false, rfl, fun _ => rfl⟩
      | inItem _ before context behind _ =>
          obtain ⟨rfl, hitems, rfl⟩ := Level.mk.inj hnext
          rcases List.cons_eq_append_iff.mp hitems with ⟨rfl, hfirst⟩ | ⟨front, rfl, rfl⟩
          · obtain ⟨hitem, rfl⟩ := List.cons.inj hfirst
            cases context with
            | repetition body _ _ _ =>
                cases hitem
                exact ⟨.inItem branches [] body behind false, rfl, fun _ => rfl⟩
            | _ => cases hitem
          · exact ⟨.inItem branches (item :: front) context behind false, rfl, fun _ => rfl⟩

theorem open_of_level {change : Level → Option Level} {place : StageContext}
    (hchange : ∀ place : LevelContext, change stage.level = some (place.fill (.literal c)) →
      ∃ earlier : LevelContext, earlier.fill (.literal c) = stage.level ∧
        ∀ node, change (earlier.fill node) = some (place.fill node))
    (hstep : (change stage.level).map (fun level => { stage with level := level }) =
      some (place.fill (.literal c))) :
    ∃ earlier : StageContext, earlier.fill (.literal c) = stage ∧
      ∀ node, (change (earlier.fill node).level).map
        (fun level => { earlier.fill node with level := level }) = some (place.fill node) := by
  obtain ⟨level, opened, groups⟩ := stage
  obtain ⟨next, hnext, hstep⟩ := Option.map_eq_some_iff.mp hstep
  cases place with
  | inside place _ _ =>
      obtain ⟨rfl, rfl, rfl⟩ := Stage.mk.inj hstep
      obtain ⟨earlier, rfl, hopen⟩ := hchange place hnext
      exact ⟨.inside earlier opened groups, rfl, fun node => by
        rw [StageContext.fill, hopen]
        rfl⟩
  | outside _ before index outer behind _ =>
      obtain ⟨rfl, rfl, rfl⟩ := Stage.mk.inj hstep
      exact ⟨.outside level before index outer behind groups, rfl, fun node => by
        rw [StageContext.fill, hnext]
        rfl⟩

theorem fill_ne_start (place : LevelContext) (node : Node) : place.fill node ≠ .start := by
  cases place with
  | inBranch before => cases before <;> exact nofun
  | inItem _ before => cases before <;> exact nofun

theorem fill_ne_startStage (place : StageContext) (node : Node) : place.fill node ≠ .start := by
  cases place with
  | inside level => exact fun heq => fill_ne_start level node (Stage.mk.inj heq).1
  | outside _ before => cases before <;> exact nofun

theorem open_of_opening {place : StageContext} {index : Option Nat} {groups : Nat}
    (hnext : place.fill (.literal c) = ⟨.start, (index, stage.level) :: stage.opened, groups⟩) :
    ∃ earlier : StageContext, earlier.fill (.literal c) = stage ∧
      ∀ node, (earlier.fill node).opened.length = stage.opened.length ∧
        (earlier.fill node).groups = stage.groups ∧
        ⟨.start, (index, (earlier.fill node).level) :: (earlier.fill node).opened, groups⟩ =
          place.fill node := by
  obtain ⟨level, opened, counted⟩ := stage
  cases place with
  | inside place => exact absurd (Stage.mk.inj hnext).1 (fill_ne_start place _)
  | outside _ before _ outer behind _ =>
      obtain ⟨rfl, hopened, rfl⟩ := Stage.mk.inj hnext
      rcases List.append_eq_cons_iff.mp hopened with ⟨rfl, hfirst⟩ | ⟨front, rfl, rfl⟩
      · obtain ⟨hgroup, rfl⟩ := List.cons.inj hfirst
        cases hgroup
        exact ⟨.inside outer behind counted, rfl, fun node => ⟨rfl, rfl, rfl⟩⟩
      · exact ⟨.outside level front _ outer behind counted, rfl, fun node =>
          ⟨by simp [StageContext.fill], rfl, rfl⟩⟩

theorem open_of_close {place : StageContext} {index : Option Nat} {outer : Level}
    {opened : List (Option Nat × Level)} (hopened : stage.opened = (index, outer) :: opened)
    (hnext : place.fill (.literal c) =
      ⟨outer.push (.group index stage.level.node), opened, stage.groups⟩) :
    ∃ earlier : StageContext, earlier.fill (.literal c) = stage ∧
      ∀ node, Token.step (earlier.fill node) .close = some (place.fill node) := by
  obtain ⟨level, _, groups⟩ := stage
  obtain rfl := hopened
  cases place with
  | inside place opened groups =>
      obtain ⟨hlevel, rfl, rfl⟩ := Stage.mk.inj hnext
      rcases open_of_push hlevel with ⟨context, hgroup, hopen⟩ | ⟨earlier, rfl, hopen⟩
      · cases context with
        | group index body =>
            obtain ⟨rfl, hbody⟩ := Node.group.inj hgroup
            obtain ⟨earlier, rfl, hnode⟩ := open_of_node hbody.symm
            refine ⟨.inside earlier ((index, outer) :: opened) groups, rfl, fun node => ?_⟩
            rw [StageContext.fill, StageContext.fill, ← hopen, Context.fill, ← hnode]
            rfl
        | _ => cases hgroup
      · refine ⟨.outside level [] index earlier opened groups, rfl, fun node => ?_⟩
        rw [StageContext.fill, StageContext.fill, ← hopen]
        rfl
  | outside _ before _ _ behind groups =>
      obtain ⟨rfl, rfl, rfl⟩ := Stage.mk.inj hnext
      exact ⟨.outside level ((index, outer) :: before) _ _ behind groups, rfl, fun _ => rfl⟩

theorem open_of_step {token : Token} {place : StageContext}
    (hstep : token.step stage = some (place.fill (.literal c))) :
    (∃ context : Context, token = .atom (context.fill (.literal c)) ∧
        ∀ node, Token.step stage (.atom (context.fill node)) = some (place.fill node)) ∨
      ∃ earlier : StageContext, earlier.fill (.literal c) = stage ∧
        ∀ node, token.step (earlier.fill node) = some (place.fill node) := by
  cases token with
  | bar =>
      have hchange (place : LevelContext)
          (hnext : some stage.level.nextBranch = some (place.fill (.literal c))) :
          ∃ earlier : LevelContext, earlier.fill (.literal c) = stage.level ∧
            ∀ node, some (earlier.fill node).nextBranch = some (place.fill node) := by
        obtain ⟨earlier, hearlier, hopen⟩ := open_of_nextBranch (Option.some.inj hnext).symm
        exact ⟨earlier, hearlier, fun node => congrArg some (hopen node)⟩
      exact .inr (@open_of_level c stage (fun level => some level.nextBranch) place hchange hstep)
  | close =>
      cases hopened : stage.opened with
      | nil =>
          rw [Token.step, hopened] at hstep
          cases hstep
      | cons group outer =>
          rw [Token.step, hopened] at hstep
          exact .inr (open_of_close hopened (Option.some.inj hstep).symm)
  | group =>
      rw [Token.step] at hstep
      by_cases hnesting : maxNesting ≤ stage.opened.length
      · rw [if_pos hnesting] at hstep
        cases hstep
      · rw [if_neg hnesting] at hstep
        obtain ⟨earlier, hearlier, hopen⟩ := open_of_opening (Option.some.inj hstep).symm
        refine .inr ⟨earlier, hearlier, fun node => ?_⟩
        obtain ⟨hlength, hgroups, hnext⟩ := hopen node
        rw [Token.step, hlength, if_neg hnesting, hgroups, hnext]
  | capture =>
      rw [Token.step] at hstep
      by_cases hfull : maxNesting ≤ stage.opened.length ∨ maxGroups ≤ stage.groups
      · rw [if_pos hfull] at hstep
        cases hstep
      · rw [if_neg hfull] at hstep
        obtain ⟨earlier, hearlier, hopen⟩ := open_of_opening (Option.some.inj hstep).symm
        refine .inr ⟨earlier, hearlier, fun node => ?_⟩
        obtain ⟨hlength, hgroups, hnext⟩ := hopen node
        rw [Token.step, hlength, hgroups, if_neg hfull, hnext]
  | repeater min max greedy =>
      exact .inr (open_of_level (fun _ => open_of_repeat?) hstep)
  | atom item =>
      obtain ⟨level, opened, groups⟩ := stage
      cases place with
      | inside place opened groups =>
          obtain ⟨hlevel, rfl, rfl⟩ := Stage.mk.inj (Option.some.inj hstep).symm
          rcases open_of_push hlevel with ⟨context, rfl, hopen⟩ | ⟨earlier, rfl, hopen⟩
          · refine .inl ⟨context, rfl, fun node => ?_⟩
            rw [Token.step, StageContext.fill, ← hopen]
          · refine .inr ⟨.inside earlier opened groups, rfl, fun node => ?_⟩
            rw [Token.step, StageContext.fill, StageContext.fill, ← hopen]
      | outside _ before index outer behind groups =>
          obtain ⟨rfl, rfl, rfl⟩ := Stage.mk.inj (Option.some.inj hstep).symm
          exact .inr ⟨.outside level before index outer behind groups, rfl, fun _ => rfl⟩

theorem open_of_build {tokens : List Token} {context : Context} {groups : Nat}
    (hbuild : build stage tokens = some (context.fill (.literal c), groups)) :
    (∃ before atom behind, tokens = before ++ .atom (Context.fill (.literal c) atom) :: behind ∧
        ∀ node, build stage (before ++ .atom (atom.fill node) :: behind) =
          some (context.fill node, groups)) ∨
      ∃ place : StageContext, place.fill (.literal c) = stage ∧
        ∀ node, build (place.fill node) tokens = some (context.fill node, groups) := by
  induction tokens generalizing stage with
  | nil =>
      obtain ⟨level, opened, counted⟩ := stage
      cases opened with
      | cons => cases hbuild
      | nil =>
          obtain ⟨hnode, rfl⟩ := Prod.mk.inj (Option.some.inj hbuild)
          obtain ⟨place, rfl, hopen⟩ := open_of_node hnode
          exact .inr ⟨.inside place [] counted, rfl, fun node =>
            congrArg (fun node => some (node, counted)) (hopen node)⟩
  | cons token tokens ih =>
      obtain ⟨next, hstep, hrest⟩ := Option.bind_eq_some_iff.mp hbuild
      rcases ih hrest with ⟨before, atom, behind, rfl, hopen⟩ | ⟨place, rfl, hopen⟩
      · refine .inl ⟨token :: before, atom, behind, rfl, fun node => ?_⟩
        rw [List.cons_append, build, hstep]
        exact hopen node
      · rcases open_of_step hstep with ⟨context, rfl, hnext⟩ | ⟨earlier, hearlier, hnext⟩
        · refine .inl ⟨[], context, tokens, rfl, fun node => ?_⟩
          rw [List.nil_append, build, hnext]
          exact hopen node
        · refine .inr ⟨earlier, hearlier, fun node => ?_⟩
          rw [build, hnext]
          exact hopen node

theorem SpellsToken.exists_spelled {text tail : List Char} {token : Token}
    (hspells : SpellsToken tail text token) :
    ∃ spelled, text = spelled ++ tail ∧
      ∀ other : List Char, (other.head? = some '?' → tail.head? = some '?') →
        SpellsToken other (spelled ++ other) token := by
  cases hspells with
  | bar => exact ⟨['|'], rfl, fun _ _ => .bar⟩
  | close => exact ⟨[')'], rfl, fun _ _ => .close⟩
  | group => exact ⟨['(', '?', ':'], rfl, fun _ _ => .group⟩
  | capture htail => exact ⟨['('], rfl, fun _ hhead => .capture fun heq => htail (hhead heq)⟩
  | @repeater spelled min max greedy hbounds hmark =>
      refine ⟨spelled ++ mark greedy, (List.append_assoc ..).symm, fun other hhead => ?_⟩
      rw [List.append_assoc]
      exact .repeater greedy hbounds fun hgreedy heq => hmark hgreedy (hhead heq)
  | atom hatom => exact ⟨_, rfl, fun _ _ => .atom hatom⟩

theorem SpellsTokens.in_place {text : List Char} {before behind : List Token} {node : Node}
    (hspells : SpellsTokens text (before ++ .atom node :: behind)) :
    ∃ front spelled back, text = front ++ (spelled ++ back) ∧ SpellsAtom spelled node ∧
      ∀ other node, SpellsAtom other node →
        SpellsTokens (front ++ (other ++ back)) (before ++ .atom node :: behind) := by
  induction before generalizing text with
  | nil =>
      cases hspells with
      | cons htoken htokens =>
          cases htoken with
          | atom hatom =>
              refine ⟨[], _, _, rfl, hatom, fun other node hother => ?_⟩
              rw [List.nil_append]
              exact .cons (.atom hother) htokens
  | cons token before ih =>
      cases hspells with
      | cons htoken htokens =>
          obtain ⟨front, spelled, back, rfl, hatom, hplace⟩ := ih htokens
          obtain ⟨opening, rfl, hopening⟩ := htoken.exists_spelled
          refine ⟨opening ++ front, spelled, back, (List.append_assoc ..).symm, hatom,
            fun other node hother => ?_⟩
          rw [List.append_assoc]
          refine .cons (hopening _ fun hhead => ?_) (hplace other node hother)
          cases front with
          | nil =>
              obtain ⟨c, rest, rfl, hstarts⟩ := hother.exists_cons
              obtain rfl : c = '?' := Option.some.inj hhead
              cases hstarts.repeater
          | cons => exact hhead

theorem readFlagLetters_in_place {letters : List Char} {flags read : Flags} {offset : Nat}
    {after : Input} (hread : readFlagLetters flags offset letters = .ok (read, after)) :
    ∃ spelled, spelled ≠ [] ∧ letters = spelled ++ after.rest ∧
      ∀ other, ∃ further, further.rest = other ∧
        readFlagLetters flags offset (spelled ++ other) = .ok (read, further) := by
  fun_induction readFlagLetters flags offset letters with
  | case1 => cases hread
  | case2 flags offset rest ih | case3 flags offset rest ih | case4 flags offset rest ih =>
      obtain ⟨spelled, -, rfl, hplace⟩ := ih hread
      exact ⟨_ :: spelled, List.cons_ne_nil _ _, rfl, hplace⟩
  | case5 flags offset c rest hi hm hs hclosing =>
      cases hread
      refine ⟨[c], List.cons_ne_nil _ _, rfl, fun other => ⟨⟨other, offset + 1⟩, rfl, ?_⟩⟩
      rw [List.singleton_append, readFlagLetters.eq_5 _ _ _ _ hi hm hs, if_pos hclosing]
  | case6 => cases hread

theorem readFlags_in_place {input after : Input} {flags : Flags}
    (hread : readFlags input = .ok (flags, after)) :
    ∃ opening, input.rest = opening ++ after.rest ∧
      ∀ (wider : Input) (other : List Char), wider.rest = opening ++ other →
        (∀ rest, other = '(' :: '?' :: rest → rest.head? = some ':') →
          ∃ further, further.rest = other ∧ readFlags wider = .ok (flags, further) := by
  have hplain (wider : Input) (other : List Char) (hwider : wider.rest = [] ++ other)
      (hother : ∀ rest, other = '(' :: '?' :: rest → rest.head? = some ':') :
      ∃ further, further.rest = other ∧ readFlags wider = .ok (.none, further) :=
    ⟨wider, hwider, readFlags_none (by rwa [hwider])⟩
  by_cases hgroup : ['(', '?'].isPrefixOf input.rest = true
  · obtain ⟨rest, hrest⟩ := List.isPrefixOf_iff_prefix.mp hgroup
    have hrest : '(' :: '?' :: rest = input.rest := hrest
    rw [readFlags_group hrest.symm] at hread
    by_cases hcolon : (rest.head? == some ':') = true
    · rw [if_pos hcolon] at hread
      cases hread
      exact ⟨[], rfl, hplain⟩
    · rw [if_neg hcolon] at hread
      obtain ⟨spelled, hnonempty, rfl, hplace⟩ := readFlagLetters_in_place hread
      refine ⟨'(' :: '?' :: spelled, hrest.symm, fun wider other hwider _ => ?_⟩
      obtain ⟨further, hfurther, hletters⟩ := hplace other
      rw [List.head?_append_of_ne_nil _ hnonempty] at hcolon
      have hopen : wider.rest = '(' :: '?' :: (spelled ++ other) := hwider
      refine ⟨further, hfurther, ?_⟩
      rw [readFlags_group hopen, List.head?_append_of_ne_nil _ hnonempty, if_neg hcolon, hletters]
  · rw [readFlags_plain hgroup] at hread
    cases hread
    exact ⟨[], rfl, hplain⟩

theorem eq_here_of_spellsAtom {spelled : List Char} {context : Context} {c : Char}
    (hspells : SpellsAtom spelled (context.fill (.literal c))) : context = .here := by
  cases context with
  | here => rfl
  | _ => cases hspells

/-- Another atom may be written at the place of any literal of a pattern, and it stands in the tree
where the literal stood. -/
theorem parse_in_place {text : String} {parsed : Parsed} (hparse : parse text = .ok parsed)
    {context : Context} (hnode : parsed.node = context.fill (.literal c)) :
    ∃ front spelled back, text.toList = front ++ (spelled ++ back) ∧
      SpellsAtom spelled (.literal c) ∧
        ∀ other node, SpellsAtom other node →
          parse (.ofList (front ++ (other ++ back))) =
            .ok { parsed with node := context.fill node } := by
  revert hparse
  fun_cases parse text with
  | case1 | case2 => intro hparse; cases hparse
  | case3 flags input hflags tree groups hread =>
      intro hparse
      cases hparse
      obtain rfl : tree = context.fill (.literal c) := hnode
      obtain ⟨tokens, htokens, hbuild⟩ := tokens_of_readPattern hread
      obtain ⟨opening, hopening, hplaceFlags⟩ := readFlags_in_place hflags
      rcases open_of_build hbuild with ⟨before, atom, behind, rfl, hopen⟩ | ⟨place, hplace, -⟩
      · obtain ⟨front, spelled, back, hrest, hatom, hplace⟩ := htokens.in_place
        obtain rfl := eq_here_of_spellsAtom hatom
        refine ⟨opening ++ front, spelled, back, ?_, hatom, fun other node hother => ?_⟩
        · rw [List.append_assoc, ← hrest]
          exact hopening
        · have htokens := hplace other node hother
          obtain ⟨further, hfurther, hread⟩ := hplaceFlags
            (.ofString (.ofList (opening ++ front ++ (other ++ back)))) (front ++ (other ++ back))
            (by simp [Input.ofString]) fun rest => htokens.head?_eq_colon
          have hpattern : readPattern Level.start [] 0 further = .ok (context.fill node, groups) :=
            SpellsTokens.read (hfurther ▸ htokens) (hopen node)
          simp only [parse, hread, hpattern]
      · exact absurd hplace (fill_ne_startStage place _)

end TextColumns.Pattern
