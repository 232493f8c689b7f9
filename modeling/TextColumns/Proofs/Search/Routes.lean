import TextColumns.Proofs.Search.Closure
import Mathlib.Data.List.Lex
import Mathlib.Data.Set.Insert
import Mathlib.Logic.Relation

/-!
The routes by which a closure comes to the addresses that it enters.  `Spread` says that each
address is given with the most preferred route to it, in the order of the routes, and
`Closing.Runs.spread` that this is what the work on a stack of frames leaves behind.
-/

namespace TextColumns.Search

open Text (Cursor)

/-- A route from one of several visits to a last one.  The first of its turns tells at which of the
visits it begins, the next one which exit it takes there, and so on; it comes to no avoided address
and to none twice. -/
inductive Route (program : Program) : Set Nat → List Visit → List Nat → Visit → Prop
  | stop {avoided : Set Nat} {visit : Visit} {others : List Visit}
      (hnew : visit.address ∉ avoided) : Route program avoided (visit :: others) [0] visit
  | enter {avoided : Set Nat} {visit last : Visit} {others : List Visit} {turns : List Nat}
      (hnew : visit.address ∉ avoided)
      (hroute : Route program (insert visit.address avoided) (visit.exits program) turns last) :
      Route program avoided (visit :: others) (0 :: turns) last
  | pass {avoided : Set Nat} {visit last : Visit} {others : List Visit} {turn : Nat}
      {turns : List Nat} (hroute : Route program avoided others (turn :: turns) last) :
      Route program avoided (visit :: others) ((turn + 1) :: turns) last

/-- The addresses to which visits lead, each with the visit at the end of the first route to it, in
the order of these routes. -/
structure Spread (program : Program) (avoided : Set Nat) (visits : List Visit)
    (found : List (List Nat × Visit)) : Prop where
  route : ∀ entry ∈ found, Route program avoided visits entry.1 entry.2
  first : ∀ entry ∈ found, ∀ turns last, Route program avoided visits turns last →
    last.address = entry.2.address → entry.1 ≤ turns
  complete : ∀ turns last, Route program avoided visits turns last →
    ∃ entry ∈ found, entry.2.address = last.address
  ordered : found.Pairwise fun entry other => entry.1 < other.1

/-- Whether an address leads to another one at a place, without a character and to none of the
avoided addresses. -/
def Leads (program : Program) (cursor : Cursor) (avoided : Set Nat) (address other : Nat) : Prop :=
  other ∉ avoided ∧ ∃ instruction, program.instructions[address]? = some instruction ∧
    rests instruction = false ∧ (other, cursor) ∈ moves program cursor address instruction

variable {program : Program} {cursor : Cursor} {avoided : Set Nat} {visit last : Visit}
  {visits others : List Visit} {turns : List Nat}

theorem Visit.mem_exits {next : Visit} :
    next ∈ visit.exits program ↔ visit.rests program = false ∧ next ∈ visit.onward program := by
  rw [exits]
  cases visit.rests program <;> simp

theorem Visit.cursor_of_mem_exits {next : Visit} (hnext : next ∈ visit.exits program) :
    next.cursor = visit.cursor :=
  have hexit := mem_exits.mp hnext
  cursor_of_mem_onward hexit.2 hexit.1

theorem leads_of_mem_exits {next : Visit} (hnext : next ∈ visit.exits program)
    (hnew : next.address ∉ avoided) :
    Leads program visit.cursor avoided visit.address next.address := by
  obtain ⟨hrests, honward⟩ := Visit.mem_exits.mp hnext
  obtain ⟨instruction, hinstruction, hplace, -⟩ := Visit.mem_onward.mp honward
  rw [Visit.cursor_of_mem_exits hnext] at hplace
  rw [Visit.rests, hinstruction, Option.any_some] at hrests
  exact ⟨hnew, instruction, hinstruction, hrests, hplace⟩

theorem exists_exit_of_leads {address : Nat}
    (hleads : Leads program visit.cursor avoided visit.address address) :
    ∃ next ∈ visit.exits program, next.address = address := by
  obtain ⟨-, instruction, hinstruction, hrests, hplace⟩ := hleads
  refine ⟨⟨address, visit.cursor, recorded visit.cursor visit.slots instruction⟩,
    Visit.mem_exits.mpr ⟨?_, Visit.mem_onward.mpr ⟨instruction, hinstruction, hplace, rfl⟩⟩, rfl⟩
  rw [Visit.rests, hinstruction, Option.any_some, hrests]

theorem Visit.exits_place {other : Visit} (haddress : visit.address = other.address)
    (hcursor : visit.cursor = other.cursor) :
    (visit.exits program).map address = (other.exits program).map address := by
  have hrests : visit.rests program = other.rests program := by rw [rests, rests, haddress]
  rw [exits, exits, hrests, onward, onward, haddress, hcursor]
  split
  · rfl
  · cases program.instructions[other.address]? with
    | none => rfl
    | some instruction => simp only [List.map_map, Function.comp_def]

namespace Route

theorem exists_turn (hroute : Route program avoided visits turns last) :
    ∃ turn rest, turns = turn :: rest := by
  cases hroute <;> exact ⟨_, _, rfl⟩

theorem last_not_mem (hroute : Route program avoided visits turns last) :
    last.address ∉ avoided := by
  induction hroute with
  | stop hnew => exact hnew
  | enter _ _ ih => exact fun hmem => ih (Set.mem_insert_of_mem _ hmem)
  | pass _ ih => exact ih

theorem mono {fewer : Set Nat} (hroute : Route program avoided visits turns last)
    (hfewer : fewer ⊆ avoided) : Route program fewer visits turns last := by
  induction hroute generalizing fewer with
  | stop hnew => exact .stop fun hmem => hnew (hfewer hmem)
  | enter hnew _ ih =>
      exact .enter (fun hmem => hnew (hfewer hmem)) (ih (Set.insert_subset_insert hfewer))
  | pass _ ih => exact .pass (ih hfewer)

theorem of_places {alike : List Visit} (hroute : Route program avoided visits turns last)
    (hplaces : visits.map Visit.address = alike.map Visit.address)
    (hvisits : ∀ visit ∈ visits, visit.cursor = cursor)
    (halike : ∀ visit ∈ alike, visit.cursor = cursor) :
    ∃ reached, Route program avoided alike turns reached ∧ reached.address = last.address := by
  induction hroute generalizing alike with
  | stop hnew =>
      match alike with
      | first :: alike =>
          obtain ⟨hfirst, -⟩ := List.cons.inj hplaces
          exact ⟨first, .stop (hfirst ▸ hnew), hfirst.symm⟩
  | @enter _ visit _ _ _ hnew _ ih =>
      match alike with
      | first :: alike =>
          obtain ⟨hfirst, -⟩ := List.cons.inj hplaces
          have hvisit := hvisits visit List.mem_cons_self
          have hcursor := halike first List.mem_cons_self
          obtain ⟨reached, hreached, haddress⟩ := ih
            (Visit.exits_place hfirst (hvisit.trans hcursor.symm))
            (fun next hnext => (Visit.cursor_of_mem_exits hnext).trans hvisit)
            (fun next hnext => (Visit.cursor_of_mem_exits hnext).trans hcursor)
          exact ⟨reached, .enter (hfirst ▸ hnew) (hfirst ▸ hreached), haddress⟩
  | pass _ ih =>
      match alike with
      | first :: alike =>
          obtain ⟨reached, hreached, haddress⟩ := ih (List.cons.inj hplaces).2
            (List.forall_mem_cons.mp hvisits).2 (List.forall_mem_cons.mp halike).2
          exact ⟨reached, .pass hreached, haddress⟩

/-- A route comes past a place, or what it leads to can be had from there. -/
theorem detour (hroute : Route program avoided visits turns last)
    (hvisits : ∀ other ∈ visits, other.cursor = visit.cursor) :
    Route program (insert visit.address avoided) visits turns last ∨
      last.address = visit.address ∨
      ∃ shorter reached, Route program (insert visit.address avoided) (visit.exits program) shorter
        reached ∧ reached.address = last.address := by
  induction hroute with
  | @stop _ other _ hnew =>
      by_cases hsame : other.address = visit.address
      · exact .inr (.inl hsame)
      · exact .inl (.stop (Set.mem_insert_iff.not.mpr (not_or.mpr ⟨hsame, hnew⟩)))
  | @enter avoided other _ _ _ hnew hroute ih =>
      have hcursor := hvisits other List.mem_cons_self
      have hexits : ∀ next ∈ other.exits program, next.cursor = visit.cursor :=
        fun next hnext => (Visit.cursor_of_mem_exits hnext).trans hcursor
      rcases ih hexits with hpast | hlast | ⟨shorter, reached, hshorter, hreached⟩
      · by_cases hsame : other.address = visit.address
        · -- The route goes through the place, and from there on it is a route from the visit.
          rw [hsame] at hroute
          exact .inr (.inr ⟨_, hroute.of_places (Visit.exits_place hsame hcursor) hexits
            fun next hnext => Visit.cursor_of_mem_exits hnext⟩)
        · rw [Set.insert_comm] at hpast
          exact .inl (.enter (Set.mem_insert_iff.not.mpr (not_or.mpr ⟨hsame, hnew⟩)) hpast)
      · exact .inr (.inl hlast)
      · rw [Set.insert_comm] at hshorter
        exact .inr (.inr ⟨shorter, reached, hshorter.mono (Set.subset_insert _ _), hreached⟩)
  | pass _ ih => exact (ih (List.forall_mem_cons.mp hvisits).2).imp_left .pass

theorem append_left (hroute : Route program avoided visits turns last) (others : List Visit) :
    Route program avoided (visits ++ others) turns last := by
  induction hroute with
  | stop hnew => exact .stop hnew
  | enter hnew hroute => exact .enter hnew hroute
  | pass _ ih => exact .pass ih

theorem append_right {turn : Nat} (hroute : Route program avoided others (turn :: turns) last)
    (visits : List Visit) :
    Route program avoided (visits ++ others) ((turn + visits.length) :: turns) last := by
  induction visits with
  | nil => exact hroute
  | cons _ _ ih => exact .pass ih

theorem of_append {turn : Nat}
    (hroute : Route program avoided (visits ++ others) (turn :: turns) last) :
    if turn < visits.length then Route program avoided visits (turn :: turns) last
    else Route program avoided others ((turn - visits.length) :: turns) last := by
  induction visits generalizing turn with
  | nil => exact hroute
  | cons visit visits ih =>
      cases hroute with
      | stop hnew => exact .stop hnew
      | enter hnew hroute => exact .enter hnew hroute
      | @pass _ _ _ _ turn _ hroute =>
          have hpast := ih hroute
          rw [List.length_cons, Nat.add_sub_add_right]
          by_cases hturn : turn < visits.length
          · rw [if_pos hturn] at hpast
            rw [if_pos (Nat.succ_lt_succ hturn)]
            exact .pass hpast
          · rw [if_neg hturn] at hpast
            rwa [if_neg fun hlt => hturn (Nat.lt_of_succ_lt_succ hlt)]

theorem lt_length {turn : Nat} (hroute : Route program avoided visits (turn :: turns) last) :
    turn < visits.length := by
  generalize hall : turn :: turns = all at hroute
  induction hroute generalizing turn turns with
  | stop | enter =>
      obtain rfl := (List.cons.inj hall).1
      exact Nat.succ_pos _
  | pass _ ih =>
      obtain rfl := (List.cons.inj hall).1
      exact Nat.succ_lt_succ (ih rfl)

end Route

/-- The turns from a visit on or past it, given those from its exits on or past them. -/
def fromFirst (exits : Nat) : List Nat → List Nat
  | [] => []
  | turn :: turns => if turn < exits then 0 :: turn :: turns else (turn - exits + 1) :: turns

theorem fromFirst_of_lt {exits turn : Nat} (hturn : turn < exits) (turns : List Nat) :
    fromFirst exits (turn :: turns) = 0 :: turn :: turns := by
  rw [fromFirst, if_pos hturn]

theorem fromFirst_of_le {exits turn : Nat} (hturn : exits ≤ turn) (turns : List Nat) :
    fromFirst exits (turn :: turns) = (turn - exits + 1) :: turns := by
  rw [fromFirst, if_neg (Nat.not_lt.mpr hturn)]

theorem fromFirst_lt (exits : Nat) {turns later : List Nat} (hlt : turns < later)
    (hturns : turns ≠ []) : fromFirst exits turns < fromFirst exits later := by
  match turns, later with
  | [], _ => exact absurd rfl hturns
  | _ :: _, [] => cases hlt
  | turn :: turns, next :: later =>
      have hcases := List.cons_lt_cons_iff.mp hlt
      rcases Nat.lt_or_ge turn exits with hturn | hturn
      · rw [fromFirst_of_lt hturn]
        rcases Nat.lt_or_ge next exits with hnext | hnext
        · rw [fromFirst_of_lt hnext]
          exact List.cons_lt_cons_iff.mpr (.inr ⟨rfl, hlt⟩)
        · rw [fromFirst_of_le hnext]
          exact List.cons_lt_cons_iff.mpr (.inl (Nat.succ_pos _))
      · rw [fromFirst_of_le hturn, fromFirst_of_le (by omega), List.cons_lt_cons_iff]
        rcases hcases with hless | ⟨rfl, hless⟩
        · exact .inl (by omega)
        · exact .inr ⟨rfl, hless⟩

theorem fromFirst_le (exits : Nat) {turns later : List Nat} (hle : turns ≤ later)
    (hturns : turns ≠ []) : fromFirst exits turns ≤ fromFirst exits later := by
  rcases hle.lt_or_eq with hlt | rfl
  · exact (fromFirst_lt exits hlt hturns).le
  · exact le_rfl

theorem single_le (turn : Nat) (turns : List Nat) : [0] ≤ turn :: turns := by
  cases turn with
  | zero =>
      cases turns with
      | nil => exact le_rfl
      | cons next turns =>
          exact (List.cons_lt_cons_iff.mpr (.inr ⟨rfl, List.nil_lt_cons _ _⟩)).le
  | succ turn => exact (List.cons_lt_cons_iff.mpr (.inl (Nat.succ_pos _))).le

theorem lt_fromFirst {exits : Nat} {turns : List Nat} (hturns : turns ≠ []) :
    [0] < fromFirst exits turns := by
  obtain ⟨turn, turns, rfl⟩ := List.exists_cons_of_ne_nil hturns
  rcases Nat.lt_or_ge turn exits with hturn | hturn
  · rw [fromFirst_of_lt hturn]
    exact List.cons_lt_cons_iff.mpr (.inr ⟨rfl, List.nil_lt_cons _ _⟩)
  · rw [fromFirst_of_le hturn]
    exact List.cons_lt_cons_iff.mpr (.inl (Nat.succ_pos _))

theorem Route.fromFirst (hnew : visit.address ∉ avoided)
    (hroute : Route program (insert visit.address avoided) (visit.exits program ++ others) turns
      last) :
    Route program avoided (visit :: others) (fromFirst (visit.exits program).length turns)
      last := by
  obtain ⟨turn, turns, rfl⟩ := hroute.exists_turn
  have hparts := hroute.of_append
  by_cases hturn : turn < (visit.exits program).length
  · rw [if_pos hturn] at hparts
    rw [fromFirst_of_lt hturn]
    exact .enter hnew hparts
  · rw [if_neg hturn] at hparts
    rw [fromFirst_of_le (Nat.not_lt.mp hturn)]
    exact .pass (hparts.mono (Set.subset_insert _ _))

/-- A route from a visit or past it ends at the visit, or some other that is no less preferred comes
to its end when the visit has been made. -/
theorem Route.behindFirst (hroute : Route program avoided (visit :: others) turns last)
    (hothers : ∀ other ∈ others, other.cursor = visit.cursor) :
    last.address = visit.address ∨
      ∃ earlier reached, Route program (insert visit.address avoided)
          (visit.exits program ++ others) earlier reached ∧
        reached.address = last.address ∧
        Search.fromFirst (visit.exits program).length earlier ≤ turns := by
  cases hroute with
  | stop => exact .inl rfl
  | enter hnew hroute =>
      obtain ⟨turn, turns, rfl⟩ := hroute.exists_turn
      refine .inr ⟨_, last, hroute.append_left others, rfl, ?_⟩
      exact (fromFirst_of_lt hroute.lt_length _).le
  | @pass _ _ _ _ turn turns hroute =>
      rcases hroute.detour hothers with hpast | hlast | ⟨shorter, reached, hshorter, hreached⟩
      · refine .inr ⟨_, last, hpast.append_right (visit.exits program), rfl, ?_⟩
        rw [fromFirst_of_le (Nat.le_add_left _ _), Nat.add_sub_cancel]
      · exact .inl hlast
      · obtain ⟨next, rest, rfl⟩ := hshorter.exists_turn
        refine .inr ⟨_, reached, hshorter.append_left others, hreached, ?_⟩
        rw [fromFirst_of_lt hshorter.lt_length]
        exact (List.cons_lt_cons_iff.mpr (.inl (Nat.succ_pos turn))).le

namespace Spread

variable {found : List (List Nat × Visit)}

theorem nil : Spread program avoided [] [] where
  route := nofun
  first := nofun
  complete := nofun
  ordered := .nil

theorem ordered_fromFirst (hspread : Spread program avoided visits found) (exits : Nat) :
    (found.map (Prod.map (fromFirst exits) id)).Pairwise fun entry other => entry.1 < other.1 := by
  rw [List.pairwise_map]
  refine hspread.ordered.imp_of_mem fun hentry _ hlt => fromFirst_lt exits hlt ?_
  obtain ⟨turn, turns, hturns⟩ := (hspread.route _ hentry).exists_turn
  exact hturns ▸ List.cons_ne_nil turn turns

theorem pass (hspread : Spread program avoided others found) (hvisit : visit.address ∈ avoided) :
    Spread program avoided (visit :: others) (found.map (Prod.map (fromFirst 0) id)) where
  route := List.forall_mem_map.mpr fun entry hentry => by
    have hroute := hspread.route entry hentry
    obtain ⟨turn, turns, hturns⟩ := hroute.exists_turn
    rw [Prod.map_fst, hturns, fromFirst_of_le (Nat.zero_le turn)]
    exact .pass (hturns ▸ hroute)
  first := List.forall_mem_map.mpr fun entry hentry turns last hroute hlast => by
    cases hroute with
    | stop hnew | enter hnew => exact absurd hvisit hnew
    | @pass _ _ _ _ turn turns hroute =>
        obtain ⟨next, rest, hnext⟩ := (hspread.route entry hentry).exists_turn
        have hle := fromFirst_le 0 (hspread.first entry hentry _ last hroute hlast)
          (hnext ▸ List.cons_ne_nil next rest)
        rwa [fromFirst_of_le (Nat.zero_le turn)] at hle
  complete := fun turns last hroute => by
    cases hroute with
    | stop hnew | enter hnew => exact absurd hvisit hnew
    | pass hroute =>
        obtain ⟨entry, hentry, haddress⟩ := hspread.complete _ last hroute
        exact ⟨_, List.mem_map_of_mem hentry, haddress⟩
  ordered := hspread.ordered_fromFirst 0

/-- A visit that is made comes first, and its exits come ahead of the other visits. -/
theorem enter
    (hspread : Spread program (insert visit.address avoided) (visit.exits program ++ others) found)
    (hnew : visit.address ∉ avoided) (hothers : ∀ other ∈ others, other.cursor = visit.cursor) :
    Spread program avoided (visit :: others)
      (([0], visit) :: found.map (Prod.map (fromFirst (visit.exits program).length) id)) where
  route := List.forall_mem_cons.mpr ⟨.stop hnew, List.forall_mem_map.mpr fun entry hentry =>
    (hspread.route entry hentry).fromFirst hnew⟩
  first := by
    refine List.forall_mem_cons.mpr ⟨fun turns last hroute _ => ?_,
      List.forall_mem_map.mpr fun entry hentry turns last hroute hlast => ?_⟩
    · obtain ⟨turn, turns, rfl⟩ := hroute.exists_turn
      exact single_le turn turns
    · have hentryRoute := hspread.route entry hentry
      rcases hroute.behindFirst hothers with hsame | ⟨earlier, reached, hearlier, hreached, hle⟩
      · exact absurd (hlast.symm.trans hsame ▸ Set.mem_insert _ _) hentryRoute.last_not_mem
      · obtain ⟨turn, rest, hturns⟩ := hentryRoute.exists_turn
        have hfirst := hspread.first entry hentry earlier reached hearlier (hreached.trans hlast)
        exact (fromFirst_le _ hfirst (hturns ▸ List.cons_ne_nil turn rest)).trans hle
  complete := fun turns last hroute => by
    rcases hroute.behindFirst hothers with hsame | ⟨earlier, reached, hearlier, hreached, -⟩
    · exact ⟨_, List.mem_cons_self, hsame.symm⟩
    · obtain ⟨entry, hentry, haddress⟩ := hspread.complete earlier reached hearlier
      exact ⟨_, List.mem_cons_of_mem _ (List.mem_map_of_mem hentry), haddress.trans hreached⟩
  ordered := by
    refine List.pairwise_cons.mpr ⟨List.forall_mem_map.mpr fun entry hentry => ?_,
      hspread.ordered_fromFirst _⟩
    obtain ⟨turn, turns, hturns⟩ := (hspread.route entry hentry).exists_turn
    exact lt_fromFirst (hturns ▸ List.cons_ne_nil turn turns)

end Spread

theorem Leads.mono {fewer : Set Nat} {address other : Nat}
    (hleads : Leads program cursor avoided address other) (hfewer : fewer ⊆ avoided) :
    Leads program cursor fewer address other :=
  hleads.imp_left fun hnew hmem => hnew (hfewer hmem)

namespace Route

theorem reaches (hroute : Route program avoided visits turns last)
    (hvisits : ∀ visit ∈ visits, visit.cursor = cursor) :
    ∃ visit ∈ visits, visit.address ∉ avoided ∧
      Relation.ReflTransGen (Leads program cursor avoided) visit.address last.address := by
  induction hroute with
  | stop hnew => exact ⟨_, List.mem_cons_self, hnew, .refl⟩
  | @enter avoided visit _ _ _ hnew _ ih =>
      have hvisit := hvisits visit List.mem_cons_self
      obtain ⟨next, hnext, hfresh, hreaches⟩ := ih fun next hnext =>
        (Visit.cursor_of_mem_exits hnext).trans hvisit
      have hfewer : avoided ⊆ insert visit.address avoided := Set.subset_insert _ _
      have hleads := leads_of_mem_exits hnext fun hmem => hfresh (hfewer hmem)
      rw [hvisit] at hleads
      exact ⟨visit, List.mem_cons_self, hnew,
        .head hleads (hreaches.lift id fun _ _ hlater => hlater.mono hfewer)⟩
  | pass _ ih =>
      obtain ⟨visit, hvisit, hreaches⟩ := ih (List.forall_mem_cons.mp hvisits).2
      exact ⟨visit, List.mem_cons_of_mem _ hvisit, hreaches⟩

theorem exists_of_mem (hvisit : visit ∈ visits) (hnew : visit.address ∉ avoided) :
    ∃ turns, Route program avoided visits turns visit := by
  induction visits with
  | nil => cases hvisit
  | cons first others ih =>
      rcases List.mem_cons.mp hvisit with rfl | hvisit
      · exact ⟨[0], .stop hnew⟩
      · obtain ⟨turns, hroute⟩ := ih hvisit
        obtain ⟨turn, turns, rfl⟩ := hroute.exists_turn
        exact ⟨_, .pass hroute⟩

theorem exists_onward {next : Visit} (hroute : Route program avoided visits turns last)
    (hnext : next ∈ last.exits program) (hnew : next.address ∉ avoided) :
    ∃ turns reached, Route program avoided visits turns reached ∧
      reached.address = next.address := by
  induction hroute with
  | @stop _ visit _ hvisit =>
      by_cases hsame : next.address = visit.address
      · exact ⟨[0], visit, .stop hvisit, hsame.symm⟩
      · obtain ⟨turns, hturns⟩ := exists_of_mem hnext
          (Set.mem_insert_iff.not.mpr (not_or.mpr ⟨hsame, hnew⟩))
        exact ⟨_, next, .enter hvisit hturns, rfl⟩
  | @enter _ visit _ _ _ hvisit _ ih =>
      by_cases hsame : next.address = visit.address
      · exact ⟨[0], visit, .stop hvisit, hsame.symm⟩
      · obtain ⟨turns, reached, hturns, hreached⟩ := ih hnext
          (Set.mem_insert_iff.not.mpr (not_or.mpr ⟨hsame, hnew⟩))
        exact ⟨_, reached, .enter hvisit hturns, hreached⟩
  | pass _ ih =>
      obtain ⟨turns, reached, hturns, hreached⟩ := ih hnext hnew
      obtain ⟨turn, turns, rfl⟩ := hturns.exists_turn
      exact ⟨_, reached, .pass hturns, hreached⟩

theorem cursor_last (hroute : Route program avoided visits turns last)
    (hvisits : ∀ visit ∈ visits, visit.cursor = cursor) : last.cursor = cursor := by
  induction hroute with
  | stop => exact hvisits _ List.mem_cons_self
  | enter _ _ ih =>
      have hvisit := hvisits _ List.mem_cons_self
      exact ih fun next hnext => (Visit.cursor_of_mem_exits hnext).trans hvisit
  | pass _ ih => exact ih (List.forall_mem_cons.mp hvisits).2

end Route

/-- There is a route to an address just when it can be reached, however often others are passed. -/
theorem exists_route_iff {address : Nat} :
    (∃ turns last, Route program avoided [visit] turns last ∧ last.address = address) ↔
      visit.address ∉ avoided ∧
        Relation.ReflTransGen (Leads program visit.cursor avoided) visit.address address := by
  have hvisits : ∀ other ∈ [visit], other.cursor = visit.cursor := List.forall_mem_singleton.mpr rfl
  constructor
  · rintro ⟨turns, last, hroute, rfl⟩
    obtain ⟨first, hfirst, hreaches⟩ := hroute.reaches hvisits
    exact List.mem_singleton.mp hfirst ▸ hreaches
  · rintro ⟨hnew, hreaches⟩
    induction hreaches with
    | refl => exact ⟨[0], visit, .stop hnew, rfl⟩
    | tail _ hleads ih =>
        obtain ⟨turns, last, hroute, rfl⟩ := ih
        rw [← hroute.cursor_last hvisits] at hleads
        obtain ⟨next, hnext, rfl⟩ := exists_exit_of_leads hleads
        exact hroute.exists_onward hnext hleads.1

theorem Spread.mem_iff {found : List (List Nat × Visit)} {address : Nat}
    (hspread : Spread program avoided [visit] found) :
    address ∈ found.map (·.2.address) ↔
      visit.address ∉ avoided ∧
        Relation.ReflTransGen (Leads program visit.cursor avoided) visit.address address := by
  rw [← exists_route_iff, List.mem_map]
  constructor
  · rintro ⟨entry, hentry, rfl⟩
    exact ⟨entry.1, entry.2, hspread.route entry hentry, rfl⟩
  · rintro ⟨turns, last, hroute, rfl⟩
    exact hspread.complete turns last hroute

/-- What visits add to a list of threads: their addresses in their order, and the slots of those
that rest. -/
structure Threads.Adds (program : Program) (threads added : Threads) (visits : List Visit) :
    Prop where
  members : added.set.members = threads.set.members ++ visits.map Visit.address
  kept : ∀ visit ∈ visits, visit.rests program = true →
    added.rows[visit.address]? = some visit.slots
  untouched : ∀ address, (∀ visit ∈ visits, visit.rests program = true → visit.address ≠ address) →
    added.rows[address]? = threads.rows[address]?

namespace Threads.Adds

variable {threads entered added : Threads}

theorem refl : threads.Adds program threads [] where
  members := (List.append_nil _).symm
  kept := nofun
  untouched _ _ := rfl

theorem cons (hadds : entered.Adds program added visits)
    (hmembers : entered.set.members = threads.set.members ++ [visit.address])
    (hrows : ∀ other, entered.rows[other]? =
      if other = visit.address ∧ visit.rests program = true then some visit.slots
      else threads.rows[other]?)
    (hvisits : ∀ other ∈ visits, other.address ≠ visit.address) :
    threads.Adds program added (visit :: visits) where
  members := by
    rw [hadds.members, hmembers, List.append_assoc]
    rfl
  kept := by
    refine List.forall_mem_cons.mpr ⟨fun hrests => ?_, hadds.kept⟩
    rw [hadds.untouched visit.address fun other hother _ => hvisits other hother, hrows]
    exact if_pos ⟨rfl, hrests⟩
  untouched address haddress := by
    obtain ⟨hvisit, hothers⟩ := List.forall_mem_cons.mp haddress
    rw [hadds.untouched address hothers, hrows]
    exact if_neg fun hsame => hvisit hsame.2 hsame.1.symm

end Threads.Adds

namespace Closing

variable {closing final : Closing} {log : List (Nat × Nat)}

theorem cursor_of_mem_visitsOf {slots : Slots} {stack : List Frame} :
    ∀ visit ∈ visitsOf cursor slots stack, visit.cursor = cursor := by
  induction stack generalizing slots with
  | nil => exact nofun
  | cons frame stack ih =>
      cases frame with
      | explore address => exact List.forall_mem_cons.mpr ⟨rfl, ih⟩
      | restore slot old => exact ih

/-- The work on a stack of frames adds what the visits spread to for which the frames stand. -/
theorem Runs.spread (hruns : Closing.Runs program closing log final) (hfinal : final.stack = [])
    (hfits : closing.Fits program) :
    ∃ found,
      Spread program {address | address ∈ closing.threads.set.members} closing.pending found ∧
      log = found.map (·.2.key) ∧
      closing.threads.Adds program final.threads (found.map Prod.snd) := by
  induction hruns with
  | refl closing =>
      rw [pending, hfinal]
      exact ⟨[], .nil, rfl, .refl⟩
  | @step closing next _ _ hnext _ ih =>
      obtain ⟨hnextFits, -, -, hmoves⟩ := hfits.moves hnext
      obtain ⟨found, hspread, hlog, hadds⟩ := ih hfinal hnextFits
      -- The routes begin with other turns, but end where they ended.
      have hends (exits : Nat) : (found.map (Prod.map (fromFirst exits) id)).map Prod.snd =
          found.map Prod.snd := List.map_map
      have hkeys (exits : Nat) : (found.map (Prod.map (fromFirst exits) id)).map (·.2.key) =
          found.map (·.2.key) := List.map_map
      cases hmoves with
      | restore hpending hthreads _ hentering =>
          rw [hthreads] at hspread hadds
          exact ⟨found, hpending ▸ hspread, by rw [hentering, hlog]; rfl, hadds⟩
      | pass visit hpending _ hmember hthreads _ hentering =>
          rw [hthreads] at hspread hadds
          refine ⟨_, hpending ▸ hspread.pass hmember, ?_, (hends 0).symm ▸ hadds⟩
          rw [hentering, hkeys, hlog]
          rfl
      | enter visit others hpending hcursor hnew hnextPending hmembers hrows _ hentering =>
          have havoided : {address | address ∈ next.threads.set.members} =
              insert visit.address {address | address ∈ closing.threads.set.members} := by
            ext address
            change address ∈ next.threads.set.members ↔
              address = visit.address ∨ address ∈ closing.threads.set.members
            rw [hmembers, List.mem_append, List.mem_singleton, or_comm]
          rw [havoided, hnextPending] at hspread
          have hothers : ∀ other ∈ others, other.cursor = visit.cursor := by
            have hall : ∀ other ∈ closing.pending, other.cursor = closing.cursor :=
              cursor_of_mem_visitsOf
            rw [hpending, ← hcursor] at hall
            exact (List.forall_mem_cons.mp hall).2
          have hapart : ∀ other ∈ found.map Prod.snd, other.address ≠ visit.address :=
            List.forall_mem_map.mpr fun entry hentry hsame =>
              (hspread.route entry hentry).last_not_mem (hsame ▸ Set.mem_insert _ _)
          refine ⟨_, hpending ▸ hspread.enter hnew hothers, ?_, ?_⟩
          · rw [hentering, List.map_cons, hkeys, hlog]
            rfl
          · rw [List.map_cons, hends]
            exact hadds.cons hmembers hrows hapart

theorem Runs.bounded (hruns : Closing.Runs program closing log final)
    (hfits : closing.Fits program) :
    final.Fits program ∧ final.stack.length + closing.threads.set.members.length ≤
      closing.stack.length + final.threads.set.members.length := by
  induction hruns with
  | refl => exact ⟨hfits, Nat.le_refl _⟩
  | step hnext _ ih =>
      obtain ⟨hnextFits, -, -, hmoves⟩ := hfits.moves hnext
      obtain ⟨hfinal, hlength⟩ := ih hnextFits
      refine ⟨hfinal, ?_⟩
      cases hmoves with
      | restore _ hthreads hless => rw [hthreads] at hlength; omega
      | pass _ _ _ _ hthreads hless => rw [hthreads] at hlength; omega
      | enter _ _ _ _ _ _ hmembers _ hmore =>
          rw [hmembers, List.length_append, List.length_singleton] at hlength
          omega

end Closing

end TextColumns.Search
