import TextColumns.Proofs.Regex.WholeMatch
import TextColumns.Proofs.Search.Leftmost

/-!
Which matches of a text are reported, and that none is missed.  What begins at each offset is told
by the searches that are anchored there; the loop over the matches is compared with all of these.
-/

namespace TextColumns

open Search (Slots everywhere explore startVisit)
open Text (Cursor Extent)

variable {program : Program} {text : String} {cursor : Cursor} {extent next : Extent}
  {lastStop : Option Nat} {start offset : Nat} {slots : Slots} {found : List Slots}

namespace Program

def matchAt? (program : Program) (text : String) (offset : Nat) : Option Slots :=
  (Cursor.at? text offset).bind fun place =>
    ((Matcher.ofProgram program).run ⟨true, false⟩ place).1

theorem matchAt?_of_on (hcheck : program.check = .ok ()) (hon : Cursor.On text cursor) :
    program.matchAt? text cursor.offset =
      explore program (everywhere program text) [startVisit program cursor] := by
  rw [matchAt?, Cursor.at?_eq_some_iff.mpr ⟨hon, rfl⟩, Option.bind_some]
  exact ((Matcher.ready_ofProgram program).run_eq hcheck hon ⟨true, false⟩).2 rfl

theorem exists_on_of_matchAt? (hmatch : program.matchAt? text offset = some slots) :
    ∃ place, Cursor.On text place ∧ place.offset = offset := by
  obtain ⟨place, hplace, -⟩ := Option.bind_eq_some_iff.mp hmatch
  exact ⟨place, Cursor.at?_eq_some_iff.mp hplace⟩

/-- A search finds the match that begins first. -/
theorem matchFrom?_eq_findSome? (hcheck : program.check = .ok ()) (hon : Cursor.On text cursor) :
    program.matchFrom? cursor =
      cursor.places.findSome? fun place => program.matchAt? text place.offset := by
  have honPlaces : ∀ place ∈ cursor.places, Cursor.On text place :=
    fun place hplace => ((Cursor.mem_places hon).mp hplace).1
  have honStarts : ∀ visit ∈ cursor.places.map (startVisit program), Cursor.On text visit.cursor :=
    List.forall_mem_map.mpr honPlaces
  rw [matchFrom?_eq hcheck hon, Search.explore_eq_findSome? honStarts, List.findSome?_map,
    ← List.head?_filterMap, ← List.head?_filterMap]
  refine congrArg List.head? (List.filterMap_congr fun place hplace => ?_)
  exact (matchAt?_of_on hcheck (honPlaces place hplace)).symm

theorem matchAt?_of_matchFrom?_none (hcheck : program.check = .ok ()) (hon : Cursor.On text cursor)
    (hmatch : program.matchFrom? cursor = none) (hle : cursor.offset ≤ offset) :
    program.matchAt? text offset = none := by
  rw [matchFrom?_eq_findSome? hcheck hon, List.findSome?_eq_none_iff] at hmatch
  refine Option.eq_none_iff_forall_ne_some.mpr fun slots hslots => ?_
  obtain ⟨place, hplace, rfl⟩ := exists_on_of_matchAt? hslots
  rw [hmatch place ((Cursor.mem_places hon).mpr ⟨hplace, hle⟩)] at hslots
  cases hslots

/-- Whether nothing is to be reported at an offset: no match begins there, or an empty one where the
match before it stops. -/
def Passes (program : Program) (text : String) (lastStop : Option Nat) (offset : Nat) : Prop :=
  ∀ slots, program.matchAt? text offset = some slots →
    lastStop = some offset ∧ slots.group? 0 = some ⟨offset, offset⟩

theorem passes_of_none (hnone : program.matchAt? text offset = none) :
    program.Passes text lastStop offset := by
  intro slots hslots
  rw [hnone] at hslots
  cases hslots

theorem Passes.eq_none (hpasses : program.Passes text lastStop offset)
    (hother : lastStop ≠ some offset) : program.matchAt? text offset = none :=
  Option.eq_none_iff_forall_ne_some.mpr fun slots hslots => hother (hpasses slots hslots).1

structure First (program : Program) (text : String) (start : Nat) (lastStop : Option Nat)
    (slots : Slots) (extent : Extent) : Prop where
  group : slots.group? 0 = some extent
  within : extent.Within text
  from_le : start ≤ extent.start
  ordered : extent.start ≤ extent.stop
  begins : program.matchAt? text extent.start = some slots
  passed : ∀ offset, start ≤ offset → offset < extent.start → program.Passes text lastStop offset

def goesOn (extent : Extent) : Nat :=
  if extent.start = extent.stop then extent.stop + 1 else extent.stop

/-- Reports of matches from an offset on, `lastStop` being where the match before them stops. -/
inductive Reports (program : Program) (text : String) : Nat → Option Nat → List Slots → Prop
  | done {start : Nat} {lastStop : Option Nat}
      (passed : ∀ offset, start ≤ offset → program.Passes text lastStop offset) :
      Reports program text start lastStop []
  | report {start : Nat} {lastStop : Option Nat} {slots : Slots} {extent : Extent}
      {others : List Slots} (first : program.First text start lastStop slots extent)
      (fresh : extent.start = extent.stop → lastStop ≠ some extent.stop)
      (behind : Reports program text (goesOn extent) (some extent.stop) others) :
      Reports program text start lastStop (slots :: others)

/-- Offsets at which nothing is to be reported may come before. -/
theorem Reports.passing (hreports : program.Reports text offset lastStop found)
    (hle : start ≤ offset)
    (hpassed : ∀ before, start ≤ before → before < offset → program.Passes text lastStop before) :
    program.Reports text start lastStop found := by
  have hsplit {behind : Nat} (hbehind : start ≤ behind)
      (hpasses : offset ≤ behind → program.Passes text lastStop behind) :
      program.Passes text lastStop behind := by
    rcases Nat.lt_or_ge behind offset with hlt | hge
    · exact hpassed behind hbehind hlt
    · exact hpasses hge
  cases hreports with
  | done passed => exact .done fun behind hbehind => hsplit hbehind (passed behind)
  | report first fresh behind =>
      refine .report { first with
        from_le := Nat.le_trans hle first.from_le
        passed := fun behind hbehind hlt =>
          hsplit hbehind fun hge => first.passed behind hge hlt } fresh behind

theorem First.reports (hfirst : program.First text start lastStop slots extent)
    (hlast : ∀ stop, lastStop = some stop → stop ≤ start)
    (hbehind : program.Reports text (goesOn extent) (some extent.stop) found) :
    program.Reports text start lastStop
      ((if isRepeated lastStop extent then [] else [slots]) ++ found) := by
  by_cases hrepeated : isRepeated lastStop extent = true
  · obtain ⟨hempty, hstop⟩ := Bool.and_eq_true_iff.mp hrepeated
    obtain ⟨first, stop⟩ := extent
    obtain rfl : first = stop := eq_of_beq hempty
    obtain rfl : lastStop = some first := eq_of_beq hstop
    obtain rfl : first = start := Nat.le_antisymm (hlast first rfl) hfirst.from_le
    -- It lies where the search stands, so nothing but that place is passed over.
    rw [if_pos hrepeated, List.nil_append]
    rw [goesOn, if_pos rfl] at hbehind
    refine hbehind.passing (Nat.le_succ first) fun before hle hlt => ?_
    obtain rfl : first = before := Nat.le_antisymm hle (Nat.le_of_lt_succ hlt)
    intro other hother
    obtain rfl := Option.some.inj (hfirst.begins.symm.trans hother)
    exact ⟨rfl, hfirst.group⟩
  · rw [if_neg hrepeated]
    refine .report hfirst (fun hempty hstop => hrepeated ?_) hbehind
    simp [isRepeated, hempty, hstop]

theorem matchAt?_of_resume?_none (hon : Cursor.On text cursor) (hwithin : extent.Within text)
    (hle : cursor.offset ≤ extent.stop)
    (hresume : Matcher.resume? (extent.start == extent.stop) (cursor.seek extent.stop) = none)
    (hbehind : goesOn extent ≤ offset) : program.matchAt? text offset = none := by
  have hseek := hon.offset_seek hwithin.stop hle
  refine Option.eq_none_iff_forall_ne_some.mpr fun slots hslots => ?_
  obtain ⟨place, hplace, rfl⟩ := exists_on_of_matchAt? hslots
  by_cases hempty : extent.start = extent.stop
  · rw [hempty, beq_self_eq_true, Matcher.resume?, if_pos rfl, Option.map_eq_none_iff] at hresume
    have hplaceLe := (hon.seek extent.stop).le_of_next?_none hplace hresume
    rw [goesOn, if_pos hempty] at hbehind
    omega
  · rw [beq_false_of_ne hempty] at hresume
    cases hresume

variable (program) in
/-- Where the search goes on behind a match, and that no match begins in between. -/
theorem goesOn_of_resume? {behind : Cursor} (hon : Cursor.On text cursor)
    (hwithin : extent.Within text) (hfrom : cursor.offset ≤ extent.start)
    (hordered : extent.start ≤ extent.stop)
    (hresume :
      Matcher.resume? (extent.start == extent.stop) (cursor.seek extent.stop) = some behind) :
    Cursor.On text behind ∧ cursor.offset < behind.offset ∧ extent.stop ≤ behind.offset ∧
      goesOn extent ≤ behind.offset ∧
      ∀ offset, goesOn extent ≤ offset → offset < behind.offset →
        program.matchAt? text offset = none := by
  have hseek := hon.offset_seek hwithin.stop (Nat.le_trans hfrom hordered)
  obtain ⟨honBehind, hle⟩ := Matcher.on_of_resume? (hon.seek extent.stop) hresume
  rw [hseek] at hle
  refine ⟨honBehind, Regex.offset_lt_of_resume? hon hwithin hfrom hordered hresume, ?_⟩
  by_cases hempty : extent.start = extent.stop
  · rw [hempty, beq_self_eq_true, Matcher.resume?, if_pos rfl] at hresume
    obtain ⟨⟨c, place⟩, hnext, rfl⟩ := Option.map_eq_some_iff.mp hresume
    have hlt : extent.stop < place.offset := hseek ▸ Cursor.offset_lt_of_next? hnext
    rw [goesOn, if_pos hempty]
    refine ⟨hle, hlt, fun offset hgoes hbefore => ?_⟩
    refine Option.eq_none_iff_forall_ne_some.mpr fun slots hslots => ?_
    obtain ⟨other, hother, rfl⟩ := exists_on_of_matchAt? hslots
    have hplaceLe := (hon.seek extent.stop).le_of_next? hother hnext (by omega)
    exact absurd hbefore (Nat.not_lt_of_le hplaceLe)
  · rw [beq_false_of_ne hempty] at hresume
    obtain rfl := Option.some.inj hresume
    rw [goesOn, if_neg hempty, hseek]
    refine ⟨Nat.le_refl _, Nat.le_refl _, fun offset hgoes hbefore => ?_⟩
    exact absurd hbefore (Nat.not_lt_of_le hgoes)

structure Follows (program : Program) (text : String) (extent next : Extent) : Prop where
  apart : extent.stop ≤ next.start
  onward : extent.start < next.start
  fresh : next.start = next.stop → next.stop ≠ extent.stop
  between : ∀ offset, extent.stop < offset → offset < next.start →
    program.matchAt? text offset = none
  atStop : extent.stop < next.start → extent.start < extent.stop →
    ∀ slots, program.matchAt? text extent.stop = some slots →
      slots.group? 0 = some ⟨extent.stop, extent.stop⟩

structure Ends (program : Program) (text : String) (extent : Extent) : Prop where
  behind : ∀ offset, extent.stop < offset → program.matchAt? text offset = none
  atStop : extent.start < extent.stop →
    ∀ slots, program.matchAt? text extent.stop = some slots →
      slots.group? 0 = some ⟨extent.stop, extent.stop⟩

theorem goesOn_le_of_lt (hlt : extent.stop < offset) : goesOn extent ≤ offset := by
  unfold goesOn
  split <;> omega

theorem matchAt?_of_passes {other : Nat} (hpasses : program.Passes text (some other) offset)
    (hlt : other < offset) : program.matchAt? text offset = none :=
  hpasses.eq_none fun heq => Nat.ne_of_lt hlt (Option.some.inj heq)

theorem First.follows (hordered : extent.start ≤ extent.stop)
    (hfirst : program.First text (goesOn extent) (some extent.stop) slots next)
    (hfresh : next.start = next.stop → some extent.stop ≠ some next.stop) :
    program.Follows text extent next where
  apart := by
    have hfrom := hfirst.from_le
    unfold goesOn at hfrom
    split at hfrom <;> omega
  onward := by
    have hfrom := hfirst.from_le
    unfold goesOn at hfrom
    split at hfrom <;> omega
  fresh hempty hstop := hfresh hempty (congrArg some hstop.symm)
  between offset hlt hbefore :=
    matchAt?_of_passes (hfirst.passed offset (goesOn_le_of_lt hlt) hbefore) hlt
  atStop hlt hproper slots hslots := by
    have hgoes : goesOn extent = extent.stop := if_neg (Nat.ne_of_lt hproper)
    exact (hfirst.passed extent.stop (Nat.le_of_eq hgoes) hlt slots hslots).2

theorem ends_of_passed (hpassed : ∀ offset, goesOn extent ≤ offset →
      program.Passes text (some extent.stop) offset) : program.Ends text extent where
  behind offset hlt := matchAt?_of_passes (hpassed offset (goesOn_le_of_lt hlt)) hlt
  atStop hproper slots hslots := by
    have hgoes : goesOn extent = extent.stop := if_neg (Nat.ne_of_lt hproper)
    exact (hpassed extent.stop (Nat.le_of_eq hgoes) slots hslots).2

/-- The extents of reported matches follow one another, the first from where they are sought, and
the last ends them. -/
structure Extents (program : Program) (text : String) (start : Nat) (lastStop : Option Nat)
    (extents : List Extent) : Prop where
  before : ∀ offset, start ≤ offset → (∀ first ∈ extents.head?, offset < first.start) →
    program.Passes text lastStop offset
  chain : extents.IsChain (program.Follows text)
  ends : ∀ last ∈ extents.getLast?, program.Ends text last

theorem extents_cons (hgroup : slots.group? 0 = some extent) (others : List Slots) :
    (slots :: others).filterMap (·.group? 0) = extent :: others.filterMap (·.group? 0) :=
  List.filterMap_cons_some hgroup

theorem Reports.extents (hreports : program.Reports text start lastStop found) :
    program.Extents text start lastStop (found.filterMap (·.group? 0)) := by
  induction hreports with
  | done passed =>
      exact ⟨fun offset hle _ => passed offset hle, .nil, fun last hlast => by cases hlast⟩
  | report first fresh behind ih =>
      rw [extents_cons first.group]
      refine ⟨fun offset hle hbefore => first.passed offset hle (hbefore _ rfl), ?_, ?_⟩
      · cases behind with
        | done passed => exact .singleton _
        | report second fresh' others =>
            have hchain := ih.chain
            rw [extents_cons second.group] at hchain ⊢
            exact .cons_cons (second.follows first.ordered fresh') hchain
      · cases behind with
        | done passed =>
            intro last hlast
            obtain rfl := Option.some.inj hlast
            exact ends_of_passed passed
        | report second fresh' others =>
            have hends := ih.ends
            rw [extents_cons second.group] at hends ⊢
            rwa [List.getLast?_cons_cons]

theorem Reports.exists_first (hreports : program.Reports text start lastStop found)
    (hslots : slots ∈ found) :
    ∃ extent : Extent, slots.group? 0 = some extent ∧ extent.Within text ∧
      extent.start ≤ extent.stop ∧ program.matchAt? text extent.start = some slots := by
  induction hreports with
  | done passed => cases hslots
  | report first fresh behind ih =>
      rcases List.mem_cons.mp hslots with rfl | hslots
      · exact ⟨_, first.group, first.within, first.ordered, first.begins⟩
      · exact ih hslots

theorem Reports.map_group? (hreports : program.Reports text start lastStop found) :
    found.map (·.group? 0) = (found.filterMap (·.group? 0)).map some := by
  have hgroups : ∀ slots ∈ found, (slots.group? 0).isSome := fun slots hslots =>
    have ⟨_, hgroup, _⟩ := hreports.exists_first hslots
    Option.isSome_iff_exists.mpr ⟨_, hgroup⟩
  clear hreports
  induction found with
  | nil => rfl
  | cons slots others ih =>
      obtain ⟨hslots, hothers⟩ := List.forall_mem_cons.mp hgroups
      obtain ⟨extent, hgroup⟩ := Option.isSome_iff_exists.mp hslots
      rw [List.map_cons, extents_cons hgroup, List.map_cons, ih hothers, hgroup]

end Program

namespace Regex

open Pattern (Flags)
open Search (Mode)

variable {pattern : String} {flags : Flags} {regex : Regex}

theorem exists_first_of_matchFrom? (hcompile : Regex.compile pattern flags = .ok regex)
    (hon : Cursor.On text cursor) (lastStop : Option Nat)
    (hmatch : regex.program.matchFrom? cursor = some slots) :
    ∃ extent, regex.program.First text cursor.offset lastStop slots extent := by
  have hcheck := check_of_compile hcompile
  obtain ⟨extent, hgroup, hwithin, hfrom, hordered⟩ :=
    exists_extent_of_matchFrom? hcompile hon hmatch
  rw [Program.matchFrom?_eq_findSome? hcheck hon] at hmatch
  obtain ⟨passed, place, behind, hplaces, hbest, hpassed⟩ :=
    List.findSome?_eq_some_iff.mp hmatch
  obtain ⟨honPlace, -⟩ := (Cursor.mem_places hon).mp
    (hplaces ▸ List.mem_append_right passed List.mem_cons_self)
  -- The match begins where its thread did.
  have hstart : extent.start = place.offset := by
    have hexplored : explore regex.program (everywhere regex.program text)
        ([place].map (startVisit regex.program)) = some slots :=
      (Program.matchAt?_of_on hcheck honPlace).symm.trans hbest
    obtain ⟨other, hother, stop, hstart⟩ :=
      Pattern.exists_extent_of_explore (program_of_compile hcompile) hexplored
    obtain rfl := List.mem_singleton.mp hother
    exact congrArg Extent.start (Option.some.inj (hgroup.symm.trans hstart))
  refine ⟨extent, hgroup, hwithin, hfrom, hordered, hstart ▸ hbest, fun offset hle hlt => ?_⟩
  refine Program.passes_of_none (Option.eq_none_iff_forall_ne_some.mpr fun other hother => ?_)
  obtain ⟨before, hbefore, rfl⟩ := Program.exists_on_of_matchAt? hother
  have hmem := (Cursor.mem_places hon).mpr ⟨hbefore, hle⟩
  have hordered := cursor.pairwise_places
  rw [hplaces] at hmem hordered
  -- A place before that of the match has been passed, and all others lie behind it.
  rcases List.mem_append.mp hmem with hmem | hmem
  · rw [hpassed before hmem] at hother
    cases hother
  · have hplaceLe : place.offset ≤ before.offset := by
      rcases List.mem_cons.mp hmem with rfl | hmem
      · exact Nat.le_refl _
      · exact Nat.le_of_lt
          (List.rel_of_pairwise_cons (List.pairwise_append.mp hordered).2.1 hmem)
    omega

theorem first_of_matchFrom? (hcompile : Regex.compile pattern flags = .ok regex)
    (hon : Cursor.On text cursor) (lastStop : Option Nat)
    (hmatch : regex.program.matchFrom? cursor = some slots)
    (hgroup : slots.group? 0 = some extent) :
    regex.program.First text cursor.offset lastStop slots extent := by
  obtain ⟨other, hfirst⟩ := exists_first_of_matchFrom? hcompile hon lastStop hmatch
  obtain rfl := Option.some.inj (hgroup.symm.trans hfirst.group)
  exact hfirst

theorem reports_matchesFrom (hcompile : Regex.compile pattern flags = .ok regex)
    (hon : Cursor.On text cursor) (hlast : ∀ stop, lastStop = some stop → stop ≤ cursor.offset) :
    regex.program.Reports text cursor.offset lastStop
      (regex.program.matchesFrom cursor lastStop) := by
  have hcheck := check_of_compile hcompile
  fun_induction Program.matchesFrom regex.program cursor lastStop with
  | case1 cursor lastStop hmatch =>
      exact .done fun offset hle =>
        Program.passes_of_none (Program.matchAt?_of_matchFrom?_none hcheck hon hmatch hle)
  | case2 cursor lastStop slots hmatch hgroup =>
      obtain ⟨extent, hfirst⟩ := exists_first_of_matchFrom? hcompile hon lastStop hmatch
      rw [hfirst.group] at hgroup
      cases hgroup
  | case3 cursor lastStop slots hmatch extent hgroup here hresume =>
      have hfirst := first_of_matchFrom? hcompile hon lastStop hmatch hgroup
      have hle := Nat.le_trans hfirst.from_le hfirst.ordered
      rw [← List.append_nil here]
      exact hfirst.reports hlast (.done fun offset hbehind => Program.passes_of_none
        (Program.matchAt?_of_resume?_none hon hfirst.within hle hresume hbehind))
  | case4 cursor lastStop slots hmatch extent hgroup here behind hresume hlt _ ih =>
      have hfirst := first_of_matchFrom? hcompile hon lastStop hmatch hgroup
      obtain ⟨honBehind, -, hstop, hgoes, hnone⟩ := Program.goesOn_of_resume? regex.program
        hon hfirst.within hfirst.from_le hfirst.ordered hresume
      have hbehind := ih honBehind fun stop heq => Option.some.inj heq ▸ hstop
      exact hfirst.reports hlast (hbehind.passing hgoes fun offset hle hbefore =>
        Program.passes_of_none (hnone offset hle hbefore))
  | case5 cursor lastStop slots hmatch extent hgroup here behind hresume hlt =>
      have hfirst := first_of_matchFrom? hcompile hon lastStop hmatch hgroup
      obtain ⟨-, honward, -⟩ := Program.goesOn_of_resume? regex.program
        hon hfirst.within hfirst.from_le hfirst.ordered hresume
      exact absurd honward hlt

/-- A visit that never stops goes through all matches of a text and comes to its end in no more
rounds than there are places in the text.  The matches lie one behind the other, each is the
preferred one of those that begin where it does, and no match is missed: before the first one,
between two of them and behind the last one none begins, except that an empty match at the end of
the match before it is passed over. -/
theorem visitMatches_complete (hcompile : Regex.compile pattern flags = .ok regex)
    (searches : List (Mode × Cursor)) (text : String) :
    let matcher := regex.matcher.after searches
    ∃ (reports : List Slots) (extents : List Extent),
      (∀ (β : Type) (visit : β → Slots → β) (state : β), ∀ rounds, text.length < rounds →
        ∃ next, Matcher.visitFrom? (fun state slots => .yield (visit state slots)) rounds matcher
          (.start text) none state = some (reports.foldl visit state, next)) ∧
      reports.map (·.group? 0) = extents.map some ∧
      (∀ slots ∈ reports, ∃ extent : Extent, slots.group? 0 = some extent ∧
        extent.Within text ∧ extent.start ≤ extent.stop ∧
        regex.program.matchAt? text extent.start = some slots) ∧
      (∀ offset, (∀ first ∈ extents.head?, offset < first.start) →
        regex.program.matchAt? text offset = none) ∧
      extents.IsChain (regex.program.Follows text) ∧
      (∀ last ∈ extents.getLast?, regex.program.Ends text last) ∧
      (matcher.findAll none text).1 = extents ∧
      ∀ n, (matcher.findAll (some n) text).1 = extents.take n := by
  intro matcher
  have hcheck := check_of_compile hcompile
  have hadvances := advances_of_compile hcompile
  have hready : matcher.Ready regex.program :=
    (Matcher.ready_ofProgram regex.program).after hcheck searches
  have hreports : regex.program.Reports text 0 none
      (regex.program.matchesFrom (.start text) none) :=
    reports_matchesFrom hcompile (Cursor.on_start text) fun stop hstop => by cases hstop
  obtain ⟨hbefore, hchain, hends⟩ := hreports.extents
  refine ⟨_, _, fun β visit state rounds hrounds => ?_, hreports.map_group?,
    fun slots hslots => hreports.exists_first hslots, fun offset hfirst => ?_, hchain, hends,
    findAll_after hcompile searches none text,
    fun n => findAll_after hcompile searches (some n) text⟩
  · obtain ⟨next, hvisited, -⟩ := hready.visitFrom?_eq hcheck hadvances (Cursor.on_start text)
      hrounds (fun state slots => .yield (visit state slots)) none state
    exact ⟨next, by rw [hvisited, Matcher.visitEach_yield]⟩
  · exact (hbefore offset (Nat.zero_le _) hfirst).eq_none nofun

/-- The empty match behind the two letters is passed over, and the one behind the last character is
not. -/
theorem visitMatches_complete_mixed :
    let program : Program :=
      ⟨#[.save 0, .split 2 4, .char 'a' false, .jump 1, .save 1, .accept], #[], 2, 0⟩
    let regex : Regex := ⟨"a*", Flags.none, program⟩
    let matcher := regex.matcher.after [(⟨false, true⟩, .start "a")]
    Regex.compile "a*" Flags.none = .ok regex ∧
      (matcher.findAll none "baaé").1 = [⟨0, 0⟩, ⟨1, 3⟩, ⟨5, 5⟩] ∧
      (matcher.findAll (some 0) "baaé").1 = [] ∧
      (matcher.findAll (some 2) "baaé").1 = [⟨0, 0⟩, ⟨1, 3⟩] ∧
      [⟨0, 0⟩, ⟨1, 3⟩, ⟨5, 5⟩].IsChain (program.Follows "baaé") := by
  intro program regex matcher
  have hcompile : Regex.compile "a*" Flags.none = .ok regex := by decide +kernel
  have hfound : (matcher.findAll none "baaé").1 = [⟨0, 0⟩, ⟨1, 3⟩, ⟨5, 5⟩] := by
    rw [findAll_after hcompile]
    decide +kernel
  obtain ⟨reports, extents, -, -, -, -, hchain, -, hall, hlimited⟩ :=
    visitMatches_complete hcompile [(⟨false, true⟩, .start "a")] "baaé"
  obtain rfl : [⟨0, 0⟩, ⟨1, 3⟩, ⟨5, 5⟩] = extents := hfound.symm.trans hall
  exact ⟨hcompile, hfound, hlimited 0, hlimited 2, hchain⟩

end Regex

end TextColumns
