import TextColumns.Proofs.Regex.Slots

/-!
The matches of a program in a text, one behind the other.  The loop over them is done before its
rounds are, because every search goes on behind the match before (`Program.Advances`).  Whatever a
matcher has been used for and whatever is done with the matches, it goes through the list
`matchesFrom` and stops where the visit says so (`Ready.visitFrom?_eq`).
-/

namespace TextColumns

open Search (Mode Slots everywhere explore startVisit)
open Text (Cursor Extent)

namespace Program

/-- The slots of the preferred match from a cursor on, as a new matcher finds them. -/
def matchFrom? (program : Program) (cursor : Cursor) : Option Slots :=
  ((Matcher.ofProgram program).capturesFrom cursor).1

def isRepeated (lastStop : Option Nat) (extent : Extent) : Bool :=
  extent.start == extent.stop && lastStop == some extent.stop

theorem stop_of_isRepeated (lastStop : Option Nat) (extent : Extent) :
    (if isRepeated lastStop extent then lastStop else some extent.stop) = some extent.stop := by
  by_cases hrepeated : isRepeated lastStop extent = true
  · rw [if_pos hrepeated]
    exact eq_of_beq (Bool.and_eq_true_iff.mp hrepeated).2
  · rw [if_neg hrepeated]

end Program

theorem Matcher.resume?_length {emptyMatch : Bool} {cursor next : Cursor} {target : Nat}
    (hresume : resume? emptyMatch (cursor.seek target) = some next)
    (hlt : cursor.offset < next.offset) :
    next.rest.length < cursor.rest.length := by
  cases emptyMatch with
  | false =>
      obtain rfl : cursor.seek target = next := Option.some.inj hresume
      exact Cursor.seek_length_lt hlt
  | true =>
      simp only [resume?, if_true, Option.map_eq_some_iff, Prod.exists] at hresume
      obtain ⟨c, stop, hnext, rfl⟩ := hresume
      exact Nat.lt_of_lt_of_le (Cursor.next?_length hnext) (Cursor.seek_length _ _)

namespace Program

/-- The matches from a cursor on, as far as they lie one behind the other. -/
def matchesFrom (program : Program) (cursor : Cursor) (lastStop : Option Nat) : List Slots :=
  match program.matchFrom? cursor with
  | none => []
  | some slots =>
    match slots.group? 0 with
    | none => []
    | some extent =>
      let here := if isRepeated lastStop extent then [] else [slots]
      match hresume : Matcher.resume? (extent.start == extent.stop) (cursor.seek extent.stop) with
      | none => here
      | some next =>
        if hlt : cursor.offset < next.offset then
          have := Matcher.resume?_length hresume hlt
          here ++ matchesFrom program next (some extent.stop)
        else
          here
termination_by cursor.rest.length

def extentsIn (program : Program) (text : String) : List Extent :=
  (program.matchesFrom (.start text) none).filterMap (·.group? 0)

/-- Whether a search always goes on further behind in a text. -/
def Advances (program : Program) : Prop :=
  ∀ ⦃text : String⦄ ⦃cursor behind : Cursor⦄ ⦃slots : Slots⦄ ⦃extent : Extent⦄,
    Cursor.On text cursor → program.matchFrom? cursor = some slots →
    slots.group? 0 = some extent →
    Matcher.resume? (extent.start == extent.stop) (cursor.seek extent.stop) = some behind →
    Cursor.On text behind ∧ cursor.offset < behind.offset

variable {program : Program} {cursor : Cursor} {lastStop : Option Nat}

theorem matchesFrom_of_none (hmatch : program.matchFrom? cursor = none) :
    program.matchesFrom cursor lastStop = [] := by
  rw [matchesFrom, hmatch]

theorem matchesFrom_of_group {slots : Slots} (hmatch : program.matchFrom? cursor = some slots)
    (hgroup : slots.group? 0 = none) : program.matchesFrom cursor lastStop = [] := by
  rw [matchesFrom, hmatch]
  simp only [hgroup]

/-- The matches behind a match that has been found from a cursor on. -/
def matchesBehind (program : Program) (cursor : Cursor) (extent : Extent) : List Slots :=
  match Matcher.resume? (extent.start == extent.stop) (cursor.seek extent.stop) with
  | none => []
  | some next =>
    if cursor.offset < next.offset then program.matchesFrom next (some extent.stop) else []

theorem matchesFrom_of_some {slots : Slots} {extent : Extent}
    (hmatch : program.matchFrom? cursor = some slots) (hgroup : slots.group? 0 = some extent) :
    program.matchesFrom cursor lastStop =
      (if isRepeated lastStop extent then [] else [slots]) ++
        program.matchesBehind cursor extent := by
  rw [matchesFrom, matchesBehind, hmatch]
  simp only [hgroup]
  split
  next hresume => rw [hresume, List.append_nil]
  next next hresume =>
    simp only [hresume]
    split
    · rfl
    · rw [List.append_nil]

theorem matchesFrom_of_proper {text : String} {behind : Cursor} {slots : Slots} {extent : Extent}
    (hon : Cursor.On text cursor) (hbehind : Cursor.On text behind)
    (hmatch : program.matchFrom? cursor = some slots) (hgroup : slots.group? 0 = some extent)
    (hstop : behind.offset = extent.stop) (hproper : extent.start < extent.stop)
    (hlt : cursor.offset < extent.stop) :
    program.matchesFrom cursor lastStop = slots :: program.matchesFrom behind (some extent.stop) := by
  have hempty : (extent.start == extent.stop) = false := beq_false_of_ne (Nat.ne_of_lt hproper)
  rw [← hstop] at hlt
  have hseek : cursor.seek extent.stop = behind := by
    rw [← hstop]
    exact hon.seekFrom_eq hbehind (Nat.le_of_lt hlt)
  have hothers : program.matchesBehind cursor extent =
      program.matchesFrom behind (some extent.stop) := by
    rw [matchesBehind, hempty, hseek]
    exact if_pos hlt
  rw [matchesFrom_of_some hmatch hgroup, hothers, isRepeated, hempty]
  rfl

/-- A match that is not known to start and to stop ends the list. -/
theorem exists_group_of_mem_matchesFrom {slots : Slots}
    (hslots : slots ∈ program.matchesFrom cursor lastStop) :
    ∃ extent, slots.group? 0 = some extent := by
  have hhere {lastStop : Option Nat} {first : Slots} {extent : Extent}
      (hgroup : first.group? 0 = some extent)
      (hmem : slots ∈ if isRepeated lastStop extent then [] else [first]) :
      ∃ extent, slots.group? 0 = some extent := by
    split at hmem
    · cases hmem
    · exact ⟨extent, List.mem_singleton.mp hmem ▸ hgroup⟩
  fun_induction matchesFrom program cursor lastStop with
  | case1 | case2 => cases hslots
  | case3 cursor lastStop first _ extent hgroup here
  | case5 cursor lastStop first _ extent hgroup here => exact hhere hgroup hslots
  | case4 cursor lastStop first _ extent hgroup here _ _ _ _ ih =>
      rcases List.mem_append.mp hslots with hslots | hslots
      · exact hhere hgroup hslots
      · exact ih hslots

theorem length_matchesFrom_le (program : Program) (cursor : Cursor) (lastStop : Option Nat) :
    (program.matchesFrom cursor lastStop).length ≤ cursor.rest.length + 1 := by
  have hhere (lastStop : Option Nat) (slots : Slots) (extent : Extent) :
      (if isRepeated lastStop extent then [] else [slots]).length ≤ 1 := by
    split <;> simp
  fun_induction matchesFrom program cursor lastStop with
  | case1 | case2 => exact Nat.zero_le _
  | case3 cursor lastStop slots _ extent _ here
  | case5 cursor lastStop slots _ extent _ here =>
      exact Nat.le_trans (hhere lastStop slots extent) (Nat.le_add_left _ _)
  | case4 cursor lastStop slots _ extent _ here _ _ _ _ ih =>
      have hone : here.length ≤ 1 := hhere lastStop slots extent
      rw [List.length_append]
      omega

theorem length_extentsIn (program : Program) (text : String) :
    (program.extentsIn text).length = (program.matchesFrom (.start text) none).length := by
  have hgroups : ∀ slots ∈ program.matchesFrom (.start text) none, (slots.group? 0).isSome :=
    fun slots hslots => Option.isSome_iff_exists.mpr (exists_group_of_mem_matchesFrom hslots)
  rw [extentsIn, List.length_filterMap_eq_countP, List.countP_eq_length.mpr hgroups]

theorem extentsIn_of_some {text : String} {slots : Slots} {extent : Extent}
    (hmatch : program.matchFrom? (.start text) = some slots)
    (hgroup : slots.group? 0 = some extent) :
    ∃ others, program.extentsIn text = extent :: others := by
  have hfirst : isRepeated none extent = false := by simp [isRepeated]
  refine ⟨(program.matchesBehind (.start text) extent).filterMap (·.group? 0), ?_⟩
  rw [extentsIn, matchesFrom_of_some hmatch hgroup, hfirst]
  exact List.filterMap_cons_some hgroup

theorem extentsIn_of_none {text : String} (hmatch : program.matchFrom? (.start text) = none) :
    program.extentsIn text = [] := by
  rw [extentsIn, matchesFrom_of_none hmatch, List.filterMap_nil]

end Program

variable {program : Program} {cursor : Cursor}

theorem Program.matchFrom?_eq (hcheck : program.check = .ok ()) {text : String}
    (hon : Cursor.On text cursor) :
    program.matchFrom? cursor =
      explore program (everywhere program text) (cursor.places.map (startVisit program)) :=
  ((Matcher.ready_ofProgram program).run_eq hcheck hon ⟨false, false⟩).2 rfl

theorem Text.filterMap_upTo {α β : Type} (f : α → Option β) (limit : Option Nat) {found : List α}
    (hf : ∀ a ∈ found, (f a).isSome) :
    (Text.upTo limit found).filterMap f = Text.upTo limit (found.filterMap f) := by
  cases limit with
  | none => rfl
  | some limit =>
      induction found generalizing limit with
      | nil => simp [upTo]
      | cons a others ih =>
          obtain ⟨ha, hothers⟩ := List.forall_mem_cons.mp hf
          obtain ⟨b, hb⟩ := Option.isSome_iff_exists.mp ha
          cases limit with
          | zero => rfl
          | succ limit =>
              simpa only [upTo, List.take_succ_cons, List.filterMap_cons_some hb] using
                congrArg (b :: ·) (ih hothers limit)

namespace Matcher

variable {matcher : Matcher} {visit : β → Slots → ForInStep β}

theorem Ready.capturesFrom_eq (hready : matcher.Ready program) (hcheck : program.check = .ok ())
    (cursor : Cursor) : (matcher.capturesFrom cursor).1 = program.matchFrom? cursor :=
  (hready.run_congr (ready_ofProgram program) hcheck ⟨false, false⟩ cursor).2 rfl

theorem Ready.exists_capturesFrom (hready : matcher.Ready program)
    (hcheck : program.check = .ok ()) (cursor : Cursor) :
    ∃ next, matcher.capturesFrom cursor = (program.matchFrom? cursor, next) ∧
      next.Ready program :=
  ⟨(matcher.capturesFrom cursor).2, Prod.ext (hready.capturesFrom_eq hcheck cursor) rfl,
    hready.run hcheck ⟨false, false⟩ cursor⟩

def visitEach (visit : β → Slots → ForInStep β) (state : β) : List Slots → β
  | [] => state
  | slots :: others =>
    match visit state slots with
    | .done state => state
    | .yield state => visitEach visit state others

theorem visitEach_append (repeated : Bool) (state : β) (slots : Slots) (others : List Slots) :
    visitEach visit state ((if repeated then [] else [slots]) ++ others) =
      match if repeated then ForInStep.yield state else visit state slots with
      | .done state => state
      | .yield state => visitEach visit state others := by
  cases repeated <;> rfl

theorem visitFrom?_of_none {matcher next : Matcher} {lastStop : Option Nat} {state : β}
    (hcaptures : matcher.capturesFrom cursor = (none, next)) (rounds : Nat) :
    Matcher.visitFrom? visit (rounds + 1) matcher cursor lastStop state = some (state, next) := by
  rw [Matcher.visitFrom?, hcaptures]

theorem visitFrom?_of_group {matcher next : Matcher} {lastStop : Option Nat} {state : β}
    {slots : Slots} (hcaptures : matcher.capturesFrom cursor = (some slots, next))
    (hgroup : slots.group? 0 = none) (rounds : Nat) :
    Matcher.visitFrom? visit (rounds + 1) matcher cursor lastStop state = some (state, next) := by
  rw [Matcher.visitFrom?, hcaptures]
  simp only [hgroup]

theorem visitFrom?_of_some {matcher next : Matcher} {lastStop : Option Nat} {state : β}
    {slots : Slots} (hcaptures : matcher.capturesFrom cursor = (some slots, next)) {extent : Extent}
    (hgroup : slots.group? 0 = some extent) (rounds : Nat) :
    Matcher.visitFrom? visit (rounds + 1) matcher cursor lastStop state =
      match if Program.isRepeated lastStop extent then .yield state else visit state slots with
      | .done state => some (state, next)
      | .yield state =>
        match Matcher.resume? (extent.start == extent.stop) (cursor.seek extent.stop) with
        | none => some (state, next)
        | some behind => Matcher.visitFrom? visit rounds next behind (some extent.stop) state := by
  rw [Matcher.visitFrom?, hcaptures]
  simp only [hgroup]
  -- A repeated match keeps the last stop, which is where it stops itself.
  have hstop := Program.stop_of_isRepeated lastStop extent
  rw [Program.isRepeated] at hstop ⊢
  exact hstop.symm ▸ rfl

/-- The loop is done when no character is left, and has gone through the matches of its program one
behind the other, whatever the matcher has been used for. -/
theorem Ready.visitFrom?_eq (hready : matcher.Ready program) (hcheck : program.check = .ok ())
    (hadvances : program.Advances) {text : String} (hon : Cursor.On text cursor) {rounds : Nat}
    (hrounds : cursor.rest.length < rounds) (visit : β → Slots → ForInStep β)
    (lastStop : Option Nat) (state : β) :
    ∃ next, Matcher.visitFrom? visit rounds matcher cursor lastStop state =
        some (visitEach visit state (program.matchesFrom cursor lastStop), next) ∧
      next.Ready program := by
  induction rounds generalizing matcher cursor lastStop state with
  | zero => cases hrounds
  | succ rounds ih =>
      obtain ⟨next, hcaptures, hnext⟩ := hready.exists_capturesFrom hcheck cursor
      cases hmatch : program.matchFrom? cursor with
      | none =>
          rw [hmatch] at hcaptures
          rw [Program.matchesFrom_of_none hmatch]
          exact ⟨next, visitFrom?_of_none hcaptures rounds, hnext⟩
      | some slots =>
          rw [hmatch] at hcaptures
          cases hgroup : slots.group? 0 with
          | none =>
              rw [Program.matchesFrom_of_group hmatch hgroup]
              exact ⟨next, visitFrom?_of_group hcaptures hgroup rounds, hnext⟩
          | some extent =>
              rw [visitFrom?_of_some hcaptures hgroup, Program.matchesFrom_of_some hmatch hgroup,
                Program.matchesBehind, visitEach_append]
              cases if Program.isRepeated lastStop extent then .yield state
                else visit state slots with
              | done after => exact ⟨next, rfl, hnext⟩
              | yield after =>
                  cases hresume : resume? (extent.start == extent.stop)
                      (cursor.seek extent.stop) with
                  | none => exact ⟨next, rfl, hnext⟩
                  | some behind =>
                      obtain ⟨honBehind, hlt⟩ := hadvances hon hmatch hgroup hresume
                      have hleft := resume?_length hresume hlt
                      simp only [hlt, if_true]
                      exact ih hnext honBehind (by omega) (some extent.stop) after

theorem Ready.visitMatches?_eq (hready : matcher.Ready program) (hcheck : program.check = .ok ())
    (hadvances : program.Advances) (visit : β → Slots → ForInStep β) (text : String) (state : β) :
    ∃ next, matcher.visitMatches? visit text state =
        some (visitEach visit state (program.matchesFrom (.start text) none), next) ∧
      next.Ready program :=
  hready.visitFrom?_eq hcheck hadvances (Cursor.on_start text) (Nat.lt_succ_self _) visit none state

theorem Ready.visitMatches_eq (hready : matcher.Ready program) (hcheck : program.check = .ok ())
    (hadvances : program.Advances) (visit : β → Slots → ForInStep β) (text : String) (state : β) :
    (matcher.visitMatches visit text state).1 =
        visitEach visit state (program.matchesFrom (.start text) none) ∧
      (matcher.visitMatches visit text state).2.Ready program := by
  obtain ⟨next, hvisited, hnext⟩ := hready.visitMatches?_eq hcheck hadvances visit text state
  rw [Matcher.visitMatches, hvisited, Option.getD_some]
  exact ⟨rfl, hnext⟩

theorem visitEach_yield {β : Type} (visit : β → Slots → β) (state : β) (found : List Slots) :
    visitEach (fun state slots => .yield (visit state slots)) state found =
      found.foldl visit state := by
  induction found generalizing state with
  | nil => rfl
  | cons slots others ih => exact ih (visit state slots)

theorem visitEach_count (n : Nat) (found : List Slots) :
    visitEach (fun n _ => .yield (n + 1)) n found = n + found.length := by
  induction found generalizing n with
  | nil => rfl
  | cons slots others ih =>
      refine (ih (n + 1)).trans ?_
      rw [List.length_cons, Nat.add_right_comm, Nat.add_assoc]

theorem visitEach_keep_none (kept : Array Slots) (found : List Slots) :
    visitEach (keep none) kept found = kept ++ found.toArray := by
  induction found generalizing kept with
  | nil => simp [visitEach]
  | cons slots others ih =>
      refine (ih (kept.push slots)).trans ?_
      simp

theorem keep_last {limit : Nat} {kept : Array Slots} (hfull : limit ≤ kept.size + 1)
    (slots : Slots) : keep (some limit) kept slots = .done (kept.push slots) := by
  simp [keep, hfull]

theorem keep_yield {limit : Nat} {kept : Array Slots} (hroom : kept.size + 1 < limit)
    (slots : Slots) : keep (some limit) kept slots = .yield (kept.push slots) := by
  simp [keep, Nat.not_le_of_lt hroom]

/-- The match that reaches the limit is the last one, so one is kept even beyond the limit. -/
theorem visitEach_keep_some (limit : Nat) (kept : Array Slots) (found : List Slots) :
    visitEach (keep (some limit)) kept found =
      kept ++ (found.take (max 1 (limit - kept.size))).toArray := by
  induction found generalizing kept with
  | nil => simp [visitEach]
  | cons slots others ih =>
      rw [visitEach]
      by_cases hroom : kept.size + 1 < limit
      · have hlast : max 1 (limit - kept.size) = max 1 (limit - (kept.size + 1)) + 1 := by omega
        rw [keep_yield hroom, hlast, List.take_succ_cons]
        refine (ih (kept.push slots)).trans ?_
        simp
      · have hlast : max 1 (limit - kept.size) = 1 := by omega
        rw [keep_last (Nat.le_of_not_lt hroom), hlast, List.take_succ_cons]
        simp

theorem Ready.countMatches_eq (hready : matcher.Ready program) (hcheck : program.check = .ok ())
    (hadvances : program.Advances) (text : String) :
    (matcher.countMatches text).1 = (program.matchesFrom (.start text) none).length := by
  refine (hready.visitMatches_eq hcheck hadvances _ text 0).1.trans ?_
  rw [visitEach_count, Nat.zero_add]

/-- A limit of zero still lets one match through. -/
theorem Ready.matchesUpTo_eq (hready : matcher.Ready program) (hcheck : program.check = .ok ())
    (hadvances : program.Advances) (limit : Option Nat) (text : String) :
    (matcher.matchesUpTo limit text).1.toList =
      Text.upTo (limit.map (max 1)) (program.matchesFrom (.start text) none) := by
  rw [Matcher.matchesUpTo, (hready.visitMatches_eq hcheck hadvances (keep limit) text #[]).1]
  cases limit with
  | none => simp [visitEach_keep_none, Text.upTo]
  | some limit => simp [visitEach_keep_some, Text.upTo]

theorem Ready.findAll_eq (hready : matcher.Ready program) (hcheck : program.check = .ok ())
    (hadvances : program.Advances) (limit : Option Nat) (text : String) :
    (matcher.findAll limit text).1 = Text.upTo limit (program.extentsIn text) := by
  by_cases hlimit : (limit == some 0) = true
  · rw [Matcher.findAll, if_pos hlimit, eq_of_beq hlimit, Text.upTo, List.take_zero]
  · rw [Matcher.findAll, if_neg hlimit]
    have hlimit : limit.map (max 1) = limit := by
      cases limit with
      | none => rfl
      | some limit => simpa [Nat.one_le_iff_ne_zero] using hlimit
    have hgroups := fun slots hslots =>
      Option.isSome_iff_exists.mpr (@Program.exists_group_of_mem_matchesFrom program
        (.start text) none slots hslots)
    show (matcher.matchesUpTo limit text).1.toList.filterMap (fun slots => slots.group? 0) = _
    rw [hready.matchesUpTo_eq hcheck hadvances, hlimit, Text.filterMap_upTo _ _ hgroups,
      Program.extentsIn]

end Matcher

end TextColumns
