import TextColumns.Proofs.Regex.Ledger

/-!
Clients that share a table of compiled patterns agree with one another, whichever way their steps
interleave: a handle stands for one pattern for ever, registrations of one pattern end with one
handle until it is released, and a handle that was released stays unknown.
-/

namespace TextColumns

open SharedRegistry

variable {Client : Type} [DecidableEq Client] {history later between earlier : List (Client × Event)}
  {start shared : SharedRegistry Client} {client : Client} {event : Event} {key : PatternKey}
  {handle : Nat}

theorem steps_register_ok {registry : Registry} (hidle : start.phase client = .idle)
    (hregister : start.registry.register key.pattern key.flags = .ok (handle, registry)) :
    ∃ event history after, Steps start ((client, event) :: history) after ∧
      event.registration? = some (key, handle) ∧ after.registry = registry ∧
      after.phase client = .idle := by
  cases hknown : start.registry.handle? key with
  | some known =>
      rw [Registry.register, hknown] at hregister
      cases hregister
      exact ⟨_, _, _, .step .refl (.find hidle hknown), rfl, rfl, hidle⟩
  | none =>
      rw [Registry.register, hknown] at hregister
      cases hcompile : Regex.compile key.pattern key.flags with
      | error failure =>
          rw [hcompile] at hregister
          cases hregister
      | ok regex =>
          have hinsert : start.registry.insert key regex = (handle, registry) := by
            simpa [hcompile] using hregister
          refine ⟨_, _, _, .step (.step (.step .refl (.miss hidle hknown))
            (.compile (phase_withPhase_self ..) hcompile))
            (.issue (phase_withPhase_self ..) hknown), ?_, ?_, phase_withPhase_self ..⟩
          · exact congrArg (fun inserted => some (key, inserted.1)) hinsert
          · exact congrArg Prod.snd hinsert

theorem steps_register_error {failure : Failure} (hidle : start.phase client = .idle)
    (hregister : start.registry.register key.pattern key.flags = .error failure) :
    ∃ after, Steps start [(client, .refused key failure), (client, .missed key)] after ∧
      after.registry = start.registry ∧ after.phase client = .idle := by
  cases hknown : start.registry.handle? key with
  | some known =>
      rw [Registry.register, hknown] at hregister
      cases hregister
  | none =>
      rw [Registry.register, hknown] at hregister
      cases hcompile : Regex.compile key.pattern key.flags with
      | error failure =>
          rw [hcompile] at hregister
          cases hregister
          exact ⟨_, .step (.step .refl (.miss hidle hknown))
            (.refuse (phase_withPhase_self ..) hcompile), rfl, phase_withPhase_self ..⟩
      | ok regex =>
          rw [hcompile] at hregister
          cases hregister

theorem exists_step_of_steps (hsteps : Steps start (later ++ (client, event) :: earlier) shared) :
    ∃ before after, Steps start earlier before ∧ Step before client event after := by
  induction later generalizing shared with
  | nil =>
      cases hsteps with
      | step hearlier hlast => exact ⟨_, _, hearlier, hlast⟩
  | cons first later induction =>
      cases hsteps with
      | step hearlier hlast => exact induction hearlier

/-- A registration ends with the handle that its key has by then, or else with a new one. -/
theorem handle?_of_registration {after : SharedRegistry Client}
    (hstep : Step shared client event after) (hevent : event.registration? = some (key, handle)) :
    shared.registry.handle? key = some handle ∨
      event = .issued key handle ∧ shared.registry.handle? key = none := by
  cases hstep with
  | find _ hhandle =>
      cases hevent
      exact .inl hhandle
  | join _ hhandle =>
      rw [Registry.insert_of_some hhandle] at hevent
      cases hevent
      exact .inl hhandle
  | issue _ hhandle =>
      cases hevent
      exact .inr ⟨rfl, hhandle⟩
  | miss | refuse | compile | get | release => cases hevent

theorem live_of_registration {after : SharedRegistry Client}
    (hledger : Ledger earlier shared.registry) (hstep : Step shared client event after)
    (hevent : event.registration? = some (key, handle)) :
    Live ((client, event) :: earlier) key handle := by
  obtain hhandle | ⟨hissued, -⟩ := handle?_of_registration hstep hevent
  · refine live_cons.mpr (.inr ⟨hledger.handle?_iff.mp hhandle, ?_⟩)
    rintro known rfl
    cases hevent
  · exact live_cons.mpr (.inl hissued)

theorem live_append (hsteps : Steps initial (between ++ earlier) shared)
    (hcount : (issues (between ++ earlier)).length < Word.count)
    (hlive : Live earlier key handle)
    (hkept : ∀ other, (other, .released handle true) ∉ between) :
    Live (between ++ earlier) key handle := by
  induction between generalizing shared with
  | nil => exact hlive
  | cons last between induction =>
      obtain ⟨actor, event⟩ := last
      obtain ⟨before, hbefore, hstep⟩ : ∃ before, Steps initial (between ++ earlier) before ∧
          Step before actor event shared := by
        cases hsteps with
        | step hbefore hstep => exact ⟨_, hbefore, hstep⟩
      have hbetween : (issues (between ++ earlier)).length < Word.count :=
        Nat.lt_of_le_of_lt (length_issues_le_append [(actor, event)] _) hcount
      have hstill : Live (between ++ earlier) key handle :=
        induction hbefore hbetween fun other hmem => hkept other (List.mem_cons_of_mem _ hmem)
      refine live_cons.mpr (.inr ⟨hstill, ?_⟩)
      rintro known rfl
      -- A release of a live handle takes effect, and none does.
      cases hstep with
      | release =>
          have hknown := (ledger_of_steps hbefore hbetween).release_fst_iff.mpr ⟨key, hstill⟩
          rw [hknown] at hkept
          exact hkept actor List.mem_cons_self

/-- What clients can rely on after any interleaving of their steps. -/
structure Coherent (history : List (Client × Event)) (shared : SharedRegistry Client) : Prop where
  exists_program_iff : ∀ handle, (∃ regex, shared.registry.regex? handle = some regex) ↔
    ∃! key, shared.registry.handle? key = some handle
  program_of_handle : ∀ {key handle}, shared.registry.handle? key = some handle →
    ∃ regex, Regex.compile key.pattern key.flags = .ok regex ∧
      shared.registry.regex? handle = some regex
  issued_lt_next : ∀ {key handle}, (key, handle) ∈ issues history →
    handle < shared.registry.next
  issued_once : ((issues history).map Prod.snd).Nodup
  registered_issued : ∀ {client event key handle}, (client, event) ∈ history →
    event.registration? = some (key, handle) → (key, handle) ∈ issues history
  released_unknown : ∀ {client handle}, (client, .released handle true) ∈ history →
    shared.registry.regex? handle = none ∧ ∀ key, shared.registry.handle? key ≠ some handle
  registrations_agree : ∀ {later between earlier first second key handle other},
    history = later ++ second :: (between ++ first :: earlier) →
    first.2.registration? = some (key, handle) → second.2.registration? = some (key, other) →
    (∀ client, (client, .released handle true) ∉ between) → handle = other
  released_iff : ∀ {later earlier client handle known},
    history = later ++ (client, .released handle known) :: earlier →
    (known = true ↔ ∃ key, Live earlier key handle)
  got_regex_iff : ∀ {later earlier client handle answer},
    history = later ++ (client, .got handle answer) :: earlier → ∀ regex,
    (answer = .ok regex ↔
      ∃ key, Live earlier key handle ∧ Regex.compile key.pattern key.flags = .ok regex)
  got_invalid_iff : ∀ {later earlier client handle answer},
    history = later ++ (client, .got handle answer) :: earlier →
    ((∃ failure, answer = .error failure ∧ failure.kind = .invalidArguments) ↔
      ∀ key, ¬ Live earlier key handle)
  refused : ∀ {later earlier client key failure},
    history = later ++ (client, .refused key failure) :: earlier →
    earlier.lookup client = some (.missed key) ∧
      Regex.compile key.pattern key.flags = .error failure
  refusal_unchanged : ∀ {client event key after}, Step shared client event after →
    (event = .missed key ∨ ∃ failure, event = .refused key failure) →
    after.registry = shared.registry

section Run

variable (hsteps : Steps initial history shared)
  (hcount : (issues history).length < Word.count)

include hsteps hcount

theorem ledger_before (hhistory : history = later ++ (client, event) :: earlier) :
    ∃ before after, Steps initial earlier before ∧ Ledger earlier before.registry ∧
      Step before client event after := by
  subst hhistory
  obtain ⟨before, after, hbefore, hstep⟩ := exists_step_of_steps hsteps
  refine ⟨before, after, hbefore, ledger_of_steps hbefore ?_, hstep⟩
  refine Nat.lt_of_le_of_lt ?_ hcount
  rw [List.append_cons]
  exact length_issues_le_append (later ++ [(client, event)]) earlier

theorem registered_issued (hmem : (client, event) ∈ history)
    (hevent : event.registration? = some (key, handle)) : (key, handle) ∈ issues history := by
  obtain ⟨later, earlier, hhistory⟩ := List.append_of_mem hmem
  obtain ⟨before, after, -, hledger, hstep⟩ := ledger_before hsteps hcount hhistory
  have hissued := (live_of_registration hledger hstep hevent).mem_issues
  rw [hhistory]
  simp only [issues, List.filterMap_append, List.mem_append] at hissued ⊢
  exact .inr hissued

theorem released_iff {known : Bool}
    (hhistory : history = later ++ (client, .released handle known) :: earlier) :
    known = true ↔ ∃ key, Live earlier key handle := by
  obtain ⟨before, after, -, hledger, hstep⟩ := ledger_before hsteps hcount hhistory
  cases hstep with
  | release => exact hledger.release_fst_iff

theorem released_unknown (hmem : (client, .released handle true) ∈ history) :
    shared.registry.regex? handle = none ∧
      ∀ key, shared.registry.handle? key ≠ some handle := by
  have hledger := ledger_of_steps hsteps hcount
  obtain ⟨later, earlier, hhistory⟩ := List.append_of_mem hmem
  obtain ⟨owner, howner⟩ := (released_iff hsteps hcount hhistory).mp rfl
  have hdead : ∀ key, ¬ Live history key handle := by
    intro key
    have hnodup := hledger.handles_nodup
    rw [hhistory] at hnodup ⊢
    exact not_live_of_released hnodup howner.mem_issues
  exact ⟨hledger.regex?_eq_none_iff.mpr hdead,
    fun key hkey => hdead key (hledger.handle?_iff.mp hkey)⟩

theorem registrations_agree {first second : Client × Event} {other : Nat}
    (hhistory : history = later ++ second :: (between ++ first :: earlier))
    (hfirst : first.2.registration? = some (key, handle))
    (hsecond : second.2.registration? = some (key, other))
    (hkept : ∀ client, (client, .released handle true) ∉ between) : handle = other := by
  obtain ⟨middle, _, hmiddle, hledger, hstep⟩ := ledger_before hsteps hcount hhistory
  have hbetween : history = (later ++ second :: between) ++ first :: earlier := by
    rw [hhistory, List.append_assoc, List.cons_append]
  obtain ⟨before, after, -, hbefore, hregister⟩ := ledger_before hsteps hcount hbetween
  have hissues : (issues (between ++ first :: earlier)).length < Word.count := by
    refine Nat.lt_of_le_of_lt ?_ hcount
    rw [hhistory, List.append_cons later]
    exact length_issues_le_append (later ++ [second]) _
  have hlive : Live (between ++ first :: earlier) key handle :=
    live_append hmiddle hissues (live_of_registration hbefore hregister hfirst) hkept
  have hhandle : middle.registry.handle? key = some handle := hledger.handle?_iff.mpr hlive
  obtain hother | ⟨-, hnone⟩ := handle?_of_registration hstep hsecond
  · exact Option.some.inj (hhandle.symm.trans hother)
  · cases hhandle.symm.trans hnone

end Run

theorem coherent_of_steps (hsteps : Steps initial history shared)
    (hcount : (issues history).length < Word.count) : Coherent history shared := by
  have hledger := ledger_of_steps hsteps hcount
  exact {
    exists_program_iff := hledger.exists_program_iff
    program_of_handle := by
      intro key handle hhandle
      obtain ⟨regex, hregex, hcompile⟩ :=
        hledger.exists_regex_of_live (hledger.handle?_iff.mp hhandle)
      exact ⟨regex, hcompile, hregex⟩
    issued_lt_next := hledger.lt_next
    issued_once := hledger.handles_nodup
    registered_issued := registered_issued hsteps hcount
    released_unknown := released_unknown hsteps hcount
    registrations_agree := registrations_agree hsteps hcount
    released_iff := released_iff hsteps hcount
    got_regex_iff := by
      intro later earlier client handle answer hhistory regex
      obtain ⟨before, after, -, hbefore, hstep⟩ := ledger_before hsteps hcount hhistory
      cases hstep with
      | get => exact hbefore.get_eq_ok_iff regex
    got_invalid_iff := by
      intro later earlier client handle answer hhistory
      obtain ⟨before, after, -, hbefore, hstep⟩ := ledger_before hsteps hcount hhistory
      cases hstep with
      | get => exact hbefore.get_invalid_iff
    refused := by
      intro later earlier client key failure hhistory
      obtain ⟨before, after, hbefore, -, hstep⟩ := ledger_before hsteps hcount hhistory
      cases hstep with
      | refuse hphase hcompile => exact ⟨(phases_of_steps hbefore).missed hphase, hcompile⟩
    refusal_unchanged := by
      rintro client event key after hstep (rfl | ⟨failure, rfl⟩) <;> cases hstep <;> rfl }

/-- Both clients look a pattern up and compile it before either of them adds it. -/
def race (key : PatternKey) : List (Bool × Event) :=
  [(false, .joined key 0), (true, .issued key 0), (false, .compiled key), (true, .compiled key),
    (false, .missed key), (true, .missed key)]

theorem coherent_of_steps_race :
    ∃ shared : SharedRegistry Bool, Steps initial (race ⟨"a", .none⟩) shared ∧
      (issues (race ⟨"a", .none⟩)).length < Word.count ∧
      Coherent (race ⟨"a", .none⟩) shared := by
  obtain ⟨regex, hcompile⟩ : ∃ regex, Regex.compile "a" .none = .ok regex := by
    have hok : (Regex.compile "a" .none).toOption.isSome = true := by decide +kernel
    cases hcompile : Regex.compile "a" .none with
    | ok regex => exact ⟨regex, rfl⟩
    | error failure => simp [hcompile, Except.toOption] at hok
  have hsteps : ∃ shared : SharedRegistry Bool, Steps initial (race ⟨"a", .none⟩) shared :=
    ⟨_, .step (.step (.step (.step (.step (.step .refl (.miss rfl rfl)) (.miss rfl rfl))
      (.compile rfl hcompile)) (.compile rfl hcompile)) (.issue rfl rfl)) (.join rfl rfl)⟩
  obtain ⟨shared, hsteps⟩ := hsteps
  exact ⟨shared, hsteps, by decide, coherent_of_steps hsteps (by decide)⟩

end TextColumns
