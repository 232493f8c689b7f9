import TextColumns.Proofs.Regex.Registry
import TextColumns.Regex.Clients
import Mathlib.Data.List.Nodup

/-!
What a table of compiled patterns knows is determined by what its clients have done, in whatever
order their steps fell: a pattern has a handle exactly while a registration has issued it and no
client has released it since.
-/

namespace TextColumns

open SharedRegistry

variable {Client : Type}

section History

variable {history : List (Client × Event)} {key : PatternKey} {handle : Nat}

def issues (history : List (Client × Event)) : List (PatternKey × Nat) :=
  history.filterMap (·.2.issue?)

/-- The handle was issued for the key, and nobody has released it since. -/
def Live (history : List (Client × Event)) (key : PatternKey) (handle : Nat) : Prop :=
  ∃ later earlier client, history = later ++ (client, .issued key handle) :: earlier ∧
    ∀ other known, (other, .released handle known) ∉ later

theorem live_cons {client : Client} {event : Event} :
    Live ((client, event) :: history) key handle ↔
      event = .issued key handle ∨
        Live history key handle ∧ ∀ known, event ≠ .released handle known := by
  constructor
  · rintro ⟨later, earlier, issuer, hhistory, hlater⟩
    cases later with
    | nil =>
        obtain ⟨hfirst, -⟩ := List.cons.inj hhistory
        exact .inl (congrArg Prod.snd hfirst)
    | cons first later =>
        obtain ⟨rfl, rfl⟩ := List.cons.inj hhistory
        refine .inr ⟨⟨later, earlier, issuer, rfl, fun other known hmem => ?_⟩, ?_⟩
        · exact hlater other known (List.mem_cons_of_mem _ hmem)
        · rintro known rfl
          exact hlater client known List.mem_cons_self
  · rintro (rfl | ⟨⟨later, earlier, issuer, rfl, hlater⟩, hevent⟩)
    · exact ⟨[], history, client, rfl, by simp⟩
    · refine ⟨(client, event) :: later, earlier, issuer, rfl, fun other known hmem => ?_⟩
      obtain heq | hmem := List.mem_cons.mp hmem
      · exact hevent known (congrArg Prod.snd heq).symm
      · exact hlater other known hmem

theorem live_issued {client : Client} {other : PatternKey} {given : Nat} :
    Live ((client, .issued key handle) :: history) other given ↔
      (key = other ∧ handle = given) ∨ Live history other given := by
  simp [live_cons]

theorem live_released {client : Client} {known : Bool} {given : Nat} :
    Live ((client, .released handle known) :: history) key given ↔
      handle ≠ given ∧ Live history key given := by
  simp [live_cons, and_comm]

theorem not_live_nil : ¬ Live ([] : List (Client × Event)) key handle := by
  rintro ⟨later, earlier, client, hnil, -⟩
  simp at hnil

theorem issues_cons (client : Client) (event : Event) :
    issues ((client, event) :: history) = event.issue?.toList ++ issues history := by
  cases hissue : event.issue? <;> simp [issues, hissue]

theorem Live.mem_issues (hlive : Live history key handle) : (key, handle) ∈ issues history := by
  obtain ⟨later, earlier, client, rfl, -⟩ := hlive
  simp [issues, Event.issue?]

theorem length_issues_le_append (later earlier : List (Client × Event)) :
    (issues earlier).length ≤ (issues (later ++ earlier)).length := by
  simp [issues]

/-- A handle that was issued once does not come back after its release. -/
theorem not_live_of_released {later earlier : List (Client × Event)} {client : Client}
    {known : Bool} {owner : PatternKey}
    (hnodup : ((issues (later ++ (client, .released handle known) :: earlier)).map
      Prod.snd).Nodup)
    (hissued : (owner, handle) ∈ issues earlier) :
    ¬ Live (later ++ (client, .released handle known) :: earlier) key handle := by
  induction later with
  | nil => simp [live_cons]
  | cons last later induction =>
      obtain ⟨actor, event⟩ := last
      rw [List.cons_append, issues_cons, List.map_append, List.nodup_append] at hnodup
      obtain ⟨-, hrest, hdisjoint⟩ := hnodup
      rw [List.cons_append, live_cons]
      rintro (rfl | ⟨hlive, -⟩)
      · have hagain : (owner, handle) ∈
            issues (later ++ (client, .released handle known) :: earlier) := by
          simp only [issues, List.filterMap_append, List.mem_append] at hissued ⊢
          exact .inr (by simpa [Event.issue?] using hissued)
        exact hdisjoint handle (by simp [Event.issue?]) handle
          (List.mem_map.mpr ⟨_, hagain, rfl⟩) rfl
      · exact induction hrest hlive

end History

structure Ledger (history : List (Client × Event)) (registry : Registry) : Prop where
  next_eq : registry.next = (issues history).length
  handles_eq : (issues history).map Prod.snd = (List.range (issues history).length).reverse
  exists_regex : ∀ {key handle}, (key, handle) ∈ issues history →
    ∃ regex, Regex.compile key.pattern key.flags = .ok regex
  handle?_iff : ∀ {key handle}, registry.handle? key = some handle ↔ Live history key handle
  regex?_iff : ∀ {handle regex}, registry.regex? handle = some regex ↔
    ∃ key, Live history key handle ∧ Regex.compile key.pattern key.flags = .ok regex

namespace Ledger

variable {history : List (Client × Event)} {registry : Registry} {key : PatternKey}
  {handle : Nat}

theorem initial : Ledger ([] : List (Client × Event)) Registry.empty where
  next_eq := rfl
  handles_eq := rfl
  exists_regex hissue := by simp [issues] at hissue
  handle?_iff := by simp [not_live_nil]
  regex?_iff := by simp [not_live_nil]

variable (hledger : Ledger history registry)

include hledger

theorem handles_nodup : ((issues history).map Prod.snd).Nodup := by
  rw [hledger.handles_eq]
  exact List.nodup_reverse.mpr List.nodup_range

theorem lt_next (hissue : (key, handle) ∈ issues history) : handle < registry.next := by
  have hmem : handle ∈ (issues history).map Prod.snd :=
    List.mem_map.mpr ⟨(key, handle), hissue, rfl⟩
  rw [hledger.handles_eq, List.mem_reverse, List.mem_range] at hmem
  rwa [hledger.next_eq]

theorem key_unique {other : PatternKey} (hlive : Live history key handle)
    (hother : Live history other handle) : key = other :=
  congrArg Prod.fst (List.inj_on_of_nodup_map hledger.handles_nodup hlive.mem_issues
    hother.mem_issues rfl)

theorem exists_regex_of_live (hlive : Live history key handle) :
    ∃ regex, registry.regex? handle = some regex ∧
      Regex.compile key.pattern key.flags = .ok regex := by
  obtain ⟨regex, hcompile⟩ := hledger.exists_regex hlive.mem_issues
  exact ⟨regex, hledger.regex?_iff.mpr ⟨key, hlive, hcompile⟩, hcompile⟩

theorem regex?_eq_none_iff :
    registry.regex? handle = none ↔ ∀ key, ¬ Live history key handle := by
  constructor
  · intro hregex key hlive
    obtain ⟨regex, hsome, -⟩ := hledger.exists_regex_of_live hlive
    simp [hregex] at hsome
  · intro hlive
    by_contra hregex
    obtain ⟨regex, hregex⟩ := Option.ne_none_iff_exists'.mp hregex
    obtain ⟨key, hkey, -⟩ := hledger.regex?_iff.mp hregex
    exact hlive key hkey

theorem release_fst_iff :
    (registry.release handle).1 = true ↔ ∃ key, Live history key handle := by
  rw [Registry.release_fst_iff]
  constructor
  · rintro ⟨regex, hregex⟩
    obtain ⟨key, hlive, -⟩ := hledger.regex?_iff.mp hregex
    exact ⟨key, hlive⟩
  · rintro ⟨key, hlive⟩
    obtain ⟨regex, hregex, -⟩ := hledger.exists_regex_of_live hlive
    exact ⟨regex, hregex⟩

theorem exists_program_iff (handle : Nat) :
    (∃ regex, registry.regex? handle = some regex) ↔
      ∃! key, registry.handle? key = some handle := by
  constructor
  · rintro ⟨regex, hregex⟩
    obtain ⟨key, hlive, -⟩ := hledger.regex?_iff.mp hregex
    refine ⟨key, hledger.handle?_iff.mpr hlive, fun other hother => ?_⟩
    exact hledger.key_unique (hledger.handle?_iff.mp hother) hlive
  · rintro ⟨key, hkey, -⟩
    obtain ⟨regex, hregex, -⟩ := hledger.exists_regex_of_live (hledger.handle?_iff.mp hkey)
    exact ⟨regex, hregex⟩

theorem get_eq_ok_iff (regex : Regex) :
    registry.get handle = .ok regex ↔
      ∃ key, Live history key handle ∧ Regex.compile key.pattern key.flags = .ok regex := by
  rw [← hledger.regex?_iff]
  cases hregex : registry.regex? handle with
  | none => simp [Registry.get_of_none hregex]
  | some program => simp [Registry.get_of_some hregex]

theorem get_invalid_iff :
    (∃ failure, registry.get handle = .error failure ∧ failure.kind = .invalidArguments) ↔
      ∀ key, ¬ Live history key handle := by
  rw [← hledger.regex?_eq_none_iff]
  cases hregex : registry.regex? handle with
  | none => simp [Registry.get_of_none hregex, Failure.kind]
  | some program => simp [Registry.get_of_some hregex]

theorem of_same_handles {other : List (Client × Event)} (hissues : issues other = issues history)
    (hlive : ∀ key handle, Live other key handle ↔ Live history key handle) :
    Ledger other registry where
  next_eq := by rw [hissues, hledger.next_eq]
  handles_eq := by rw [hissues, hledger.handles_eq]
  exists_regex hmem := hledger.exists_regex (by rwa [hissues] at hmem)
  handle?_iff := by simp [hlive, hledger.handle?_iff]
  regex?_iff := by simp [hlive, hledger.regex?_iff]

theorem cons_of_unchanged {client : Client} {event : Event} (hissue : event.issue? = none)
    (hrelease : ∀ handle known, event ≠ .released handle known) :
    Ledger ((client, event) :: history) registry := by
  apply hledger.of_same_handles
  · simp [issues_cons, hissue]
  · intro key handle
    have hevent : event ≠ .issued key handle := by
      rintro rfl
      simp [Event.issue?] at hissue
    simp [live_cons, hevent, hrelease]

theorem cons_issued {regex : Regex} (client : Client)
    (hcount : registry.next + 1 < Word.count) (hhandle : registry.handle? key = none)
    (hcompile : Regex.compile key.pattern key.flags = .ok regex) :
    Ledger ((client, .issued key registry.next) :: history) (registry.insert key regex).2 := by
  have hissues : issues ((client, .issued key registry.next) :: history) =
      (key, registry.next) :: issues history := issues_cons ..
  have hfresh : ∀ other, ¬ Live history other registry.next := fun other hlive =>
    Nat.lt_irrefl _ (hledger.lt_next hlive.mem_issues)
  have hnew : ∀ other, ¬ Live history key other := fun other hlive => by
    simp [hledger.handle?_iff.mpr hlive] at hhandle
  refine ⟨?_, ?_, ?_, ?_, ?_⟩
  · rw [Registry.insert_of_none hhandle, hissues, List.length_cons, ← hledger.next_eq]
    exact Nat.mod_eq_of_lt hcount
  · rw [hissues, List.map_cons, hledger.handles_eq, List.length_cons, List.range_succ,
      List.reverse_append, hledger.next_eq]
    rfl
  · intro other given hmem
    rw [hissues, List.mem_cons] at hmem
    obtain heq | hmem := hmem
    · cases heq
      exact ⟨regex, hcompile⟩
    · exact hledger.exists_regex hmem
  · intro other given
    rw [Registry.handle?_insert hhandle, live_issued]
    split_ifs with hother
    · subst hother
      simp [hnew]
    · simp [Ne.symm hother, hledger.handle?_iff]
  · intro given program
    rw [Registry.regex?_insert hhandle]
    split_ifs with hgiven
    · subst hgiven
      simp [live_issued, hfresh, hcompile]
    · simp [live_issued, Ne.symm hgiven, hledger.regex?_iff]

theorem cons_released_unknown (client : Client) (hregex : registry.regex? handle = none) :
    Ledger ((client, .released handle false) :: history) registry := by
  have hdead := hledger.regex?_eq_none_iff.mp hregex
  refine hledger.of_same_handles (issues_cons ..) fun key given => ?_
  rw [live_released, and_iff_right_iff_imp]
  rintro hgiven rfl
  exact hdead key hgiven

theorem cons_released_known {regex : Regex} (client : Client)
    (hregex : registry.regex? handle = some regex) :
    Ledger ((client, .released handle true) :: history) (registry.release handle).2 := by
  have hissues : issues ((client, .released handle true) :: history) = issues history :=
    issues_cons ..
  obtain ⟨owner, howner, hcompile⟩ := hledger.regex?_iff.mp hregex
  have hkey : (⟨regex.pattern, regex.flags⟩ : PatternKey) = owner := by
    obtain ⟨hpattern, hflags⟩ := Regex.key_of_compile hcompile
    rw [hpattern, hflags]
  refine ⟨?_, ?_, ?_, ?_, ?_⟩
  · rw [hissues, Registry.release_of_some hregex, hledger.next_eq]
  · rw [hissues, hledger.handles_eq]
  · exact fun hmem => hledger.exists_regex (by rwa [hissues] at hmem)
  · intro key given
    rw [Registry.handle?_release hregex, hkey, live_released]
    split_ifs with howned
    · -- The owner's only live handle is the one that is released.
      have hgiven : registry.handle? key = some handle :=
        hledger.handle?_iff.mpr (howned ▸ howner)
      rw [← hledger.handle?_iff, hgiven]
      simp
    · rw [hledger.handle?_iff, iff_and_self]
      rintro hgiven rfl
      exact howned (hledger.key_unique hgiven howner)
  · intro given program
    rw [Registry.regex?_release hregex]
    split_ifs with hgiven
    · simp [live_released, hgiven]
    · simp [live_released, Ne.symm hgiven, hledger.regex?_iff]

theorem cons_released (client : Client) (handle : Nat) :
    Ledger ((client, .released handle (registry.release handle).1) :: history)
      (registry.release handle).2 := by
  cases hregex : registry.regex? handle with
  | none =>
      rw [Registry.release_of_none hregex]
      exact hledger.cons_released_unknown client hregex
  | some regex =>
      have hknown := hledger.cons_released_known client hregex
      rwa [Registry.release_of_some hregex] at hknown ⊢

end Ledger

/-- What a client that is registering a pattern has done so far. -/
structure Phases [DecidableEq Client] (history : List (Client × Event))
    (shared : SharedRegistry Client) : Prop where
  missed : ∀ {client key}, shared.phase client = .missed key →
    history.lookup client = some (.missed key)
  compiled : ∀ {client key regex}, shared.phase client = .compiled key regex →
    Regex.compile key.pattern key.flags = .ok regex

section Steps

variable [DecidableEq Client] {history : List (Client × Event)}
  {shared next : SharedRegistry Client} {client : Client} {event : Event}

theorem Phases.initial : Phases ([] : List (Client × Event)) SharedRegistry.initial where
  missed hphase := by cases hphase
  compiled hphase := by cases hphase

theorem Phases.cons (hphases : Phases history shared)
    (hothers : ∀ other, other ≠ client → next.phase other = shared.phase other)
    (hmissed : ∀ {key}, next.phase client = .missed key → event = .missed key)
    (hcompiled : ∀ {key regex}, next.phase client = .compiled key regex →
      Regex.compile key.pattern key.flags = .ok regex) :
    Phases ((client, event) :: history) next where
  missed {other key} hphase := by
    rw [lookup_cons_eq_ite]
    split_ifs with hother
    · subst hother
      rw [hmissed hphase]
    · exact hphases.missed (hothers other hother ▸ hphase)
  compiled {other key regex} hphase := by
    by_cases hother : other = client
    · exact hcompiled (hother ▸ hphase)
    · exact hphases.compiled (hothers other hother ▸ hphase)

@[simp] theorem phase_withPhase_self (shared : SharedRegistry Client) (client : Client)
    (phase : Phase) : (shared.withPhase client phase).phase client = phase :=
  if_pos rfl

theorem Phases.step (hphases : Phases history shared) (hstep : Step shared client event next) :
    Phases ((client, event) :: history) next := by
  cases hstep with
  | find hidle | get hidle | release hidle =>
      exact hphases.cons (fun _ _ => rfl) (fun hphase => by simp_all [withRegistry])
        (fun hphase => by simp_all [withRegistry])
  | miss | refuse | join | issue =>
      refine hphases.cons (fun other hother => if_neg hother) ?_ ?_ <;> simp
  | compile hphase hcompile =>
      refine hphases.cons (fun other hother => if_neg hother) ?_ ?_
      · simp
      · intro key regex hcompiled
        rw [phase_withPhase_self] at hcompiled
        cases hcompiled
        exact hcompile

theorem Ledger.step (hledger : Ledger history shared.registry) (hphases : Phases history shared)
    (hstep : Step shared client event next)
    (hcount : (issues ((client, event) :: history)).length < Word.count) :
    Ledger ((client, event) :: history) next.registry := by
  cases hstep with
  | find | miss | refuse | compile | get =>
      exact hledger.cons_of_unchanged rfl (by simp)
  | join hphase hhandle =>
      rw [Registry.insert_of_some hhandle]
      exact hledger.cons_of_unchanged rfl (by simp)
  | issue hphase hhandle =>
      have hnext : shared.registry.next + 1 < Word.count := by
        rwa [issues_cons, Event.issue?, Option.toList_some, List.singleton_append,
          List.length_cons, ← hledger.next_eq] at hcount
      rw [Registry.insert_of_none hhandle]
      have hissued := hledger.cons_issued client hnext hhandle (hphases.compiled hphase)
      rwa [Registry.insert_of_none hhandle] at hissued
  | release => exact hledger.cons_released client _

theorem phases_of_steps (hsteps : Steps initial history shared) : Phases history shared := by
  induction hsteps with
  | refl => exact Phases.initial
  | step earlier last induction => exact induction.step last

theorem ledger_of_steps (hsteps : Steps initial history shared)
    (hcount : (issues history).length < Word.count) : Ledger history shared.registry := by
  induction hsteps with
  | refl => exact Ledger.initial
  | @step history shared client event next earlier last induction =>
      have hearlier : (issues history).length < Word.count :=
        Nat.lt_of_le_of_lt (length_issues_le_append [(client, event)] history) hcount
      exact (induction hearlier).step (phases_of_steps earlier) last hcount

end Steps

end TextColumns
