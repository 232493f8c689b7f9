import TextColumns.Matching.Replacement
import TextColumns.Proofs.Matching.Rows
import TextColumns.Proofs.Regex.WholeMatch

/-!
One matcher for many texts.  What a call answers does not depend on the calls before it, so every
row of a column is what a new matcher makes of its text.
-/

namespace TextColumns

open Pattern (Flags)
open Search (Slots)
open Text (Cursor Extent)

namespace Matcher

/-- A call on a matcher, with the type of its answer.  A cursor is a text and a place in it. -/
inductive Call : Type → Type 1 where
  | isMatch (text : String) : Call Bool
  | isMatchAtStart (text : String) : Call Bool
  | findFrom (cursor : Cursor) : Call (Option Extent)
  | capturesFrom (cursor : Cursor) : Call (Option Slots)
  | visitMatches {β : Type} (visit : β → Slots → ForInStep β) (text : String) (state : β) :
      Call (Option β)
  | findAll (limit : Option Nat) (text : String) : Call (List Extent)

def Call.run (matcher : Matcher) : Call α → α × Matcher
  | .isMatch text => matcher.isMatch text
  | .isMatchAtStart text => matcher.isMatchAtStart text
  | .findFrom cursor => matcher.findFrom cursor
  | .capturesFrom cursor => matcher.capturesFrom cursor
  | .visitMatches visit text state =>
    match matcher.visitMatches? visit text state with
    | some (state, matcher) => (some state, matcher)
    | none => (none, ofProgram matcher.program)
  | .findAll limit text => matcher.findAll limit text

def answers (matcher : Matcher) : List (Σ α, Call α) → List (Σ α, α)
  | [] => []
  | ⟨α, call⟩ :: calls => ⟨α, (call.run matcher).1⟩ :: (call.run matcher).2.answers calls

def afterCalls (matcher : Matcher) : List (Σ α, Call α) → Matcher
  | [] => matcher
  | ⟨_, call⟩ :: calls => (call.run matcher).2.afterCalls calls

variable {matcher : Matcher} {program : Program}

theorem Ready.isSome_run_eq (hready : matcher.Ready program) (hcheck : program.check = .ok ())
    (mode : Search.Mode) (cursor : Cursor) :
    (matcher.run mode cursor).1.isSome = ((ofProgram program).run mode cursor).1.isSome :=
  (hready.run_congr (ready_ofProgram program) hcheck mode cursor).1

theorem Ready.visitMatches_congr (hready : matcher.Ready program) (hcheck : program.check = .ok ())
    (hadvances : program.Advances) (visit : β → Slots → ForInStep β) (text : String) (state : β) :
    (matcher.visitMatches visit text state).1 =
        ((ofProgram program).visitMatches visit text state).1 ∧
      (matcher.visitMatches visit text state).2.Ready program := by
  obtain ⟨hvisited, hnext⟩ := hready.visitMatches_eq hcheck hadvances visit text state
  have hfresh :=
    ((ready_ofProgram program).visitMatches_eq hcheck hadvances visit text state).1
  exact ⟨hvisited.trans hfresh.symm, hnext⟩

theorem Ready.call (hready : matcher.Ready program) (hcheck : program.check = .ok ())
    (hadvances : program.Advances) (call : Call α) :
    (call.run matcher).1 = (call.run (ofProgram program)).1 ∧
      (call.run matcher).2.Ready program := by
  cases call with
  | isMatch text =>
      exact ⟨hready.isSome_run_eq hcheck _ _, hready.run hcheck _ _⟩
  | isMatchAtStart text =>
      exact ⟨hready.isSome_run_eq hcheck _ _, hready.run hcheck _ _⟩
  | findFrom cursor =>
      exact ⟨congrArg (Option.bind · (Slots.group? · 0)) (hready.capturesFrom_eq hcheck cursor),
        hready.run hcheck _ _⟩
  | capturesFrom cursor => exact ⟨hready.capturesFrom_eq hcheck cursor, hready.run hcheck _ _⟩
  | visitMatches visit text state =>
      obtain ⟨next, hvisited, hnext⟩ := hready.visitMatches?_eq hcheck hadvances visit text state
      obtain ⟨fresh, hfresh, -⟩ :=
        (ready_ofProgram program).visitMatches?_eq hcheck hadvances visit text state
      simp only [Call.run, hvisited, hfresh, true_and]
      exact hnext
  | findAll limit text =>
      refine ⟨?_, (hready.findAll hcheck limit text).2⟩
      exact (hready.findAll_eq hcheck hadvances limit text).trans
        ((ready_ofProgram program).findAll_eq hcheck hadvances limit text).symm

theorem Ready.afterCalls (hready : matcher.Ready program) (hcheck : program.check = .ok ())
    (hadvances : program.Advances) (calls : List (Σ α, Call α)) :
    (matcher.afterCalls calls).Ready program := by
  induction calls generalizing matcher with
  | nil => exact hready
  | cons call calls ih => exact ih (hready.call hcheck hadvances call.2).2

theorem Ready.answers_eq (hready : matcher.Ready program) (hcheck : program.check = .ok ())
    (hadvances : program.Advances) (calls : List (Σ α, Call α)) :
    matcher.answers calls =
      calls.map fun call => ⟨call.1, (call.2.run (ofProgram program)).1⟩ := by
  induction calls generalizing matcher with
  | nil => rfl
  | cons call calls ih =>
      obtain ⟨hanswer, hnext⟩ := hready.call hcheck hadvances call.2
      rw [answers, List.map_cons, ← hanswer, ih hnext]

end Matcher

namespace Matching

/-- What is asked of the matcher for a text by the columns: each row of a column is made from one
of these. -/
inductive RowCall : {β : Type} → (Matcher → String → β × Matcher) → Prop where
  | contains : RowCall Matcher.isMatch
  | matchesStart : RowCall Matcher.isMatchAtStart
  | find : RowCall findMatch
  | count : RowCall Matcher.countMatches
  | extents (limit : Option Nat) : RowCall fun matcher text => matcher.findAll limit text
  | extract : RowCall captureRow
  | replaceByTemplate (limit : Option Nat) : RowCall (groupsOfMatches limit)

variable {program : Program} {matcher : Matcher} {f : Matcher → String → β × Matcher}

theorem RowCall.gives (hrow : RowCall f) (hcheck : program.check = .ok ())
    (hadvances : program.Advances) :
    Gives program f fun text result => result = (f (.ofProgram program) text).1 := by
  intro matcher text hready
  cases hrow with
  | contains => exact hready.call hcheck hadvances (.isMatch text)
  | matchesStart => exact hready.call hcheck hadvances (.isMatchAtStart text)
  | find =>
      obtain ⟨hfound, hnext⟩ := hready.call hcheck hadvances (.findFrom (.start text))
      exact ⟨congrArg (Option.map (found text)) hfound, hnext⟩
  | count => exact hready.visitMatches_congr hcheck hadvances _ text 0
  | extents limit => exact hready.call hcheck hadvances (.findAll limit text)
  | extract =>
      obtain ⟨hfound, hnext⟩ := hready.call hcheck hadvances (.capturesFrom (.start text))
      exact ⟨congrArg (Option.map Slots.groups) hfound, hnext⟩
  | replaceByTemplate limit =>
      obtain ⟨hfound, hnext⟩ :=
        hready.visitMatches_congr hcheck hadvances (Matcher.keep limit) text #[]
      exact ⟨congrArg (fun found => found.toList.map Slots.groups) hfound, hnext⟩

theorem mapTexts_eq (hf : Gives program f fun text result => result = (f (.ofProgram program) text).1)
    (hready : matcher.Ready program) (texts : List (Option String)) :
    mapTexts matcher f texts =
      texts.map (Option.map fun text => (f (.ofProgram program) text).1) := by
  induction texts generalizing matcher with
  | nil => rfl
  | cons first rest ih =>
      cases first with
      | none => exact congrArg (none :: ·) (ih hready)
      | some text =>
          obtain ⟨hresult, hnext⟩ := hf matcher text hready
          show some (f matcher text).1 :: mapTexts (f matcher text).2 f rest = _
          rw [List.map_cons, Option.map_some, ← hresult, ih hnext]

theorem mapRows_eq {pattern : String} {flags : Flags} {regex : Regex}
    (hcompile : Regex.compile pattern flags = .ok regex) (hrow : RowCall f) (store : Store) :
    mapRows store regex f =
      store.texts.toList.map (Option.map fun text => (f regex.matcher text).1) :=
  mapTexts_eq
    (hrow.gives (Regex.check_of_compile hcompile) (Regex.advances_of_compile hcompile))
    (Matcher.ready_ofProgram regex.program) _

/-- A matcher answers every call as a new one does, whatever calls and texts came before, and every
visit of the matches of a text comes to its end; and so every row of a column depends on its own text
alone. -/
theorem answers_eq_fresh {pattern : String} {flags : Flags} {regex : Regex}
    (hcompile : Regex.compile pattern flags = .ok regex) :
    (∀ calls, regex.matcher.answers calls =
      calls.map fun call => ⟨call.1, (call.2.run regex.matcher).1⟩) ∧
    (∀ calls {β : Type} (visit : β → Slots → ForInStep β) text state,
      (((Matcher.Call.visitMatches visit text state).run
        (regex.matcher.afterCalls calls)).1).isSome) ∧
    ∀ {β : Type} (f : Matcher → String → β × Matcher), RowCall f → ∀ calls texts,
      mapTexts (regex.matcher.afterCalls calls) f texts =
        texts.map (Option.map fun text => (f regex.matcher text).1) := by
  have hcheck := Regex.check_of_compile hcompile
  have hready : regex.matcher.Ready regex.program := Matcher.ready_ofProgram regex.program
  have hadvances := Regex.advances_of_compile hcompile
  refine ⟨hready.answers_eq hcheck hadvances, fun calls β visit text state => ?_,
    fun {β} f hrow calls texts => ?_⟩
  · obtain ⟨next, hvisited, -⟩ := (hready.afterCalls hcheck hadvances calls).visitMatches?_eq hcheck
      hadvances visit text state
    simp only [Matcher.Call.run, hvisited, Option.isSome_some]
  · exact mapTexts_eq (hrow.gives hcheck hadvances) (hready.afterCalls hcheck hadvances calls) texts

theorem answers_eq_fresh_stoppedVisit :
    let program : Program :=
      ⟨#[.save 0, .split 2 4, .char 'b' false, .jump 9, .char 'a' false, .split 6 9, .save 2,
        .char 'b' false, .save 3, .save 1, .accept], #[], 4, 0⟩
    let regex : Regex := ⟨"b|a(b)?", Flags.none, program⟩
    let calls : List (Σ α, Matcher.Call α) :=
      [⟨Bool, .isMatch "xab"⟩, ⟨Option Nat, .visitMatches (fun n _ => .done (n + 1)) "abab" 0⟩,
        ⟨Option Slots, .capturesFrom ⟨1, some 'a', ['b', 'a']⟩⟩]
    let texts := [some "b", none, some "ab"]
    Regex.compile "b|a(b)?" Flags.none = .ok regex ∧
      regex.matcher.answers calls =
        calls.map (fun call => ⟨call.1, (call.2.run regex.matcher).1⟩) ∧
      mapTexts (regex.matcher.afterCalls calls) captureRow texts =
        texts.map (Option.map fun text => (captureRow regex.matcher text).1) := by
  intro program regex calls texts
  have hcompile : Regex.compile "b|a(b)?" Flags.none = .ok regex := by decide +kernel
  obtain ⟨hanswers, -, hrows⟩ := answers_eq_fresh hcompile
  exact ⟨hcompile, hanswers calls, hrows captureRow .extract calls texts⟩

end Matching

end TextColumns
