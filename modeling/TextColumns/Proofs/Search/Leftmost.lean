import TextColumns.Proofs.Search.Acceptance
import TextColumns.Proofs.Search.Lockstep

/-!
Searches that are not anchored.  Threads that begin at different places share what has been
visited; `explore_filter_live` is why a thread that fails takes nothing from those behind it: it
visits only places from which no thread can come to accept.
-/

namespace TextColumns.Search

open Text (Cursor)

variable {program : Program} {text : String} {cursor : Cursor} {fresh : Finset (Nat × Nat)}
  {visit next : Visit} {pending : List Visit}

/-- Whether a thread can come to accept from a place, which is given by an address and an offset. -/
def Live (program : Program) (text : String) (key : Nat × Nat) : Prop :=
  ∃ cursor, Cursor.On text cursor ∧ cursor.offset = key.2 ∧
    ∃ steps, Accepts program steps key.1 cursor

theorem live_key_iff (hon : Cursor.On text visit.cursor) :
    Live program text visit.key ↔ ∃ steps, visit.AcceptsIn program steps := by
  constructor
  · intro hlive
    obtain ⟨cursor, hcursor, hoffset, steps, haccepts⟩ := hlive
    obtain rfl := hcursor.eq_of_offset_eq hon hoffset
    exact ⟨steps, haccepts⟩
  · intro haccepts
    exact ⟨visit.cursor, hon, rfl, haccepts⟩

theorem live_of_accepts (hon : Cursor.On text visit.cursor)
    (haccepts : visit.accepts program = true) : Live program text visit.key :=
  (live_key_iff hon).mpr ⟨0, .accept (eq_of_beq haccepts)⟩

theorem live_of_onward (hon : Cursor.On text visit.cursor)
    (hnext : next ∈ visit.onward program) (hlive : Live program text next.key) :
    Live program text visit.key := by
  obtain ⟨steps, haccepts⟩ := (live_key_iff (Visit.on_of_mem_onward hon hnext)).mp hlive
  exact (live_key_iff hon).mpr ⟨steps + 1, Visit.acceptsIn_of_onward hnext haccepts⟩

theorem explore_append_of_not_mem {passed : List Visit}
    (hpassed : ∀ visit ∈ passed, visit.key ∉ fresh) (pending : List Visit) :
    explore program fresh (passed ++ pending) = explore program fresh pending := by
  induction passed with
  | nil => rfl
  | cons visit passed ih =>
      obtain ⟨hvisit, hpassed⟩ := List.forall_mem_cons.mp hpassed
      rw [List.cons_append, explore_of_not_mem hvisit, ih hpassed]

open scoped Classical in
/-- It makes no difference whether places from which no thread can accept have been visited. -/
theorem explore_filter_live (hon : ∀ visit ∈ pending, Cursor.On text visit.cursor) :
    explore program fresh pending =
      explore program (fresh.filter (Live program text)) pending := by
  fun_induction explore program fresh pending with
  | case1 => rw [explore_nil]
  | case2 fresh visit pending hfresh haccepts =>
      obtain ⟨honVisit, -⟩ := List.forall_mem_cons.mp hon
      have hkey := Finset.mem_filter.mpr ⟨hfresh, live_of_accepts honVisit haccepts⟩
      rw [explore_of_accepts hkey haccepts]
  | case3 fresh visit pending hfresh haccepts ih =>
      have haccepts : visit.accepts program = false := by simpa using haccepts
      obtain ⟨honVisit, honPending⟩ := List.forall_mem_cons.mp hon
      have honOnward : ∀ next ∈ visit.onward program, Cursor.On text next.cursor :=
        fun _ => Visit.on_of_mem_onward honVisit
      rw [ih (List.forall_mem_append.mpr ⟨honOnward, honPending⟩), Finset.filter_erase]
      by_cases hlive : Live program text visit.key
      · rw [explore_of_mem (Finset.mem_filter.mpr ⟨hfresh, hlive⟩) haccepts]
      · -- Whatever a dead place leads to is dead as well.
        have hkey : visit.key ∉ fresh.filter (Live program text) :=
          fun hmem => hlive (Finset.mem_filter.mp hmem).2
        have honward : ∀ next ∈ visit.onward program,
            next.key ∉ fresh.filter (Live program text) := fun next hnext hmem =>
          hlive (live_of_onward honVisit hnext (Finset.mem_filter.mp hmem).2)
        rw [Finset.erase_eq_of_notMem hkey, explore_append_of_not_mem honward,
          explore_of_not_mem hkey]
  | case4 fresh visit pending hfresh ih =>
      obtain ⟨-, honPending⟩ := List.forall_mem_cons.mp hon
      have hkey : visit.key ∉ fresh.filter (Live program text) :=
        fun hmem => hfresh (Finset.mem_filter.mp hmem).1
      rw [ih honPending, explore_of_not_mem hkey]

open scoped Classical in
/-- Of pending visits the first counts from which a match is found on its own. -/
theorem explore_eq_findSome? (hon : ∀ visit ∈ pending, Cursor.On text visit.cursor) :
    explore program (everywhere program text) pending =
      pending.findSome? fun visit => explore program (everywhere program text) [visit] := by
  induction pending with
  | nil => rw [explore_nil, List.findSome?_nil]
  | cons visit pending ih =>
      obtain ⟨honVisit, honPending⟩ := List.forall_mem_cons.mp hon
      rw [List.findSome?_cons]
      cases halone : explore program (everywhere program text) [visit] with
      | some slots =>
          obtain ⟨left, happend⟩ :=
            @explore_append program (everywhere program text) [visit] pending
          rw [← List.singleton_append, happend, halone, Option.some_or]
      | none =>
          -- A thread that fails visits dead places alone, so it takes nothing from those behind it.
          have hdead : ¬ Live program text visit.key := by
            intro hlive
            have hsome := (isSome_explore_iff (List.forall_mem_singleton.mpr honVisit)).mpr
              ⟨visit, List.mem_singleton_self visit, (live_key_iff honVisit).mp hlive⟩
            rw [halone] at hsome
            cases hsome
          have hkey : visit.key ∉ (everywhere program text).filter (Live program text) :=
            fun hmem => hdead (Finset.mem_filter.mp hmem).2
          rw [explore_filter_live hon, explore_of_not_mem hkey, ← explore_filter_live honPending,
            ih honPending]

def answer? (program : Program) (mode : Mode) (cache : Cache) (cursor : Cursor) (slots : Slots) :
    Option (Option Slots) :=
  (search program mode cache cursor slots).map fun (matched, found, _) =>
    if matched then some found else none

section Answers

variable {cache : Cache} (hcheck : program.check = .ok ()) (hon : Cursor.On text cursor)
  (hcache : cache.Fits program) (slots : Slots)
include hcheck hon hcache

theorem answer?_eq (mode : Mode) {explored : Option Slots}
    (hexplored : explore program (everywhere program text)
      (starts program mode true false cursor) = explored) :
    ∃ found, answer? program mode cache cursor slots = some found ∧
      found.isSome = explored.isSome ∧ (mode.earliest = false → found = explored) := by
  obtain ⟨found, kept, hsearch, hfound, -⟩ := search_eq hcheck hon mode hcache slots hexplored
  rw [answer?, hsearch]
  cases explored with
  | none => exact ⟨none, rfl, rfl, fun _ => rfl⟩
  | some best => exact ⟨some found, rfl, rfl, fun hearliest => congrArg some (hfound hearliest)⟩

theorem answer?_anchored :
    answer? program ⟨true, false⟩ cache cursor slots =
      some (explore program (everywhere program text) [startVisit program cursor]) := by
  obtain ⟨found, hanswer, -, hfound⟩ := answer?_eq hcheck hon hcache slots ⟨true, false⟩ rfl
  rw [hanswer, hfound rfl]
  rfl

theorem answer?_unanchored :
    answer? program ⟨false, false⟩ cache cursor slots =
      some (cursor.places.findSome? fun place =>
        explore program (everywhere program text) [startVisit program place]) := by
  obtain ⟨found, hanswer, -, hfound⟩ := answer?_eq hcheck hon hcache slots ⟨false, false⟩ rfl
  have hstarts : ∀ visit ∈ cursor.places.map (startVisit program), Cursor.On text visit.cursor :=
    List.forall_mem_map.mpr fun place hplace => ((Cursor.mem_places hon).mp hplace).1
  rw [hanswer, hfound rfl]
  exact congrArg some ((explore_eq_findSome? hstarts).trans (List.findSome?_map ..))

end Answers

theorem findSome?_places {f : Cursor → Option α} {place : Cursor} {best : α}
    (hplace : place ∈ cursor.places) (hbest : f place = some best)
    (hbefore : ∀ before ∈ cursor.places, before.offset < place.offset → f before = none) :
    cursor.places.findSome? f = some best := by
  obtain ⟨passed, behind, hplaces⟩ := List.append_of_mem hplace
  have hordered := cursor.pairwise_places
  rw [hplaces] at hordered hbefore
  refine List.findSome?_eq_some_iff.mpr ⟨passed, place, behind, hplaces, hbest, ?_⟩
  intro before hpassed
  exact hbefore before (List.mem_append_left _ hpassed)
    ((List.pairwise_append.mp hordered).2.2 before hpassed place List.mem_cons_self)

/-- A search finds a match if and only if one begins at some place from its start on, and finds the
one that begins first, with the slots that a search for a match at that very place finds.  The first
match that shows tells as much as the preferred one about whether there is a match. -/
theorem search_leftmost (hcheck : program.check = .ok ()) {start : Nat}
    (hcursor : Cursor.at? text start = some cursor) {cache other : Cache}
    (hcache : cache.Fits program) (hother : other.Fits program) (slots row : Slots) :
    let anchored (place : Cursor) := answer? program ⟨true, false⟩ other place row
    (∃ found, answer? program ⟨false, false⟩ cache cursor slots = some found ∧
      (found.isSome = true ↔ ∃ offset place best, start ≤ offset ∧
        Cursor.at? text offset = some place ∧ anchored place = some (some best)) ∧
      ∀ offset place best, start ≤ offset → Cursor.at? text offset = some place →
        anchored place = some (some best) →
        (∀ earlier before, start ≤ earlier → earlier < offset →
          Cursor.at? text earlier = some before → anchored before = some none) →
        found = some best) ∧
    ∀ isAnchored, ∃ found hurried,
      answer? program ⟨isAnchored, false⟩ cache cursor slots = some found ∧
      answer? program ⟨isAnchored, true⟩ other cursor row = some hurried ∧
      hurried.isSome = found.isSome := by
  intro anchored
  obtain ⟨hon, rfl⟩ := Cursor.at?_eq_some_iff.mp hcursor
  have hanchored {place : Cursor} (hplace : Cursor.On text place) : anchored place =
      some (explore program (everywhere program text) [startVisit program place]) :=
    answer?_anchored hcheck hplace hother row
  refine ⟨⟨_, answer?_unanchored hcheck hon hcache slots, ?_, ?_⟩, fun isAnchored => ?_⟩
  · rw [List.findSome?_isSome_iff]
    constructor
    · intro hsome
      obtain ⟨place, hplace, hsome⟩ := hsome
      obtain ⟨honPlace, hle⟩ := (Cursor.mem_places hon).mp hplace
      obtain ⟨best, hbest⟩ := Option.isSome_iff_exists.mp hsome
      exact ⟨place.offset, place, best, hle, Cursor.at?_eq_some_iff.mpr ⟨honPlace, rfl⟩,
        (hanchored honPlace).trans (congrArg some hbest)⟩
    · intro hmatch
      obtain ⟨offset, place, best, hle, hplace, hbest⟩ := hmatch
      obtain ⟨honPlace, rfl⟩ := Cursor.at?_eq_some_iff.mp hplace
      rw [hanchored honPlace] at hbest
      exact ⟨place, (Cursor.mem_places hon).mpr ⟨honPlace, hle⟩,
        Option.isSome_iff_exists.mpr ⟨best, Option.some.inj hbest⟩⟩
  · intro offset place best hle hplace hbest hearlier
    obtain ⟨honPlace, rfl⟩ := Cursor.at?_eq_some_iff.mp hplace
    rw [hanchored honPlace] at hbest
    refine findSome?_places ((Cursor.mem_places hon).mpr ⟨honPlace, hle⟩) (Option.some.inj hbest)
      fun before hbefore hlt => ?_
    obtain ⟨honBefore, hstart⟩ := (Cursor.mem_places hon).mp hbefore
    have hnone := hearlier before.offset before hstart hlt
      (Cursor.at?_eq_some_iff.mpr ⟨honBefore, rfl⟩)
    rw [hanchored honBefore] at hnone
    exact Option.some.inj hnone
  · obtain ⟨found, hanswer, hfound, -⟩ := answer?_eq hcheck hon hcache slots ⟨isAnchored, false⟩ rfl
    obtain ⟨hurried, hhurried, hsome, -⟩ := answer?_eq hcheck hon hother row ⟨isAnchored, true⟩ rfl
    exact ⟨found, hurried, hanswer, hhurried, hsome.trans hfound.symm⟩

/-- The thread from offset 2 finds its way taken by the one from offset 1. -/
theorem search_leftmost_sharedThreads :
    let program : Program :=
      ⟨#[.save 0, .split 2 4, .char 'a' false, .jump 1, .char 'b' false, .save 1, .accept], #[], 2,
        0⟩
    let cursor : Cursor := ⟨1, some 'a', ['a', 'c', 'a', 'b']⟩
    let unset : Slots := #[none, none]
    program.check = .ok () ∧ Cursor.at? "aacab" 1 = some cursor ∧
      (Cache.ofProgram program).Fits program ∧
      answer? program ⟨true, false⟩ (.ofProgram program) ⟨3, some 'c', ['a', 'b']⟩ unset =
        some (some #[some 3, some 5]) ∧
      answer? program ⟨false, false⟩ (.ofProgram program) cursor unset =
        some (some #[some 3, some 5]) ∧
      ∃ hurried, answer? program ⟨false, true⟩ (.ofProgram program) cursor unset =
        some (some hurried) := by
  intro program cursor unset
  have hcheck : program.check = .ok () := by decide +kernel
  have hcursor : Cursor.at? "aacab" 1 = some cursor := by decide +kernel
  have hfits := cache_fits_ofProgram program
  have hplace : Cursor.at? "aacab" 3 = some ⟨3, some 'c', ['a', 'b']⟩ := by decide +kernel
  have hbest : answer? program ⟨true, false⟩ (.ofProgram program) ⟨3, some 'c', ['a', 'b']⟩ unset =
      some (some #[some 3, some 5]) := by decide +kernel
  have hfails : ∀ earlier < 3, (Cursor.at? "aacab" earlier).all (fun before =>
      answer? program ⟨true, false⟩ (.ofProgram program) before unset == some none) = true := by
    decide +kernel
  obtain ⟨⟨found, hanswer, -, hfirst⟩, hmodes⟩ :=
    search_leftmost hcheck hcursor hfits hfits unset unset
  obtain rfl := hfirst 3 _ _ (by decide) hplace hbest
    fun earlier before _ hlt hbefore =>
      eq_of_beq ((Option.all_eq_true _ _).mp (hfails earlier hlt) before hbefore)
  obtain ⟨preferred, hurried, hpreferred, hhurried, hsome⟩ := hmodes false
  obtain rfl := Option.some.inj (hpreferred.symm.trans hanswer)
  obtain ⟨slots, rfl⟩ := Option.isSome_iff_exists.mp hsome
  exact ⟨hcheck, hcursor, hfits, hbest, hanswer, slots, hhurried⟩

end TextColumns.Search
