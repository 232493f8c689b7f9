import TextColumns.Proofs.Pattern.Fragment
import TextColumns.Proofs.Search.Lockstep
import TextColumns.Regex.Matcher

namespace TextColumns

open Pattern (Flags)
open Search (Mode Slots explore everywhere starts)
open Text (Cursor)

namespace Matcher

structure Ready (matcher : Matcher) (program : Program) : Prop where
  program_eq : matcher.program = program
  cache : matcher.cache.Fits program

theorem ready_ofProgram (program : Program) : (ofProgram program).Ready program :=
  ⟨rfl, Search.cache_fits_ofProgram program⟩

variable {matcher : Matcher} {program : Program}

theorem Ready.run (hready : matcher.Ready program) (hcheck : program.check = .ok ())
    (mode : Mode) (cursor : Cursor) : (matcher.run mode cursor).2.Ready program := by
  obtain ⟨program, cache, slots⟩ := matcher
  obtain ⟨rfl, hcache⟩ := hready
  obtain ⟨matched, found, kept, hsearch, hkept⟩ :=
    Search.search_fits hcheck mode hcache cursor slots
  simp only [Matcher.run, hsearch]
  exact ⟨rfl, hkept⟩

/-- What a matcher finds is what the depth-first walk finds from any supply of visits that has all
places from the cursor on; of an earliest match it tells only that there is one. -/
theorem Ready.run_eq_of_fresh (hready : matcher.Ready program) (hcheck : program.check = .ok ())
    {fresh : Finset (Nat × Nat)} {cursor : Cursor}
    (hfresh : ∀ address, address < program.size → ∀ offset, cursor.offset ≤ offset →
      offset ≤ cursor.stop → (address, offset) ∈ fresh) (mode : Mode) :
    let explored := explore program fresh (starts program mode true false cursor)
    (matcher.run mode cursor).1.isSome = explored.isSome ∧
      (mode.earliest = false → (matcher.run mode cursor).1 = explored) := by
  obtain ⟨program, cache, slots⟩ := matcher
  obtain ⟨rfl, hcache⟩ := hready
  obtain ⟨found, kept, hsearch, hfound, -⟩ :=
    Search.search_eq_of_fresh hcheck hfresh mode hcache slots rfl
  simp only [Matcher.run, hsearch]
  cases hexplored : explore program fresh (starts program mode true false cursor) with
  | none => simp
  | some best =>
      rw [hexplored] at hfound
      simpa using hfound

theorem Ready.run_eq (hready : matcher.Ready program) (hcheck : program.check = .ok ())
    {text : String} {cursor : Cursor} (hon : Cursor.On text cursor) (mode : Mode) :
    let explored := explore program (everywhere program text)
      (starts program mode true false cursor)
    (matcher.run mode cursor).1.isSome = explored.isSome ∧
      (mode.earliest = false → (matcher.run mode cursor).1 = explored) := by
  refine hready.run_eq_of_fresh hcheck (fun address haddress offset _ hle => ?_) mode
  rw [hon.stop_eq] at hle
  exact Search.mem_everywhere.mpr ⟨haddress, hle⟩

theorem Ready.run_congr {other : Matcher} (hready : matcher.Ready program)
    (hother : other.Ready program) (hcheck : program.check = .ok ()) (mode : Mode)
    (cursor : Cursor) :
    (matcher.run mode cursor).1.isSome = (other.run mode cursor).1.isSome ∧
      (mode.earliest = false → (matcher.run mode cursor).1 = (other.run mode cursor).1) := by
  have hfresh (address : Nat) (haddress : address < program.size) (offset : Nat)
      (_ : cursor.offset ≤ offset) (hle : offset ≤ cursor.stop) :
      (address, offset) ∈ Finset.range program.size ×ˢ Finset.range (cursor.stop + 1) :=
    Finset.mem_product.mpr ⟨Finset.mem_range.mpr haddress,
      Finset.mem_range.mpr (Nat.lt_succ_of_le hle)⟩
  obtain ⟨hsome, hfound⟩ := hready.run_eq_of_fresh hcheck hfresh mode
  obtain ⟨hsome', hfound'⟩ := hother.run_eq_of_fresh hcheck hfresh mode
  exact ⟨hsome.trans hsome'.symm, fun hearliest =>
    (hfound hearliest).trans (hfound' hearliest).symm⟩

def after (matcher : Matcher) (searches : List (Mode × Cursor)) : Matcher :=
  searches.foldl (fun matcher search => (matcher.run search.1 search.2).2) matcher

theorem Ready.after (hready : matcher.Ready program) (hcheck : program.check = .ok ())
    (searches : List (Mode × Cursor)) : (matcher.after searches).Ready program := by
  induction searches generalizing matcher with
  | nil => exact hready
  | cons search searches ih => exact ih (hready.run hcheck search.1 search.2)

end Matcher

namespace Regex

theorem program_of_compile {pattern : String} {flags : Flags} {regex : Regex}
    (hcompile : Regex.compile pattern flags = .ok regex) :
    Pattern.compile pattern flags = .ok regex.program := by
  cases hprogram : Pattern.compile pattern flags with
  | error fault =>
      rw [Regex.compile, hprogram] at hcompile
      cases hcompile
  | ok program =>
      rw [Regex.compile, hprogram] at hcompile
      cases hcompile
      rfl

theorem check_of_compile {pattern : String} {flags : Flags} {regex : Regex}
    (hcompile : Regex.compile pattern flags = .ok regex) : regex.program.check = .ok () := by
  obtain ⟨-, -, -, hcheck, -⟩ := Pattern.compile_spec (program_of_compile hcompile)
  exact hcheck

end Regex

end TextColumns
