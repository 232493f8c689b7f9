import TextColumns.Proofs.Pattern.Inside

/-!
Writing programs instruction by instruction.  Where a choice or a jump leads is not known when it is
written; a hole is left in its place and filled in later.  What is written in this way is the code
that is laid out at once, as long as there is room for it.
-/

namespace TextColumns.Pattern

/-- A program while it is written. -/
structure Emission where
  instructions : Array Instruction
  classes : Array CharClass

abbrev Emits := Emission → Option Emission

/-- What stands for a choice that is not known yet. -/
def hole : Instruction := .split 0 0

namespace Emission

def empty : Emission :=
  ⟨#[], #[]⟩

def size (e : Emission) : Nat :=
  e.instructions.size

def push (instruction : Instruction) : Emits := fun e =>
  if maxProgramSize ≤ e.size then none
  else some { e with instructions := e.instructions.push instruction }

def pushClass (cls : CharClass) (e : Emission) : Emission :=
  { e with classes := e.classes.push cls }

def patch (e : Emission) (address : Nat) (instruction : Instruction) : Emission :=
  { e with instructions := e.instructions.setIfInBounds address instruction }

/-- Fills in instructions, each of which may depend on its place. -/
def patchAll (e : Emission) (addresses : List Nat) (instruction : Nat → Instruction) : Emission :=
  addresses.foldl (fun e address => e.patch address (instruction address)) e

end Emission

open Emission (push)

def emitRounds (emit : Emits) : Nat → Emits
  | 0, e => some e
  | n + 1, e => do
    let e ← emit e
    emitRounds emit n e

/-- Emits rounds that may be left out, and tells where the choices before them are missing. -/
def emitOptionalRounds (emit : Emits) : Nat → Emission → Option (List Nat × Emission)
  | 0, e => some ([], e)
  | n + 1, e => do
    let split := e.size
    let e ← push hole e
    let e ← emit e
    let (splits, e) ← emitOptionalRounds emit n e
    return (split :: splits, e)

def emitStar (emit : Emits) (greedy : Bool) : Emits := fun e => do
  let split := e.size
  let e ← push hole e
  let e ← emit e
  let e ← push (.jump split) e
  return e.patch split (fork greedy (split + 1) e.size)

def emitPlus (emit : Emits) (greedy : Bool) : Emits := fun e => do
  let body := e.size
  let e ← emit e
  let split := e.size
  let e ← push hole e
  return e.patch split (fork greedy body e.size)

def emitOptional (emit : Emits) (greedy : Bool) (rounds : Nat) : Emits := fun e => do
  let (splits, e) ← emitOptionalRounds emit rounds e
  return e.patchAll splits fun split => fork greedy (split + 1) e.size

def emitRepetition (emit : Emits) (min : Nat) (max : Option Nat) (greedy : Bool) : Emits := fun e =>
  match max with
  | none =>
    if 0 < min then do
      let e ← emitRounds emit (min - 1) e
      emitPlus emit greedy e
    else emitStar emit greedy e
  | some max => do
    let e ← emitRounds emit min e
    emitOptional emit greedy (max - min) e

mutual

def Node.emit (flags : Flags) : Node → Emits
  | .empty, e => some e
  | .literal c, e => push (.char c flags.ignoreCase) e
  | .any, e => push (.any flags.dotAll) e
  | .oneOf set, e => push (.oneOf e.classes.size flags.ignoreCase) (e.pushClass (.ofSet set))
  | .assertion a, e => push (.assertion (a.resolve flags.multiline)) e
  | .group (some k) body, e => do
    let e ← push (.save (2 * k)) e
    let e ← body.emit flags e
    push (.save (2 * k + 1)) e
  | .group none body, e => body.emit flags e
  | .concat items, e => emitInTurn flags items e
  | .alternate branches, e => do
    let (jumps, e) ← emitBranches flags branches e
    return e.patchAll jumps fun _ => .jump e.size
  | .repetition body min max greedy, e => emitRepetition (body.emit flags) min max greedy e

def emitInTurn (flags : Flags) : List Node → Emits
  | [], e => some e
  | item :: items, e => do
    let e ← item.emit flags e
    emitInTurn flags items e

def emitBranches (flags : Flags) : List Node → Emission → Option (List Nat × Emission)
  | [], e => some ([], e)
  | [branch], e => do
    let e ← branch.emit flags e
    return ([], e)
  | branch :: rest, e => do
    let split := e.size
    let e ← push hole e
    let e ← branch.emit flags e
    let jump := e.size
    let e ← push (.jump 0) e
    let (jumps, e) ← emitBranches flags rest (e.patch split (.split (split + 1) e.size))
    return (jump :: jumps, e)

end

def Parsed.emit (parsed : Parsed) (flags : Flags) : Option Program := do
  let e ← push (.save 0) .empty
  let e ← parsed.node.emit flags e
  let e ← push (.save 1) e
  let e ← push .accept e
  return ⟨e.instructions, e.classes, 2 * (parsed.groups + 1), 0⟩

/-- The program of a pattern text, written instruction by instruction. -/
def assemble (text : String) (flags : Flags) : Except Malformed Program :=
  match parse text with
  | .error e => .error e
  | .ok parsed =>
    match parsed.emit (flags.union parsed.flags) with
    | none => malformed text.utf8ByteSize .programTooLong
    | some program =>
      match program.check with
      | .error fault => malformed 0 (.invalidProgram fault)
      | .ok () => .ok program

namespace Emission

def append (e : Emission) (part : List Instruction) (classes : List CharClass) : Emission :=
  ⟨e.instructions ++ part.toArray, e.classes ++ classes.toArray⟩

def fitting (e : Emission) : Option Emission :=
  if e.size ≤ maxProgramSize then some e else none

variable {e : Emission} {part others : List Instruction} {classes more : List CharClass}

@[simp] theorem size_append : (e.append part classes).size = e.size + part.length := by
  simp [append, size]

@[simp] theorem classes_size_append :
    (e.append part classes).classes.size = e.classes.size + classes.length := by
  simp [append]

@[simp] theorem append_append :
    (e.append part classes).append others more = e.append (part ++ others) (classes ++ more) := by
  simp [append, Array.append_assoc]

@[simp] theorem append_nil : e.append [] [] = e := by
  simp [append]

theorem pushClass_eq (cls : CharClass) : e.pushClass cls = e.append [] [cls] := by
  simp [pushClass, append]

theorem push_eq (instruction : Instruction) :
    push instruction e = (e.append [instruction] []).fitting := by
  have happend : { e with instructions := e.instructions.push instruction } =
      e.append [instruction] [] := by
    simp [append]
  rw [push, fitting, happend, size_append, List.length_singleton]
  by_cases hroom : maxProgramSize ≤ e.size
  · rw [if_pos hroom, if_neg (by omega)]
  · rw [if_neg hroom, if_pos (by omega)]

theorem patch_append {before after : List Instruction} {old : Instruction} {address : Nat}
    (haddress : address = e.size + before.length) (instruction : Instruction) :
    (e.append (before ++ old :: after) classes).patch address instruction =
      e.append (before ++ instruction :: after) classes := by
  subst haddress
  simp only [patch, append, size, mk.injEq, and_true]
  rw [← Array.toList_inj]
  simp

theorem patch_first {after : List Instruction} {old : Instruction} (instruction : Instruction) :
    (e.append (old :: after) classes).patch e.size instruction =
      e.append (instruction :: after) classes :=
  @patch_append e classes [] after old e.size rfl instruction

@[simp] theorem size_patch (address : Nat) (instruction : Instruction) :
    (e.patch address instruction).size = e.size := by
  simp [patch, size]

@[simp] theorem size_patchAll (addresses : List Nat) (instruction : Nat → Instruction) :
    (e.patchAll addresses instruction).size = e.size := by
  induction addresses generalizing e with
  | nil => rfl
  | cons address addresses ih => exact ih.trans (size_patch address _)

theorem fitting_of_le (hle : e.size ≤ maxProgramSize) : e.fitting = some e :=
  if_pos hle

theorem fitting_of_lt (hlt : maxProgramSize < e.size) : e.fitting = none :=
  if_neg (Nat.not_le.mpr hlt)

/-- What is too long remains so, whatever follows. -/
theorem fitting_bind {α : Type} {emit : Emission → Option α} {last : Emission}
    {result : Emission → α} (hle : e.size ≤ last.size)
    (hemit : e.size ≤ maxProgramSize → emit e = last.fitting.map result) :
    e.fitting.bind emit = last.fitting.map result := by
  by_cases hroom : e.size ≤ maxProgramSize
  · rw [fitting_of_le hroom]
    exact hemit hroom
  · have hlong := Nat.lt_of_not_le hroom
    rw [fitting_of_lt hlong, fitting_of_lt (Nat.lt_of_lt_of_le hlong hle)]
    rfl

theorem size_le_append : e.size ≤ (e.append part classes).size := by
  rw [size_append]
  exact Nat.le_add_right _ _

theorem fitting_bind_some {fill : Emission → Emission} (hsize : (fill e).size = e.size) :
    e.fitting.bind (fun e => some (fill e)) = (fill e).fitting := by
  rw [fitting, fitting, hsize]
  split <;> rfl

end Emission

open Emission (append_append fitting_bind fitting_bind_some fitting_of_le fitting_of_lt
  patch_append patch_first push_eq size_le_append)

/-- Whether what is emitted is a code with its entries of the class table. -/
def Emits.Lays (emit : Emits) (code : Code) (classes : List CharClass) : Prop :=
  ∀ e : Emission, e.size ≤ maxProgramSize →
    emit e = (e.append (code e.size e.classes.size) classes).fitting

theorem Emits.Lays.bind {emit : Emits} {code : Code} {classes : List CharClass}
    (hemit : emit.Lays code classes) (e : Emission) :
    e.fitting.bind emit = (e.append (code e.size e.classes.size) classes).fitting := by
  have hbind := fitting_bind size_le_append fun hroom => (hemit e hroom).trans Option.map_id'.symm
  rwa [Option.map_id'] at hbind

theorem lays_push (instruction : Instruction) :
    Emits.Lays (push instruction) (fun _ _ => [instruction]) [] :=
  fun _ _ => push_eq instruction

/-- A hole that is filled in at once with a choice between a body before it and what follows. -/
theorem lays_fork (greedy : Bool) (body : Nat) :
    Emits.Lays
      (fun e => (push hole e).bind fun next => some (next.patch e.size (fork greedy body next.size)))
      (fun address _ => [fork greedy body (address + 1)]) [] := by
  intro e _
  dsimp only
  rw [push_eq, fitting_bind_some (Emission.size_patch _ _), patch_first, Emission.size_append]
  rfl

/-- Copies in front of which the choices are still missing. -/
def Code.openCopies (size classes : Nat) (code : Code) : Nat → Code
  | 0, _, _ => []
  | n + 1, address, firstClass =>
    hole :: (code (address + 1) firstClass ++
      openCopies size classes code n (address + 1 + size) (firstClass + classes))

theorem Code.length_openCopies {size : Nat} {code : Code}
    (hlength : ∀ address firstClass, (code address firstClass).length = size)
    (classes rounds address firstClass : Nat) :
    (openCopies size classes code rounds address firstClass).length = rounds * (size + 1) := by
  induction rounds generalizing address firstClass with
  | zero => simp [openCopies]
  | succ rounds ih =>
      rw [openCopies, List.length_cons, List.length_append, hlength, ih, Nat.succ_mul]
      omega

def choicePlaces (size : Nat) : Nat → (address : Nat) → List Nat
  | 0, _ => []
  | n + 1, address => address :: choicePlaces size n (address + 1 + size)

section Repetitions

variable {emit : Emits} {size : Nat} {code : Code} {classes : List CharClass}
  (hemit : emit.Lays code classes)
  (hlength : ∀ address firstClass, (code address firstClass).length = size)

include hemit hlength

theorem lays_emitRounds (rounds : Nat) :
    Emits.Lays (emitRounds emit rounds) (Code.copies size classes.length code rounds)
      (List.replicate rounds classes).flatten := by
  induction rounds with
  | zero =>
      intro e hroom
      rw [Code.copies, List.replicate_zero, List.flatten_nil, Emission.append_nil,
        fitting_of_le hroom]
      rfl
  | succ rounds ih =>
      intro e hroom
      show (emit e).bind (emitRounds emit rounds) = _
      rw [hemit e hroom, ih.bind]
      simp [Code.copies, hlength, List.replicate_succ]

theorem lays_emitStar (greedy : Bool) :
    (emitStar emit greedy).Lays (Code.star size code greedy) classes := by
  intro e hroom
  show (push hole e).bind (fun next => (emit next).bind fun next =>
    (push (.jump e.size) next).bind fun next =>
      some (next.patch e.size (fork greedy (e.size + 1) next.size))) = _
  rw [push_eq, ← Option.bind_assoc, hemit.bind, ← Option.bind_assoc, (lays_push _).bind,
    fitting_bind_some (Emission.size_patch _ _), append_append, append_append,
    List.singleton_append, patch_first]
  simp [Code.star, hlength, Nat.add_assoc]

theorem lays_emitPlus (greedy : Bool) :
    (emitPlus emit greedy).Lays (Code.plus size code greedy) classes := by
  intro e hroom
  show (emit e).bind (fun next => (push hole next).bind fun last =>
    some (last.patch next.size (fork greedy e.size last.size))) = _
  rw [hemit e hroom, (lays_fork greedy e.size).bind]
  simp [Code.plus, hlength]

theorem emitOptionalRounds_eq (rounds : Nat) {e : Emission} (hroom : e.size ≤ maxProgramSize) :
    emitOptionalRounds emit rounds e =
      (e.append (Code.openCopies size classes.length code rounds e.size e.classes.size)
        (List.replicate rounds classes).flatten).fitting.map (choicePlaces size rounds e.size, ·) := by
  induction rounds generalizing e with
  | zero =>
      rw [Code.openCopies, List.replicate_zero, List.flatten_nil, Emission.append_nil,
        fitting_of_le hroom]
      rfl
  | succ rounds ih =>
      show (push hole e).bind (fun next => (emit next).bind fun next =>
        (emitOptionalRounds emit rounds next).bind fun last => some (e.size :: last.1, last.2)) = _
      -- Where a round starts is known from the sizes before it, whether or not there is room.
      rw [push_eq, ← Option.bind_assoc, hemit.bind, append_append,
        fitting_bind size_le_append fun hnext => by
          rw [ih hnext, Option.bind_map]
          exact Option.map_eq_bind.symm]
      have hnext : e.size + (size + 1) = e.size + 1 + size := by omega
      simp [Code.openCopies, choicePlaces, hlength, List.replicate_succ, hnext]

omit hemit in
theorem patchAll_openCopies (greedy : Bool) (exit rounds : Nat) {e : Emission}
    {before : List Instruction} {address firstClass : Nat} {entries : List CharClass}
    (haddress : address = e.size + before.length) :
    (e.append (before ++ Code.openCopies size classes.length code rounds address firstClass)
        entries).patchAll (choicePlaces size rounds address)
        (fun split => fork greedy (split + 1) exit) =
      e.append (before ++
        Code.optionalCopies size classes.length code greedy exit rounds address firstClass)
          entries := by
  induction rounds generalizing before address firstClass with
  | zero => rfl
  | succ rounds ih =>
      have hnext : address + 1 + size =
          e.size +
            (before ++ fork greedy (address + 1) exit :: code (address + 1) firstClass).length := by
        simp only [List.length_append, List.length_cons, hlength, haddress]
        omega
      have hothers := @ih (before ++ fork greedy (address + 1) exit :: code (address + 1) firstClass)
        (address + 1 + size) (firstClass + classes.length) hnext
      rw [List.append_assoc, List.append_assoc] at hothers
      rw [Code.openCopies, choicePlaces, Emission.patchAll, List.foldl_cons, patch_append haddress]
      exact hothers

theorem lays_emitOptional (greedy : Bool) (rounds : Nat) :
    (emitOptional emit greedy rounds).Lays
      (fun address firstClass => Code.optionalCopies size classes.length code greedy
        (address + rounds * (size + 1)) rounds address firstClass)
      (List.replicate rounds classes).flatten := by
  intro e hroom
  have hplaces : e.size = e.size + ([] : List Instruction).length := rfl
  have hfilled := @patchAll_openCopies size code classes hlength greedy
    (e.size + rounds * (size + 1)) rounds e [] e.size e.classes.size
    (List.replicate rounds classes).flatten hplaces
  have hsize := Code.length_openCopies hlength classes.length rounds e.size e.classes.size
  show (emitOptionalRounds emit rounds e).bind (fun last =>
    some (last.2.patchAll last.1 fun split => fork greedy (split + 1) last.2.size)) = _
  rw [emitOptionalRounds_eq hemit hlength rounds hroom, Option.bind_map]
  refine (fitting_bind_some (Emission.size_patchAll _ _)).trans ?_
  rw [Emission.size_append, hsize]
  exact congrArg Emission.fitting hfilled

theorem lays_emitRepetition {min : Nat} {max : Option Nat} (hbounds : ∀ bound ∈ max, min ≤ bound)
    (greedy : Bool) :
    (emitRepetition emit min max greedy).Lays
      (Code.repetition size classes.length code min max greedy)
      (List.replicate (writtenRounds min max) classes).flatten := by
  intro e hroom
  match max, min with
  | none, 0 =>
      have hone : writtenRounds 0 none = 1 := rfl
      rw [hone, List.replicate_one, List.flatten_singleton]
      exact lays_emitStar hemit hlength greedy e hroom
  | none, rounds + 1 =>
      show (emitRounds emit rounds e).bind (emitPlus emit greedy) = _
      rw [lays_emitRounds hemit hlength rounds e hroom, (lays_emitPlus hemit hlength greedy).bind]
      simp [Code.repetition, Code.copies_laidOut hlength, Code.length_copies hlength, writtenRounds,
        List.replicate_succ']
  | some max, min =>
      have hrounds : writtenRounds min (some max) = min + (max - min) :=
        (Nat.add_sub_cancel' (hbounds max rfl)).symm
      show (emitRounds emit min e).bind (emitOptional emit greedy (max - min)) = _
      rw [lays_emitRounds hemit hlength min e hroom,
        (lays_emitOptional hemit hlength greedy (max - min)).bind, hrounds,
        ← List.replicate_append_replicate, List.flatten_append]
      simp [Code.repetition, Code.copies_laidOut hlength, Code.length_copies hlength]

end Repetitions

variable {flags : Flags}

abbrev Node.Lays (flags : Flags) (node : Node) : Prop :=
  (node.emit flags).Lays (node.code flags) node.classes

theorem lays_inTurn {items : List Node} (hitems : ∀ item ∈ items, item.WellFormed)
    (hlays : ∀ item ∈ items, item.Lays flags) :
    (emitInTurn flags items).Lays (concatCode flags items) (classesOf items) := by
  induction items with
  | nil =>
      intro e hroom
      rw [concatCode, classesOf, Emission.append_nil, fitting_of_le hroom]
      rfl
  | cons item items ih =>
      obtain ⟨hitem, hitems⟩ := List.forall_mem_cons.mp hitems
      obtain ⟨hlay, hlays⟩ := List.forall_mem_cons.mp hlays
      intro e hroom
      show (item.emit flags e).bind (emitInTurn flags items) = _
      rw [hlay e hroom, (ih hitems hlays).bind]
      simp [concatCode, classesOf, length_code hitem, length_classes]

def jumpPlaces : List Node → (address : Nat) → List Nat
  | [], _ | [_], _ => []
  | branch :: other :: others, address =>
    (address + 1 + branch.codeSize) :: jumpPlaces (other :: others) (address + branch.codeSize + 2)

theorem emitBranches_eq {branches : List Node} (hbranches : ∀ branch ∈ branches, branch.WellFormed)
    (hlays : ∀ branch ∈ branches, branch.Lays flags) {e : Emission}
    (hroom : e.size ≤ maxProgramSize) :
    emitBranches flags branches e =
      (e.append (alternateCode flags 0 branches e.size e.classes.size)
        (classesOf branches)).fitting.map (jumpPlaces branches e.size, ·) := by
  induction branches generalizing e with
  | nil =>
      rw [alternateCode, classesOf, Emission.append_nil, fitting_of_le hroom]
      rfl
  | cons branch others ih =>
      obtain ⟨hbranch, hothers⟩ := List.forall_mem_cons.mp hbranches
      obtain ⟨hlay, hlays⟩ := List.forall_mem_cons.mp hlays
      cases others with
      | nil =>
          show (branch.emit flags e).bind (fun next => some ([], next)) = _
          rw [hlay e hroom, classesOf, classesOf, List.append_nil]
          exact Option.map_eq_bind.symm
      | cons other others =>
          show (push hole e).bind (fun next => (branch.emit flags next).bind fun stop =>
            (push (.jump 0) stop).bind fun next =>
              (emitBranches flags (other :: others)
                (next.patch e.size (.split (e.size + 1) next.size))).bind fun last =>
                  some (stop.size :: last.1, last.2)) = _
          rw [push_eq, ← Option.bind_assoc, hlay.bind, append_append]
          have hstop : e.size + (branch.codeSize + 1) = e.size + 1 + branch.codeSize := by omega
          have hnext : e.size + (branch.codeSize + 1 + 1) = e.size + branch.codeSize + 2 := by omega
          have hclasses : classesOf (branch :: other :: others) =
            branch.classes ++ classesOf (other :: others) := rfl
          -- The room can run out behind the branch as well as behind its jump.
          refine fitting_bind (by simp [alternateCode_cons, length_code hbranch]) fun _ => ?_
          rw [push_eq, append_append]
          refine fitting_bind (by simp [alternateCode_cons, length_code hbranch]) fun hroom => ?_
          rw [List.append_assoc, List.singleton_append] at hroom ⊢
          rw [patch_first, ih hothers hlays ?_, Option.bind_map]
          · refine Option.map_eq_bind.symm.trans ?_
            simp [alternateCode_cons, jumpPlaces, length_code hbranch, length_classes, hstop, hnext,
              hclasses]
          · simpa using hroom

theorem patchAll_alternateCode {branches : List Node}
    (hbranches : ∀ branch ∈ branches, branch.WellFormed) (exit : Nat) {e : Emission}
    {before : List Instruction} {address firstClass : Nat} {entries : List CharClass}
    (haddress : address = e.size + before.length) :
    (e.append (before ++ alternateCode flags 0 branches address firstClass) entries).patchAll
        (jumpPlaces branches address) (fun _ => .jump exit) =
      e.append (before ++ alternateCode flags exit branches address firstClass) entries := by
  induction branches generalizing before address firstClass with
  | nil => rfl
  | cons branch others ih =>
      obtain ⟨hbranch, hothers⟩ := List.forall_mem_cons.mp hbranches
      cases others with
      | nil => rfl
      | cons other others =>
          let split : Instruction := .split (address + 1) (address + branch.codeSize + 2)
          let code := branch.code flags (address + 1) firstClass
          have hjump : address + 1 + branch.codeSize =
              e.size + (before ++ split :: code).length := by
            simp only [List.length_append, List.length_cons, code, length_code hbranch, haddress]
            omega
          have hnext : address + branch.codeSize + 2 =
              e.size + (before ++ split :: (code ++ [.jump exit])).length := by
            simp only [List.length_append, List.length_cons, code, length_code hbranch, haddress,
              List.length_nil]
            omega
          have hfilled := @patch_append e entries (before ++ split :: code)
            (alternateCode flags 0 (other :: others) (address + branch.codeSize + 2)
              (firstClass + branch.classCount)) (.jump 0) _ hjump (.jump exit)
          have hlater := @ih hothers (before ++ split :: (code ++ [.jump exit])) _
            (firstClass + branch.classCount) hnext
          simp only [List.append_assoc, List.cons_append, List.nil_append] at hfilled hlater
          rw [alternateCode_cons, alternateCode_cons, jumpPlaces, Emission.patchAll, List.foldl_cons,
            hfilled]
          exact hlater

theorem lays_alternate {branches : List Node} (hbranches : ∀ branch ∈ branches, branch.WellFormed)
    (hlays : ∀ branch ∈ branches, branch.Lays flags) : (Node.alternate branches).Lays flags := by
  intro e hroom
  have hsizes (branch : Node) (hbranch : branch ∈ branches) :=
    @length_code flags branch (hbranches branch hbranch)
  have hexit := length_alternateCode hsizes 0 e.size e.classes.size
  have hplace : e.size = e.size + ([] : List Instruction).length := rfl
  have hfilled := @patchAll_alternateCode flags branches hbranches
    (e.size + codeSizes branches + 2 * (branches.length - 1)) e [] e.size e.classes.size
    (classesOf branches) hplace
  show (emitBranches flags branches e).bind (fun last =>
    some (last.2.patchAll last.1 fun _ => .jump last.2.size)) = _
  rw [emitBranches_eq hbranches hlays hroom, Option.bind_map]
  refine (fitting_bind_some (Emission.size_patchAll _ _)).trans ?_
  rw [Emission.size_append, hexit, ← Nat.add_assoc]
  exact congrArg Emission.fitting hfilled

theorem lays_group {body : Node} (hlays : body.Lays flags) (index : Option Nat) :
    (Node.group index body).Lays flags := by
  intro e hroom
  cases index with
  | none => exact hlays e hroom
  | some k =>
      show (push (.save (2 * k)) e).bind (fun next =>
        (body.emit flags next).bind (push (.save (2 * k + 1)))) = _
      rw [push_eq, ← Option.bind_assoc, hlays.bind, (lays_push _).bind]
      simp [Node.code, Node.classes]

/-- What is emitted for a tree is its code. -/
theorem lays_of_wellFormed {node : Node} (hnode : node.WellFormed) : node.Lays flags := by
  induction hnode with
  | empty =>
      intro e hroom
      exact (fitting_of_le hroom).symm.trans (by simp [Node.code, Node.classes])
  | literal c => exact lays_push _
  | any => exact lays_push _
  | oneOf set =>
      intro e hroom
      show push (.oneOf e.classes.size flags.ignoreCase) (e.pushClass (.ofSet set)) = _
      rw [push_eq, Emission.pushClass_eq, append_append]
      rfl
  | assertion a => exact lays_push _
  | group index _ ih => exact lays_group ih index
  | concat hitems ih => exact lays_inTurn hitems ih
  | alternate _ hbranches ih => exact lays_alternate hbranches ih
  | @repetition body min max greedy hbounds hbody ih =>
      have hrepetition := lays_emitRepetition ih (fun address firstClass => length_code hbody _ _)
        hbounds greedy
      rw [length_classes] at hrepetition
      exact hrepetition

/-- The program that is emitted is the one that is laid out, if there is room for all of it. -/
theorem emit_eq {parsed : Parsed} (hnode : parsed.node.WellFormed) :
    parsed.emit flags =
      if parsed.node.codeSize + 3 ≤ maxProgramSize then some (parsed.program flags) else none := by
  show (push (.save 0) .empty).bind (fun e => (parsed.node.emit flags e).bind fun e =>
    (push (.save 1) e).bind fun e => (push .accept e).bind fun e =>
      some (Program.mk e.instructions e.classes (2 * (parsed.groups + 1)) 0)) = _
  rw [push_eq, ← Option.bind_assoc, (lays_of_wellFormed hnode).bind, ← Option.bind_assoc,
    (lays_push _).bind, ← Option.bind_assoc, (lays_push _).bind]
  have hempty : Emission.empty.size = 0 := rfl
  by_cases hroom : parsed.node.codeSize + 3 ≤ maxProgramSize
  · rw [fitting_of_le (by simp [hempty, length_code hnode]; omega), if_pos hroom]
    simp [Emission.empty, Emission.size, Emission.append, Parsed.program]
  · rw [fitting_of_lt (by simp [hempty, length_code hnode]; omega), if_neg hroom]
    rfl

theorem compile_eq {text : String} {parsed : Parsed} (hparse : parse text = .ok parsed)
    (flags : Flags) :
    compile text flags =
      if parsed.node.codeSize + 3 ≤ maxProgramSize then
        .ok (parsed.program (flags.union parsed.flags))
      else malformed text.utf8ByteSize .programTooLong := by
  have hcheck := check_program (wellFormed_of_parse hparse) (captures_le_of_parse hparse)
    (flags.union parsed.flags)
  simp only [compile, hparse, hcheck]
  by_cases hroom : parsed.node.codeSize + 3 ≤ maxProgramSize
  · rw [if_pos hroom, if_neg (Nat.not_lt.mpr hroom)]
  · rw [if_neg hroom, if_pos (Nat.lt_of_not_le hroom)]

theorem assemble_eq {text : String} {parsed : Parsed} (hparse : parse text = .ok parsed)
    (flags : Flags) : assemble text flags = compile text flags := by
  have hcheck := check_program (wellFormed_of_parse hparse) (captures_le_of_parse hparse)
    (flags.union parsed.flags)
  simp only [compile_eq hparse, assemble, hparse, emit_eq (wellFormed_of_parse hparse)]
  by_cases hroom : parsed.node.codeSize + 3 ≤ maxProgramSize
  · simp only [if_pos hroom, hcheck]
  · simp only [if_neg hroom]

/-- A pattern whose code fits has a program with nothing left to fill in, which a thread cannot
leave; one whose code does not fit has none. -/
theorem assemble_of_parse {text : String} {parsed : Parsed} (hparse : parse text = .ok parsed)
    (flags : Flags) :
    assemble text flags = compile text flags ∧
      ((∃ program, assemble text flags = .ok program) ↔
        parsed.node.codeSize + 3 ≤ maxProgramSize) ∧
      (∀ program, assemble text flags = .ok program →
        program.size = parsed.node.codeSize + 3 ∧ program.slots = 2 * (parsed.groups + 1) ∧
          (∀ instruction ∈ program.instructions, instruction ≠ hole ∧ instruction ≠ .jump 0) ∧
          program.check = .ok ()) ∧
      ∀ position fault, assemble text flags ≠ .error ⟨position, .invalidProgram fault⟩ := by
  have hnode := wellFormed_of_parse hparse
  have hgroups := captures_le_of_parse hparse
  have hassemble := (assemble_eq hparse flags).trans (compile_eq hparse flags)
  refine ⟨assemble_eq hparse flags, ?_, fun program hprogram => ?_, fun position fault => ?_⟩
  · rw [hassemble]
    by_cases hroom : parsed.node.codeSize + 3 ≤ maxProgramSize
    · rw [if_pos hroom]
      exact iff_of_true ⟨_, rfl⟩ hroom
    · rw [if_neg hroom]
      exact iff_of_false nofun hroom
  · rw [hassemble] at hprogram
    split at hprogram
    · cases hprogram
      exact ⟨size_program hnode _, rfl, fun _ => forward_program hnode hgroups _,
        check_program hnode hgroups _⟩
    · cases hprogram
  · rw [hassemble]
    split
    · exact nofun
    · exact nofun

theorem assemble_lazy_group :
    ∃ program, assemble "(a|b)*?" .none = .ok program ∧ program.size = 11 ∧ program.slots = 4 ∧
      program.check = .ok () := by
  have hparse : parse "(a|b)*?" =
      .ok ⟨.repetition (.group (some 1) (.alternate [.literal 'a', .literal 'b'])) 0 none false, 1,
        .none⟩ := by cbv
  obtain ⟨-, hroom, hprogram, -⟩ := assemble_of_parse hparse .none
  obtain ⟨program, hassemble⟩ := hroom.mpr (by decide)
  obtain ⟨hsize, hslots, -, hcheck⟩ := hprogram program hassemble
  exact ⟨program, hassemble, hsize, hslots, hcheck⟩

end TextColumns.Pattern
