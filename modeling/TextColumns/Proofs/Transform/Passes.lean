import TextColumns.Proofs.Matching.Template
import TextColumns.Proofs.Transform.Join
import TextColumns.Proofs.Transform.Pad

/-!
The two passes of a draft, looking before they reach.  They ask whether a difference is not below
zero, whether a part of a text lies between characters and whether a list has an entry, and give up
where that is not so.  If the steps that are listed for a draft can be made, they never do.
-/

namespace TextColumns

open Matching (Groups Piece Template)
open Text (Extent)
open Transform

namespace PartialStep

def difference? (minuend subtrahend : Nat) : Option Nat :=
  if subtrahend ≤ minuend then some (minuend - subtrahend) else none

def bytes? (text : String) (extent : Extent) : Option ByteArray :=
  if extent.Within text ∧ extent.start ≤ extent.stop then
    some (text.toByteArray.extract extent.start extent.stop)
  else none

theorem difference?_eq {minuend subtrahend : Nat} (hstep : (subtract minuend subtrahend).Defined) :
    difference? minuend subtrahend = some (minuend - subtrahend) :=
  if_pos hstep

theorem bytes?_eq {text : String} {extent : Extent} (hstep : (cut text extent).Defined) :
    bytes? text extent = some (text.toByteArray.extract extent.start extent.stop) :=
  if_pos hstep

end PartialStep

open PartialStep (bytes? bytes?_eq difference? difference?_eq)

/-- A draft whose passes may give up. -/
structure GuardedDraft where
  size? : Option Nat
  write? : Writer → Option Writer

namespace GuardedDraft

def ofDraft (draft : Draft) : GuardedDraft :=
  ⟨some draft.size, fun writer => some (draft.write writer)⟩

/-- Whether the passes come to an end, and give what a draft gives. -/
structure Gives (guarded : GuardedDraft) (draft : Draft) : Prop where
  size_eq : guarded.size? = some draft.size
  write_eq : ∀ writer, guarded.write? writer = some (draft.write writer)

theorem gives_ofDraft (draft : Draft) : (ofDraft draft).Gives draft :=
  ⟨rfl, fun _ => rfl⟩

end GuardedDraft

namespace Rewrite

variable {text : String}

def padPlan? (width : Nat) (side : Side) (policy : PadPolicy) (text : String) : Option PadPlan :=
  let count := text.toList.length
  if width ≤ count then some (padPlan width side policy text)
  else do
    let total ← difference? width count
    match side with
    | .left => some ⟨total, 0, text.utf8ByteSize⟩
    | .right => some ⟨0, total, text.utf8ByteSize⟩
    | .both => do
      let right ← difference? total (total / 2)
      some ⟨total / 2, right, text.utf8ByteSize⟩

def padDraft? (width : Nat) (side : Side) (policy : PadPolicy) (fill : Char) (text : String) :
    GuardedDraft where
  size? := (padPlan? width side policy text).map (·.size fill)
  write? writer := do
    let plan ← padPlan? width side policy text
    let kept ← bytes? text ⟨0, plan.kept⟩
    some (((writer.pushChars fill plan.left).push kept).pushChars fill plan.right)

theorem padPlan?_eq {width : Nat} {side : Side} {policy : PadPolicy}
    (hsteps : ∀ step ∈ padSteps width side policy text, step.Defined) :
    padPlan? width side policy text = some (padPlan width side policy text) := by
  rw [padPlan?]
  by_cases hwidth : width ≤ text.toList.length
  · exact if_pos hwidth
  · obtain ⟨-, hsteps⟩ := List.forall_mem_cons.mp hsteps
    rw [if_neg hwidth] at hsteps
    obtain ⟨htotal, hright⟩ := List.forall_mem_cons.mp hsteps
    rw [if_neg hwidth, difference?_eq htotal, Option.bind_eq_bind, Option.bind_some, padPlan,
      if_neg hwidth]
    cases side with
    | left => rfl
    | right => rfl
    | both =>
        dsimp only
        rw [difference?_eq (hright _ (.head _))]
        rfl

theorem gives_padDraft? {width : Nat} {side : Side} {policy : PadPolicy} (fill : Char)
    (hsteps : ∀ step ∈ padSteps width side policy text, step.Defined) :
    (padDraft? width side policy fill text).Gives (padDraft width side policy fill text) where
  size_eq := by
    rw [padDraft?, padPlan?_eq hsteps]
    rfl
  write_eq writer := by
    have hkept := bytes?_eq (hsteps _ (.head _))
    simp only [padDraft?, padPlan?_eq hsteps, Option.bind_eq_bind, Option.bind_some, hkept]
    rfl

/-- A sign is cut off, the empty one of a text without a sign too. -/
def zeroFillDraft? (width : Nat) (text : String) : GuardedDraft where
  size? := some (zeroFillDraft width text).size
  write? writer := do
    let cut := (splitSign text).1.utf8ByteSize
    let sign ← bytes? text ⟨0, cut⟩
    let rest ← bytes? text ⟨cut, text.utf8ByteSize⟩
    some (((writer.push sign).pushChars '0' (zeroCount width text)).push rest)

theorem gives_zeroFillDraft? (width : Nat)
    (hsteps : ∀ step ∈ zeroFillSteps text, step.Defined) :
    (zeroFillDraft? width text).Gives (zeroFillDraft width text) where
  size_eq := rfl
  write_eq writer := by
    obtain ⟨hsign, hrest⟩ := List.forall_mem_cons.mp hsteps
    have hbytes := congrArg String.toByteArray (append_splitSign text)
    have hsize := congrArg ByteArray.size hbytes
    rw [String.toByteArray_append] at hbytes hsize
    rw [ByteArray.size_append, @String.size_toByteArray text] at hsize
    simp only [zeroFillDraft?, bytes?_eq hsign, bytes?_eq (List.forall_mem_singleton.mp hrest),
      Option.bind_eq_bind, Option.bind_some]
    rw [← hbytes, ByteArray.extract_append_eq_left String.size_toByteArray.symm,
      ByteArray.extract_append_eq_right String.size_toByteArray.symm hsize.symm]
    rfl

/-- Replacing takes the size of what is found off that of the text, and cuts out what lies between. -/
def replaceSteps (removed : Nat) (found : List Extent) (text : String) : List PartialStep :=
  .subtract text.utf8ByteSize removed ::
    (Matching.between text.utf8ByteSize 0 found).map (.cut text)

def writeReplaced? (text replacement : String) (start : Nat) (writer : Writer) :
    List Extent → Option Writer
  | [] => (bytes? text ⟨start, text.utf8ByteSize⟩).map writer.push
  | extent :: rest => do
    let piece ← bytes? text ⟨start, extent.start⟩
    writeReplaced? text replacement extent.stop ((writer.push piece).pushText replacement) rest

def replaceDraft? (replacement : String) (removed : Nat) (found : List Extent) (text : String) :
    GuardedDraft where
  size? := (difference? text.utf8ByteSize removed).map fun kept =>
    Word.wrap (kept + found.length * replacement.utf8ByteSize)
  write? writer := writeReplaced? text replacement 0 writer found

theorem writeReplaced?_eq (replacement : String) {start : Nat} {found : List Extent}
    (hsteps : ∀ piece ∈ Matching.between text.utf8ByteSize start found,
      (PartialStep.cut text piece).Defined) (writer : Writer) :
    writeReplaced? text replacement start writer found =
      some (Matching.writeReplaced text.toByteArray replacement start writer found) := by
  induction found generalizing start writer with
  | nil =>
      rw [writeReplaced?, bytes?_eq (hsteps _ (.head _))]
      rfl
  | cons extent rest ih =>
      obtain ⟨hpiece, hrest⟩ := List.forall_mem_cons.mp hsteps
      rw [writeReplaced?, bytes?_eq hpiece]
      exact ih hrest _

theorem gives_replaceDraft? (replacement : String) {removed : Nat} {found : List Extent}
    (hremoved : removed = total (found.map Extent.size))
    (hsteps : ∀ step ∈ replaceSteps removed found text, step.Defined) :
    (replaceDraft? replacement removed found text).Gives
      (Matching.replaceDraft replacement text found) := by
  obtain ⟨hsize, hcuts⟩ := List.forall_mem_cons.mp hsteps
  refine ⟨?_, writeReplaced?_eq replacement (List.forall_mem_map.mp hcuts)⟩
  rw [replaceDraft?, difference?_eq hsize, Matching.replaceDraft, ← hremoved,
    ← Word.difference_wrap, Word.wrap_difference_add hsize]
  rfl

def joinAllDraft? (store : Store) (separator : String) : GuardedDraft where
  size? := (difference? store.size store.nullCount).map fun count =>
    Word.wrap (store.valueBytes + separator.utf8ByteSize * (count - 1))
  write? writer := some ((joinAllDraft store separator).write writer)

theorem gives_joinAllDraft? {store : Store} (separator : String)
    (hstep : (PartialStep.subtract store.size store.nullCount).Defined) :
    (joinAllDraft? store separator).Gives (joinAllDraft store separator) where
  size_eq := by
    rw [joinAllDraft?, difference?_eq hstep]
    rfl
  write_eq _ := rfl

def templateSteps (template : Template) (found : List Groups) (text : String) :
    List PartialStep :=
  Matching.sizingSteps template text (Word.wrap text.utf8ByteSize) found ++
    Matching.fillingSteps template text 0 found

def pieceSize? (groups : Groups) : Piece → Option Nat
  | .char c => some c.utf8Size
  | .group k => do
    let extent ← groups[k]?
    some ((extent.map Extent.size).getD 0)

def expandedSize? (template : Template) (size : Nat) (groups : Groups) : Option Nat := do
  let whole ← groups[0]?
  let kept ← difference? size ((whole.map Extent.size).getD 0)
  let pieces ← template.mapM (pieceSize? groups)
  some (Word.wrap (kept + total pieces))

def writePiece? (text : String) (groups : Groups) (writer : Writer) : Piece → Option Writer
  | .char c => some (writer.pushChar c)
  | .group k => do
    match ← groups[k]? with
    | some extent => (bytes? text extent).map writer.push
    | none => some writer

def writeExpanded? (template : Template) (text : String) (start : Nat) (writer : Writer) :
    List Groups → Option Writer
  | [] => (bytes? text ⟨start, text.utf8ByteSize⟩).map writer.push
  | groups :: rest => do
    match ← groups[0]? with
    | none => writeExpanded? template text start writer rest
    | some whole =>
      let before ← bytes? text ⟨start, whole.start⟩
      let filled ← template.foldlM (writePiece? text groups) (writer.push before)
      writeExpanded? template text whole.stop filled rest

def expandDraft? (template : Template) (found : List Groups) (text : String) : GuardedDraft where
  size? := found.foldlM (expandedSize? template) (Word.wrap text.utf8ByteSize)
  write? writer := writeExpanded? template text 0 writer found

variable {template : Template} {groups : Groups}

theorem getElem?_eq {k : Nat} (hstep : (PartialStep.entry k groups.length).Defined) :
    groups[k]? = some (Groups.get groups k) := by
  rw [Groups.get, List.getElem?_eq_getElem hstep]
  rfl

theorem pieceSize?_eq {piece : Piece}
    (hsteps : ∀ step ∈ Matching.pieceSteps text groups piece, step.Defined) :
    pieceSize? groups piece = some (Template.pieceSize groups piece) := by
  cases piece with
  | char c => rfl
  | group k =>
      rw [pieceSize?, getElem?_eq (hsteps _ (.head _))]
      rfl

theorem writePiece?_eq {piece : Piece}
    (hsteps : ∀ step ∈ Matching.pieceSteps text groups piece, step.Defined) (writer : Writer) :
    writePiece? text groups writer piece =
      some (Template.writePiece text.toByteArray groups writer piece) := by
  cases piece with
  | char c => rfl
  | group k =>
      obtain ⟨hentry, hcut⟩ := List.forall_mem_cons.mp hsteps
      simp only [writePiece?, getElem?_eq hentry, Option.bind_eq_bind, Option.bind_some,
        Template.writePiece]
      cases hextent : Groups.get groups k with
      | none => rfl
      | some extent =>
          rw [hextent] at hcut
          simp only [bytes?_eq (hcut _ (.head _)), Option.map_some]

theorem template_eq (hsteps : ∀ step ∈ template.flatMap (Matching.pieceSteps text groups),
    step.Defined) :
    template.mapM (pieceSize? groups) = some (template.map (Template.pieceSize groups)) ∧
      ∀ writer, template.foldlM (writePiece? text groups) writer =
        some (template.write text.toByteArray groups writer) := by
  induction template with
  | nil => exact ⟨rfl, fun _ => rfl⟩
  | cons piece rest ih =>
      obtain ⟨hpiece, hrest⟩ := List.forall_mem_append.mp hsteps
      obtain ⟨hsizes, hwrite⟩ := ih hrest
      refine ⟨?_, fun writer => ?_⟩
      · rw [List.mapM_cons, pieceSize?_eq hpiece, hsizes]
        rfl
      · rw [List.foldlM_cons, writePiece?_eq hpiece, Option.bind_eq_bind, Option.bind_some, hwrite]
        rfl

theorem foldlM_expandedSize? {size : Nat} {found : List Groups}
    (hsteps : ∀ step ∈ Matching.sizingSteps template text size found, step.Defined) :
    found.foldlM (expandedSize? template) size =
      some (found.foldl (Matching.expandedSize template) size) := by
  induction found generalizing size with
  | nil => rfl
  | cons groups rest ih =>
      obtain ⟨hwhole, hsteps⟩ := List.forall_mem_cons.mp hsteps
      obtain ⟨hkept, hsteps⟩ := List.forall_mem_cons.mp hsteps
      obtain ⟨hpieces, hrest⟩ := List.forall_mem_append.mp hsteps
      have hsize : expandedSize? template size groups =
          some (Matching.expandedSize template size groups) := by
        simp only [expandedSize?, getElem?_eq hwhole, difference?_eq hkept,
          (template_eq hpieces).1, Option.bind_eq_bind, Option.bind_some]
        rw [Matching.expandedSize, ← Word.difference_wrap, Word.wrap_difference_add hkept]
        rfl
      rw [List.foldlM_cons, hsize, Option.bind_eq_bind, Option.bind_some, List.foldl_cons]
      exact ih hrest

theorem writeExpanded?_eq {start : Nat} {found : List Groups}
    (hsteps : ∀ step ∈ Matching.fillingSteps template text start found, step.Defined)
    (writer : Writer) :
    writeExpanded? template text start writer found =
      some (Matching.writeExpanded template text.toByteArray start writer found) := by
  induction found generalizing start writer with
  | nil =>
      rw [writeExpanded?, bytes?_eq (List.forall_mem_singleton.mp hsteps)]
      rfl
  | cons groups rest ih =>
      obtain ⟨hwhole, hsteps⟩ := List.forall_mem_cons.mp hsteps
      rw [writeExpanded?, getElem?_eq hwhole, Option.bind_eq_bind, Option.bind_some,
        Matching.writeExpanded]
      cases hextent : Groups.get groups 0 with
      | none =>
          rw [hextent] at hsteps
          exact ih hsteps writer
      | some whole =>
          rw [hextent] at hsteps
          obtain ⟨hbefore, hsteps⟩ := List.forall_mem_cons.mp hsteps
          obtain ⟨hpieces, hrest⟩ := List.forall_mem_append.mp hsteps
          simp only [bytes?_eq hbefore, (template_eq hpieces).2]
          exact ih hrest _

theorem gives_expandDraft? {found : List Groups}
    (hsteps : ∀ step ∈ templateSteps template found text, step.Defined) :
    (expandDraft? template found text).Gives (Matching.expandDraft template text found) := by
  obtain ⟨hsizing, hfilling⟩ := List.forall_mem_append.mp hsteps
  exact ⟨foldlM_expandedSize? hsizing, writeExpanded?_eq hfilling⟩

end Rewrite

end TextColumns
