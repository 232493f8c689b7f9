import TextColumns.Proofs.Store.Overrun
import TextColumns.Proofs.Text.Position
import TextColumns.Transform.Pad

/-!
Texts brought to a width.  The size of a padded text is counted in machine words; if it is short
enough, that is its size, and the text is what is written for its element.
-/

namespace TextColumns.Transform

theorem lt_count_of_le {n : Nat} (hn : n ≤ Store.maxElementSize) : n < Word.count :=
  Nat.lt_of_le_of_lt hn (by decide)

/-- The characters of a text that stay in it. -/
def keptChars (width : Nat) (policy : PadPolicy) (text : String) : List Char :=
  if policy = .truncate then text.toList.take width else text.toList

def padded (width : Nat) (side : Side) (fill : String) (policy : PadPolicy) (text : String) :
    String :=
  let missing := width - text.toList.length
  let kept := String.ofList (keptChars width policy text)
  match side with
  | .left => Text.copies missing fill ++ kept
  | .right => kept ++ Text.copies missing fill
  | .both => Text.copies (missing / 2) fill ++ kept ++ Text.copies (missing - missing / 2) fill

/-- The differences that the plan is made with, and the part of the text that is written. -/
def padSteps (width : Nat) (side : Side) (policy : PadPolicy) (text : String) :
    List PartialStep :=
  let count := text.toList.length
  .cut text ⟨0, (padPlan width side policy text).kept⟩ ::
    if width ≤ count then []
    else [.subtract width count, .subtract (width - count) ((width - count) / 2)]

variable {width : Nat} {side : Side} {policy : PadPolicy} {text : String}

theorem exists_append_keptChars (width : Nat) (policy : PadPolicy) (text : String) :
    ∃ behind, text.toList = keptChars width policy text ++ behind := by
  rw [keptChars]
  split
  · exact ⟨_, (List.take_append_drop width text.toList).symm⟩
  · exact ⟨[], (List.append_nil _).symm⟩

theorem kept_padPlan (width : Nat) (side : Side) (policy : PadPolicy) (text : String) :
    (padPlan width side policy text).kept = Text.sizeOf (keptChars width policy text) := by
  have hsize := Text.sizeOf_toList text
  simp only [padPlan, keptChars]
  split
  next =>
    split
    · rfl
    · exact hsize.symm
  next hwidth =>
    have htake : text.toList.take width = text.toList := List.take_of_length_le (by omega)
    rw [htake, ite_self, hsize]
    cases side <;> rfl

theorem isBoundary_kept (width : Nat) (side : Side) (policy : PadPolicy) (text : String) :
    Text.IsBoundary text (padPlan width side policy text).kept := by
  obtain ⟨behind, htext⟩ := exists_append_keptChars width policy text
  rw [kept_padPlan]
  exact Text.isBoundary_of_append htext

theorem extract_kept (width : Nat) (side : Side) (policy : PadPolicy) (text : String) :
    text.toByteArray.extract 0 (padPlan width side policy text).kept =
      (String.ofList (keptChars width policy text)).toByteArray := by
  obtain ⟨behind, htext⟩ := exists_append_keptChars width policy text
  have hkept := isBoundary_kept width side policy text
  rw [← Text.toByteArray_between (Text.isBoundary_zero text) hkept, kept_padPlan]
  exact congrArg String.toByteArray (@Text.between_eq_ofList text [] _ behind htext)

theorem padded_eq (width : Nat) (side : Side) (fill : String) (policy : PadPolicy)
    (text : String) :
    padded width side fill policy text =
      Text.copies (padPlan width side policy text).left fill ++
        String.ofList (keptChars width policy text) ++
        Text.copies (padPlan width side policy text).right fill := by
  have hnone : Text.copies 0 fill = "" := rfl
  by_cases hwidth : width ≤ text.toList.length
  · simp only [padded, padPlan, if_pos hwidth, Nat.sub_eq_zero_of_le hwidth]
    cases side <;> simp [hnone]
  · simp only [padded, padPlan, if_neg hwidth]
    cases side <;> simp [hnone]

theorem counts_padDraft (width : Nat) (side : Side) (policy : PadPolicy) (fill : Char)
    (text : String) :
    (padDraft width side policy fill text).Counts
      (padded width side (String.singleton fill) policy text) where
  size_eq := by
    simp only [padDraft, PadPlan.size, padded_eq, String.utf8ByteSize_append,
      Text.utf8ByteSize_copies, String.utf8ByteSize_singleton, Text.utf8ByteSize_ofList,
      ← kept_padPlan width side]
    congr 1
    rw [Nat.add_mul]
    omega
  writes := by
    rw [padded_eq]
    have hkept := Writer.writes_push (extract_kept width side policy text)
    exact ((Writer.writes_pushChars fill _).append hkept).append (Writer.writes_pushChars fill _)

theorem fills_padDraft {fill : Char}
    (hfits : (padded width side (String.singleton fill) policy text).utf8ByteSize ≤
      Store.maxElementSize) :
    (padDraft width side policy fill text).Fills
      (padded width side (String.singleton fill) policy text) :=
  (counts_padDraft width side policy fill text).fills (lt_count_of_le hfits)

theorem defined_padSteps (width : Nat) (side : Side) (policy : PadPolicy) (text : String) :
    ∀ step ∈ padSteps width side policy text, step.Defined := by
  refine List.forall_mem_cons.mpr ⟨?_, ?_⟩
  · exact ⟨⟨Text.isBoundary_zero text, isBoundary_kept width side policy text⟩, Nat.zero_le _⟩
  · split
    next => exact nofun
    next hwidth =>
      exact List.forall_mem_cons.mpr ⟨Nat.le_of_not_le hwidth,
        List.forall_mem_singleton.mpr (Nat.div_le_self _ 2)⟩

def zeroFilled (width : Nat) (text : String) : String :=
  (splitSign text).1 ++ Text.copies (width - text.toList.length) "0" ++ (splitSign text).2

def zeroFillSteps (text : String) : List PartialStep :=
  let sign := (splitSign text).1.utf8ByteSize
  [.cut text ⟨0, sign⟩, .cut text ⟨sign, text.utf8ByteSize⟩]

theorem append_splitSign (text : String) : (splitSign text).1 ++ (splitSign text).2 = text := by
  have happend (sign : Char) (rest : List Char) (hchars : text.toList = sign :: rest) :
      String.singleton sign ++ String.ofList rest = text := by
    rw [← String.toList_inj, String.toList_append, String.toList_singleton, String.toList_ofList,
      hchars, List.singleton_append]
  rw [splitSign]
  split
  · exact happend _ _ ‹_›
  · exact happend _ _ ‹_›
  · exact String.empty_append

theorem counts_zeroFillDraft (width : Nat) (text : String) :
    (zeroFillDraft width text).Counts (zeroFilled width text) where
  size_eq := by
    have hsize := congrArg String.utf8ByteSize (append_splitSign text)
    rw [String.utf8ByteSize_append] at hsize
    have hzero : "0".utf8ByteSize = 1 := rfl
    simp only [zeroFillDraft, zeroFilled, zeroCount, String.utf8ByteSize_append,
      Text.utf8ByteSize_copies, hzero]
    congr 1
    omega
  writes := by
    have hzeros := Writer.writes_pushChars '0' (zeroCount width text)
    exact ((Writer.writes_push rfl).append hzeros).append (Writer.writes_push rfl)

theorem fills_zeroFillDraft
    (hfits : (zeroFilled width text).utf8ByteSize ≤ Store.maxElementSize) :
    (zeroFillDraft width text).Fills (zeroFilled width text) :=
  (counts_zeroFillDraft width text).fills (lt_count_of_le hfits)

theorem defined_zeroFillSteps (text : String) : ∀ step ∈ zeroFillSteps text, step.Defined := by
  have htext := congrArg String.toList (append_splitSign text)
  rw [String.toList_append] at htext
  have hsign := Text.isBoundary_of_append htext.symm
  rw [Text.sizeOf_toList] at hsign
  exact List.forall_mem_cons.mpr ⟨⟨⟨Text.isBoundary_zero text, hsign⟩, Nat.zero_le _⟩,
    List.forall_mem_singleton.mpr ⟨⟨hsign, Text.isBoundary_utf8ByteSize text⟩, hsign.le⟩⟩

end TextColumns.Transform
