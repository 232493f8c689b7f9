import TextColumns.Proofs.Store.Valid
import TextColumns.Transform.Trim

namespace TextColumns.Transform

theorem within_trimmed (side : Side) (set : TrimSet) (text : String) :
    (trimmed side set text).Within text := by
  let rest := if side = .right then text.toList else text.toList.dropWhile (isTrimmed set)
  let kept :=
    if side = .left then rest else (rest.reverse.dropWhile (isTrimmed set)).reverse
  have hrest : ∃ front, text.toList = front ++ rest := by
    by_cases hside : side = .right
    · exact ⟨[], by simp [rest, hside]⟩
    · refine ⟨text.toList.takeWhile (isTrimmed set), ?_⟩
      simp only [rest, if_neg hside, List.takeWhile_append_dropWhile]
  have hkept : ∃ behind, rest = kept ++ behind := by
    by_cases hside : side = .left
    · exact ⟨[], by simp [kept, hside]⟩
    · refine ⟨(rest.reverse.takeWhile (isTrimmed set)).reverse, ?_⟩
      simp only [kept, if_neg hside]
      rw [← List.reverse_append, List.takeWhile_append_dropWhile, List.reverse_reverse]
  obtain ⟨front, hfront⟩ := hrest
  obtain ⟨behind, hbehind⟩ := hkept
  have hstart : text.utf8ByteSize - Text.sizeOf rest = Text.sizeOf front := by
    rw [← Text.sizeOf_toList, hfront, Text.sizeOf_append, Nat.add_sub_cancel_right]
  have htrimmed : trimmed side set text =
      ⟨Text.sizeOf front, Text.sizeOf (front ++ kept)⟩ := by
    rw [Text.sizeOf_append, ← hstart]
    rfl
  rw [htrimmed]
  constructor
  · exact Text.isBoundary_of_append hfront
  · rw [hbehind, ← List.append_assoc] at hfront
    exact Text.isBoundary_of_append hfront

end TextColumns.Transform

namespace TextColumns.Store

variable {store : Store}

theorem Valid.trim (hvalid : store.Valid) (side : Transform.Side) (set : Option String) :
    (Transform.trim store side set).Valid :=
  hvalid.share_texts (Transform.within_trimmed side (Transform.TrimSet.ofText set))

theorem Valid.substring (hvalid : store.Valid) (start : Nat) (length : Option Nat) :
    (Transform.substring store start length).Valid :=
  hvalid.share_texts fun text => Text.within_charSpan text start length

end TextColumns.Store
