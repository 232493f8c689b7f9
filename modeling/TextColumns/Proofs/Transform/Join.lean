import TextColumns.Proofs.Store.Overrun
import TextColumns.Transform.Join

namespace TextColumns.Transform

theorem fills_joinedDraft (separator left right : String) :
    (joinedDraft separator left right).Fills (left ++ separator ++ right) := by
  refine Draft.fills_of_appends ?_ ?_
  · simp only [joinedDraft, String.utf8ByteSize_append]
  · exact ((Writer.appends_pushText left).append (Writer.appends_pushText separator)).append
      (Writer.appends_pushText right)

def joined? (separator : String) : Option String → Option String → Option String
  | some left, some right => some (left ++ separator ++ right)
  | _, _ => none

theorem fills_joinRows (separator : String) (left right : List (Option String)) :
    List.Forall₂ (Option.Rel Draft.Fills) (left.zipWith (joinedDraft? separator) right)
      (left.zipWith (joined? separator) right) := by
  induction left generalizing right with
  | nil => exact .nil
  | cons text lefts ih =>
      cases right with
      | nil => exact .nil
      | cons other rights =>
          refine .cons ?_ (ih rights)
          cases text with
          | none => exact .none
          | some text =>
              cases other with
              | none => exact .none
              | some other => exact .some (fills_joinedDraft separator text other)

theorem intercalate_cons (separator first : String) (rest : List String) :
    separator.intercalate (first :: rest) = first ++ String.join (rest.map (separator ++ ·)) := by
  induction rest generalizing first with
  | nil => rw [String.intercalate_singleton, List.map_nil, String.join_nil, String.append_empty]
  | cons second rest ih =>
      rw [String.intercalate_cons_cons, ih, List.map_cons, String.join_cons, String.append_assoc,
        String.append_assoc]

theorem writes_writeJoined (separator : String) (texts : List String) :
    Writer.Writes (writeJoined separator · texts) (separator.intercalate texts) := by
  cases texts with
  | nil => exact Writer.writes_nothing
  | cons first rest =>
      rw [intercalate_cons]
      refine (Writer.writes_pushText first).append (Writer.writes_foldl fun text _ => ?_)
      exact (Writer.writes_pushText separator).append (Writer.writes_pushText text)

theorem size_intercalate (separator : String) (texts : List String) :
    (separator.intercalate texts).utf8ByteSize =
      total (texts.map String.utf8ByteSize) + separator.utf8ByteSize * (texts.length - 1) := by
  cases texts with
  | nil => rfl
  | cons first rest =>
      rw [intercalate_cons, String.utf8ByteSize_append, List.map_cons, total_cons,
        List.length_cons, Nat.add_sub_cancel, Nat.add_assoc]
      congr 1
      induction rest with
      | nil => rfl
      | cons second rest ih =>
          rw [List.map_cons, String.join_cons, String.utf8ByteSize_append,
            String.utf8ByteSize_append, ih, List.map_cons, total_cons, List.length_cons,
            Nat.mul_succ]
          omega

theorem total_textSizes_eq (texts : List (Option String)) :
    total (textSizes texts) = total ((texts.filterMap id).map String.utf8ByteSize) := by
  induction texts with
  | nil => rfl
  | cons text? rest ih =>
      cases text? with
      | none => exact (Nat.zero_add _).trans ih
      | some text => exact congrArg (text.utf8ByteSize + ·) ih

theorem length_filterMap_id (texts : List (Option String)) :
    (texts.filterMap id).length + texts.countP Option.isNone = texts.length := by
  have hnone : texts.countP Option.isNone = texts.countP fun text => decide ¬ text.isSome :=
    List.countP_congr fun text _ => by cases text <;> simp
  rw [List.length_filterMap_eq_countP, hnone]
  exact (List.length_eq_countP_add_countP Option.isSome).symm

theorem nullCount_le_size {store : Store} (hvalid : store.Valid) :
    store.nullCount ≤ store.size := by
  rw [hvalid.nullCount_eq_countP, ← store.size_texts, ← Array.length_toList]
  exact List.countP_le_length

theorem counts_joinAllDraft {store : Store} (hvalid : store.Valid) (separator : String) :
    (joinAllDraft store separator).Counts
      (separator.intercalate (store.texts.toList.filterMap id)) where
  size_eq := by
    have hlength : store.texts.toList.length = store.size :=
      Array.length_toList.trans store.size_texts
    have hcount := length_filterMap_id store.texts.toList
    rw [← hvalid.nullCount_eq_countP, hlength] at hcount
    rw [size_intercalate, ← total_textSizes_eq, ← hvalid.valueBytes_eq, Nat.eq_sub_of_add_eq hcount]
    rfl
  writes := writes_writeJoined separator _

end TextColumns.Transform
