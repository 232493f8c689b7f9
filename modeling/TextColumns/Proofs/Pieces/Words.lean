import TextColumns.Proofs.Pieces.Separators
import Mathlib.Data.List.TakeWhile

/-!
Words of a text: runs of characters without a blank that cannot be made longer.  They are the same
from either end of the text, and a limit stops the cutting in the part that is left over at the other
end.
-/

namespace TextColumns

namespace Text

open Unicode (isBlank)

def IsGap (chars : List Char) : Prop :=
  ∀ c ∈ chars, isBlank c = true

structure IsSolid (chars : List Char) : Prop where
  ne_nil : chars ≠ []
  noBlank : ∀ c ∈ chars, isBlank c = false

/-- Characters as gaps and the words between them. -/
inductive Spaced : List Char → Prop
  | gap {gap : List Char} (hgap : IsGap gap) : Spaced gap
  | word {gap word rest : List Char} (hgap : IsGap gap) (hword : IsSolid word)
      (hrest : ∀ c ∈ rest.head?, isBlank c = true) (hspaced : Spaced rest) :
      Spaced (gap ++ (word ++ rest))

variable {chars gap word rest front : List Char}

theorem IsGap.reverse (hgap : IsGap gap) : IsGap gap.reverse :=
  fun c hc => hgap c (List.mem_reverse.mp hc)

theorem IsGap.head? (hgap : IsGap gap) : ∀ c ∈ gap.head?, isBlank c = true :=
  fun c hc => hgap c (List.mem_of_head? hc)

theorem IsSolid.reverse (hword : IsSolid word) : IsSolid word.reverse :=
  ⟨mt List.reverse_eq_nil_iff.mp hword.ne_nil,
    fun c hc => hword.noBlank c (List.mem_reverse.mp hc)⟩

theorem splitGap {c : Char} (hgap : IsGap gap) (hc : isBlank c = false) (rest : List Char) :
    (gap ++ c :: rest).takeWhile isBlank = gap ∧ (gap ++ c :: rest).dropWhile isBlank = c :: rest :=
  splitWhile hgap fun _ hfirst => Option.some.inj hfirst ▸ hc

theorem takeWord_append (hword : ∀ c ∈ word, isBlank c = false)
    (hrest : ∀ c ∈ rest.head?, isBlank c = true) : takeWord (word ++ rest) = (word, rest) := by
  have hkept : ∀ c ∈ word, (!isBlank c) = true := fun c hc => by rw [hword c hc, Bool.not_false]
  have hend : ∀ c ∈ rest.head?, (!isBlank c) = false := fun c hc => by rw [hrest c hc, Bool.not_true]
  obtain ⟨htake, hdrop⟩ := splitWhile hkept hend
  rw [takeWord, htake, hdrop]

theorem spaced (chars : List Char) : Spaced chars := by
  induction hlength : chars.length using Nat.strongRecOn generalizing chars with
  | ind n ih =>
      cases hdrop : chars.dropWhile isBlank with
      | nil => exact .gap (List.dropWhile_eq_nil_iff.mp hdrop)
      | cons c rest =>
          have hchars := eq_append_of_dropWhile_eq_cons hdrop
          have hshort := congrArg List.length hchars
          simp only [List.length_append, List.length_cons] at hshort
          have hfirst := List.head?_dropWhile_not isBlank chars
          have hbehind := List.head?_dropWhile_not (!isBlank ·) rest
          rw [hdrop] at hfirst
          rw [hchars]
          refine .word (fun c => List.mem_takeWhile_imp) ⟨List.cons_ne_nil _ _, ?_⟩ ?_
            (ih _ (by omega) _ rfl)
          · refine List.forall_mem_cons.mpr ⟨hfirst, fun d hd => ?_⟩
            have hsolid := @List.mem_takeWhile_imp _ (!isBlank ·) _ _ hd
            exact (Bool.not_eq_true' _).mp hsolid
          · intro d hd
            rw [takeWord, Option.mem_def] at hd
            rw [hd] at hbehind
            simpa using hbehind

section FromLeft

variable {limit : Option Nat} {stop offset : Nat}

theorem wordsFrom_gap (hgap : IsGap gap) : wordsFrom limit stop offset gap = [] := by
  rw [wordsFrom]
  split
  next => rfl
  next hdrop =>
    rw [List.dropWhile_eq_nil_iff.mpr hgap] at hdrop
    cases hdrop

theorem wordsFrom_word (hgap : IsGap gap) (hword : IsSolid word)
    (hrest : ∀ c ∈ rest.head?, isBlank c = true) :
    wordsFrom limit stop offset (gap ++ (word ++ rest)) =
      let start := offset + sizeOf gap
      if limit = some 0 then [⟨start, stop⟩]
      else
        ⟨start, start + sizeOf word⟩ ::
          wordsFrom (limit.map (· - 1)) stop (start + sizeOf word) rest := by
  obtain ⟨hne, hsolid⟩ := hword
  cases word with
  | nil => exact absurd rfl hne
  | cons c word =>
      obtain ⟨hc, hword⟩ := List.forall_mem_cons.mp hsolid
      obtain ⟨htake, hdrop⟩ := splitGap hgap hc (word ++ rest)
      rw [List.cons_append, wordsFrom]
      split
      next hnil =>
        rw [hdrop] at hnil
        cases hnil
      next hcons =>
        rw [hdrop] at hcons
        cases hcons
        simp only [htake, takeWord_append hword hrest, beq_iff_eq]

theorem wordsFrom_limit (n : Nat) (stop offset : Nat) (chars : List Char) :
    wordsFrom (some n) stop offset chars =
      (wordsFrom none stop offset chars).take n ++
        ((wordsFrom none stop offset chars)[n]?.map fun word => ⟨word.start, stop⟩).toList := by
  induction spaced chars generalizing n offset with
  | gap hgap => simp [wordsFrom_gap hgap]
  | word hgap hword hrest _ ih =>
      rw [wordsFrom_word hgap hword hrest, wordsFrom_word hgap hword hrest]
      cases n with
      | zero => rfl
      | succ n =>
          simp only [Option.some_inj, Nat.succ_ne_zero, if_false, reduceCtorEq, Option.map_some,
            Option.map_none, Nat.add_sub_cancel, List.take_succ_cons, List.getElem?_cons_succ,
            List.cons_append, ih]

theorem wordsFrom_concat (hword : IsSolid word) (hgap : IsGap gap)
    (hfront : ∀ c ∈ front.getLast?, isBlank c = true) :
    wordsFrom none stop offset (front ++ (word ++ gap)) =
      wordsFrom none stop offset front ++
        [⟨offset + sizeOf front, offset + sizeOf front + sizeOf word⟩] := by
  induction spaced front generalizing offset with
  | gap hfirst =>
      rw [wordsFrom_word hfirst hword hgap.head?, wordsFrom_gap hfirst]
      simp only [reduceCtorEq, if_false, wordsFrom_gap hgap, List.nil_append]
  | @word first other rest hfirst hother hrest _ ih =>
      -- The last word of the front cannot end it, for a blank does.
      have hne : rest ≠ [] := by
        rintro rfl
        obtain ⟨c, hc⟩ := List.getLast?_isSome.mpr hother.ne_nil |> Option.isSome_iff_exists.mp
        have hblank := hfront c (by
          rw [List.append_nil, List.getLast?_append_of_ne_nil _ hother.ne_nil, hc]
          rfl)
        rw [hother.noBlank c (List.mem_of_getLast? hc)] at hblank
        cases hblank
      have hlast : ∀ c ∈ rest.getLast?, isBlank c = true := by
        rwa [List.getLast?_append_of_ne_nil _ (List.append_ne_nil_of_right_ne_nil _ hne),
          List.getLast?_append_of_ne_nil _ hne] at hfront
      have hbehind : ∀ c ∈ (rest ++ (word ++ gap)).head?, isBlank c = true := by
        rwa [List.head?_append_of_ne_nil _ hne]
      rw [List.append_assoc, List.append_assoc, wordsFrom_word hfirst hother hbehind,
        wordsFrom_word hfirst hother hrest]
      simp only [reduceCtorEq, if_false, Option.map_none, ih hlast, List.cons_append,
        sizeOf_append, Nat.add_assoc]

end FromLeft

section FromRight

variable {limit : Option Nat} {stop size : Nat} {found : List Extent}

theorem wordsBefore_gap (hgap : IsGap gap) : wordsBefore limit stop found gap = found := by
  rw [wordsBefore]
  split
  next => rfl
  next hdrop =>
    rw [List.dropWhile_eq_nil_iff.mpr hgap] at hdrop
    cases hdrop

theorem wordsBefore_word (hgap : IsGap gap) (hword : IsSolid word)
    (hrest : ∀ c ∈ rest.head?, isBlank c = true) (hstop : stop = sizeOf (gap ++ (word ++ rest))) :
    wordsBefore limit stop found (gap ++ (word ++ rest)) =
      let extent : Extent := ⟨sizeOf rest, sizeOf rest + sizeOf word⟩
      if limit = some 0 then ⟨0, extent.stop⟩ :: found
      else wordsBefore (limit.map (· - 1)) (sizeOf rest) (extent :: found) rest := by
  obtain ⟨hne, hsolid⟩ := hword
  cases word with
  | nil => exact absurd rfl hne
  | cons c word =>
      obtain ⟨hc, hword⟩ := List.forall_mem_cons.mp hsolid
      obtain ⟨htake, hdrop⟩ := splitGap hgap hc (word ++ rest)
      have hwordStop : stop - sizeOf gap = sizeOf rest + sizeOf (c :: word) := by
        rw [hstop, sizeOf_append, sizeOf_append]
        omega
      rw [List.cons_append, wordsBefore]
      split
      next hnil =>
        rw [hdrop] at hnil
        cases hnil
      next hcons =>
        rw [hdrop] at hcons
        cases hcons
        simp only [htake, takeWord_append hword hrest, beq_iff_eq, hwordStop, Nat.add_sub_cancel]

theorem wordsFrom_reverse_word (hgap : IsGap gap) (hword : IsSolid word)
    (hrest : ∀ c ∈ rest.head?, isBlank c = true) :
    wordsFrom none size 0 (gap ++ (word ++ rest)).reverse =
      wordsFrom none size 0 rest.reverse ++ [⟨sizeOf rest, sizeOf rest + sizeOf word⟩] := by
  have hlast : ∀ c ∈ rest.reverse.getLast?, isBlank c = true := by rwa [List.getLast?_reverse]
  rw [List.reverse_append, List.reverse_append, List.append_assoc,
    wordsFrom_concat hword.reverse hgap.reverse hlast, sizeOf_reverse, sizeOf_reverse,
    Nat.zero_add]

/-- Words from the right are those from the left. -/
theorem wordsBefore_eq (size : Nat) (hstop : stop = sizeOf chars) :
    wordsBefore none stop found chars = wordsFrom none size 0 chars.reverse ++ found := by
  induction spaced chars generalizing stop found with
  | gap hgap => rw [wordsBefore_gap hgap, wordsFrom_gap hgap.reverse, List.nil_append]
  | word hgap hword hrest _ ih =>
      rw [wordsBefore_word hgap hword hrest hstop]
      simp only [reduceCtorEq, if_false, Option.map_none, ih rfl]
      rw [wordsFrom_reverse_word hgap hword hrest, List.append_assoc, List.singleton_append]

theorem wordsBefore_limit (n size : Nat) (hstop : stop = sizeOf chars) :
    wordsBefore (some n) stop found chars =
      let words := wordsFrom none size 0 chars.reverse
      (words.reverse[n]?.map fun word => ⟨0, word.stop⟩).toList ++
        (words.drop (words.length - n) ++ found) := by
  induction spaced chars generalizing n stop found with
  | gap hgap => simp [wordsBefore_gap hgap, wordsFrom_gap hgap.reverse]
  | word hgap hword hrest _ ih =>
      rw [wordsBefore_word hgap hword hrest hstop, wordsFrom_reverse_word hgap hword hrest]
      cases n with
      | zero => simp
      | succ n =>
          simp only [Option.some_inj, Nat.succ_ne_zero, if_false, Option.map_some,
            Nat.add_sub_cancel, ih n rfl, List.reverse_append, List.reverse_singleton,
            List.singleton_append, List.getElem?_cons_succ, List.length_append,
            List.length_singleton, Nat.add_sub_add_right, List.append_assoc,
            List.drop_append_of_le_length (Nat.sub_le _ n)]

end FromRight

/-- Whether characters are a word among others: no blank is in it, and nothing but blanks and the
ends of the text are next to it. -/
structure StandsOut (chars front word behind : List Char) : Prop where
  chars_eq : chars = front ++ (word ++ behind)
  solid : IsSolid word
  before : ∀ c ∈ front.getLast?, isBlank c = true
  after : ∀ c ∈ behind.head?, isBlank c = true

def Extent.IsWord (text : String) (extent : Extent) : Prop :=
  ∃ front word behind, StandsOut text.toList front word behind ∧
    extent = ⟨sizeOf front, sizeOf front + sizeOf word⟩

variable {behind other : List Char}

theorem eq_nil_of_getLast?_blank (hsolid : ∀ c ∈ chars, isBlank c = false)
    (hlast : ∀ c ∈ chars.getLast?, isBlank c = true) : chars = [] := by
  cases hchars : chars.getLast? with
  | none => exact List.getLast?_eq_none_iff.mp hchars
  | some c =>
      have hblank := hlast c hchars
      rw [hsolid c (List.mem_of_getLast? hchars)] at hblank
      cases hblank

theorem eq_nil_of_append_eq_word (hgap : IsGap gap) (hword : IsSolid word)
    (heq : word ++ behind = gap ++ rest) : gap = [] := by
  obtain ⟨hne, hsolid⟩ := hword
  cases gap with
  | nil => rfl
  | cons c gap =>
      cases word with
      | nil => exact absurd rfl hne
      | cons d word =>
          obtain ⟨rfl, -⟩ := List.cons.inj heq
          have hblank := hgap d (.head _)
          rw [hsolid d (.head _)] at hblank
          cases hblank

theorem standsOut_gap (hgap : IsGap chars) : ¬ StandsOut chars front word behind := by
  rintro ⟨rfl, hword, -, -⟩
  obtain ⟨c, hc⟩ := List.exists_mem_of_ne_nil word hword.ne_nil
  have hblank := hgap c (List.mem_append_right _ (List.mem_append_left _ hc))
  rw [hword.noBlank c hc] at hblank
  cases hblank

theorem standsOut_word (hgap : IsGap gap) (hword : IsSolid word)
    (hrest : ∀ c ∈ rest.head?, isBlank c = true) :
    StandsOut (gap ++ (word ++ rest)) front other behind ↔
      (front = gap ∧ other = word ∧ behind = rest) ∨
        ∃ between, front = gap ++ (word ++ between) ∧ StandsOut rest between other behind := by
  constructor
  · rintro ⟨hchars, hother, hbefore, hafter⟩
    have hfirst (heq : other ++ behind = word ++ rest) : other = word ∧ behind = rest := by
      have htaken := takeWord_append hother.noBlank hafter
      rw [heq, takeWord_append hword.noBlank hrest] at htaken
      exact ⟨(congrArg Prod.fst htaken).symm, (congrArg Prod.snd htaken).symm⟩
    rcases List.append_eq_append_iff.mp hchars with
      ⟨middle, rfl, hword'⟩ | ⟨left, rfl, hother'⟩
    · rcases List.append_eq_append_iff.mp hword' with
        ⟨between, rfl, hrest'⟩ | ⟨left, rfl, hother'⟩
      · refine .inr ⟨between, rfl, hrest', hother, fun c hc => hbefore c ?_, hafter⟩
        have hne := List.ne_nil_of_mem (List.mem_of_getLast? hc)
        rwa [List.getLast?_append_of_ne_nil _ (List.append_ne_nil_of_right_ne_nil _ hne),
          List.getLast?_append_of_ne_nil _ hne]
      · -- What is in front of a word ends with a blank, so no part of the first word is.
        have hnil : middle = [] := by
          refine eq_nil_of_getLast?_blank
            (fun c hc => hword.noBlank c (List.mem_append_left _ hc)) fun c hc => hbefore c ?_
          rwa [List.getLast?_append_of_ne_nil _ (List.ne_nil_of_mem (List.mem_of_getLast? hc))]
        subst hnil
        rw [List.append_nil]
        exact .inl ⟨rfl, hfirst hother'⟩
    · have hnil : left = [] := eq_nil_of_append_eq_word
        (fun c hc => hgap c (List.mem_append_right _ hc)) hother hother'
      subst hnil
      rw [List.append_nil]
      exact .inl ⟨rfl, hfirst hother'⟩
  · rintro (⟨rfl, rfl, rfl⟩ | ⟨between, rfl, hrest', hother, hbefore, hafter⟩)
    · exact ⟨rfl, hword, fun c hc => hgap c (List.mem_of_getLast? hc), hrest⟩
    · refine ⟨by rw [hrest', List.append_assoc, List.append_assoc], hother, ?_, hafter⟩
      have hne : between ≠ [] := by
        -- The rest begins with a blank and not with a word.
        rintro rfl
        obtain ⟨c, other, rfl⟩ := List.exists_cons_of_ne_nil hother.ne_nil
        have hblank := hrest c (by rw [hrest']; rfl)
        rw [hother.noBlank c (.head _)] at hblank
        cases hblank
      rwa [List.getLast?_append_of_ne_nil _ (List.append_ne_nil_of_right_ne_nil _ hne),
        List.getLast?_append_of_ne_nil _ hne]

theorem mem_wordsFrom {stop offset : Nat} {extent : Extent} :
    extent ∈ wordsFrom none stop offset chars ↔
      ∃ front word behind, StandsOut chars front word behind ∧
        extent = ⟨offset + sizeOf front, offset + sizeOf front + sizeOf word⟩ := by
  induction spaced chars generalizing offset with
  | gap hgap =>
      simp only [wordsFrom_gap hgap, List.not_mem_nil, standsOut_gap hgap, false_and, exists_false]
  | @word gap word rest hgap hword hrest _ ih =>
      rw [wordsFrom_word hgap hword hrest]
      simp only [reduceCtorEq, if_false, Option.map_none, List.mem_cons, ih,
        standsOut_word hgap hword hrest]
      constructor
      · rintro (rfl | ⟨between, other, behind, hother, rfl⟩)
        · exact ⟨gap, word, rest, .inl ⟨rfl, rfl, rfl⟩, rfl⟩
        · refine ⟨_, other, behind, .inr ⟨between, rfl, hother⟩, ?_⟩
          simp only [sizeOf_append, Nat.add_assoc]
      · rintro ⟨front, other, behind, ⟨rfl, rfl, rfl⟩ | ⟨between, rfl, hother⟩, rfl⟩
        · exact .inl rfl
        · refine .inr ⟨between, other, behind, hother, ?_⟩
          simp only [sizeOf_append, Nat.add_assoc]

theorem mem_splitWords {text : String} {extent : Extent} :
    extent ∈ splitWords none text ↔ extent.IsWord text := by
  simp only [splitWords, mem_wordsFrom, Extent.IsWord, Nat.zero_add]

theorem splitWordsFromRight_eq (text : String) :
    splitWordsFromRight none text = splitWords none text := by
  rw [splitWordsFromRight, wordsBefore_eq text.utf8ByteSize, List.reverse_reverse,
    List.append_nil, splitWords]
  rw [sizeOf_reverse, sizeOf_toList]

/-- The pieces of a text from either end when no more than `n` of its words are cut off: what is left
over is one piece. -/
structure StopsAfter (text : String) (n : Nat) (words left right : List Extent) : Prop where
  length_left : left.length = min (n + 1) words.length
  length_right : right.length = min (n + 1) words.length
  left_words : left.take (min n words.length) = words.take (min n words.length)
  left_rest : ∀ h : n < words.length, left.getLast? = some ⟨words[n].start, text.utf8ByteSize⟩
  right_words : right.drop (right.length - min n words.length) =
    words.drop (words.length - min n words.length)
  right_rest : ∀ h : n < words.length,
    right.head? = some ⟨0, words[words.length - 1 - n].stop⟩

theorem stopsAfter_of_lt {text : String} {n : Nat} {words : List Extent} (hn : n < words.length) :
    StopsAfter text n words (words.take n ++ [⟨words[n].start, text.utf8ByteSize⟩])
      (⟨0, words[words.length - 1 - n].stop⟩ :: words.drop (words.length - n)) where
  length_left := by
    rw [List.length_append, List.length_take, List.length_singleton]
    omega
  length_right := by
    rw [List.length_cons, List.length_drop]
    omega
  left_words := by
    rw [Nat.min_eq_left (Nat.le_of_lt hn), List.take_append_of_le_length (by simp; omega),
      List.take_take, Nat.min_self]
  left_rest _ := List.getLast?_concat
  right_words := by
    have hfirst : (words.drop (words.length - n)).length + 1 - n = 1 := by
      rw [List.length_drop]
      omega
    rw [Nat.min_eq_left (Nat.le_of_lt hn), List.length_cons, hfirst, List.drop_one, List.tail_cons]
  right_rest _ := rfl

theorem stopsAfter_of_le {text : String} {n : Nat} {words : List Extent} (hn : words.length ≤ n) :
    StopsAfter text n words words words where
  length_left := (Nat.min_eq_right (Nat.le_succ_of_le hn)).symm
  length_right := (Nat.min_eq_right (Nat.le_succ_of_le hn)).symm
  left_words := rfl
  left_rest h := absurd hn (Nat.not_le_of_lt h)
  right_words := rfl
  right_rest h := absurd hn (Nat.not_le_of_lt h)

theorem stopsAfter_splitWords (text : String) (n : Nat) :
    StopsAfter text n (splitWords none text) (splitWords (some n) text)
      (splitWordsFromRight (some n) text) := by
  have hright := @wordsBefore_limit text.toList.reverse text.utf8ByteSize [] n text.utf8ByteSize
    (by rw [sizeOf_reverse, sizeOf_toList])
  dsimp only at hright
  rw [List.reverse_reverse, List.append_nil] at hright
  rw [splitWords, splitWords, splitWordsFromRight, wordsFrom_limit, hright]
  generalize wordsFrom none text.utf8ByteSize 0 text.toList = words
  rcases Nat.lt_or_ge n words.length with hn | hn
  · have hlast : words.reverse[n]? = some words[words.length - 1 - n] := by
      rw [List.getElem?_reverse hn]
      exact List.getElem?_eq_getElem _
    rw [List.getElem?_eq_getElem hn, hlast]
    exact stopsAfter_of_lt hn
  · rw [List.take_of_length_le hn, List.getElem?_eq_none hn,
      List.getElem?_eq_none (by rwa [List.length_reverse]), Nat.sub_eq_zero_of_le hn]
    simpa using stopsAfter_of_le hn

theorem length_wordsFrom_le (limit : Option Nat) (stop offset : Nat) (chars : List Char) :
    (wordsFrom limit stop offset chars).length ≤ sizeOf chars := by
  induction spaced chars generalizing limit offset with
  | gap hgap =>
      rw [wordsFrom_gap hgap]
      exact Nat.zero_le _
  | @word gap word rest hgap hword hrest _ ih =>
      have hpositive : 0 < sizeOf word :=
        Nat.pos_of_ne_zero fun hzero => hword.ne_nil (eq_nil_of_sizeOf_eq_zero hzero)
      rw [wordsFrom_word hgap hword hrest, sizeOf_append, sizeOf_append]
      dsimp only
      split
      · rw [List.length_singleton]
        omega
      · have hle := ih (limit.map (· - 1)) (offset + sizeOf gap + sizeOf word)
        rw [List.length_cons]
        omega

theorem length_splitWords_le (limit : Option Nat) (text : String) :
    (splitWords limit text).length ≤ text.utf8ByteSize := by
  rw [splitWords, ← sizeOf_toList]
  exact length_wordsFrom_le limit _ 0 _

theorem length_splitWordsFromRight (limit : Option Nat) (text : String) :
    (splitWordsFromRight limit text).length = (splitWords limit text).length := by
  cases limit with
  | none => rw [splitWordsFromRight_eq]
  | some n =>
      have hstops := stopsAfter_splitWords text n
      rw [hstops.length_left, hstops.length_right]

end Text

namespace ListColumn

open Text (StopsAfter splitWords splitWordsFromRight)
open Transform (pieceTexts)

/-- Without a separator a text is cut into its words, whichever end the cutting starts from.  A limit
stops it where another word is left, and what is not cut off is kept as it is. -/
theorem splits_at_blanks :
    (∀ text,
      let words := splitWords none text
      splitWordsFromRight none text = words ∧ Text.Ascending words ∧
        (∀ extent, extent ∈ words ↔ extent.IsWord text) ∧
        ∀ n, StopsAfter text n words (splitWords (some n) text)
          (splitWordsFromRight (some n) text)) ∧
    ∀ store : Store, store.Valid → ∀ limit,
      (store.size ≤ Matching.maxRows →
        (∃ left, split store none limit = .ok left) ∧
          ∃ right, splitFromRight store none limit = .ok right) ∧
      ∀ left right, split store none limit = .ok left →
        splitFromRight store none limit = .ok right →
          ∀ row text, store.text? row = some text →
            left.row? row = some (pieceTexts text (splitWords limit text)) ∧
              right.row? row = some (pieceTexts text (splitWordsFromRight limit text)) := by
  refine ⟨fun text => ⟨Text.splitWordsFromRight_eq text, (Text.ascending_wordsFrom ..).1,
    fun extent => Text.mem_splitWords, Text.stopsAfter_splitWords text⟩,
    fun store hvalid limit => ⟨fun hsize => ?_, ?_⟩⟩
  · have hlength (text : String) :
        (pieceTexts text (splitWords limit text)).length ≤ text.utf8ByteSize + 1 := by
      rw [pieceTexts, List.length_map]
      exact Nat.le_succ_of_le (Text.length_splitWords_le limit text)
    have hlength' (text : String) :
        (pieceTexts text (splitWordsFromRight limit text)).length ≤ text.utf8ByteSize + 1 := by
      rw [pieceTexts, List.length_map, Text.length_splitWordsFromRight]
      exact Nat.le_succ_of_le (Text.length_splitWords_le limit text)
    exact ⟨exists_pieces hvalid hsize hlength, exists_pieces hvalid hsize hlength'⟩
  · intro left right hleft hright row text htext
    have hblanks : none ≠ some "" := (Option.some_ne_none "").symm
    exact ⟨row?_of_text? hvalid (fun _ _ => Text.Cut.within_of_mem_pieces hblanks) hleft htext,
      row?_of_text? hvalid (fun _ _ => Text.Cut.within_of_mem_piecesFromRight hblanks) hright htext⟩

theorem splits_at_blanks_limited :
    let text := " a\u3000bä c "
    ∃ (store : Store) (left right : ListColumn), store.Valid ∧ store.size ≤ Matching.maxRows ∧
      store.texts.toList = [some text, none] ∧ store.text? 0 = some text ∧
      split store none (some 1) = .ok left ∧ splitFromRight store none (some 1) = .ok right ∧
      left.row? 0 = some ["a", "bä c "] ∧ right.row? 0 = some [" a\u3000bä", "c"] ∧
      StopsAfter text 1 [⟨1, 2⟩, ⟨5, 8⟩, ⟨9, 10⟩] [⟨1, 2⟩, ⟨5, 11⟩] [⟨0, 8⟩, ⟨9, 10⟩] := by
  intro text
  have hwords : splitWords none text = [⟨1, 2⟩, ⟨5, 8⟩, ⟨9, 10⟩] := by decide +kernel
  have hpieces : splitWords (some 1) text = [⟨1, 2⟩, ⟨5, 11⟩] := by decide +kernel
  have hothers : splitWordsFromRight (some 1) text = [⟨0, 8⟩, ⟨9, 10⟩] := by decide +kernel
  have hfits : FitsLimits [some text, none] := fitsLimits_of_total (by decide)
  obtain ⟨store, hbuild⟩ := Store.ofTexts_ok_iff.mpr hfits
  have htexts := Store.texts_ofTexts hbuild
  have hvalid : store.Valid := Store.valid_of_build hbuild
  have hsize : store.size ≤ Matching.maxRows := by
    rw [← Store.size_texts, ← Array.length_toList, htexts]
    decide
  have htext : store.text? 0 = some text := by
    rw [← Store.texts_getElem?, htexts]
    rfl
  obtain ⟨hall, hstores⟩ := splits_at_blanks
  obtain ⟨hbuilt, hrows⟩ := hstores store hvalid (some 1)
  obtain ⟨⟨left, hleft⟩, right, hright⟩ := hbuilt hsize
  obtain ⟨hleftRow, hrightRow⟩ := hrows left right hleft hright 0 text htext
  obtain ⟨-, -, -, hstops⟩ := hall text
  have hstop := hstops 1
  rw [hwords, hpieces, hothers] at hstop
  rw [hpieces] at hleftRow
  rw [hothers] at hrightRow
  refine ⟨store, left, right, hvalid, hsize, htexts, htext, hleft, hright, hleftRow.trans ?_,
    hrightRow.trans ?_, hstop⟩
  · decide +kernel
  · decide +kernel

end ListColumn

end TextColumns
