import TextColumns.Proofs.Pattern.Reader

/-!
What a reader leaves of a text is a suffix of it, so whatever is read stands in the text.
-/

namespace TextColumns.Pattern

variable {input after : Input}

theorem Input.tail_suffix (input : Input) : input.tail.rest <:+ input.rest := by
  fun_cases Input.tail input with
  | case1 => exact List.suffix_refl _
  | case2 c rest hrest =>
      rw [hrest]
      exact List.suffix_cons c rest

theorem Input.eat_suffix (input : Input) (c : Char) : (input.eat c).2.rest <:+ input.rest := by
  unfold Input.eat
  split
  · exact input.tail_suffix
  · exact List.suffix_refl _

theorem takeDigits_suffix (rest : List Char) (offset : Nat) :
    (Input.takeDigits rest offset).2.rest <:+ rest := by
  induction rest generalizing offset with
  | nil => exact List.suffix_refl _
  | cons c rest ih =>
      rw [Input.takeDigits]
      split
      · exact (ih _).trans (List.suffix_cons c rest)
      · exact List.suffix_refl _

theorem suffix_of_readBound {opened bound : Nat}
    (hread : readBound opened input = .ok (bound, after)) : after.rest <:+ input.rest := by
  have hdigits := takeDigits_suffix input.rest input.offset
  revert hread
  fun_cases readBound opened input with
  | case1 | case2 | case3 => intro hread; cases hread
  | case4 digits next htaken =>
      intro hread
      obtain ⟨-, rfl⟩ := Prod.mk.inj (Except.ok.inj hread)
      rwa [htaken] at hdigits

theorem suffix_of_readUpper {opened min : Nat} {max : Option Nat}
    (hread : readUpper opened min input = .ok (max, after)) : after.rest <:+ input.rest := by
  have hcomma := input.eat_suffix ','
  revert hread
  fun_cases readUpper opened min input with
  | case1 =>
      intro hread
      cases hread
      exact List.suffix_refl _
  | case2 next heat =>
      intro hread
      cases hread
      rwa [heat] at hcomma
  | case3 => intro hread; cases hread
  | case4 next heat hclosing max last hbound =>
      intro hread
      cases hread
      rw [heat] at hcomma
      exact (suffix_of_readBound hbound).trans hcomma

theorem suffix_of_readBraces {opened : Nat} {bounds : Nat × Option Nat}
    (hread : readBraces opened input = .ok (bounds, after)) : after.rest <:+ input.rest := by
  revert hread
  fun_cases readBraces opened input with
  | case1 | case2 | case3 | case4 => intro hread; cases hread
  | case5 min next hmin max last hmax behind heat =>
      intro hread
      cases hread
      have hclose := last.eat_suffix '\x7d'
      rw [heat] at hclose
      exact hclose.trans ((suffix_of_readUpper hmax).trans (suffix_of_readBound hmin))

theorem suffix_of_readRepeater {kind : Repeater} {position : Nat} {bounds : Nat × Option Nat}
    (hread : readRepeater kind position input = .ok (bounds, after)) :
    after.rest <:+ input.rest := by
  cases kind with
  | star | plus | optional =>
      cases hread
      exact List.suffix_refl _
  | braces => exact suffix_of_readBraces hread

theorem suffix_of_readOpening {position groups : Nat} {kind : Option Nat × Nat}
    (hread : readOpening position groups input = .ok (kind, after)) :
    after.rest <:+ input.rest := by
  revert hread
  fun_cases readOpening position groups input with
  | case1 =>
      intro hread
      cases hread
      exact input.tail.tail_suffix.trans input.tail_suffix
  | case2 | case3 => intro hread; cases hread
  | case4 =>
      intro hread
      cases hread
      exact List.suffix_refl _

theorem suffix_of_readHex {position : Nat} {escape : Escape}
    (hread : readHex position input = .ok (escape, after)) : after.rest <:+ input.rest := by
  revert hread
  fun_cases readHex position input with
  | case1 =>
      intro hread
      cases hread
      exact input.tail.tail_suffix.trans input.tail_suffix
  | case2 | case3 => intro hread; cases hread

theorem suffix_of_readEscape {position : Nat} {escape : Escape}
    (hread : readEscape position input = .ok (escape, after)) : after.rest <:+ input.rest := by
  revert hread
  fun_cases readEscape position input with
  | case1 | case4 => intro hread; cases hread
  | case2 => exact fun hread => (suffix_of_readHex hread).trans input.tail_suffix
  | case3 =>
      intro hread
      cases hread
      exact input.tail_suffix

theorem suffix_of_readMember {member : Member} (hread : readMember input = .ok (member, after)) :
    after.rest <:+ input.rest := by
  revert hread
  fun_cases readMember input with
  | case1 | case2 | case5 => intro hread; cases hread
  | case3 rest hrest c next hescape | case4 rest hrest set next hescape =>
      intro hread
      cases hread
      exact (suffix_of_readEscape hescape).trans input.tail_suffix
  | case6 =>
      intro hread
      cases hread
      exact input.tail_suffix

theorem suffix_of_readItem {ranges : List CodeRange}
    (hread : readItem input = .ok (ranges, after)) : after.rest <:+ input.rest := by
  revert hread
  fun_cases readItem input with
  | case1 | case3 | case4 | case5 => intro hread; cases hread
  | case2 members next hmember =>
      intro hread
      cases hread
      exact suffix_of_readMember hmember
  | case6 low next hlow hrange high last hhigh =>
      intro hread
      cases hread
      exact (suffix_of_readMember hhigh).trans
        (next.tail_suffix.trans (suffix_of_readMember hlow))
  | case7 low next hlow =>
      intro hread
      cases hread
      exact suffix_of_readMember hlow

theorem suffix_of_readItems {opened : Nat} {first : Bool} {found ranges : List CodeRange}
    (hread : readItems opened first input found = .ok (ranges, after)) :
    after.rest <:+ input.rest := by
  fun_induction readItems opened first input found with
  | case1 => cases hread
  | case2 first input =>
      cases hread
      exact input.tail_suffix
  | case3 => cases hread
  | case4 _ _ _ _ _ _ _ _ _ hitem _ ih => exact (ih hread).trans (suffix_of_readItem hitem)

theorem suffix_of_readClass {opened : Nat} {set : CodeSet}
    (hread : readClass opened input = .ok (set, after)) : after.rest <:+ input.rest := by
  revert hread
  fun_cases readClass opened input with
  | case1 => intro hread; cases hread
  | case2 negation ranges next hitems =>
      intro hread
      cases hread
      exact (suffix_of_readItems hitems).trans (input.eat_suffix '^')

theorem suffix_of_readAtom {c : Char} {position : Nat} {node : Node}
    (hread : readAtom c position input = .ok (node, after)) : after.rest <:+ input.rest := by
  revert hread
  fun_cases readAtom c position input with
  | case1 | case3 => intro hread; cases hread
  | case2 set next hclass =>
      intro hread
      cases hread
      exact suffix_of_readClass hclass
  | case4 c next hescape | case5 set next hescape | case6 a next hescape =>
      intro hread
      cases hread
      exact suffix_of_readEscape hescape
  | case7 | case8 | case9 | case10 =>
      intro hread
      cases hread
      exact List.suffix_refl _

theorem suffix_of_readFlagLetters {flags found : Flags} {offset : Nat} {letters : List Char}
    (hread : readFlagLetters flags offset letters = .ok (found, after)) :
    after.rest <:+ letters := by
  fun_induction readFlagLetters flags offset letters with
  | case1 => cases hread
  | case2 _ _ rest ih | case3 _ _ rest ih | case4 _ _ rest ih =>
      exact (ih hread).trans (List.suffix_cons _ rest)
  | case5 _ _ c rest =>
      cases hread
      exact List.suffix_cons c rest
  | case6 => cases hread

theorem suffix_of_readFlags {flags : Flags} (hread : readFlags input = .ok (flags, after)) :
    after.rest <:+ input.rest := by
  revert hread
  fun_cases readFlags input with
  | case1 | case3 =>
      intro hread
      cases hread
      exact List.suffix_refl _
  | case2 rest hplain hrest =>
      intro hread
      rw [hrest]
      exact (suffix_of_readFlagLetters hread).trans
        ((List.suffix_cons '?' rest).trans (List.suffix_cons '(' _))

end TextColumns.Pattern
