import TextColumns.Proofs.Pattern.Descent
import TextColumns.Proofs.Pattern.Reader
import TextColumns.Proofs.Text.Boundary

/-!
Readers by bytes that follow the reader by characters.  Wherever they begin between two characters,
they cut the text nowhere else, find the same, and go on from the same place.
-/

namespace TextColumns.Pattern

open Text (Cursor IsBoundary)

/-- Whether an input is what is left of a text from some place on. -/
def Input.On (text : String) (input : Input) : Prop :=
  ∃ passed, text.toList = passed ++ input.rest ∧ input.offset = Text.sizeOf passed

namespace Input

variable {text : String} {input : Input} {c : Char} {rest : List Char}

theorem on_ofString (text : String) : (Input.ofString text).On text :=
  ⟨[], rfl, rfl⟩

theorem On.tail (hon : input.On text) : input.tail.On text := by
  cases hrest : input.rest with
  | nil =>
      rw [Input.tail, hrest]
      exact hon
  | cons c rest =>
      obtain ⟨passed, htext, hoffset⟩ := hon
      rw [tail_eq hrest]
      refine ⟨passed ++ [c], by rw [htext, hrest, List.append_assoc]; rfl, ?_⟩
      rw [Text.sizeOf_append, hoffset]
      rfl

theorem On.isBoundary (hon : input.On text) : IsBoundary text input.offset := by
  obtain ⟨passed, htext, hoffset⟩ := hon
  rw [hoffset]
  exact Text.isBoundary_of_append htext

theorem On.length_le (hon : input.On text) : input.rest.length ≤ text.length := by
  obtain ⟨passed, htext, -⟩ := hon
  rw [← String.length_toList, htext, List.length_append]
  exact Nat.le_add_left _ _

theorem On.at? (hon : input.On text) :
    ∃ cursor, Cursor.at? text input.offset = some cursor ∧ cursor.rest = input.rest := by
  obtain ⟨passed, htext, hoffset⟩ := hon
  exact ⟨⟨input.offset, passed.getLast?, input.rest⟩,
    Cursor.at?_eq_some_iff.mpr ⟨⟨passed, htext, hoffset, rfl⟩, rfl⟩, rfl⟩

end Input

def boundFrom (n : Nat) (digits : List Char) : Nat :=
  digits.foldl (fun n c => min (10 * n + digitValue c) (maxBoundText + 1)) n

theorem boundValue_eq_boundFrom (digits : List Char) : boundValue digits = boundFrom 0 digits :=
  rfl

theorem boundFrom_overflow (digits : List Char) :
    boundFrom (maxBoundText + 1) digits = maxBoundText + 1 := by
  induction digits with
  | nil => rfl
  | cons c digits ih =>
      have hstep : min (10 * (maxBoundText + 1) + digitValue c) (maxBoundText + 1) =
          maxBoundText + 1 := by omega
      rw [boundFrom, List.foldl_cons, hstep]
      exact ih

theorem utf8Size_of_isDigit {c : Char} (hc : c.isDigit = true) : c.utf8Size = 1 := by
  rw [Char.utf8Size_eq_one_iff]
  simp only [Char.isDigit, Bool.and_eq_true, decide_eq_true_eq] at hc
  exact UInt32.le_trans hc.2 (by decide)

theorem offset_takeDigits (rest : List Char) (offset : Nat) :
    (Input.takeDigits rest offset).2.offset =
      offset + (Input.takeDigits rest offset).1.length := by
  induction rest generalizing offset with
  | nil => rfl
  | cons c rest ih =>
      rw [Input.takeDigits]
      split
      · rw [ih, List.length_cons]
        omega
      · rfl

theorem utf8Size_of_hexValue? {c : Char} {x : Nat} (hc : hexValue? c = some x) :
    c.utf8Size = 1 := by
  have hbelow {d : Char} (hd : d ≤ 'f') : c ≤ d → c.utf8Size = 1 := fun hle =>
    Char.utf8Size_eq_one_iff.mpr (UInt32.le_trans (Char.le_trans hle hd) (by decide))
  revert hc
  fun_cases hexValue? c with
  | case1 hdigit => exact fun _ => utf8Size_of_isDigit hdigit
  | case2 _ hlower =>
      simp only [Bool.and_eq_true, decide_eq_true_eq] at hlower
      exact fun _ => hbelow (Char.le_refl _) hlower.2
  | case3 _ _ hupper =>
      simp only [Bool.and_eq_true, decide_eq_true_eq] at hupper
      exact fun _ => hbelow (by decide) hupper.2
  | case4 => intro hc; cases hc

/-- What is read of an escape that may be no assertion in a class. -/
def withoutAssertion (inClass : Bool) (position : Nat) : Reads Escape → Reads Escape
  | .ok (.assertion a, after) =>
    if inClass then malformed position .assertionInClass else .ok (.assertion a, after)
  | .ok (.char c, after) => .ok (.char c, after)
  | .ok (.set set, after) => .ok (.set set, after)
  | .error e => .error e

theorem withoutAssertion_readHex (inClass : Bool) (position start : Nat) (input : Input) :
    withoutAssertion inClass position (readHex start input) = readHex start input := by
  unfold readHex
  split
  · split <;> rfl
  · rfl

namespace Reading

theorem part?_cons {bytes : Nat} (hbytes : 0 < bytes) (c : Char) (rest : List Char) :
    part? bytes (c :: rest) =
      if bytes < c.utf8Size then none else (part? (bytes - c.utf8Size) rest).map (c :: ·) := by
  cases bytes with
  | zero => exact absurd hbytes (Nat.lt_irrefl _)
  | succ bytes => rfl

theorem hexChar?_part?_single (c : Char) : (part? 2 [c]).bind hexChar? = none := by
  have hpos := c.utf8Size_pos
  rw [part?_cons (by decide)]
  by_cases hlarge : 2 < c.utf8Size
  · rw [if_pos hlarge]
    rfl
  · rw [if_neg hlarge]
    obtain hone | htwo : 2 - c.utf8Size = 1 ∨ 2 - c.utf8Size = 0 := by omega
    · rw [hone]
      rfl
    · rw [htwo]
      rfl

/-- Two bytes are hexadecimal digits only if they are two characters. -/
theorem hexChar?_part?_cons (a b : Char) (rest : List Char) :
    (part? 2 (a :: b :: rest)).bind hexChar? = hexChar? [a, b] := by
  have hwide {c : Char} (hc : c.utf8Size ≠ 1) : hexValue? c = none :=
    Option.eq_none_iff_forall_ne_some.mpr fun x hx => hc (utf8Size_of_hexValue? hx)
  have hpos := a.utf8Size_pos
  have hposNext := b.utf8Size_pos
  rw [part?_cons (by decide)]
  by_cases ha : a.utf8Size = 1
  · rw [ha, if_neg (by decide), part?_cons (by decide)]
    by_cases hb : b.utf8Size = 1
    · rw [hb, if_neg (by decide), show 2 - 1 - 1 = 0 from rfl, part?]
      rfl
    · rw [if_pos (by omega)]
      simp [hexChar?, hwide hb]
  · have hnone : hexChar? [a, b] = none := by simp [hexChar?, hwide ha]
    rw [hnone]
    by_cases hlarge : 2 < a.utf8Size
    · rw [if_pos hlarge]
      rfl
    · rw [if_neg hlarge, show 2 - a.utf8Size = 0 by omega, part?]
      rfl

variable {α β : Type} {text : String} {input after : Input} {e : Malformed} {a : α}

theorem bind_ok {reading : Reading α} {next : α → Reading β} {place further : Place}
    (hread : reading place = some (.ok (a, further))) :
    (reading >>= next) place = next a further := by
  show Reading.bind reading next place = _
  rw [Reading.bind, hread]

theorem bind_error {reading : Reading α} {next : α → Reading β} {place : Place}
    (hread : reading place = some (.error e)) : (reading >>= next) place = some (.error e) := by
  show Reading.bind reading next place = _
  rw [Reading.bind, hread]

/-- Whether a reading finds, whatever groups there are, what has been read. -/
def Follows (text : String) (reading : Reading α) (input : Input) : Reads α → Prop
  | .error e => IsBoundary text e.position ∧
      ∀ groups depth, reading ⟨input.offset, groups, depth⟩ = some (.error e)
  | .ok (a, after) => after.On text ∧
      ∀ groups depth, reading ⟨input.offset, groups, depth⟩ =
        some (.ok (a, ⟨after.offset, groups, depth⟩))

namespace Follows

theorem bind {reading : Reading α} {next : α → Reading β} {read : Reads β}
    (hfirst : Follows text reading input (.ok (a, after)))
    (hnext : after.On text → Follows text (next a) after read) :
    Follows text (reading >>= next) input read := by
  obtain ⟨hon, hfirst⟩ := hfirst
  have hnext := hnext hon
  match read, hnext with
  | .error e, ⟨hboundary, hnext⟩ =>
      exact ⟨hboundary, fun groups depth => (bind_ok (hfirst groups depth)).trans (hnext _ _)⟩
  | .ok (b, last), ⟨hlast, hnext⟩ =>
      exact ⟨hlast, fun groups depth => (bind_ok (hfirst groups depth)).trans (hnext _ _)⟩

theorem error {reading : Reading α} (next : α → Reading β)
    (hfirst : Follows text reading input (.error e)) :
    Follows text (reading >>= next) input (.error e) :=
  ⟨hfirst.1, fun groups depth => bind_error (hfirst.2 groups depth)⟩

theorem pure (hon : input.On text) (a : α) :
    Follows text (Pure.pure a : Reading α) input (.ok (a, input)) :=
  ⟨hon, fun _ _ => rfl⟩

theorem fail {position : Nat} (hposition : IsBoundary text position) (fault : Fault) :
    Follows text (Reading.fail position fault : Reading α) input (malformed position fault) :=
  ⟨hposition, fun _ _ => rfl⟩

theorem offset (hon : input.On text) :
    Follows text Reading.offset input (.ok (input.offset, input)) :=
  ⟨hon, fun _ _ => rfl⟩

theorem back (hon : input.On text) {other : Input} :
    Follows text (change fun place => { place with offset := input.offset }) other
      (.ok ((), input)) :=
  ⟨hon, fun _ _ => rfl⟩

theorem ahead (hon : input.On text) :
    Follows text (ahead text) input (.ok (input.rest, input)) := by
  refine ⟨hon, fun groups depth => ?_⟩
  obtain ⟨cursor, hcursor, hrest⟩ := hon.at?
  rw [Reading.ahead, hcursor, Option.map_some, hrest]

theorem peek (hon : input.On text) :
    Follows text (peek text) input (.ok (input.rest.head?, input)) :=
  (ahead hon).bind fun hon => pure hon _

theorem peekAt (hon : input.On text) (skip : Nat) :
    Follows text (peekAt text skip) input (.ok (input.rest[skip]?, input)) :=
  (ahead hon).bind fun hon => pure hon _

theorem advance (hon : input.On text) {c : Char} {rest : List Char} (hrest : input.rest = c :: rest)
    {bytes : Nat} (hbytes : bytes = c.utf8Size) :
    Follows text (advance bytes) input (.ok ((), input.tail)) := by
  refine ⟨hon.tail, fun groups depth => ?_⟩
  rw [Input.tail_eq hrest, hbytes]
  rfl

theorem advance_two (hon : input.On text) {c d : Char} {rest : List Char}
    (hrest : input.rest = c :: d :: rest) (hc : c.utf8Size = 1) (hd : d.utf8Size = 1) :
    Follows text (Reading.advance 2) input (.ok ((), input.tail.tail)) := by
  refine ⟨hon.tail.tail, fun groups depth => ?_⟩
  rw [Input.tail_eq hrest, Input.tail_eq rfl, hc, hd]
  rfl

theorem bump (hon : input.On text) {c : Char} {rest : List Char} (hrest : input.rest = c :: rest) :
    Follows text (bump text) input (.ok (some c, input.tail)) := by
  have hpeek := peek hon
  rw [hrest] at hpeek
  exact hpeek.bind fun hon => (advance hon hrest rfl).bind fun hon => pure hon _

theorem bump_end (hon : input.On text) (hrest : input.rest = []) :
    Follows text (Reading.bump text) input (.ok (none, input)) := by
  have hpeek := peek hon
  rw [hrest] at hpeek
  exact hpeek.bind fun hon => pure hon _

theorem eat (hon : input.On text) (c : Char) :
    Follows text (eat text c) input (.ok (input.eat c)) := by
  refine (peek hon).bind fun hon => ?_
  unfold Input.eat
  cases hhead : input.rest.head? == some c with
  | true =>
      obtain ⟨rest, hrest⟩ := List.head?_eq_some_iff.mp (eq_of_beq hhead)
      exact (advance hon hrest rfl).bind fun hon => pure hon true
  | false => exact pure hon false

theorem digits (hon : input.On text) {start : Nat} (hstart : IsBoundary text start)
    {rounds n : Nat} (hrounds : input.rest.length < rounds) (hn : n ≤ maxBoundText) :
    Follows text (digits text start rounds n) input
      (if maxBoundText < boundFrom n (Input.takeDigits input.rest input.offset).1 then
        malformed start .boundOverflow
      else .ok (boundFrom n (Input.takeDigits input.rest input.offset).1,
        (Input.takeDigits input.rest input.offset).2)) := by
  induction rounds generalizing input n with
  | zero => exact absurd hrounds (Nat.not_lt_zero _)
  | succ rounds ih =>
      refine (peek hon).bind fun hon => ?_
      obtain ⟨_ | ⟨c, rest⟩, offset⟩ := input
      · rw [Input.takeDigits, boundFrom, List.foldl_nil, if_neg (Nat.not_lt.mpr hn)]
        exact pure hon n
      · rw [Input.takeDigits]
        cases hc : c.isDigit with
        | false =>
            rw [List.head?_cons, Option.filter_some_neg (by simp [hc])]
            rw [if_neg Bool.false_ne_true, boundFrom, List.foldl_nil, if_neg (Nat.not_lt.mpr hn)]
            exact pure hon n
        | true =>
            have hone := utf8Size_of_isDigit hc
            have hlength : rest.length < rounds := Nat.lt_of_succ_lt_succ hrounds
            rw [List.head?_cons, Option.filter_some_pos hc, if_pos rfl]
            refine (advance hon rfl hone.symm).bind fun hon => ?_
            have hnext : Input.tail ⟨c :: rest, offset⟩ = ⟨rest, offset + 1⟩ := by
              rw [Input.tail_eq rfl, hone]
            rw [hnext] at hon ⊢
            dsimp only
            rw [boundFrom, List.foldl_cons]
            -- The reader stops at the digit that makes the bound too large; the value of all of
            -- the digits is then cut off where bounds are no longer told apart.
            by_cases hover : maxBoundText < 10 * n + digitValue c
            · have hstep : min (10 * n + digitValue c) (maxBoundText + 1) = maxBoundText + 1 := by
                omega
              have hvalue := boundFrom_overflow (Input.takeDigits rest (offset + 1)).1
              rw [boundFrom] at hvalue
              rw [if_pos hover, hstep, hvalue, if_pos (Nat.lt_succ_self _)]
              exact fail hstart _
            · have hstep :
                  min (10 * n + digitValue c) (maxBoundText + 1) = 10 * n + digitValue c := by
                omega
              rw [if_neg hover, hstep]
              exact ih hon hlength (Nat.le_of_not_lt hover)

theorem bound (hon : input.On text) {start : Nat} (hstart : IsBoundary text start) :
    Follows text (bound text start) input (readBound start input) := by
  have hrounds : input.rest.length < text.length + 1 := Nat.lt_succ_of_le hon.length_le
  have hdigits := digits hon hstart hrounds (Nat.zero_le _)
  have hnone : ((Input.takeDigits input.rest input.offset).2.offset == input.offset) =
      (Input.takeDigits input.rest input.offset).1.isEmpty := by
    rw [offset_takeDigits, Bool.eq_iff_iff, beq_iff_eq, List.isEmpty_iff, ← List.length_eq_zero_iff]
    omega
  refine (offset hon).bind fun hon => ?_
  simp only [readBound]
  rw [boundValue_eq_boundFrom]
  by_cases hover : maxBoundText < boundFrom 0 (Input.takeDigits input.rest input.offset).1
  · rw [if_pos hover] at hdigits ⊢
    exact hdigits.error _
  rw [if_neg hover] at hdigits ⊢
  refine hdigits.bind fun hafter => (offset hafter).bind fun hafter => ?_
  rw [hnone]
  split
  · exact fail hstart _
  split
  · exact fail hstart _
  · exact pure hafter _

theorem upperBound (hon : input.On text) {start : Nat} (hstart : IsBoundary text start)
    (min : Nat) :
    Follows text (upperBound text start min) input (readUpper start min input) := by
  have hcomma := eat hon ','
  unfold readUpper
  rcases heat : input.eat ',' with ⟨_ | _, further⟩
  · obtain rfl := Input.eq_of_eat_eq_false heat
    rw [heat] at hcomma
    exact hcomma.bind fun hon => pure hon _
  · rw [heat] at hcomma
    refine hcomma.bind fun hfurther => (peek hfurther).bind fun hfurther => ?_
    dsimp only
    by_cases hclosing : (further.rest.head? == some '\x7d') = true
    · rw [if_pos hclosing, if_pos hclosing]
      exact pure hfurther none
    · rw [if_neg hclosing, if_neg hclosing]
      have hbound := bound hfurther hstart
      cases hread : readBound start further with
      | error e =>
          rw [hread] at hbound
          exact hbound.error _
      | ok found =>
          rw [hread] at hbound
          exact hbound.bind fun hafter => pure hafter _

theorem braces (hon : input.On text) {start : Nat} (hstart : IsBoundary text start) :
    Follows text (braces text start) input (readBraces start input) := by
  have hmin := bound hon hstart
  fun_cases readBraces start input with
  | case1 e hread =>
      rw [hread] at hmin
      exact hmin.error _
  | case2 min after hread e hupper =>
      rw [hread] at hmin
      refine hmin.bind fun hafter => ?_
      have hmax := upperBound hafter hstart min
      rw [hupper] at hmax
      exact hmax.error _
  | case3 min after hread max last hupper behind heat =>
      rw [hread] at hmin
      refine hmin.bind fun hafter => ?_
      have hmax := upperBound hafter hstart min
      rw [hupper] at hmax
      refine hmax.bind fun hlast => ?_
      have hclosing := eat hlast '\x7d'
      rw [heat] at hclosing
      exact hclosing.bind fun _ => fail hstart _
  | case4 min after hread max last hupper behind heat hordered
  | case5 min after hread max last hupper behind heat hordered =>
      rw [hread] at hmin
      refine hmin.bind fun hafter => ?_
      have hmax := upperBound hafter hstart min
      rw [hupper] at hmax
      refine hmax.bind fun hlast => ?_
      have hclosing := eat hlast '\x7d'
      rw [heat] at hclosing
      refine hclosing.bind fun hbehind => ?_
      rw [if_pos rfl]
      first
        | rw [if_pos hordered]; exact fail hstart _
        | rw [if_neg hordered]; exact pure hbehind _

theorem quantifier (hon : input.On text) {c : Char} {rest : List Char}
    (hrest : input.rest = c :: rest)
    {kind : Repeater} (hkind : Repeater.of? c = some kind) :
    Follows text (quantifier text) input (readRepeater kind input.offset input.tail) := by
  have hstart := hon.isBoundary
  refine (offset hon).bind fun hon => (bump hon hrest).bind fun htail => ?_
  unfold Repeater.of? at hkind
  split at hkind
  · cases hkind
    exact pure htail _
  · cases hkind
    exact pure htail _
  · cases hkind
    exact pure htail _
  · cases hkind
    exact braces htail hstart
  · cases hkind

theorem repetition (hon : input.On text) {c : Char} {rest : List Char}
    (hrest : input.rest = c :: rest) {kind : Repeater} (hkind : Repeater.of? c = some kind)
    (item : Node) (before : List Node) :
    Follows text (repetition text (some (item, before))) input
      (match readRepeater kind input.offset input.tail with
      | .error e => .error e
      | .ok (bounds, after) =>
        .ok (.repetition item bounds.1 bounds.2 (!(after.eat '?').1) :: before,
          (after.eat '?').2)) := by
  refine (offset hon).bind fun hon => ?_
  have hbounds := quantifier hon hrest hkind
  cases hread : readRepeater kind input.offset input.tail with
  | error e =>
      rw [hread] at hbounds
      exact hbounds.error _
  | ok result =>
      rw [hread] at hbounds
      exact hbounds.bind fun hafter => (eat hafter '?').bind fun hlast => pure hlast _

theorem hexEscape (hon : input.On text) {start : Nat} (hstart : IsBoundary text start) :
    Follows text (hexEscape text start) input (readHex start input) := by
  refine (ahead hon).bind fun hon => ?_
  unfold readHex
  rcases hrest : input.rest with _ | ⟨a, _ | ⟨b, rest⟩⟩
  · exact fail hstart _
  · rw [hexChar?_part?_single]
    exact fail hstart _
  · rw [hexChar?_part?_cons]
    cases ha : hexValue? a with
    | none =>
        simp only [hexChar?, ha]
        exact fail hstart _
    | some x =>
      cases hb : hexValue? b with
      | none =>
          simp only [hexChar?, ha, hb]
          exact fail hstart _
      | some y =>
          have hstep := advance_two hon hrest (utf8Size_of_hexValue? ha) (utf8Size_of_hexValue? hb)
          simp only [hexChar?, ha, hb]
          exact hstep.bind fun hon => pure hon _

theorem escape (hon : input.On text) {rest : List Char} (hrest : input.rest = '\x5c' :: rest)
    (inClass : Bool) :
    Follows text (escape text inClass) input
      (withoutAssertion inClass input.offset (readEscape input.offset input.tail)) := by
  have hstart := hon.isBoundary
  refine (offset hon).bind fun hon => (advance hon hrest rfl).bind fun htail => ?_
  rcases hcons : input.tail.rest with _ | ⟨c, rest⟩
  · rw [readEscape, hcons]
    exact (bump_end htail hcons).bind fun _ => fail hstart _
  refine (bump htail hcons).bind fun hinside => ?_
  by_cases hx : c = 'x'
  · subst hx
    rw [readEscape_hex hcons, withoutAssertion_readHex]
    exact hexEscape hinside hstart
  · rw [readEscape_letter hcons hx]
    dsimp only
    rw [if_neg (by simpa using hx)]
    cases hletter : Escape.ofLetter? c with
    | none => exact fail hstart _
    | some escape =>
      cases escape with
      | char c => exact pure hinside _
      | set set => exact pure hinside _
      | assertion a =>
        cases inClass with
        | true => exact fail hstart _
        | false => exact pure hinside _

theorem member (hon : input.On text) : Follows text (member text) input (readMember input) := by
  refine (peek hon).bind fun hon => ?_
  rcases hrest : input.rest with _ | ⟨c, rest⟩
  · rw [readMember, hrest]
    exact (bump_end hon hrest).bind fun hon => (offset hon).bind fun hon => fail hon.isBoundary _
  by_cases hc : c = '\x5c'
  · subst hc
    have hescape := escape hon hrest true
    rw [List.head?_cons, beq_self_eq_true, if_pos rfl, readMember_escape hrest]
    cases hread : readEscape input.offset input.tail with
    | error e =>
        rw [hread] at hescape
        exact hescape.error _
    | ok result =>
        obtain ⟨found, after⟩ := result
        rw [hread] at hescape
        cases found with
        | char c => exact hescape.bind fun hafter => pure hafter _
        | set set => exact hescape.bind fun hafter => pure hafter _
        | assertion a => exact hescape.error _
  · rw [List.head?_cons, if_neg (by simpa using hc), readMember_char hrest hc]
    exact (bump hon hrest).bind fun htail => pure htail _

theorem item (hon : input.On text) : Follows text (item text) input (readItem input) := by
  have hstart := hon.isBoundary
  have hfirst := member hon
  refine (offset hon).bind fun hon => ?_
  unfold readItem
  cases hread : readMember input with
  | error e =>
      rw [hread] at hfirst
      exact hfirst.error _
  | ok result =>
      obtain ⟨found, after⟩ := result
      rw [hread] at hfirst
      cases found with
      | ranges ranges => exact hfirst.bind fun hafter => pure hafter _
      | char low =>
          refine hfirst.bind fun hafter => (peek hafter).bind fun hafter =>
            (peekAt hafter 1).bind fun hafter => ?_
          rw [← startsRange_eq]
          dsimp only
          cases hrange : startsRange after with
          | false => exact pure hafter _
          | true =>
              obtain ⟨rest, hdash⟩ := rest_of_startsRange hrange
              refine (advance hafter hdash rfl).bind fun htail => ?_
              have hsecond := member htail
              rw [if_pos rfl]
              cases hread : readMember after.tail with
              | error e =>
                  rw [hread] at hsecond
                  exact hsecond.error _
              | ok result =>
                  obtain ⟨found, last⟩ := result
                  rw [hread] at hsecond
                  refine hsecond.bind fun hlast => ?_
                  cases found with
                  | ranges ranges => exact fail hstart _
                  | char high =>
                      dsimp only
                      split
                      · exact fail hstart _
                      · exact pure hlast _

theorem members (hon : input.On text) {start : Nat} (hstart : IsBoundary text start)
    {rounds : Nat} (hrounds : input.rest.length < rounds) (first : Bool) (found : List CodeRange) :
    Follows text (members text start rounds first found) input
      (readItems start first input found) := by
  induction rounds generalizing input first found with
  | zero => exact absurd hrounds (Nat.not_lt_zero _)
  | succ rounds ih =>
      refine (peek hon).bind fun hon => ?_
      rcases hrest : input.rest with _ | ⟨c, rest⟩
      · rw [readItems_end hrest]
        exact fail hstart _
      rw [List.head?_cons]
      dsimp only
      rw [readItems_cons hrest]
      by_cases hclosing : (c == ']' && !first) = true
      · have hc : c = ']' := eq_of_beq (Bool.and_eq_true_iff.mp hclosing).1
        rw [if_pos hclosing, if_pos hclosing]
        exact (advance hon hrest (by rw [hc]; rfl)).bind fun htail => pure htail _
      · rw [if_neg hclosing, if_neg hclosing]
        have hitem := item hon
        cases hread : readItem input with
        | error e =>
            rw [hread] at hitem
            exact hitem.error _
        | ok result =>
            obtain ⟨ranges, after⟩ := result
            have hshorter := readItem_length hread
            rw [hread] at hitem
            exact hitem.bind fun hafter => ih hafter (by omega) false _

theorem bracket (hon : input.On text) {start : Nat} (hstart : IsBoundary text start) :
    Follows text (bracket text start) input (readClass start input) := by
  have hnegation := eat hon '^'
  unfold readClass
  rcases heat : input.eat '^' with ⟨negated, inside⟩
  rw [heat] at hnegation
  refine hnegation.bind fun hinside => ?_
  have hmembers := members hinside hstart (Nat.lt_succ_of_le hinside.length_le) true []
  dsimp only
  cases hread : readItems start true inside [] with
  | error e =>
      rw [hread] at hmembers
      exact hmembers.error _
  | ok result =>
      rw [hread] at hmembers
      exact hmembers.bind fun hafter => pure hafter _

theorem atom (hon : input.On text) {c : Char} {rest : List Char} (hrest : input.rest = c :: rest)
    (hopen : c ≠ '(') (inside : Reading Node) :
    Follows text (atom text inside) input (readAtom c input.offset input.tail) := by
  have hstart := hon.isBoundary
  refine (offset hon).bind fun hon => (bump hon hrest).bind fun htail => ?_
  split
  case h_1 heq => cases heq
  case h_2 heq => exact absurd (Option.some.inj heq) hopen
  case h_3 heq =>
    cases heq
    have hclass := bracket htail hstart
    rw [readAtom]
    cases hread : readClass input.offset input.tail with
    | error e =>
        rw [hread] at hclass
        exact hclass.error _
    | ok result =>
        rw [hread] at hclass
        exact hclass.bind fun hafter => pure hafter _
  case h_4 heq =>
    cases heq
    exact pure htail _
  case h_5 heq =>
    cases heq
    exact pure htail _
  case h_6 heq =>
    cases heq
    exact pure htail _
  case h_7 heq =>
    cases heq
    have hescape := escape hon hrest false
    refine (back hon).bind fun hon => ?_
    rw [readAtom]
    cases hread : readEscape input.offset input.tail with
    | error e =>
        rw [hread] at hescape
        exact hescape.error _
    | ok result =>
        obtain ⟨found, after⟩ := result
        rw [hread] at hescape
        cases found with
        | char c => exact hescape.bind fun hafter => pure hafter _
        | set set => exact hescape.bind fun hafter => pure hafter _
        | assertion a => exact hescape.bind fun hafter => pure hafter _
  case h_8 heq =>
    cases heq
    have hplain : readAtom c input.offset input.tail = .ok (.literal c, input.tail) := by
      unfold readAtom
      split
      case h_6 => rfl
      all_goals contradiction
    rw [hplain]
    exact pure htail _

theorem flagLetters {letters : List Char} {offset : Nat} (hon : Input.On text ⟨letters, offset⟩)
    (flags : Flags) :
    Follows text (flagLetters flags offset letters) input (readFlagLetters flags offset letters) := by
  induction letters generalizing flags offset with
  | nil => exact fail (Text.isBoundary_zero text) _
  | cons c letters ih =>
      have htail : Input.On text ⟨letters, offset + c.utf8Size⟩ := hon.tail
      unfold Reading.flagLetters
      split
      · exact ih htail _
      · exact ih htail _
      · exact ih htail _
      next hi hm hs =>
        rw [readFlagLetters.eq_5 flags offset c letters hi hm hs]
        by_cases hclosing : (c == ')' && 2 < offset) = true
        · obtain rfl : c = ')' := eq_of_beq (Bool.and_eq_true_iff.mp hclosing).1
          rw [if_pos hclosing, if_pos hclosing]
          exact ⟨htail, fun _ _ => rfl⟩
        · rw [if_neg hclosing, if_neg hclosing]
          exact fail hon.isBoundary _

theorem flagGroup (text : String) :
    Follows text (flagGroup text) (.ofString text) (readFlags (.ofString text)) := by
  have hon := Input.on_ofString text
  refine (ahead hon).bind fun hon => ?_
  by_cases hgroup : ['(', '?'].isPrefixOf (Input.ofString text).rest = true
  · obtain ⟨rest, hrest⟩ := List.isPrefixOf_iff_prefix.mp hgroup
    have hinside := hon.tail.tail
    rw [Input.tail_eq hrest.symm, Input.tail_eq rfl] at hinside
    obtain ⟨cursor, hcursor, hcursorRest⟩ := hinside.at?
    have hcursor : Cursor.at? text 2 = some cursor := hcursor
    rw [if_pos hgroup, readFlags_group hrest.symm, hcursor]
    dsimp only
    rw [hcursorRest]
    split
    · exact pure hon _
    · exact flagLetters hinside _
  · rw [if_neg hgroup, readFlags_plain hgroup]
    exact pure hon _

end Follows

end Reading

end TextColumns.Pattern
