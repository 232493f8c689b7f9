import TextColumns.Store.Build
import TextColumns.Text.Cursor
import TextColumns.Transform.Trim
import TextColumns.Basic

namespace TextColumns.Transform

/-- What is done with texts that are wider than asked for. -/
inductive PadPolicy where
  | keep
  | truncate
  deriving DecidableEq, Repr

/-- The fill characters on both sides of a text and the bytes of it that are kept. -/
structure PadPlan where
  left : Nat
  right : Nat
  kept : Nat
  deriving DecidableEq, Repr

/-- The plan for a text.  Of an odd number of fill characters on both sides, the right side gets
one more. -/
def padPlan (width : Nat) (side : Side) (policy : PadPolicy) (text : String) : PadPlan :=
  let count := text.toList.length
  if width ≤ count then
    let kept :=
      if policy = .truncate then Text.sizeOf (text.toList.take width) else text.utf8ByteSize
    ⟨0, 0, kept⟩
  else
    let total := width - count
    match side with
    | .left => ⟨total, 0, text.utf8ByteSize⟩
    | .right => ⟨0, total, text.utf8ByteSize⟩
    | .both => ⟨total / 2, total - total / 2, text.utf8ByteSize⟩

def PadPlan.size (plan : PadPlan) (fill : Char) : Nat :=
  Word.wrap ((plan.left + plan.right) * fill.utf8Size + plan.kept)

def padDraft (width : Nat) (side : Side) (policy : PadPolicy) (fill : Char) (text : String) :
    Draft :=
  let plan := padPlan width side policy text
  ⟨plan.size fill, fun writer =>
    ((writer.pushChars fill plan.left).push (text.toByteArray.extract 0 plan.kept)).pushChars
      fill plan.right⟩

/-- The only character of a text that is to be used as a fill. -/
def singleChar (label text : String) : Result Char :=
  match text.toList with
  | [c] => .ok c
  | _ => .error (.fillNotOneChar label text)

def pad (store : Store) (width : Nat) (side : Side) (fill : String) (policy : PadPolicy) :
    Result Store :=
  match singleChar Subject.pad.name fill with
  | .error e => .error e
  | .ok fill => store.transform (padDraft width side policy fill)

def zeroCount (width : Nat) (text : String) : Nat :=
  width - text.toList.length

def splitSign (text : String) : String × String :=
  match text.toList with
  | '+' :: rest => ("+", String.ofList rest)
  | '-' :: rest => ("-", String.ofList rest)
  | _ => ("", text)

def zeroFillDraft (width : Nat) (text : String) : Draft :=
  let parts := splitSign text
  ⟨Word.wrap (text.utf8ByteSize + zeroCount width text), fun writer =>
    ((writer.pushText parts.1).pushChars '0' (zeroCount width text)).pushText parts.2⟩

/-- Every element at the given width, with zeros behind its sign. -/
def zeroFill (store : Store) (width : Nat) : Result Store :=
  store.transform (zeroFillDraft width)

end TextColumns.Transform
