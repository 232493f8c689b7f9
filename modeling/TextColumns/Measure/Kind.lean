import TextColumns.Store.Basic
import TextColumns.Unicode.Stretch
import TextColumns.Unicode.Letters
import TextColumns.Unicode.Numerals

namespace TextColumns.Measure

inductive Kind where
  | alpha
  /-- Digits of ASCII. -/
  | digit
  | alnum
  | space
  /-- Some cased character, and none of lower case. -/
  | upper
  /-- Some cased character, and none of upper case. -/
  | lower
  /-- Numerals of any script. -/
  | numeric
  deriving DecidableEq, Repr

def isCased (c : Char) : Bool :=
  Unicode.isUppercase c || Unicode.isLowercase c

def everyChar (p : Char → Bool) (chars : List Char) : Bool :=
  !chars.isEmpty && chars.all p

/-- Whether there are cased characters and all of them are upper case, or none of them. -/
def isInCase (upper : Bool) (chars : List Char) : Bool :=
  everyChar (fun c => Unicode.isUppercase c == upper) (chars.filter isCased)

def Kind.holds (kind : Kind) (text : String) : Bool :=
  let chars := text.toList
  match kind with
  | .alpha => everyChar Unicode.isAlphabetic chars
  | .digit => everyChar Char.isDigit chars
  | .alnum => everyChar (fun c => Unicode.isAlphabetic c || Unicode.isNumeral c) chars
  | .space => everyChar Unicode.isBlank chars
  | .upper => isInCase true chars
  | .lower => isInCase false chars
  | .numeric => everyChar Unicode.isNumeral chars

def answers (store : Store) (p : String → Bool) : Column Bool where
  values := store.texts.map fun text => text.any p
  validity := store.validity

def isKind (store : Store) (kind : Kind) : Column Bool :=
  answers store kind.holds

end TextColumns.Measure
