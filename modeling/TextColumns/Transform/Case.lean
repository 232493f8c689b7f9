import TextColumns.Store.Build
import TextColumns.Text.Cursor
import TextColumns.Unicode.Letters

/-!
Case conversion.  The general way maps every character to the text that Unicode gives for it, which
may have another size.  Texts of ASCII alone are converted byte by byte.
-/

namespace TextColumns.Transform

inductive CaseMode where
  | upper
  | lower
  /-- Each cased character to the other case. -/
  | swap
  /-- The first character to upper case, the others to lower case. -/
  | capitalize
  /-- The first letter of each run of letters to upper case, all others to lower case. -/
  | title
  deriving DecidableEq, Repr

namespace CaseMode

/-- The text for a character, which may be the first one or stand behind a letter. -/
def convert (mode : CaseMode) (first afterLetter : Bool) (c : Char) : List Char :=
  match mode with
  | .upper => Unicode.upperText c
  | .lower => Unicode.lowerText c
  | .swap =>
    if Unicode.isUppercase c then Unicode.lowerText c
    else if Unicode.isLowercase c then Unicode.upperText c
    else [c]
  | .capitalize => if first then Unicode.upperText c else Unicode.lowerText c
  | .title => if afterLetter then Unicode.lowerText c else Unicode.upperText c

def convertFrom (mode : CaseMode) (first afterLetter : Bool) : List Char → List Char
  | [] => []
  | c :: rest =>
    mode.convert first afterLetter c ++ mode.convertFrom false (Unicode.isAlphabetic c) rest

def convertChars (mode : CaseMode) (chars : List Char) : List Char :=
  mode.convertFrom true false chars

end CaseMode

def isUpperByte (b : UInt8) : Bool :=
  65 ≤ b && b ≤ 90

def isLowerByte (b : UInt8) : Bool :=
  97 ≤ b && b ≤ 122

def upperByte (b : UInt8) : UInt8 :=
  if isLowerByte b then b - 32 else b

def lowerByte (b : UInt8) : UInt8 :=
  if isUpperByte b then b + 32 else b

namespace CaseMode

def convertByte (mode : CaseMode) (first afterLetter : Bool) (b : UInt8) : UInt8 :=
  match mode with
  | .upper => upperByte b
  | .lower => lowerByte b
  | .swap => if isUpperByte b then lowerByte b else upperByte b
  | .capitalize => if first then upperByte b else lowerByte b
  | .title => if afterLetter then lowerByte b else upperByte b

def convertBytesFrom (mode : CaseMode) (first afterLetter : Bool) : List UInt8 → List UInt8
  | [] => []
  | b :: rest =>
    mode.convertByte first afterLetter b ::
      mode.convertBytesFrom false (isUpperByte b || isLowerByte b) rest

def convertBytes (mode : CaseMode) (bytes : List UInt8) : List UInt8 :=
  mode.convertBytesFrom true false bytes

def draft (mode : CaseMode) (text : String) : Draft :=
  if Text.isAscii text then
    ⟨text.utf8ByteSize, fun writer =>
      writer.push ⟨(mode.convertBytes text.toByteArray.toList).toArray⟩⟩
  else
    ⟨Text.sizeOf (mode.convertChars text.toList), fun writer =>
      (mode.convertChars text.toList).foldl Writer.pushChar writer⟩

end CaseMode

def convertCase (store : Store) (mode : CaseMode) : Result Store :=
  store.transform mode.draft

end TextColumns.Transform
