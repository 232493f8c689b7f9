import TextColumns.Pieces.ListColumn
import TextColumns.Unicode.Stretch

/-!
Cutting texts into pieces, at another text or at runs of blanks.  A limit bounds the number of
separators that are used; counting starts at the left end, or at the right one.
-/

namespace TextColumns

open Text (Extent)

namespace Text

/-- The pieces between occurrences of a separator, which are given from left to right. -/
def piecesFrom (separatorSize stop start : Nat) : (places : List Nat) → List Extent
  | [] => [⟨start, stop⟩]
  | place :: rest =>
    ⟨start, place⟩ :: piecesFrom separatorSize stop (place + separatorSize) rest

/-- The pieces in front of `found` between occurrences of a separator, which are given from right
to left. -/
def piecesBefore (separatorSize stop : Nat) (found : List Extent) :
    (places : List Nat) → List Extent
  | [] => ⟨0, stop⟩ :: found
  | place :: rest =>
    piecesBefore separatorSize place (⟨place + separatorSize, stop⟩ :: found) rest

def splitAt (separator : Needle) (limit : Option Nat) (text : String) : List Extent :=
  piecesFrom separator.bytes.size text.utf8ByteSize 0
    (upTo limit (occurrences text.toByteArray separator))

def splitAtFromRight (separator : Needle) (limit : Option Nat) (text : String) :
    List Extent :=
  piecesBefore separator.bytes.size text.utf8ByteSize []
    (upTo limit (occurrencesFromRight text.toByteArray separator))

theorem length_dropWhile_le (p : Char → Bool) (chars : List Char) :
    (chars.dropWhile p).length ≤ chars.length :=
  (List.dropWhile_suffix p).length_le

def takeWord (chars : List Char) : List Char × List Char :=
  (chars.takeWhile (!Unicode.isBlank ·), chars.dropWhile (!Unicode.isBlank ·))

/-- The words from `offset` on: runs of characters that are no blanks.  When no separator may be
used any more, the rest of the text is the last piece. -/
def wordsFrom (limit : Option Nat) (stop offset : Nat) (chars : List Char) : List Extent :=
  let start := offset + sizeOf (chars.takeWhile Unicode.isBlank)
  match hrest : chars.dropWhile Unicode.isBlank with
  | [] => []
  | c :: rest =>
    if limit == some 0 then [⟨start, stop⟩]
    else
      let word := takeWord rest
      let wordStop := start + sizeOf (c :: word.1)
      have : word.2.length < chars.length := by
        have := length_dropWhile_le Unicode.isBlank chars
        have := length_dropWhile_le (!Unicode.isBlank ·) rest
        simp only [hrest, List.length_cons, word, takeWord] at *
        omega
      ⟨start, wordStop⟩ :: wordsFrom (limit.map (· - 1)) stop wordStop word.2
termination_by chars.length

/-- The words in front of `stop`, followed by those in `found`; the characters are given from right
to left.  When no separator may be used any more, the text up to here is the first piece. -/
def wordsBefore (limit : Option Nat) (stop : Nat) (found : List Extent) (chars : List Char) :
    List Extent :=
  let wordStop := stop - sizeOf (chars.takeWhile Unicode.isBlank)
  match hrest : chars.dropWhile Unicode.isBlank with
  | [] => found
  | c :: rest =>
    if limit == some 0 then ⟨0, wordStop⟩ :: found
    else
      let word := takeWord rest
      let start := wordStop - sizeOf (c :: word.1)
      have : word.2.length < chars.length := by
        have := length_dropWhile_le Unicode.isBlank chars
        have := length_dropWhile_le (!Unicode.isBlank ·) rest
        simp only [hrest, List.length_cons, word, takeWord] at *
        omega
      wordsBefore (limit.map (· - 1)) start (⟨start, wordStop⟩ :: found) word.2
termination_by chars.length

def splitWords (limit : Option Nat) (text : String) : List Extent :=
  wordsFrom limit text.utf8ByteSize 0 text.toList

def splitWordsFromRight (limit : Option Nat) (text : String) : List Extent :=
  wordsBefore limit text.utf8ByteSize [] text.toList.reverse

inductive Cut where
  | separator (needle : Needle)
  | blanks

namespace Cut

/-- Without a separator texts are cut at blanks. -/
def ofText : Option String → Cut
  | some text => .separator (.ofText text)
  | none => .blanks

def pieces (cut : Cut) (limit : Option Nat) (text : String) : List Extent :=
  match cut with
  | .separator needle => splitAt needle limit text
  | .blanks => splitWords limit text

def piecesFromRight (cut : Cut) (limit : Option Nat) (text : String) : List Extent :=
  match cut with
  | .separator needle => splitAtFromRight needle limit text
  | .blanks => splitWordsFromRight limit text

end Cut

end Text

namespace ListColumn

def checkSeparator (subject : Subject) (separator : Option String) : Result Unit :=
  if separator == some "" then .error (.emptyDelimiter subject) else .ok ()

def split (store : Store) (separator : Option String) (limit : Option Nat) :
    Result ListColumn :=
  match checkSeparator .split separator with
  | .error e => .error e
  | .ok () =>
    let cut := Text.Cut.ofText separator
    ofExtents store (store.texts.toList.map (·.map (cut.pieces limit)))

def splitFromRight (store : Store) (separator : Option String) (limit : Option Nat) :
    Result ListColumn :=
  match checkSeparator .splitFromRight separator with
  | .error e => .error e
  | .ok () =>
    let cut := Text.Cut.ofText separator
    ofExtents store (store.texts.toList.map (·.map (cut.piecesFromRight limit)))

end ListColumn

end TextColumns
