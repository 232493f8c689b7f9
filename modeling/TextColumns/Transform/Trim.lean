import TextColumns.Store.Basic
import TextColumns.Text.Cursor
import TextColumns.Unicode.Stretch
import Std.Data.HashSet.Lemmas

namespace TextColumns.Transform

/-- An end of a text, or both. -/
inductive Side where
  | left
  | right
  | both
  deriving DecidableEq, Repr

/-- The code points of the characters that are removed; without a set these are the blanks. -/
abbrev TrimSet := Option (Std.HashSet Nat)

def TrimSet.ofText (set : Option String) : TrimSet :=
  set.map fun text => .ofList (text.toList.map Char.toNat)

def isTrimmed (set : TrimSet) (c : Char) : Bool :=
  match set with
  | some set => set.contains c.toNat
  | none => Unicode.isBlank c

theorem isTrimmed_ofText (text : String) (c : Char) :
    isTrimmed (.ofText (some text)) c = true ↔ c ∈ text.toList := by
  simp only [isTrimmed, TrimSet.ofText, Option.map_some, Std.HashSet.contains_ofList,
    List.contains_iff_mem, List.mem_map]
  constructor
  · rintro ⟨d, hd, heq⟩
    rwa [← Char.toNat_inj.1 heq]
  · exact fun h => ⟨c, h, rfl⟩

def trimmed (side : Side) (set : TrimSet) (text : String) : Text.Extent :=
  let chars := text.toList
  let rest := if side = .right then chars else chars.dropWhile (isTrimmed set)
  let start := text.utf8ByteSize - Text.sizeOf rest
  let kept := if side = .left then rest else (rest.reverse.dropWhile (isTrimmed set)).reverse
  ⟨start, start + Text.sizeOf kept⟩

/-- Every element without such characters at its ends, over the same buffer. -/
def trim (store : Store) (side : Side) (set : Option String) : Store :=
  let set := TrimSet.ofText set
  store.share <| store.texts.toList.mapIdx fun row text =>
    text.map fun text =>
      let extent := trimmed side set text
      ⟨row, extent.start, extent.stop⟩

/-- A number of characters of every element, over the same buffer. -/
def substring (store : Store) (start : Nat) (length : Option Nat) : Store :=
  store.share <| store.texts.toList.mapIdx fun row text =>
    text.map fun text =>
      let span := Text.charSpan text start length
      ⟨row, span.start, span.stop⟩

end TextColumns.Transform
