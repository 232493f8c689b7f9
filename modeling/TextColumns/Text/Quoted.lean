import TextColumns.Unicode.Printable

/-!
Quoted texts, as messages show them.  A character that cannot be shown is written by its code
point, and the quote mark and the backslash are written behind a backslash.
-/

namespace TextColumns.Text

def hexDigits (n : Nat) : List Char :=
  Nat.toDigits 16 n

def quotedChar (mark : Char) (c : Char) : List Char :=
  if c == mark || c == '\x5c' then ['\x5c', c]
  else
    match c with
    | '\n' => ['\x5c', 'n']
    | '\r' => ['\x5c', 'r']
    | '\t' => ['\x5c', 't']
    | '\x00' => ['\x5c', '0']
    | _ =>
      if Unicode.isPrintable c then [c]
      else "\\u\x7b".toList ++ hexDigits c.toNat ++ ['\x7d']

def quoted (text : String) : String :=
  String.ofList ('\x22' :: text.toList.flatMap (quotedChar '\x22') ++ ['\x22'])

def quotedSingle (c : Char) : String :=
  String.ofList ('\x27' :: quotedChar '\x27' c ++ ['\x27'])

end TextColumns.Text
