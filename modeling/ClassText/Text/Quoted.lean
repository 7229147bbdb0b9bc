import ClassText.Text.Extender
import ClassText.Text.Unprintable

/-!
# Quotations in messages

A message shows a text that it is about between double quotes, so that every
character of it can be seen: quotes and backslashes get a backslash, and a character
that is invisible or attaches to its neighbour is shown by its code point.
-/

namespace ClassText

/-- A code point in lower-case hexadecimal between braces. -/
def quoteCodePoint (c : Char) : List Char :=
  ['\\', 'u', '\x7b'] ++ Nat.toDigits 16 c.toNat ++ ['\x7d']

def quoteChar (c : Char) : List Char :=
  match c with
  | '\x00' => ['\\', '0']
  | '\t' => ['\\', 't']
  | '\n' => ['\\', 'n']
  | '\r' => ['\\', 'r']
  | '"' => ['\\', '"']
  | '\\' => ['\\', '\\']
  | _ => if isExtender c || isUnprintable c then quoteCodePoint c else [c]

def quoted (text : String) : String :=
  String.ofList ('"' :: text.toList.flatMap quoteChar ++ ['"'])

end ClassText
