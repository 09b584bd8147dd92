import DotMatrix.Text.Hex
import DotMatrix.Text.Hidden

/-!
# Quoted text

A text between double quotes, written so that every character can be told from its looks. Quotes
and backslashes get a backslash; the null character, tabs, line feeds and carriage returns have
letters of their own; all other hidden characters are given by their number in braces.
-/

namespace DotMatrix.Text

/-- A character by its number. -/
def numbered (c : Char) : List Char := '\\' :: 'u' :: '\x7b' :: Hex.escape c.toNat ++ ['\x7d']

/-- A character between quotes. -/
def quotedChar (c : Char) : List Char :=
  match c with
  | '"' => ['\\', '"']
  | '\\' => ['\\', '\\']
  | '\x00' => ['\\', '0']
  | '\t' => ['\\', 't']
  | '\n' => ['\\', 'n']
  | '\r' => ['\\', 'r']
  | c => if isHidden c then numbered c else [c]

/-- A text between quotes. -/
def quoted (s : String) : String := String.ofList ('"' :: s.toList.flatMap quotedChar ++ ['"'])

end DotMatrix.Text
