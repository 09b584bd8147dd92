/-!
# Between the words of a settings file

Words are separated by blanks, on one line, or by gaps, which may also hold line ends and comments.
A line ends with a line feed that may follow a carriage return. A comment runs to the end of its
line. Control characters other than the tab occur nowhere.
-/

namespace DotMatrix.Settings

/-- May the character stand in a comment or between quotes? -/
def isTextChar (c : Char) : Bool := c == '\t' || (' ' ≤ c && c != '\x7f')

/-- Does the character separate words on a line? -/
def isGapChar (c : Char) : Bool := c == ' ' || c == '\t'

/-- What follows the blanks. -/
def skipBlanks (s : List Char) : List Char := s.dropWhile isGapChar

/-- What follows blanks, line ends and comments. -/
def skipGap : (inComment : Bool) → List Char → List Char
  | _, [] => []
  | _, '\n' :: rest => skipGap false rest
  | _, '\r' :: '\n' :: rest => skipGap false rest
  | true, c :: rest => if isTextChar c then skipGap true rest else c :: rest
  | false, c :: rest =>
    if isGapChar c then skipGap false rest
    else if c = '#' then skipGap true rest
    else c :: rest

/-- What follows a comment, if there is one. -/
def skipComment : List Char → List Char
  | '#' :: rest => rest.dropWhile isTextChar
  | s => s

/-- The lines that follow, if nothing but blanks and a comment is left on this one. -/
def nextLine? (s : List Char) : Option (List Char) :=
  match skipComment (skipBlanks s) with
  | [] => some []
  | '\n' :: rest => some rest
  | '\r' :: '\n' :: rest => some rest
  | _ => none

end DotMatrix.Settings
