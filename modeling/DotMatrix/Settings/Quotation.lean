import DotMatrix.Settings.Gap
import DotMatrix.Text.Hex

/-!
# Quoted text in settings

There are four kinds of quotation. Between double quotes a backslash begins an escape; between
single quotes every character stands for itself. With one quote on either side the text is on one
line, with three it may go over several. A line end right after the three opening quotes does not
count, and neither do a backslash at the end of a line and all blanks and line ends after it. One or
two quotes in front of the three closing ones belong to the text.

Each reader gets what follows the opening quotes and gives the text and what follows the closing
ones.
-/

namespace DotMatrix.Settings

/-- A text that has been read, and what follows it. -/
abbrev Reading := Option (List Char × List Char)

/-- A reading with characters in front of the text. -/
def Reading.after (cs : List Char) (r : Reading) : Reading := r.map fun (text, rest) =>
  (cs ++ text, rest)

/-- The character for a letter after a backslash. -/
def escapeLetter? : Char → Option Char
  | 'b' => some '\x08'
  | 't' => some '\t'
  | 'n' => some '\n'
  | 'f' => some '\x0c'
  | 'r' => some '\r'
  | 'e' => some '\x1b'
  | '"' => some '"'
  | '\\' => some '\\'
  | _ => none

/-- The number of digits in the character number that a letter after a backslash announces. -/
def escapeDigits? : Char → Option Nat
  | 'x' => some 2
  | 'u' => some 4
  | 'U' => some 8
  | _ => none

/-- The character with a number. -/
def ofNumber? (n : Nat) : Option Char := if n.isValidChar then some (Char.ofNat n) else none

/-- What the next character of a text with escapes is part of. -/
inductive Position
  | text
  /-- A backslash came before it. -/
  | escape
  /-- A character number, of which some digits are missing and others came before it. -/
  | number (missing : Nat) (soFar : Nat)
  /-- The blanks at the end of a line that ended in a backslash. -/
  | lineEnd
  /-- The blanks and line ends after such a line. -/
  | margin
  deriving DecidableEq, Repr

/-- Up to two quotes that still belong to the text, and what follows them. -/
def lastQuotes (quote : Char) : List Char → List Char × List Char
  | a :: rest =>
    if a = quote then
      match rest with
      | b :: rest => if b = quote then ([a, b], rest) else ([a], b :: rest)
      | [] => ([a], [])
    else ([], a :: rest)
  | [] => ([], [])

/-- The text between three double quotes. -/
def readLong : Position → List Char → Reading
  | _, [] => none
  | .text, '"' :: '"' :: '"' :: rest | .margin, '"' :: '"' :: '"' :: rest =>
    some (lastQuotes '"' rest)
  | .text, '\\' :: rest | .margin, '\\' :: rest => readLong .escape rest
  | .margin, '\n' :: rest | .lineEnd, '\n' :: rest => readLong .margin rest
  | .margin, '\r' :: '\n' :: rest | .lineEnd, '\r' :: '\n' :: rest => readLong .margin rest
  | .text, '\n' :: rest => (readLong .text rest).after ['\n']
  | .text, '\r' :: '\n' :: rest => (readLong .text rest).after ['\r', '\n']
  | .text, c :: rest => if isTextChar c then (readLong .text rest).after [c] else none
  | .margin, c :: rest =>
    if isGapChar c then readLong .margin rest
    else if isTextChar c then (readLong .text rest).after [c]
    else none
  | .lineEnd, c :: rest => if isGapChar c then readLong .lineEnd rest else none
  | .escape, '\n' :: rest => readLong .margin rest
  | .escape, '\r' :: '\n' :: rest => readLong .margin rest
  | .escape, c :: rest =>
    match escapeLetter? c, escapeDigits? c with
    | some e, _ => (readLong .text rest).after [e]
    | none, some n => readLong (.number n 0) rest
    | none, none => if isGapChar c then readLong .lineEnd rest else none
  | .number missing soFar, c :: rest =>
    match Hex.value? c with
    | none => none
    | some d =>
      let n := 16 * soFar + d
      if 1 < missing then readLong (.number (missing - 1) n) rest
      else
        match ofNumber? n with
        | some e => (readLong .text rest).after [e]
        | none => none

/-- The text between double quotes. -/
def readShort : Position → List Char → Reading
  | _, [] => none
  | .text, '"' :: rest => some ([], rest)
  | .text, '\\' :: rest => readShort .escape rest
  | .text, c :: rest => if isTextChar c then (readShort .text rest).after [c] else none
  | .escape, c :: rest =>
    match escapeLetter? c, escapeDigits? c with
    | some e, _ => (readShort .text rest).after [e]
    | none, some n => readShort (.number n 0) rest
    | none, none => none
  | .number missing soFar, c :: rest =>
    match Hex.value? c with
    | none => none
    | some d =>
      let n := 16 * soFar + d
      if 1 < missing then readShort (.number (missing - 1) n) rest
      else
        match ofNumber? n with
        | some e => (readShort .text rest).after [e]
        | none => none
  | .lineEnd, _ | .margin, _ => none

/-- The text between single quotes. -/
def readLiteral : List Char → Reading
  | [] => none
  | '\'' :: rest => some ([], rest)
  | c :: rest => if isTextChar c then (readLiteral rest).after [c] else none

/-- The text between three single quotes. -/
def readLongLiteral : List Char → Reading
  | [] => none
  | '\'' :: '\'' :: '\'' :: rest => some (lastQuotes '\'' rest)
  | '\n' :: rest => (readLongLiteral rest).after ['\n']
  | '\r' :: '\n' :: rest => (readLongLiteral rest).after ['\r', '\n']
  | c :: rest => if isTextChar c then (readLongLiteral rest).after [c] else none

/-- A text without the line end at its beginning, if there is one. -/
def skipFirstLineEnd : List Char → List Char
  | '\n' :: rest => rest
  | '\r' :: '\n' :: rest => rest
  | s => s

/-- The text of a quotation that is on one line. -/
def readLineQuotation : List Char → Reading
  | '"' :: rest => readShort .text rest
  | '\'' :: rest => readLiteral rest
  | _ => none

/-- The text of a quotation of any kind. -/
def readQuotation : List Char → Reading
  | '"' :: '"' :: '"' :: rest => readLong .text (skipFirstLineEnd rest)
  | '\'' :: '\'' :: '\'' :: rest => readLongLiteral (skipFirstLineEnd rest)
  | s => readLineQuotation s

end DotMatrix.Settings
