import DotMatrix.Settings.DateTime
import DotMatrix.Settings.Number
import DotMatrix.Settings.Quotation
import DotMatrix.Settings.Table

/-!
# Statements of a settings file

A settings file is a sequence of statements, one on a line: a key with its value, or a heading for
the statements below it. Only arrays, tables between braces and long quotations go on over line
ends.

Readers take a text and give what they have read with the rest of the text. `readValue` takes the
number of levels to which arrays and tables may still nest.
-/

namespace DotMatrix.Settings

/-! ### Keys -/

/-- A key: its path and its last part. -/
structure Key where
  path : List String
  last : String
  deriving DecidableEq, Repr

/-- Can the character stand in a key without quotes? -/
def isKeyChar (c : Char) : Bool := c.isAlphanum || c == '_' || c == '-'

/-- A part of a key, and what follows it. -/
def readKeyPart (s : List Char) : Option (String × List Char) :=
  match s.takeWhile isKeyChar with
  | [] => (readLineQuotation s).map fun (text, rest) => (String.ofList text, rest)
  | word => some (String.ofList word, s.dropWhile isKeyChar)

/-- A key of up to `fuel` parts, with points between them, and what follows it and the blanks
after it. -/
def readKeyParts : (fuel : Nat) → List Char → Option (Key × List Char)
  | 0, _ => none
  | fuel + 1, s =>
    match readKeyPart (skipBlanks s) with
    | none => none
    | some (part, rest) =>
      match skipBlanks rest with
      | '.' :: rest =>
        (readKeyParts fuel rest).map fun (key, rest) => (⟨part :: key.path, key.last⟩, rest)
      | rest => some (⟨[], part⟩, rest)

/-- A key, and what follows it and the blanks after it. -/
def readKey (s : List Char) : Option (Key × List Char) := readKeyParts (s.length + 1) s

/-! ### Values -/

/-- Can the character stand in a number, a date or a constant? -/
def isWordChar (c : Char) : Bool := isKeyChar c || c == '+' || c == '.' || c == ':'

/-- A word, and what follows it. A date and a time with a single space between them are one. -/
def readWord (s : List Char) : List Char × List Char :=
  let word := s.takeWhile isWordChar
  match s.dropWhile isWordChar with
  | ' ' :: c :: rest =>
    if c.isDigit && afterDate? word == some [] then
      (word ++ ' ' :: (c :: rest).takeWhile isWordChar, (c :: rest).dropWhile isWordChar)
    else (word, ' ' :: c :: rest)
  | rest => (word, rest)

/-- The value that a word stands for. -/
def ofWord? (word : List Char) : Option Value :=
  if word = ['t', 'r', 'u', 'e'] then some (.boolean true)
  else if word = ['f', 'a', 'l', 's', 'e'] then some (.boolean false)
  else if isDateTime word then some .dateTime
  else (integer? word).orElse fun _ => float? word

/-- Up to `fuel` items with commas between them, and what follows the closing bracket. A comma may
also follow the last item. -/
def readItems {α : Type} (readItem : List Char → Option (α × List Char)) (close : Char) :
    (fuel : Nat) → List Char → Option (List α × List Char)
  | 0, _ => none
  | fuel + 1, s =>
    match skipGap false s with
    | [] => none
    | c :: rest =>
      if c = close then some ([], rest)
      else
        match readItem (c :: rest) with
        | none => none
        | some (x, rest) =>
          match skipGap false rest with
          | [] => none
          | c :: rest =>
            if c = ',' then
              (readItems readItem close fuel rest).map fun (xs, rest) => (x :: xs, rest)
            else if c = close then some ([x], rest)
            else none

/-- A key and its value, and what follows them. -/
def readPair (readValue : List Char → Option (Value × List Char)) (s : List Char) :
    Option ((Key × Value) × List Char) :=
  match readKey s with
  | some (key, '=' :: rest) =>
    (readValue (skipBlanks rest)).map fun (v, rest) => ((key, v), rest)
  | _ => none

/-- Give all keys their values, in order. -/
def assignAll : List (Key × Value) → Entries → Option Entries
  | [], es => some es
  | (key, v) :: rest, es =>
    match es.assign key.path key.last v with
    | some es => assignAll rest es
    | none => none

/-- A value, in which arrays and tables nest up to `depth` levels deep, and what follows it. -/
def readValue : (depth : Nat) → List Char → Option (Value × List Char)
  | depth + 1, '[' :: rest =>
    (readItems (readValue depth) ']' (rest.length + 1) rest).map fun (elements, rest) =>
      (.array elements, rest)
  | depth + 1, '\x7b' :: rest =>
    match readItems (readPair (readValue depth)) '\x7d' (rest.length + 1) rest with
    | none => none
    | some (pairs, rest) => (assignAll pairs []).map fun es => (.table .inline es, rest)
  | _, s =>
    match readQuotation s with
    | some (text, rest) => some (.text (String.ofList text), rest)
    | none =>
      let (word, rest) := readWord s
      (ofWord? word).map fun v => (v, rest)

/-! ### Statements -/

/-- A line of a settings file that says something. -/
inductive Statement
  | pair (key : Key) (v : Value)
  | heading (key : Key)
  /-- A heading in double brackets. -/
  | element (key : Key)

/-- Levels to which arrays and tables may nest. -/
def maxDepth : Nat := 80

/-- A statement, and what follows it on its line. -/
def readStatement : List Char → Option (Statement × List Char)
  | '[' :: '[' :: rest =>
    match readKey rest with
    | some (key, ']' :: ']' :: rest) => some (.element key, rest)
    | _ => none
  | '[' :: rest =>
    match readKey rest with
    | some (key, ']' :: rest) => some (.heading key, rest)
    | _ => none
  | s => (readPair (readValue maxDepth) s).map fun ((key, v), rest) => (.pair key v, rest)

/-- All statements of a text, if there are fewer than `fuel`. -/
def readStatements : (fuel : Nat) → List Char → Option (List Statement)
  | 0, _ => none
  | fuel + 1, s =>
    match skipGap false s with
    | [] => some []
    | c :: rest =>
      match readStatement (c :: rest) with
      | none => none
      | some (statement, rest) =>
        match nextLine? rest with
        | none => none
        | some rest => (readStatements fuel rest).map (statement :: ·)

/-- A text without the mark that may tell its byte order. -/
def skipByteOrderMark : List Char → List Char
  | '\ufeff' :: rest => rest
  | s => s

/-- All statements of a settings file. -/
def statements? (text : String) : Option (List Statement) :=
  let s := skipByteOrderMark text.toList
  readStatements (s.length + 1) s

/-- The table that statements below a heading build. -/
def buildEntries : List Statement → (heading : List String) → Entries → Option Entries
  | [], _, es => some es
  | .pair key v :: rest, heading, es =>
    match es.changeBelow false (fun _ es => es.assign key.path key.last v) heading .heading with
    | some es => buildEntries rest heading es
    | none => none
  | .heading key :: rest, _, es =>
    match es.beginTable key.path key.last with
    | some es => buildEntries rest (key.path ++ [key.last]) es
    | none => none
  | .element key :: rest, _, es =>
    match es.beginElement key.path key.last with
    | some es => buildEntries rest (key.path ++ [key.last]) es
    | none => none

/-- The table that a settings file describes, if it is well formed. -/
def entries? (text : String) : Option Entries :=
  match statements? text with
  | some statements => buildEntries statements [] []
  | none => none

end DotMatrix.Settings
