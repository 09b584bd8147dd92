import DotMatrix.Association

/-!
# Values of a settings file

A settings file is a TOML document: a table of keys and values, in which a value may be a table
again. Which tables the rest of the document may still add to depends on how they came to be, so a
table remembers its `Origin`.

* `Value.isReadable`: every number in the value is one that can be held;
* `Entries.put`: change the value of a key, or add one.
-/

namespace DotMatrix.Settings

/-- How a table came to be. -/
inductive Origin
  /-- It has a heading of its own. -/
  | heading
  /-- The heading of a table below it mentions it. -/
  | path
  /-- A key of several parts mentions it. -/
  | dotted
  /-- It is written as a value, between braces. -/
  | inline
  deriving DecidableEq, Repr

/-- A value in a settings file. -/
inductive Value
  | text (s : String)
  | integer (n : Int)
  /-- A number with a fraction or an exponent, an infinity, or not a number. -/
  | float
  /-- A number beyond the range that any reader can hold. -/
  | tooLarge
  | boolean (b : Bool)
  | dateTime
  | array (elements : List Value)
  | table (origin : Origin) (entries : List (String × Value))
  /-- Tables under one heading in double brackets: those that are complete, and the last. -/
  | tables (earlier : List (List (String × Value))) (last : List (String × Value))

/-- The keys of a table with their values. -/
abbrev Entries := List (String × Value)

/-- Change the value of a key, or add one. -/
def Entries.put (key : String) (v : Value) (es : Entries) : Entries := Association.put key v es

mutual

/-- Can every number in the value be held? -/
def Value.isReadable : Value → Bool
  | .tooLarge => false
  | .array elements => allReadable elements
  | .table _ entries => entriesReadable entries
  | .tables earlier last => tablesReadable earlier && entriesReadable last
  | _ => true

/-- Can every number in the values be held? -/
def allReadable : List Value → Bool
  | [] => true
  | v :: rest => v.isReadable && allReadable rest

/-- Can every number under one of the keys be held? -/
def entriesReadable : List (String × Value) → Bool
  | [] => true
  | (_, v) :: rest => v.isReadable && entriesReadable rest

/-- Can every number in one of the tables be held? -/
def tablesReadable : List (List (String × Value)) → Bool
  | [] => true
  | entries :: rest => entriesReadable entries && tablesReadable rest

end

end DotMatrix.Settings
