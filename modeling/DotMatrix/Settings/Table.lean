import DotMatrix.Settings.Value

/-!
# Building tables

A document adds to its tables piece by piece, and no piece may take back what an earlier one said:

* a key gets a value once;
* a key of several parts goes through tables that only such keys or headings below them have
  mentioned, and ends in one that only such keys have mentioned;
* a heading begins a table that no more than the headings below it have mentioned;
* a heading in double brackets begins another table of the same list, and the table that is last in
  a list stands for the list in later headings and keys;
* tables and arrays that are written as values are complete.
-/

namespace DotMatrix.Settings

/-- Has the table only been mentioned so far? -/
def Origin.isImplicit : Origin → Bool
  | .path | .dotted => true
  | .heading | .inline => false

/-- May a path lead through the table? A key's path is narrower than that of a heading. -/
def Origin.admits (o : Origin) (inKey : Bool) : Bool :=
  o != .inline && (!inKey || o.isImplicit)

namespace Entries

/-- Go down a path and change the table at its end. Tables that are missing on the way are added. -/
def changeBelow (inKey : Bool) (f : Origin → Entries → Option Entries) :
    (path : List String) → Origin → Entries → Option Entries
  | [], origin, es => f origin es
  | key :: path, _, es =>
    match es.lookup key with
    | none =>
      let origin := if inKey then .dotted else .path
      (changeBelow inKey f path origin []).map fun child => es.put key (.table origin child)
    | some (.table origin child) =>
      if origin.admits inKey then
        (changeBelow inKey f path origin child).map fun child => es.put key (.table origin child)
      else none
    | some (.tables earlier last) =>
      (changeBelow inKey f path .heading last).map fun last => es.put key (.tables earlier last)
    | some _ => none

/-- Add a key that is not there yet. -/
def addNew (key : String) (v : Value) (es : Entries) : Option Entries :=
  match es.lookup key with
  | none => some (es.put key v)
  | some _ => none

/-- Give a value to a key of several parts: a path and a last part. -/
def assign (path : List String) (key : String) (v : Value) (es : Entries) : Option Entries :=
  es.changeBelow true
    (fun origin es => if (origin == .dotted) == path.isEmpty then none else es.addNew key v)
    path .heading

/-- Begin a table with a heading. -/
def beginTable (path : List String) (key : String) (es : Entries) : Option Entries :=
  es.changeBelow false
    (fun _ es =>
      match es.lookup key with
      | none => some (es.put key (.table .heading []))
      | some (.table .path child) => some (es.put key (.table .heading child))
      | some _ => none)
    path .heading

/-- Begin another table of a list of tables. -/
def beginElement (path : List String) (key : String) (es : Entries) : Option Entries :=
  es.changeBelow false
    (fun _ es =>
      match es.lookup key with
      | none => some (es.put key (.tables [] []))
      | some (.tables earlier last) => some (es.put key (.tables (earlier ++ [last]) []))
      | some _ => none)
    path .heading

end Entries

end DotMatrix.Settings
