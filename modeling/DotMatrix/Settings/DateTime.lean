/-!
# Dates and times in settings

A date, a time of day, or a date and a time with an optional distance from universal time. They
only have to be possible: no setting is a date.

`isDateTime` accepts the words that are one of these.
-/

namespace DotMatrix.Settings

/-- A number of exactly two digits, and what follows it. -/
def twoDigits? : List Char → Option (Nat × List Char)
  | a :: b :: rest =>
    if a.isDigit && b.isDigit then
      some (10 * (a.toNat - '0'.toNat) + (b.toNat - '0'.toNat), rest)
    else none
  | _ => none

/-- Days in a month of the Gregorian calendar. -/
def daysInMonth (year month : Nat) : Nat :=
  match month with
  | 2 => if year % 4 = 0 ∧ (year % 100 ≠ 0 ∨ year % 400 = 0) then 29 else 28
  | 4 | 6 | 9 | 11 => 30
  | _ => 31

/-- What follows a character, if the text begins with it. -/
def after? (c : Char) : List Char → Option (List Char)
  | d :: rest => if d = c then some rest else none
  | [] => none

/-- Is this a day of the Gregorian calendar? -/
def isDay (year month day : Nat) : Bool :=
  1 ≤ month && month ≤ 12 && 1 ≤ day && day ≤ daysInMonth year month

/-- What follows a date: year, month and day with dashes between them. -/
def afterDate? (s : List Char) : Option (List Char) := do
  let (century, s) ← twoDigits? s
  let (yearOfCentury, s) ← twoDigits? s
  let (month, s) ← twoDigits? (← after? '-' s)
  let (day, s) ← twoDigits? (← after? '-' s)
  if isDay (100 * century + yearOfCentury) month day then some s else none

/-- What follows hours and minutes with a colon between them. -/
def afterMinutes? (s : List Char) : Option (List Char) := do
  let (hour, s) ← twoDigits? s
  let (minute, s) ← twoDigits? (← after? ':' s)
  if hour ≤ 23 ∧ minute ≤ 59 then some s else none

/-- What follows the fraction of a second, which is a point and digits. -/
def afterFraction? : List Char → Option (List Char)
  | '.' :: c :: rest => if c.isDigit then some (rest.dropWhile Char.isDigit) else none
  | '.' :: [] => none
  | s => some s

/-- What follows a time of day. Seconds may be left out, and a minute may have a leap second. -/
def afterTime? (s : List Char) : Option (List Char) :=
  match afterMinutes? s with
  | some (':' :: s) =>
    match twoDigits? s with
    | some (second, s) => if second ≤ 60 then afterFraction? s else none
    | none => none
  | s? => s?

/-- Is this the distance from universal time, or nothing at all? -/
def isOffset : List Char → Bool
  | [] => true
  | ['z'] | ['Z'] => true
  | '+' :: s | '-' :: s => afterMinutes? s == some []
  | _ => false

/-- Is this a date and a time, a date, or a time? -/
def isDateTime (s : List Char) : Bool :=
  match afterDate? s with
  | some [] => true
  | some (c :: s) =>
    (c == 'T' || c == 't' || c == ' ') &&
      match afterTime? s with
      | some rest => isOffset rest
      | none => false
  | none => afterTime? s == some []

end DotMatrix.Settings
