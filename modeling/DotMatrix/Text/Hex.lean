/-!
# Hexadecimal text

Bytes are written with two upper-case digits and words with four. `escape` is the number inside a
character escape: lower-case digits, as few as the number needs.
-/

namespace DotMatrix.Hex

/-- The upper-case digit for a value below sixteen. -/
def digit (n : Nat) : Char :=
  if n < 10 then Char.ofNat ('0'.toNat + n) else Char.ofNat ('A'.toNat + (n - 10))

/-- The two digits of a byte. -/
def byteDigits (b : UInt8) : List Char := [digit (b.toNat / 16), digit (b.toNat % 16)]

/-- The four digits of a word. -/
def wordDigits (w : UInt16) : List Char :=
  [digit (w.toNat / 4096), digit (w.toNat / 256 % 16), digit (w.toNat / 16 % 16),
    digit (w.toNat % 16)]

/-- A byte as two digits. -/
def byte (b : UInt8) : String := String.ofList (byteDigits b)

/-- A word as four digits. -/
def word (w : UInt16) : String := String.ofList (wordDigits w)

/-- The value of a digit of either case. -/
def value? (c : Char) : Option Nat :=
  if c.isDigit then some (c.toNat - '0'.toNat)
  else if 'a' ≤ c ∧ c ≤ 'f' then some (c.toNat - 'a'.toNat + 10)
  else if 'A' ≤ c ∧ c ≤ 'F' then some (c.toNat - 'A'.toNat + 10)
  else none

/-- A number in lower-case digits without leading zeros. -/
def escape (n : Nat) : List Char := Nat.toDigits 16 n

end DotMatrix.Hex
