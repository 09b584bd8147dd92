import DotMatrix.Settings.Value
import DotMatrix.Text.Hex

/-!
# Numbers in settings

Integers are decimal with an optional sign, or hexadecimal, octal or binary without one. A decimal
number does not begin with a superfluous zero. Floats have a fraction, an exponent or both. A single
underscore may stand between two digits.

* `integer?`, `float?`: the value that a word stands for, if it is a number;
* `roundsToInfinity`: the range of floats.
-/

namespace DotMatrix.Settings

/-- The digits of a number with the given base, without their underscores. Before the first digit
and after an underscore, a digit has to come. -/
def ungroup (base : Nat) : (afterDigit : Bool) → List Char → Option (List Nat)
  | true, [] => some []
  | false, [] => none
  | true, '_' :: rest => ungroup base false rest
  | _, c :: rest =>
    match Hex.value? c with
    | some d => if d < base then (ungroup base true rest).map (d :: ·) else none
    | none => none

/-- The digits of a number. -/
def digits? (base : Nat) (s : List Char) : Option (List Nat) := ungroup base false s

/-- The number with the given digits. -/
def ofDigits (base : Nat) (ds : List Nat) : Nat := ds.foldl (fun n d => base * n + d) 0

/-- The digits of a decimal number without a superfluous zero in front. -/
def decimal? (s : List Char) : Option (List Nat) :=
  match digits? 10 s with
  | some (0 :: _ :: _) => none
  | ds? => ds?

/-- Is the number negative, and what follows the sign, if there is one? -/
def splitSign : List Char → Bool × List Char
  | '-' :: rest => (true, rest)
  | '+' :: rest => (false, rest)
  | s => (false, s)

/-- The smallest integer of 128 bits with a sign. -/
def minInteger : Int := -0x80000000000000000000000000000000

/-- The largest integer of 128 bits without a sign. -/
def maxInteger : Int := 0xFFFFFFFFFFFFFFFFFFFFFFFFFFFFFFFF

/-- An integer as a value. Readers hold integers of 128 bits, with or without a sign. -/
def ofInteger (n : Int) : Value :=
  if minInteger ≤ n ∧ n ≤ maxInteger then .integer n else .tooLarge

/-- The integer that a word stands for. -/
def integer? (s : List Char) : Option Value :=
  let based (base : Nat) (rest : List Char) :=
    (digits? base rest).map fun ds => ofInteger (ofDigits base ds)
  match s with
  | '0' :: 'x' :: rest => based 16 rest
  | '0' :: 'o' :: rest => based 8 rest
  | '0' :: 'b' :: rest => based 2 rest
  | s =>
    let (negative, rest) := splitSign s
    (decimal? rest).map fun ds =>
      let n : Int := ofDigits 10 ds
      ofInteger (if negative then -n else n)

/-! ### Floats -/

/-- The number half way between the largest float and the power of two that comes after it. -/
def floatLimit : Nat := (1 <<< 1024) - (1 <<< 970)

/-- Is `n` times the `e`-th power of ten too large to be rounded to a float? With more than 310
digits before the point it is, with fewer than 300 it is not, so the power is only computed for
exponents near these. -/
def roundsToInfinity (n : Nat) (e : Int) : Bool :=
  let size : Int := (Nat.toDigits 10 n).length + e
  if n = 0 ∨ size < 300 then false
  else if 310 < size then true
  else floatLimit ≤ n * Nat.pow 10 e.toNat / Nat.pow 10 (-e).toNat

/-- The part of a word before a mark, and the part after it, if the mark occurs. -/
def splitAt (isMark : Char → Bool) (s : List Char) : List Char × Option (List Char) :=
  match s.dropWhile (!isMark ·) with
  | [] => (s, none)
  | _ :: rest => (s.takeWhile (!isMark ·), some rest)

/-- The exponent that a word stands for; zero if there is no word. -/
def exponent? : Option (List Char) → Option Int
  | none => some 0
  | some s =>
    let (negative, rest) := splitSign s
    (digits? 10 rest).map fun ds =>
      let n : Int := ofDigits 10 ds
      if negative then -n else n

/-- The digits of a fraction; none if there is no word. -/
def fraction? : Option (List Char) → Option (List Nat)
  | none => some []
  | some s => digits? 10 s

/-- The float that a word without a sign stands for. -/
def unsignedFloat? (s : List Char) : Option Value :=
  let (mantissa, exponentPart) := splitAt (fun c => c == 'e' || c == 'E') s
  let (whole, fractionPart) := splitAt (· == '.') mantissa
  if exponentPart.isNone && fractionPart.isNone then none
  else
    match decimal? whole, fraction? fractionPart, exponent? exponentPart with
    | some ds, some fs, some e =>
      let tooLarge := roundsToInfinity (ofDigits 10 (ds ++ fs)) (e - fs.length)
      some (if tooLarge then .tooLarge else .float)
    | _, _, _ => none

/-- The float that a word stands for. -/
def float? (s : List Char) : Option Value :=
  let rest := (splitSign s).2
  if rest = ['i', 'n', 'f'] ∨ rest = ['n', 'a', 'n'] then some .float else unsignedFloat? rest

end DotMatrix.Settings
