import DotMatrix.Word

/-!
# Colours and shades

Tiles hold colour numbers 0 to 3. A palette register turns each into one of the four shades that
the screen can show, two bits per colour number. `Picture` is the whole screen, row by row.
-/

namespace DotMatrix

/-- A colour number, as tiles hold it. Colour 0 is transparent in sprites. -/
abbrev Colour := Fin 4

/-- Colour 0. -/
def Colour.clear : Colour := ⟨0, by decide⟩

/-- The colour number with the given upper and lower bit. -/
def Colour.ofBits (upper lower : Bool) : Colour :=
  match upper, lower with
  | false, false => 0
  | false, true => 1
  | true, false => 2
  | true, true => 3

/-- A shade of the screen. -/
inductive Shade
  | white | lightGray | darkGray | black
  deriving DecidableEq, Repr, Inhabited

namespace Shade

/-- The shade in the lowest two bits of a number. -/
def ofIndex (n : Nat) : Shade :=
  match n % 4 with
  | 0 => .white
  | 1 => .lightGray
  | 2 => .darkGray
  | _ => .black

/-- The shade's number, the lightest first. -/
def toFin : Shade → Fin 4
  | .white => 0
  | .lightGray => 1
  | .darkGray => 2
  | .black => 3

/-- The usual rendering of the shade: red, green and blue, eight bits each. -/
def rgb : Shade → UInt32
  | .white => 0xFFFFFF
  | .lightGray => 0xAAAAAA
  | .darkGray => 0x555555
  | .black => 0x000000

@[simp] theorem ofIndex_toFin (s : Shade) : ofIndex s.toFin.val = s := by
  cases s <;> rfl

end Shade

/-- The shade that a palette register gives to a colour number. -/
def shadeIn (palette : UInt8) (c : Colour) : Shade := .ofIndex (palette.toNat >>> (2 * c.val))

/-- Columns of the screen. -/
def screenWidth : Nat := 160

/-- Rows of the screen. -/
def screenHeight : Nat := 144

/-- One row of the screen. -/
abbrev Row := Vector Shade 160

/-- The whole screen. -/
abbrev Picture := Vector Row 144

namespace Picture

/-- A screen of one shade. -/
def filled (s : Shade) : Picture := Vector.replicate 144 (Vector.replicate 160 s)

/-- The pixels row by row. -/
def pixels (p : Picture) : List Shade := p.toList.flatMap Vector.toList

/-- The pixel with the given number, counted row by row. -/
def pixel? (p : Picture) (i : Nat) : Option Shade :=
  p[i / 160]?.bind fun row => row[i % 160]?

end Picture

end DotMatrix
