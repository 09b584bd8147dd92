import DotMatrix.Video.Basic

/-!
# Background and window

Both are planes of 256 by 256 pixels, made of 32 by 32 tiles of eight by eight pixels. The
background plane is scrolled and wraps round. The window plane, if it is on, covers the screen from
its corner to the right and down; it has a row counter of its own, which goes on only after lines
that showed it.

`Video.colourAt` is the colour of one column of the current line.
-/

namespace DotMatrix.Video

variable (v : Video)

/-- Where a tile map begins. -/
def mapBase (high : Bool) : Nat := if high then 0x1C00 else 0x1800

/-- Where the pattern of a background tile begins. In the second numbering tile 0 lies in the
middle and the numbers are signed. -/
def tileBase (tile : UInt8) : Nat :=
  if v.tilesFromStart then 16 * tile.toNat else 0x800 + 16 * (tile + 0x80).toNat

theorem tileBase_lt (tile : UInt8) : v.tileBase tile + 16 ≤ 0x1800 := by
  have h1 := tile.toNat_lt
  have h2 := (tile + 0x80).toNat_lt
  unfold tileBase
  split <;> omega

/-- The tile at a pixel of a plane. -/
def tileAt (high : Bool) (x y : UInt8) : UInt8 :=
  v.ram.get ⟨mapBase high + y.toNat / 8 * 32 + x.toNat / 8, by
    have hx := x.toNat_lt
    have hy := y.toNat_lt
    unfold mapBase
    split <;> omega⟩

/-- The colour of a pixel of a plane. -/
def planeColour (high : Bool) (x y : UInt8) : Colour :=
  let tile := v.tileAt high x y
  have h := v.tileBase_lt tile
  let lower := v.ram.get ⟨v.tileBase tile + 2 * (y.toNat % 8), by omega⟩
  let upper := v.ram.get ⟨v.tileBase tile + 2 * (y.toNat % 8) + 1, by omega⟩
  let bit := 7 - x.toNat % 8
  .ofBits (Byte.bit upper bit) (Byte.bit lower bit)

/-- The first column of the window. Below seven the register counts round to columns that do not
exist. -/
def windowStart : UInt8 := v.windowX - 7

/-- Does the line have a window? -/
def windowReached : Bool := v.windowOn && v.windowY.toNat ≤ v.line

/-- Does a column of the line show the window? -/
def showsWindow (x : Fin 160) : Bool := v.windowReached && v.windowStart.toNat ≤ x.val

/-- Does any column of the line show the window? -/
def drawsWindow : Bool := v.backgroundOn && v.windowReached && v.windowStart.toNat < 160

/-- The colour of a column of the line under the sprites. Colour 0 if background and window are
switched off. -/
def colourAt (x : Fin 160) : Colour :=
  let column := UInt8.ofNat x.val
  if v.backgroundOn then
    if v.showsWindow x then v.planeColour v.windowMapHigh (column - v.windowStart) v.windowLine
    else
      v.planeColour v.backgroundMapHigh (column + v.scrollX) (UInt8.ofNat v.line + v.scrollY)
  else .clear

end DotMatrix.Video
