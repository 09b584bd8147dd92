import DotMatrix.Video.Background

/-!
# Drawing a line

A line is its background colours, seen through the background palette, with the selected sprites
painted over them in drawing order. A sprite's colour 0 is transparent, and a sprite that lies
behind the background shows only where the background has colour 0.

`Video.drawLine` draws the current line into the picture.
-/

namespace DotMatrix.Video

variable (v : Video)

/-- The colours of the line under the sprites. -/
def lineColours : Vector Colour 160 := Vector.ofFn v.colourAt

/-- The two pattern bytes of a sprite's row. -/
def spritePattern (tile : UInt8) (row : Fin 16) : UInt8 × UInt8 :=
  have h := tile.toNat_lt
  (v.ram.get ⟨16 * tile.toNat + 2 * row.val, by omega⟩,
    v.ram.get ⟨16 * tile.toNat + 2 * row.val + 1, by omega⟩)

/-- The colour of a sprite's column, counted from its left edge. -/
def spriteColour (s : Sprite) (pattern : UInt8 × UInt8) (column : Fin 8) : Colour :=
  let bit := if s.flippedX then column.val else 7 - column.val
  .ofBits (Byte.bit pattern.2 bit) (Byte.bit pattern.1 bit)

/-- The column of the screen on which a sprite's column falls, if it is on the screen. -/
def screenColumn? (s : Sprite) (column : Fin 8) : Option (Fin 160) :=
  let x := s.x.toNat + column.val
  if h : 8 ≤ x ∧ x < 168 then some ⟨x - 8, by omega⟩ else none

/-- Paint one column of a sprite. -/
def paintColumn (under : Vector Colour 160) (s : Sprite) (pattern : UInt8 × UInt8) (row : Row)
    (column : Fin 8) : Row :=
  let colour := spriteColour s pattern column
  match screenColumn? s column with
  | none => row
  | some x =>
    if colour = .clear ∨ (s.behind ∧ under[x] ≠ .clear) then row
    else
      let palette := if s.secondPalette then v.objectPalette1 else v.objectPalette0
      row.set x (shadeIn palette colour)

/-- Paint a sprite's row on the line. -/
def paintSprite (under : Vector Colour 160) (row : Row) (s : Sprite) : Row :=
  if h : s.Covers v.tallSprites v.line then
    let tile := s.firstTile v.tallSprites
    let pattern := v.spritePattern tile (s.patternRow v.tallSprites v.line h)
    (List.finRange 8).foldl (v.paintColumn under s pattern) row
  else row

/-- The shades of the line. -/
def lineRow : Row :=
  let under := v.lineColours
  let row := under.map (shadeIn v.backgroundPalette)
  if v.spritesOn then v.sprites.foldl (v.paintSprite under) row else row

/-- Draw the current line into the picture, if the screen has it. -/
def drawLine : Video :=
  if h : v.line < 144 then
    { v with
      picture := v.picture.set v.line v.lineRow
      windowLine := if v.drawsWindow then v.windowLine + 1 else v.windowLine }
  else v

end DotMatrix.Video
