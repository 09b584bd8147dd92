import DotMatrix.Screenshot.Image
import DotMatrix.Settings.Basic

/-!
# Screenshots

The picture on the screen as an image file, in the colours that the user has chosen.
-/

namespace DotMatrix

/-- The bytes of a colour: red, green and blue. -/
def colourBytes (c : UInt32) : List UInt8 := [(c >>> 16).toUInt8, (c >>> 8).toUInt8, c.toUInt8]

/-- The colour that a palette has for a shade. -/
def Palette.colour (p : Palette) (s : Shade) : UInt32 := p[s.toFin]

/-- Shades in the colours of a palette. -/
def Palette.render (p : Palette) (shades : List Shade) : List UInt8 :=
  shades.flatMap fun s => colourBytes (p.colour s)

namespace Screenshot

/-- The picture as an image. -/
def image (p : Palette) (picture : Picture) : Image :=
  ⟨screenWidth, screenHeight, p.render picture.pixels⟩

/-- Write the picture to a file. -/
def save (volume : Volume) (path : String) (p : Palette) (picture : Picture) :
    Except FileError Volume :=
  volume.write path ⟨(image p picture).encode.toArray⟩

end Screenshot

end DotMatrix
