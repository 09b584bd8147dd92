import DotMatrix.Text.Hex

/-!
# Transcripts

The text for bytes that a program has sent: printable ASCII characters, spaces and line feeds stand
for themselves, any other byte is given by its number.
-/

namespace DotMatrix.Transcript

/-- Does the byte stand for itself? -/
def isPlain (b : UInt8) : Bool := (0x20 ≤ b && b < 0x7F) || b == 0x0A

/-- The text for a byte. -/
def ofByte (b : UInt8) : List Char :=
  if isPlain b then [Char.ofNat b.toNat] else '\\' :: 'x' :: Hex.byteDigits b

/-- The text for bytes. -/
def ofBytes (bytes : List UInt8) : String := String.ofList (bytes.flatMap ofByte)

end DotMatrix.Transcript
