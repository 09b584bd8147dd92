/-!
# Checksums of image files

Two checksums guard a PNG file: CRC-32 each of its chunks, and Adler-32 the pixels.
-/

namespace DotMatrix.Screenshot

/-- Divide the lowest bits of a remainder by the CRC-32 polynomial, bit by bit. -/
def crcBits : Nat → UInt32 → UInt32
  | 0, r => r
  | n + 1, r => crcBits n ((r >>> 1) ^^^ (if r &&& 1 = 1 then 0xEDB88320 else 0))

/-- Take a byte into a remainder. -/
def crcByte (r : UInt32) (b : UInt8) : UInt32 := crcBits 8 (r ^^^ b.toUInt32)

/-- The CRC-32 checksum. -/
def crc32 (bytes : List UInt8) : UInt32 := ~~~bytes.foldl crcByte 0xFFFFFFFF

/-- The modulus of Adler-32: the largest prime of 16 bits. -/
def adlerModulus : Nat := 65521

/-- Take a byte into the sum of the bytes and the sum of these sums. -/
def adlerByte (s : Nat × Nat) (b : UInt8) : Nat × Nat :=
  let a := (s.1 + b.toNat) % adlerModulus
  (a, (s.2 + a) % adlerModulus)

/-- The Adler-32 checksum. -/
def adler32 (bytes : List UInt8) : UInt32 :=
  let (a, b) := bytes.foldl adlerByte (1, 0)
  UInt32.ofNat (65536 * b + a)

end DotMatrix.Screenshot
