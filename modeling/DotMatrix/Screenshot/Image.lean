import DotMatrix.Screenshot.Checksum

/-!
# Image files

An image of true colours as a PNG file: a signature and chunks. The pixels are kept row by row, each
row after a byte that says how it was filtered, which is not at all, and they are not compressed
but stored in blocks.

`Image.encode` writes such a file and `Image.decode?` reads it.
-/

namespace DotMatrix.Screenshot

/-- A rectangle of pixels: three bytes each, row by row. -/
structure Image where
  width : Nat
  height : Nat
  rgb : List UInt8
  deriving DecidableEq

/-! ### Pieces of a file -/

/-- A number in four bytes, the highest first. -/
def bigEndian (n : UInt32) : List UInt8 :=
  [(n >>> 24).toUInt8, (n >>> 16).toUInt8, (n >>> 8).toUInt8, n.toUInt8]

/-- The first bytes of every PNG file. -/
def signature : List UInt8 := [0x89, 0x50, 0x4E, 0x47, 0x0D, 0x0A, 0x1A, 0x0A]

/-- A chunk: the length of its data, its kind, the data and a checksum. -/
def chunk (kind : List UInt8) (data : List UInt8) : List UInt8 :=
  bigEndian (UInt32.ofNat data.length) ++ kind ++ data ++ bigEndian (crc32 (kind ++ data))

/-- Bytes that a stored block can hold. -/
def blockSize : Nat := 65535

/-- A stored block: is it the last, the number of its bytes, the complement of the number, and the
bytes. -/
def block (isLast : Bool) (bytes : List UInt8) : List UInt8 :=
  let n := UInt16.ofNat bytes.length
  [if isLast then 1 else 0, n.toUInt8, (n >>> 8).toUInt8, (~~~n).toUInt8, (~~~n >>> 8).toUInt8] ++
    bytes

/-- Bytes in up to `fuel` stored blocks, all of them full but the last. -/
def blocks : (fuel : Nat) → List UInt8 → List UInt8
  | 0, bytes => block true bytes
  | fuel + 1, bytes =>
    if bytes.length ≤ blockSize then block true bytes
    else block false (bytes.take blockSize) ++ blocks fuel (bytes.drop blockSize)

/-- Stored blocks between the header and the checksum of a compressed stream. -/
def stream (bytes : List UInt8) : List UInt8 :=
  [0x78, 0x01] ++ blocks bytes.length bytes ++ bigEndian (adler32 bytes)

/-! ### Images -/

namespace Image

/-- Bytes of a row. -/
def rowSize (image : Image) : Nat := 3 * image.width

/-- Rows of a number of bytes, each after a byte that says that it is not filtered. -/
def rows (size : Nat) : (count : Nat) → List UInt8 → List UInt8
  | 0, _ => []
  | count + 1, bytes => 0 :: (bytes.take size ++ rows size count (bytes.drop size))

/-- What the first chunk says: the size, eight bits for each of three colours, and the usual
methods of compression, filtering and ordering. -/
def header (image : Image) : List UInt8 :=
  bigEndian (UInt32.ofNat image.width) ++ bigEndian (UInt32.ofNat image.height) ++ [8, 2, 0, 0, 0]

/-- The file of an image. -/
def encode (image : Image) : List UInt8 :=
  signature ++ chunk [0x49, 0x48, 0x44, 0x52] image.header ++
    chunk [0x49, 0x44, 0x41, 0x54] (stream (rows image.rowSize image.height image.rgb)) ++
    chunk [0x49, 0x45, 0x4E, 0x44] []

/-- The number in four bytes, the highest first. -/
def readBigEndian (bytes : List UInt8) : Nat :=
  (bytes.take 4).foldl (fun n b => 256 * n + b.toNat) 0

/-- The bytes in up to `fuel` stored blocks. -/
def readBlocks : (fuel : Nat) → List UInt8 → List UInt8
  | fuel + 1, isLast :: low :: high :: _ :: _ :: rest =>
    let size := 256 * high.toNat + low.toNat
    rest.take size ++ if isLast = 1 then [] else readBlocks fuel (rest.drop size)
  | _, _ => []

/-- Rows of a number of bytes without the byte before each of them. -/
def readRows (size : Nat) : (count : Nat) → List UInt8 → List UInt8
  | 0, _ => []
  | count + 1, bytes =>
    let row := bytes.drop 1
    row.take size ++ readRows size count (row.drop size)

/-- The image that a file may have been written for: the size is at offset 16, and the blocks are
at offset 43. -/
def guess (file : List UInt8) : Image :=
  let width := readBigEndian (file.drop 16)
  let height := readBigEndian (file.drop 20)
  let bytes := readBlocks file.length (file.drop 43)
  ⟨width, height, readRows (3 * width) height bytes⟩

/-- The image of a file that `encode` has written. -/
def decode? (file : List UInt8) : Option Image :=
  if (guess file).encode = file then some (guess file) else none

theorem encode_of_decode? {file : List UInt8} {image : Image} (h : decode? file = some image) :
    image.encode = file := by
  unfold decode? at h
  split at h
  · next hg => exact Option.some.inj h ▸ hg
  · contradiction

end Image

end DotMatrix.Screenshot
