import DotMatrix.Cartridge.Names

/-!
# The cartridge header

A fixed part of the image describes the cartridge: title, kind, sizes, publisher. A checksum guards
it. `Header.ofImage` reads the header of an image that is long enough to have one.
-/

namespace DotMatrix.Cartridge

/-- Bytes that an image must have to hold a header. -/
def headerEnd : Nat := 0x150

/-- What the header says. -/
structure Header where
  title : String
  kind : UInt8
  romCode : UInt8
  ramCode : UInt8
  oldLicensee : UInt8
  newLicensee : UInt8 × UInt8
  version : UInt8
  checksum : UInt8
  deriving DecidableEq, Repr

namespace Header

/-- The checksum of the bytes of a header: each byte and one more are taken from zero. -/
def checksumOf (bytes : List UInt8) : UInt8 := bytes.foldl (fun sum b => sum - b - 1) 0

/-- The part of an image that the checksum guards. -/
def guardedBytes (image : ByteArray) : List UInt8 := (image.extract 0x134 0x14D).data.toList

/-- The checksum that an image should have. -/
def computedChecksum (image : ByteArray) : UInt8 := checksumOf (guardedBytes image)

/-- Can a title hold this byte? Other bytes of the title field are left out. -/
def isTitleByte (b : UInt8) : Bool := (Char.ofNat b.toNat).isAlphanum || b == 0x20

/-- The title field. -/
def titleOf (image : ByteArray) : String :=
  let field := (image.extract 0x134 0x144).data.toList
  String.ofList ((field.filter isTitleByte).map fun b => Char.ofNat b.toNat)

/-- Read the header of an image. -/
def ofImage (image : ByteArray) (h : headerEnd ≤ image.size) : Header :=
  have h : 0x150 ≤ image.size := h
  { title := titleOf image
    kind := image[0x147]
    romCode := image[0x148]
    ramCode := image[0x149]
    oldLicensee := image[0x14B]
    newLicensee := (image[0x144], image[0x145])
    version := image[0x14C]
    checksum := image[0x14D] }

variable (h : Header)

/-- The size of the ROM in KiB: 32, doubled as often as the code says. It is counted in 64 bits and
is zero for codes that leave none of them. -/
def romKib : Nat := if h.romCode.toNat < 64 then (32 <<< h.romCode.toNat) % UInt64.size else 0

/-- The size of the RAM in KiB. -/
def ramKib : Nat :=
  match h.ramCode.toNat with
  | 2 => 8
  | 3 => 32
  | 4 => 128
  | 5 => 64
  | _ => 0

/-- The name of the kind of cartridge. -/
def kindName : String := Cartridge.kindName h.kind

/-- The publisher. One value of the old code refers to the new code. -/
def licensee : String :=
  match h.oldLicensee.toNat with
  | 0x00 => "None"
  | 0x01 => "Nintendo"
  | 0x33 => publisherName h.newLicensee.1 h.newLicensee.2
  | _ => "Unknown"

/-- Does a battery keep the RAM alive? -/
def hasBattery : Bool := batteryKinds.contains h.kind

end Header

/-- How a cartridge decodes addresses. -/
inductive Mapper
  /-- The ROM is wired straight to the address space; there is no RAM. -/
  | direct
  /-- Banks of ROM and RAM are switched by writing to ROM addresses. -/
  | switched
  /-- A kind that the machine does not know; it is treated as `switched`. -/
  | unsupported (kind : UInt8)
  deriving DecidableEq, Repr

/-- The mapper of a kind of cartridge. -/
def Mapper.ofKind (kind : UInt8) : Mapper :=
  if kind = 0 then .direct else if kind ≤ 3 then .switched else .unsupported kind

end DotMatrix.Cartridge
