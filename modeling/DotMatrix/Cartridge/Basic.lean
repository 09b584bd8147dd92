import DotMatrix.Cartridge.Header
import DotMatrix.Word

/-!
# Cartridges and their banks

The processor sees two windows of ROM and one of RAM. Four switches, written through ROM addresses,
choose what the windows show:

* RAM is visible while the last value written to the first switch ends in `A`;
* the second switch holds the lower five bits of the bank in the upper ROM window;
* the third holds two bits that serve as the upper bits of the ROM bank on large ROMs and as the
  bank of a RAM of 32 KiB;
* the fourth says whether those two bits also act on the lower ROM window and on RAM.

How many bits of the second and third switch are connected depends on the size of the ROM.
-/

namespace DotMatrix

namespace Cartridge

/-- Bytes in a ROM bank. -/
def romBankSize : Nat := 0x4000

/-- Bytes in a RAM bank. -/
def ramBankSize : Nat := 0x2000

/-- Which bits of the switches are connected. -/
structure Wiring where
  /-- Bits of the lower part of the ROM bank. -/
  lowerMask : UInt8
  /-- Bits of the shared switch that reach the ROM. -/
  upperMask : UInt8
  /-- Does the shared switch reach the RAM? -/
  ramSwitched : Bool
  deriving DecidableEq, Repr

/-- The wiring for a size of ROM and a size of RAM. -/
def Wiring.ofSizes (romKib ramKib : Nat) : Wiring :=
  { lowerMask :=
      match romKib with
      | 32 => 0x01
      | 64 => 0x03
      | 128 => 0x07
      | 256 => 0x0F
      | _ => 0x1F
    upperMask :=
      match romKib with
      | 1024 => 0x01
      | 2048 => 0x03
      | _ => 0x00
    ramSwitched := ramKib == 32 }

/-- The positions of the four switches. -/
structure Banks where
  ramEnabled : Bool
  /-- The lower bits of the bank in the upper ROM window. -/
  lower : UInt8
  /-- Two bits shared by ROM and RAM. -/
  shared : UInt8
  /-- Do the shared bits act on the lower ROM window and on RAM? -/
  sharedEverywhere : Bool
  deriving DecidableEq, Repr

/-- The switches when power comes on. -/
def Banks.powerOn : Banks := ⟨false, 1, 0, false⟩

end Cartridge

/-- A cartridge. -/
structure Cartridge where
  rom : ByteArray
  ram : ByteArray
  header : Cartridge.Header
  mapper : Cartridge.Mapper
  wiring : Cartridge.Wiring
  banks : Cartridge.Banks
  /-- Where the RAM is kept while power is off. -/
  savePath : Option String
  /-- Has RAM been written since it was last saved? -/
  dirty : Bool

namespace Cartridge

/-- Why an image is not that of a cartridge. -/
inductive ImageError
  | tooSmall (size : Nat)
  | checksumMismatch (expected computed : UInt8)
  deriving DecidableEq, Repr

/-- The cartridge with a given image, if its header is sound. -/
def ofImage (image : ByteArray) : Except ImageError Cartridge :=
  if h : headerEnd ≤ image.size then
    let header := Header.ofImage image h
    let computed := Header.computedChecksum image
    if computed = header.checksum then
      .ok
        { rom := image
          ram := ⟨Array.replicate (header.ramKib * 1024) 0⟩
          header
          mapper := .ofKind header.kind
          wiring := .ofSizes header.romKib header.ramKib
          banks := .powerOn
          savePath := none
          dirty := false }
    else .error (.checksumMismatch header.checksum computed)
  else .error (.tooSmall image.size)

variable (c : Cartridge)

/-- The upper bits of the ROM bank. -/
def upperBank : Nat := 32 * (c.banks.shared &&& c.wiring.upperMask).toNat

/-- The bank in the lower ROM window. -/
def lowBank : Nat := if c.banks.sharedEverywhere then c.upperBank else 0

/-- The bank in the upper ROM window. -/
def highBank : Nat := c.banks.lower.toNat ||| c.upperBank

/-- A byte of the ROM. Beyond its end nothing drives the lines, which then read as ones. -/
def romByte (i : Nat) : UInt8 := if h : i < c.rom.size then c.rom[i] else 0xFF

/-- A read in the ROM windows. -/
def readRom (a : Fin 0x8000) : UInt8 :=
  match c.mapper with
  | .direct => c.romByte a.val
  | _ =>
    if a.val < romBankSize then c.romByte (romBankSize * c.lowBank + a.val)
    else c.romByte (romBankSize * c.highBank + (a.val - romBankSize))

/-- The cell of RAM behind a place in the RAM window. -/
def ramIndex (i : Fin 0x2000) : Nat :=
  if c.wiring.ramSwitched && c.banks.sharedEverywhere then
    ramBankSize * c.banks.shared.toNat + i.val
  else i.val

/-- Does the RAM window lead to RAM? -/
def ramVisible : Bool := c.mapper != .direct && c.banks.ramEnabled && !c.ram.isEmpty

/-- A read in the RAM window. -/
def readRam (i : Fin 0x2000) : UInt8 :=
  if c.ramVisible then
    if h : c.ramIndex i < c.ram.size then c.ram[c.ramIndex i] else 0xFF
  else 0xFF

/-- The switches after a write to a ROM address. Zero in the second switch counts as one; this is
decided before the bits that are not connected are dropped. -/
def Banks.write (b : Banks) (wiring : Wiring) (a : Fin 0x8000) (v : UInt8) : Banks :=
  match a.val / 0x2000 with
  | 0 => { b with ramEnabled := v &&& 0x0F == 0x0A }
  | 1 => { b with lower := if v &&& 0x1F = 0 then 1 else v &&& wiring.lowerMask }
  | 2 => { b with shared := v &&& 0x03 }
  | _ => { b with sharedEverywhere := Byte.bit v 0 }

/-- A write in the ROM windows. -/
def writeRom (a : Fin 0x8000) (v : UInt8) : Cartridge :=
  match c.mapper with
  | .direct => c
  | _ => { c with banks := c.banks.write c.wiring a v }

/-- A write in the RAM window. -/
def writeRam (i : Fin 0x2000) (v : UInt8) : Cartridge :=
  if c.ramVisible then
    let index := c.ramIndex i
    if h : index < c.ram.size then { c with ram := c.ram.set index v h, dirty := true } else c
  else c

end Cartridge

end DotMatrix
