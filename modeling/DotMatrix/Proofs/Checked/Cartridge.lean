import DotMatrix.Cartridge.Basic
import DotMatrix.Proofs.Checked.Arithmetic

/-!
# Cartridges, checked

A cartridge computes places in ROM and RAM from its switches and an address. The places may lie
beyond the end of the storage, which then reads as ones; but no sum or product on the way to them is
out of range, whatever the switches say. The header is read at fixed places of an image that is long
enough.
-/

namespace DotMatrix.Cartridge

variable (c : Cartridge)

/-! ### Windows -/

/-- A byte of a bank of ROM. -/
def bankByte? (bank offset : Nat) : Option UInt8 := do
  let i ← Checked.add 64 (← Checked.mul 64 romBankSize bank) offset
  some (c.romByte i)

/-- A read at an address in the ROM windows. -/
def readRom? (a : Nat) : Option UInt8 :=
  match c.mapper with
  | .direct => some (c.romByte a)
  | _ =>
    if a < romBankSize then c.bankByte? c.lowBank a
    else do c.bankByte? c.highBank (← Checked.sub a romBankSize)

/-- The cell of RAM behind a place in the RAM window. -/
def ramIndex? (offset : Nat) : Option Nat :=
  if c.wiring.ramSwitched && c.banks.sharedEverywhere then do
    Checked.add 64 (← Checked.mul 64 ramBankSize c.banks.shared.toNat) offset
  else some offset

/-- A read in the RAM window. -/
def readRam? (offset : Nat) : Option UInt8 :=
  if c.ramVisible then do
    let i ← c.ramIndex? offset
    some (if h : i < c.ram.size then c.ram[i] else 0xFF)
  else some 0xFF

/-- A write in the RAM window. -/
def writeRam? (offset : Nat) (v : UInt8) : Option Cartridge :=
  if c.ramVisible then do
    let i ← c.ramIndex? offset
    some (if h : i < c.ram.size then { c with ram := c.ram.set i v h, dirty := true } else c)
  else some c

theorem upperBank_lt : c.upperBank < 2 ^ 13 := by
  have h := (c.banks.shared &&& c.wiring.upperMask).toNat_lt
  unfold upperBank
  omega

theorem lowBank_lt : c.lowBank < 2 ^ 13 := by
  unfold lowBank
  split
  · exact c.upperBank_lt
  · decide

theorem highBank_lt : c.highBank < 2 ^ 13 := by
  have hl := c.banks.lower.toNat_lt
  exact Nat.or_lt_two_pow (by omega) c.upperBank_lt

theorem bankByte?_eq {bank offset : Nat} (hb : bank < 2 ^ 13) (ho : offset < 2 ^ 16) :
    c.bankByte? bank offset = some (c.romByte (romBankSize * bank + offset)) := by
  have hsize : romBankSize = 0x4000 := rfl
  unfold bankByte?
  rw [hsize, Checked.mul_eq (by omega)]
  simp only [Option.bind_eq_bind, Option.bind_some]
  rw [Checked.add_eq (by omega)]
  rfl

theorem readRom?_eq (a : Fin 0x8000) : c.readRom? a.val = some (c.readRom a) := by
  have ha := a.isLt
  have ha' : a.val - romBankSize < 2 ^ 16 := by omega
  have hbanks : (if a.val < romBankSize then c.bankByte? c.lowBank a.val
      else do c.bankByte? c.highBank (← Checked.sub a.val romBankSize)) =
      some (if a.val < romBankSize then c.romByte (romBankSize * c.lowBank + a.val)
        else c.romByte (romBankSize * c.highBank + (a.val - romBankSize))) := by
    rcases Nat.lt_or_ge a.val romBankSize with hlt | hge
    · rw [if_pos hlt, if_pos hlt, c.bankByte?_eq c.lowBank_lt (by omega)]
    · rw [if_neg (Nat.not_lt.2 hge), if_neg (Nat.not_lt.2 hge), Checked.sub_eq hge,
        Option.bind_eq_bind, Option.bind_some, c.bankByte?_eq c.highBank_lt ha']
  unfold readRom? readRom
  cases c.mapper with
  | direct => rfl
  | switched => exact hbanks
  | unsupported kind => exact hbanks

theorem ramIndex?_eq (i : Fin 0x2000) : c.ramIndex? i.val = some (c.ramIndex i) := by
  have hi := i.isLt
  have hs := c.banks.shared.toNat_lt
  have hsize : ramBankSize = 0x2000 := rfl
  unfold ramIndex? ramIndex
  split
  · rw [hsize, Checked.mul_eq (by omega)]
    simp only [Option.bind_eq_bind, Option.bind_some]
    rw [Checked.add_eq (by omega)]
  · rfl

theorem readRam?_eq (i : Fin 0x2000) : c.readRam? i.val = some (c.readRam i) := by
  unfold readRam? readRam
  split
  · rw [ramIndex?_eq]
    rfl
  · rfl

theorem writeRam?_eq (i : Fin 0x2000) (v : UInt8) :
    c.writeRam? i.val v = some (c.writeRam i v) := by
  unfold writeRam? writeRam
  split
  · rw [ramIndex?_eq]
    rfl
  · rfl

/-! ### Images -/

/-- Read the header of an image. -/
def Header.ofImage? (image : ByteArray) : Option Header := do
  Checked.require (0x144 ≤ image.size)
  some
    { title := titleOf image
      kind := ← image[0x147]?
      romCode := ← image[0x148]?
      ramCode := ← image[0x149]?
      oldLicensee := ← image[0x14B]?
      newLicensee := (← image[0x144]?, ← image[0x145]?)
      version := ← image[0x14C]?
      checksum := ← image[0x14D]? }

/-- The cartridge with a given image, if its header is sound. -/
def ofImage? (image : ByteArray) : Option (Except ImageError Cartridge) :=
  if image.size < headerEnd then some (.error (.tooSmall image.size))
  else do
    Checked.require (0x14D ≤ image.size)
    let computed := Header.computedChecksum image
    let expected ← image[0x14D]?
    if computed = expected then
      let header ← Header.ofImage? image
      let ramSize ← Checked.mul 64 header.ramKib 1024
      some
        (.ok
          { rom := image
            ram := ⟨Array.replicate ramSize 0⟩
            header
            mapper := .ofKind header.kind
            wiring := .ofSizes header.romKib header.ramKib
            banks := .powerOn
            savePath := none
            dirty := false })
    else some (.error (.checksumMismatch expected computed))

theorem Header.ofImage?_eq {image : ByteArray} (h : headerEnd ≤ image.size) :
    ofImage? image = some (ofImage image h) := by
  have hsize : 0x150 ≤ image.size := h
  unfold ofImage? ofImage
  rw [Checked.require_eq (by omega), getElem?_pos image 0x147 (by omega),
    getElem?_pos image 0x148 (by omega), getElem?_pos image 0x149 (by omega),
    getElem?_pos image 0x14B (by omega), getElem?_pos image 0x144 (by omega),
    getElem?_pos image 0x145 (by omega), getElem?_pos image 0x14C (by omega),
    getElem?_pos image 0x14D (by omega)]
  rfl

theorem Header.ramKib_le (h : Header) : h.ramKib ≤ 128 := by
  unfold ramKib
  split <;> decide

theorem ofImage?_eq (image : ByteArray) : ofImage? image = some (ofImage image) := by
  unfold ofImage? ofImage
  by_cases h : headerEnd ≤ image.size
  · have hsize : 0x150 ≤ image.size := h
    have hram := (Header.ofImage image h).ramKib_le
    rw [if_neg (Nat.not_lt.2 h), dif_pos h, Checked.require_eq (by omega),
      getElem?_pos image 0x14D (by omega), Header.ofImage?_eq h]
    simp only [Option.bind_eq_bind, Option.bind_some]
    rw [Checked.mul_eq (by omega), Option.bind_some]
    show (if Header.computedChecksum image = (Header.ofImage image h).checksum then _ else _) = _
    split <;> rfl
  · rw [if_pos (Nat.lt_of_not_le h), dif_neg h]

end DotMatrix.Cartridge
