import DotMatrix.ObjectTransfer
import DotMatrix.Serial
import DotMatrix.Timer
import DotMatrix.Video.Basic

/-!
# The address space

| from | to   | what                                           |
|------|------|------------------------------------------------|
| 0000 | 7FFF | cartridge ROM, in two windows                  |
| 8000 | 9FFF | video RAM                                      |
| A000 | BFFF | cartridge RAM                                  |
| C000 | DFFF | work RAM                                       |
| E000 | FDFF | work RAM again, without its last 512 bytes     |
| FE00 | FE9F | object memory                                  |
| FEA0 | FEFF | nothing                                        |
| FF00 | FF7F | device registers                               |
| FF80 | FFFE | high RAM                                       |
| FFFF | FFFF | the interrupt enable register                  |

`Location.ofAddress` is this table; reads and writes both go through it.
-/

namespace DotMatrix

/-- The device registers that a program reaches through memory. -/
inductive DeviceRegister
  | joypad
  | serial (register : Serial.Register)
  | timer (register : Timer.Register)
  | interruptFlags
  | video (register : Video.Register)
  deriving DecidableEq, Repr

/-- The register at an offset in the page of device registers. At other offsets there is none. -/
def DeviceRegister.ofOffset? (offset : Nat) : Option DeviceRegister :=
  match offset with
  | 0x00 => some .joypad
  | 0x01 => some (.serial .data)
  | 0x02 => some (.serial .control)
  | 0x04 => some (.timer .divider)
  | 0x05 => some (.timer .counter)
  | 0x06 => some (.timer .modulo)
  | 0x07 => some (.timer .control)
  | 0x0F => some .interruptFlags
  | 0x40 => some (.video .control)
  | 0x41 => some (.video .status)
  | 0x42 => some (.video .scrollY)
  | 0x43 => some (.video .scrollX)
  | 0x44 => some (.video .line)
  | 0x45 => some (.video .lineCompare)
  | 0x46 => some (.video .transfer)
  | 0x47 => some (.video .backgroundPalette)
  | 0x48 => some (.video .objectPalette0)
  | 0x49 => some (.video .objectPalette1)
  | 0x4A => some (.video .windowY)
  | 0x4B => some (.video .windowX)
  | _ => none

/-- The register at an address, if there is one. -/
def DeviceRegister.ofAddress? (a : UInt16) : Option DeviceRegister :=
  if 0xFF00 ≤ a.toNat ∧ a.toNat < 0xFF80 then ofOffset? (a.toNat - 0xFF00) else none

/-- What an address leads to. -/
inductive Location
  | rom (a : Fin 0x8000)
  | videoRam (i : Fin 0x2000)
  | cartridgeRam (i : Fin 0x2000)
  | workRam (i : Fin 0x2000)
  | objects (i : Fin 160)
  /-- Addresses behind which there is nothing. -/
  | nothing
  | device (r : DeviceRegister)
  /-- A place in the page of device registers without a register. -/
  | unused
  | highRam (i : Fin 0x7F)
  | interruptEnable
  deriving DecidableEq, Repr

/-- What a place in the page of device registers leads to. -/
def Location.ofOffset (offset : Nat) : Location :=
  match DeviceRegister.ofOffset? offset with
  | some r => .device r
  | none => .unused

/-- What an address leads to. -/
def Location.ofAddress (a : UInt16) : Location :=
  let n := a.toNat
  if _ : n < 0x8000 then .rom ⟨n, by omega⟩
  else if _ : n < 0xA000 then .videoRam ⟨n - 0x8000, by omega⟩
  else if _ : n < 0xC000 then .cartridgeRam ⟨n - 0xA000, by omega⟩
  else if _ : n < 0xE000 then .workRam ⟨n - 0xC000, by omega⟩
  else if _ : n < 0xFE00 then .workRam ⟨n - 0xE000, by omega⟩
  else if _ : n < 0xFEA0 then .objects ⟨n - 0xFE00, by omega⟩
  else if n < 0xFF00 then .nothing
  else if n < 0xFF80 then .ofOffset (n - 0xFF00)
  else if _ : n < 0xFFFF then .highRam ⟨n - 0xFF80, by omega⟩
  else .interruptEnable

end DotMatrix
