import DotMatrix.Word

/-!
# The register file

Eight 8-bit registers and two pointers. The flag register F holds four flags and nothing else, so
its lower half reads as zero whatever is written to it.

* `Flags`, `Flags.toByte`, `Flags.ofByte`;
* `ByteRegister` and `PairRegister`, the registers that instructions name as operands;
* `Register`, all fourteen names, with `Registers.read` and `Registers.write` on words.
-/

namespace DotMatrix

/-- The four processor flags. -/
structure Flags where
  zero : Bool
  subtract : Bool
  halfCarry : Bool
  carry : Bool
  deriving DecidableEq, Repr

namespace Flags

/-- All flags off. -/
def off : Flags := ⟨false, false, false, false⟩

/-- The flags as register F shows them: the upper four bits, zero flag first. -/
def toByte (f : Flags) : UInt8 :=
  (if f.zero then 0x80 else 0) ||| (if f.subtract then 0x40 else 0) |||
    (if f.halfCarry then 0x20 else 0) ||| (if f.carry then 0x10 else 0)

/-- The flags in the upper four bits of a byte; the lower four are dropped. -/
def ofByte (b : UInt8) : Flags := ⟨Byte.bit b 7, Byte.bit b 6, Byte.bit b 5, Byte.bit b 4⟩

/-- Change the flags for which a value is given and keep the others. -/
def update (f : Flags) (zero subtract halfCarry carry : Option Bool) : Flags :=
  ⟨zero.getD f.zero, subtract.getD f.subtract, halfCarry.getD f.halfCarry, carry.getD f.carry⟩

@[simp] theorem ofByte_toByte (f : Flags) : ofByte f.toByte = f := by
  rcases f with ⟨_ | _, _ | _, _ | _, _ | _⟩ <;> decide

end Flags

/-- The 8-bit registers that an operand field can name. -/
inductive ByteRegister
  | a | b | c | d | e | h | l
  deriving DecidableEq, Repr

/-- The 16-bit registers that arithmetic and loads of words can name. -/
inductive PairRegister
  | bc | de | hl | sp
  deriving DecidableEq, Repr

/-- The 16-bit registers that go on the stack. -/
inductive StackRegister
  | bc | de | hl | af
  deriving DecidableEq, Repr

/-- Every register name, the pairs included. -/
inductive Register
  | a | f | b | c | d | e | h | l
  | af | bc | de | hl | sp | pc
  deriving DecidableEq, Repr

/-- Is the register 16 bits wide? -/
def Register.isWord : Register → Bool
  | .af | .bc | .de | .hl | .sp | .pc => true
  | _ => false

def ByteRegister.toRegister : ByteRegister → Register
  | .a => .a | .b => .b | .c => .c | .d => .d | .e => .e | .h => .h | .l => .l

def PairRegister.toRegister : PairRegister → Register
  | .bc => .bc | .de => .de | .hl => .hl | .sp => .sp

def StackRegister.toRegister : StackRegister → Register
  | .bc => .bc | .de => .de | .hl => .hl | .af => .af

/-- The contents of the registers. A pair is a view of two bytes, the first-named one high. -/
structure Registers where
  a : UInt8
  flags : Flags
  b : UInt8
  c : UInt8
  d : UInt8
  e : UInt8
  h : UInt8
  l : UInt8
  sp : UInt16
  pc : UInt16
  deriving DecidableEq, Repr

namespace Registers

/-- The contents with which a program starts. -/
def powerOn : Registers :=
  { a := 0x01, flags := ⟨true, false, true, true⟩, b := 0x00, c := 0x13, d := 0x00, e := 0xD8,
    h := 0x01, l := 0x4D, sp := 0xFFFE, pc := 0x0100 }

/-- All registers zero. -/
def zeroed : Registers :=
  { a := 0, flags := .off, b := 0, c := 0, d := 0, e := 0, h := 0, l := 0, sp := 0, pc := 0 }

variable (r : Registers)

def bc : UInt16 := Word.ofBytes r.b r.c
def de : UInt16 := Word.ofBytes r.d r.e
def hl : UInt16 := Word.ofBytes r.h r.l
def af : UInt16 := Word.ofBytes r.a r.flags.toByte

def setBC (w : UInt16) : Registers := { r with b := Word.high w, c := Word.low w }
def setDE (w : UInt16) : Registers := { r with d := Word.high w, e := Word.low w }
def setHL (w : UInt16) : Registers := { r with h := Word.high w, l := Word.low w }

def setAF (w : UInt16) : Registers :=
  { r with a := Word.high w, flags := .ofByte (Word.low w) }

/-- An 8-bit operand register. -/
def byte : ByteRegister → UInt8
  | .a => r.a | .b => r.b | .c => r.c | .d => r.d | .e => r.e | .h => r.h | .l => r.l

/-- Load an 8-bit operand register. -/
def setByte (name : ByteRegister) (v : UInt8) : Registers :=
  match name with
  | .a => { r with a := v }
  | .b => { r with b := v }
  | .c => { r with c := v }
  | .d => { r with d := v }
  | .e => { r with e := v }
  | .h => { r with h := v }
  | .l => { r with l := v }

/-- A 16-bit operand register. -/
def pair : PairRegister → UInt16
  | .bc => r.bc | .de => r.de | .hl => r.hl | .sp => r.sp

/-- Load a 16-bit operand register. -/
def setPair (name : PairRegister) (w : UInt16) : Registers :=
  match name with
  | .bc => r.setBC w
  | .de => r.setDE w
  | .hl => r.setHL w
  | .sp => { r with sp := w }

/-- A register that goes on the stack. -/
def stacked : StackRegister → UInt16
  | .bc => r.bc | .de => r.de | .hl => r.hl | .af => r.af

/-- Load a register that comes off the stack. -/
def setStacked (name : StackRegister) (w : UInt16) : Registers :=
  match name with
  | .bc => r.setBC w
  | .de => r.setDE w
  | .hl => r.setHL w
  | .af => r.setAF w

/-- Any register as a word; an 8-bit register fills the low byte. -/
def read : Register → UInt16
  | .a => r.a.toUInt16
  | .f => r.flags.toByte.toUInt16
  | .b => r.b.toUInt16
  | .c => r.c.toUInt16
  | .d => r.d.toUInt16
  | .e => r.e.toUInt16
  | .h => r.h.toUInt16
  | .l => r.l.toUInt16
  | .af => r.af
  | .bc => r.bc
  | .de => r.de
  | .hl => r.hl
  | .sp => r.sp
  | .pc => r.pc

/-- Load any register from a word; an 8-bit register takes the low byte. -/
def write (name : Register) (w : UInt16) : Registers :=
  match name with
  | .a => { r with a := Word.low w }
  | .f => { r with flags := .ofByte (Word.low w) }
  | .b => { r with b := Word.low w }
  | .c => { r with c := Word.low w }
  | .d => { r with d := Word.low w }
  | .e => { r with e := Word.low w }
  | .h => { r with h := Word.low w }
  | .l => { r with l := Word.low w }
  | .af => r.setAF w
  | .bc => r.setBC w
  | .de => r.setDE w
  | .hl => r.setHL w
  | .sp => { r with sp := w }
  | .pc => { r with pc := w }

/-- The low byte of any register. -/
def readByte (name : Register) : UInt8 := Word.low (r.read name)

/-- Load any register from a byte; a 16-bit register gets a zero high byte. -/
def writeByte (name : Register) (b : UInt8) : Registers := r.write name b.toUInt16

/-- Add one to a register, wrapping within its width. -/
def increment (name : Register) : Registers := r.write name (r.read name + 1)

/-- Take one from a register, wrapping within its width. -/
def decrement (name : Register) : Registers := r.write name (r.read name - 1)

/-- Displace the program counter by a signed byte. -/
def jumpRelative (e : UInt8) : Registers := { r with pc := Word.addSigned r.pc e }

end Registers

end DotMatrix
