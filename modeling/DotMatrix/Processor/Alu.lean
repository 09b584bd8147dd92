import DotMatrix.Instruction

/-!
# Arithmetic

What the processor computes, as functions on bytes and flags. The half carry is the carry out of
the lower four bits; in a subtraction both carries are borrows.
-/

namespace DotMatrix.Alu

/-- The sum `a + n`, and one more if the carry is on. -/
def add (a n : UInt8) (carry : Bool) : UInt8 × Flags :=
  let result := a + n + Byte.ofBool carry
  (result,
    { zero := result == 0
      subtract := false
      halfCarry := decide (15 < a.toNat % 16 + n.toNat % 16 + carry.toNat)
      carry := decide (255 < a.toNat + n.toNat + carry.toNat) })

/-- The difference `a - n`, and one less if the carry is on. -/
def sub (a n : UInt8) (carry : Bool) : UInt8 × Flags :=
  let result := a - n - Byte.ofBool carry
  (result,
    { zero := result == 0
      subtract := true
      halfCarry := decide (a.toNat % 16 < n.toNat % 16 + carry.toNat)
      carry := decide (a.toNat < n.toNat + carry.toNat) })

/-- The flags of a bitwise operation. -/
def bitwiseFlags (result : UInt8) (halfCarry : Bool) : Flags :=
  { zero := result == 0, subtract := false, halfCarry, carry := false }

/-- An operation on A and a second operand: the new A and the flags. -/
def arithmetic (op : Arithmetic) (a n : UInt8) (f : Flags) : UInt8 × Flags :=
  match op with
  | .add => add a n false
  | .adc => add a n f.carry
  | .sub => sub a n false
  | .sbc => sub a n f.carry
  | .and => (a &&& n, bitwiseFlags (a &&& n) true)
  | .xor => (a ^^^ n, bitwiseFlags (a ^^^ n) false)
  | .or => (a ||| n, bitwiseFlags (a ||| n) false)
  | .cp => (a, (sub a n false).2)

/-- Count up; the carry is kept. -/
def increment (n : UInt8) (f : Flags) : UInt8 × Flags :=
  let result := n + 1
  (result,
    { f with zero := result == 0, subtract := false, halfCarry := decide (n.toNat % 16 = 15) })

/-- Count down; the carry is kept. -/
def decrement (n : UInt8) (f : Flags) : UInt8 × Flags :=
  let result := n - 1
  (result,
    { f with zero := result == 0, subtract := true, halfCarry := decide (n.toNat % 16 = 0) })

/-- Addition of words; the half carry leaves the lower twelve bits and the zero flag is kept. -/
def addWords (w v : UInt16) (f : Flags) : UInt16 × Flags :=
  (w + v,
    { f with
      subtract := false
      halfCarry := decide (4095 < w.toNat % 4096 + v.toNat % 4096)
      carry := decide (65535 < w.toNat + v.toNat) })

/-- A word displaced by a signed byte. Both carries are those of adding the low bytes. -/
def displace (w : UInt16) (e : UInt8) : UInt16 × Flags :=
  (Word.addSigned w e,
    { zero := false
      subtract := false
      halfCarry := decide (15 < w.toNat % 16 + e.toNat % 16)
      carry := decide (255 < w.toNat % 256 + e.toNat) })

/-- What decimal adjustment adds or takes away, and the new carry. -/
def decimalCorrection (a : UInt8) (f : Flags) : UInt8 × Bool :=
  let carry := f.carry || (!f.subtract && decide (0x99 < a.toNat))
  let low : UInt8 := if f.halfCarry || (!f.subtract && decide (9 < a.toNat % 16)) then 0x06 else 0
  let high : UInt8 := if carry then 0x60 else 0
  (low + high, carry)

/-- Make A the two decimal digits of the result of an addition or subtraction of decimal digits. -/
def decimalAdjust (a : UInt8) (f : Flags) : UInt8 × Flags :=
  let (correction, carry) := decimalCorrection a f
  let result := if f.subtract then a - correction else a + correction
  (result, { f with zero := result == 0, halfCarry := false, carry })

/-- A rotation by one bit: the result and the bit that went out. -/
def rotate (r : Rotation) (n : UInt8) (carry : Bool) : UInt8 × Bool :=
  match r with
  | .rlc => (n <<< 1 ||| n >>> 7, Byte.bit n 7)
  | .rrc => (n >>> 1 ||| n <<< 7, Byte.bit n 0)
  | .rl => (n <<< 1 ||| Byte.ofBool carry, Byte.bit n 7)
  | .rr => (n >>> 1 ||| Byte.ofBool carry <<< 7, Byte.bit n 0)

/-- The flags of a rotation or shift. -/
def shiftFlags (result : UInt8) (out : Bool) : Flags :=
  { zero := result == 0, subtract := false, halfCarry := false, carry := out }

/-- Rotate A. The zero flag is cleared, whatever the result. -/
def rotateA (r : Rotation) (a : UInt8) (f : Flags) : UInt8 × Flags :=
  let (result, out) := rotate r a f.carry
  (result, { shiftFlags result out with zero := false })

/-- An operation of the second set on a byte: the byte to write back, if any, and the flags. -/
def bitOperation (op : BitOperation) (n : UInt8) (f : Flags) : Option UInt8 × Flags :=
  match op with
  | .rotate r =>
    let (result, out) := rotate r n f.carry
    (some result, shiftFlags result out)
  | .shiftLeft => (some (n <<< 1), shiftFlags (n <<< 1) (Byte.bit n 7))
  | .shiftRightSigned =>
    let result := n >>> 1 ||| n &&& 0x80
    (some result, shiftFlags result (Byte.bit n 0))
  | .swap =>
    let result := n <<< 4 ||| n >>> 4
    (some result, shiftFlags result false)
  | .shiftRight => (some (n >>> 1), shiftFlags (n >>> 1) (Byte.bit n 0))
  | .test i =>
    (none, { f with zero := !Byte.bit n i.val, subtract := false, halfCarry := true })
  | .reset i => (some (Byte.clearBit n i.val), f)
  | .set i => (some (Byte.setBit n i.val), f)

/-- Does the condition hold? -/
def holds (f : Flags) : Condition → Bool
  | .nz => !f.zero
  | .z => f.zero
  | .nc => !f.carry
  | .c => f.carry

end DotMatrix.Alu
