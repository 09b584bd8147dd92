import DotMatrix.Instruction.Decode
import DotMatrix.Processor.Alu
import DotMatrix.Proofs.Checked.Arithmetic

/-!
# Opcodes and arithmetic, checked

The results of the processor's arithmetic wrap, but its carries are found by adding parts of the
operands in a few more bits, which have to be enough. Operands are looked up in a table of eight
cells, and a bit of a byte is found by shifting.

Nothing here depends on the state of the machine, so every operation gives a result.
-/

namespace DotMatrix

/-! ### Opcodes -/

/-- The cells that an operand field names, in order. -/
def Cell.table : List Cell :=
  [.register .b, .register .c, .register .d, .register .e, .register .h, .register .l, .atHL,
    .register .a]

/-- The operand that a three-bit field names. -/
def Cell.ofField? (n : Nat) : Option Cell := table[n]?

/-- The instruction that an opcode stands for. -/
def Instruction.decode? (opcode : UInt8) : Option Instruction :=
  match opcode.toNat / 64 with
  | 1 => do
    some (ofLoad (← Cell.ofField? (opcode.toNat / 8 % 8)) (← Cell.ofField? (opcode.toNat % 8)))
  | 2 => do
    some
      (.arithmetic (.ofField (opcode.toNat / 8 % 8)) (.cell (← Cell.ofField? (opcode.toNat % 8))))
  | _ => some (decode opcode)

/-- The instruction that a second opcode byte stands for. -/
def Extended.decode? (opcode : UInt8) : Option Extended := do
  let target ← Cell.ofField? (opcode.toNat % 8)
  some { decode opcode with target }

theorem Cell.ofField?_eq {n : Nat} (h : n < 8) : ofField? n = some (ofField n) :=
  match n, h with
  | 0, _ | 1, _ | 2, _ | 3, _ | 4, _ | 5, _ | 6, _ | 7, _ => rfl

theorem Instruction.decode?_eq (opcode : UInt8) : decode? opcode = some (decode opcode) := by
  have hrow : opcode.toNat / 8 % 8 < 8 := Nat.mod_lt _ (by decide)
  have hcolumn : opcode.toNat % 8 < 8 := Nat.mod_lt _ (by decide)
  unfold decode?
  split
  · rename_i hgroup
    rw [Cell.ofField?_eq hrow, Cell.ofField?_eq hcolumn, decode, hgroup]
    rfl
  · rename_i hgroup
    rw [Cell.ofField?_eq hcolumn, decode, hgroup]
    rfl
  · rfl

theorem Extended.decode?_eq (opcode : UInt8) : decode? opcode = some (decode opcode) := by
  rw [decode?, Cell.ofField?_eq (Nat.mod_lt _ (by decide))]
  rfl

namespace Alu

/-! ### Arithmetic -/

/-- The sum `a + n`, and one more if the carry is on. -/
def add? (a n : UInt8) (carry : Bool) : Option (UInt8 × Flags) := do
  let half ← Checked.add 8 (← Checked.add 8 (a.toNat % 16) (n.toNat % 16)) carry.toNat
  let full ← Checked.add 16 (← Checked.add 16 a.toNat n.toNat) carry.toNat
  let result := a + n + Byte.ofBool carry
  some
    (result,
      { zero := result == 0, subtract := false
        halfCarry := decide (15 < half), carry := decide (255 < full) })

/-- The difference `a - n`, and one less if the carry is on. -/
def sub? (a n : UInt8) (carry : Bool) : Option (UInt8 × Flags) := do
  let half ← Checked.add 8 (n.toNat % 16) carry.toNat
  let full ← Checked.add 16 n.toNat carry.toNat
  let result := a - n - Byte.ofBool carry
  some
    (result,
      { zero := result == 0, subtract := true
        halfCarry := decide (a.toNat % 16 < half), carry := decide (a.toNat < full) })

/-- An operation on A and a second operand: the new A and the flags. -/
def arithmetic? (op : Arithmetic) (a n : UInt8) (f : Flags) : Option (UInt8 × Flags) :=
  match op with
  | .add => add? a n false
  | .adc => add? a n f.carry
  | .sub => sub? a n false
  | .sbc => sub? a n f.carry
  | .cp => do some (a, (← sub? a n false).2)
  | op => some (arithmetic op a n f)

/-- Addition of words. -/
def addWords? (w v : UInt16) (f : Flags) : Option (UInt16 × Flags) := do
  let half ← Checked.add 16 (w.toNat % 4096) (v.toNat % 4096)
  let full ← Checked.add 32 w.toNat v.toNat
  some
    (w + v,
      { f with subtract := false, halfCarry := decide (4095 < half), carry := decide (65535 < full) })

/-- A word displaced by a signed byte. -/
def displace? (w : UInt16) (e : UInt8) : Option (UInt16 × Flags) := do
  let half ← Checked.add 16 (w.toNat % 16) (e.toNat % 16)
  let full ← Checked.add 16 (w.toNat % 256) e.toNat
  some
    (Word.addSigned w e,
      { zero := false, subtract := false
        halfCarry := decide (15 < half), carry := decide (255 < full) })

/-- An operation of the second set on a byte: the byte to write back, if any, and the flags. -/
def bitOperation? (op : BitOperation) (n : UInt8) (f : Flags) : Option (Option UInt8 × Flags) := do
  match op with
  | .test i | .reset i | .set i => let _ ← Checked.shift 8 i.val
  | _ => some ()
  some (bitOperation op n f)

theorem add?_eq (a n : UInt8) (carry : Bool) : add? a n carry = some (add a n carry) := by
  have ha := a.toNat_lt
  have hn := n.toNat_lt
  have hc := carry.toNat_le
  unfold add?
  rw [Checked.add_eq (by omega)]
  simp only [Option.bind_eq_bind, Option.bind_some]
  rw [Checked.add_eq (by omega), Option.bind_some, Checked.add_eq (by omega), Option.bind_some,
    Checked.add_eq (by omega)]
  rfl

theorem sub?_eq (a n : UInt8) (carry : Bool) : sub? a n carry = some (sub a n carry) := by
  have hn := n.toNat_lt
  have hc := carry.toNat_le
  unfold sub?
  rw [Checked.add_eq (by omega)]
  simp only [Option.bind_eq_bind, Option.bind_some]
  rw [Checked.add_eq (by omega)]
  rfl

theorem arithmetic?_eq (op : Arithmetic) (a n : UInt8) (f : Flags) :
    arithmetic? op a n f = some (arithmetic op a n f) := by
  cases op with
  | add => exact add?_eq a n false
  | adc => exact add?_eq a n f.carry
  | sub => exact sub?_eq a n false
  | sbc => exact sub?_eq a n f.carry
  | cp => rw [arithmetic?, sub?_eq]; rfl
  | _ => rfl

theorem addWords?_eq (w v : UInt16) (f : Flags) : addWords? w v f = some (addWords w v f) := by
  have hw := w.toNat_lt
  have hv := v.toNat_lt
  unfold addWords?
  rw [Checked.add_eq (by omega)]
  simp only [Option.bind_eq_bind, Option.bind_some]
  rw [Checked.add_eq (by omega)]
  rfl

theorem displace?_eq (w : UInt16) (e : UInt8) : displace? w e = some (displace w e) := by
  have he := e.toNat_lt
  unfold displace?
  rw [Checked.add_eq (by omega)]
  simp only [Option.bind_eq_bind, Option.bind_some]
  rw [Checked.add_eq (by omega)]
  rfl

theorem bitOperation?_eq (op : BitOperation) (n : UInt8) (f : Flags) :
    bitOperation? op n f = some (bitOperation op n f) := by
  cases op with
  | test i => rw [bitOperation?, Checked.shift_eq i.isLt]; rfl
  | reset i => rw [bitOperation?, Checked.shift_eq i.isLt]; rfl
  | set i => rw [bitOperation?, Checked.shift_eq i.isLt]; rfl
  | _ => rfl

end Alu

end DotMatrix
