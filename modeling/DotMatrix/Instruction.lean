import DotMatrix.Registers

/-!
# Instructions

What each opcode asks for, with its operands as types: an instruction that the processor does not
have cannot be written down. The opcodes themselves are read in `Instruction/Decode`.

* `Instruction` is the main set. `Instruction.extended` stands for the opcode that announces a
  second opcode byte;
* `Extended` is that second set: rotations, shifts and single bits of one `Cell`.
-/

namespace DotMatrix

/-- An 8-bit place that an operand field names: a register, or the byte that HL points at. -/
inductive Cell
  | register (r : ByteRegister)
  | atHL
  deriving DecidableEq, Repr

/-- Where the right operand of 8-bit arithmetic comes from. -/
inductive Operand
  | cell (c : Cell)
  | immediate
  deriving DecidableEq, Repr

/-- How an instruction that moves A addresses memory. -/
inductive Pointer
  | bc
  | de
  /-- The byte at HL; HL then counts up. -/
  | hlUp
  /-- The byte at HL; HL then counts down. -/
  | hlDown
  /-- The last page of memory, at the offset in C. -/
  | pageC
  /-- The last page of memory, at the offset that follows the opcode. -/
  | pageImmediate
  /-- The address that follows the opcode. -/
  | immediate
  deriving DecidableEq, Repr

/-- Operations on A and a second byte. -/
inductive Arithmetic
  | add | adc | sub | sbc | and | xor | or | cp
  deriving DecidableEq, Repr

/-- The flag that a conditional jump, call or return tests. -/
inductive Condition
  | nz | z | nc | c
  deriving DecidableEq, Repr

/-- Rotations by one bit. `rlc` and `rrc` go round within the byte, `rl` and `rr` go through the
carry flag. -/
inductive Rotation
  | rlc | rrc | rl | rr
  deriving DecidableEq, Repr

/-- The main instruction set. -/
inductive Instruction
  /-- A byte without a meaning; executing it is a fault. -/
  | unused
  | nop
  | halt
  /-- Stops the machine, which here is a fault. -/
  | stop
  | disableInterrupts
  | enableInterrupts
  /-- Load a register. -/
  | load (dst : ByteRegister) (src : Operand)
  /-- Store a register at HL. -/
  | store (src : ByteRegister)
  /-- Store the byte after the opcode at HL. -/
  | storeImmediate
  | loadA (src : Pointer)
  | storeA (dst : Pointer)
  /-- Load a pair with the word after the opcode. -/
  | loadPair (dst : PairRegister)
  /-- Store SP at the address after the opcode. -/
  | storeSP
  | loadSPFromHL
  /-- Load HL with SP displaced by the byte after the opcode. -/
  | loadHLFromSP
  | push (src : StackRegister)
  | pop (dst : StackRegister)
  | arithmetic (op : Arithmetic) (right : Operand)
  | increment (c : Cell)
  | decrement (c : Cell)
  | incrementPair (p : PairRegister)
  | decrementPair (p : PairRegister)
  | addToHL (p : PairRegister)
  /-- Displace SP by the byte after the opcode. -/
  | addToSP
  /-- Rotate A; the zero flag is cleared. -/
  | rotateA (r : Rotation)
  | decimalAdjust
  | complementA
  | setCarry
  | complementCarry
  | jumpRelative (when? : Option Condition)
  | jump (when? : Option Condition)
  | jumpToHL
  | call (when? : Option Condition)
  | ret (when? : Option Condition)
  | returnFromInterrupt
  /-- Call one of the eight fixed addresses. -/
  | restart (vector : UInt8)
  /-- A second opcode byte follows. -/
  | extended
  deriving DecidableEq, Repr

/-- What an instruction of the second set does with its cell. -/
inductive BitOperation
  | rotate (r : Rotation)
  /-- Shift left, filling with zero. -/
  | shiftLeft
  /-- Shift right, keeping the top bit. -/
  | shiftRightSigned
  /-- Exchange the two halves. -/
  | swap
  /-- Shift right, filling with zero. -/
  | shiftRight
  /-- Test bit `n`. -/
  | test (n : Fin 8)
  /-- Clear bit `n`. -/
  | reset (n : Fin 8)
  /-- Set bit `n`. -/
  | set (n : Fin 8)
  deriving DecidableEq, Repr

/-- An instruction of the second set. -/
structure Extended where
  operation : BitOperation
  target : Cell
  deriving DecidableEq, Repr

end DotMatrix
