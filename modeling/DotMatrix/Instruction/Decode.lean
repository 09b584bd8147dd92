import DotMatrix.Instruction

/-!
# Reading opcodes

An opcode is three fields: a group (two bits), a row (three bits) and a column (three bits). Within
the middle groups row and column are operands; the outer groups are tables over the column, read
with the row, or with the row split into a pair number and one bit.

`Instruction.decode` and `Extended.decode` are total. `decode_eq_unused_iff` lists the eleven bytes
without a meaning.
-/

namespace DotMatrix

/-- The operand that a three-bit field names. -/
def Cell.ofField : Nat → Cell
  | 0 => .register .b
  | 1 => .register .c
  | 2 => .register .d
  | 3 => .register .e
  | 4 => .register .h
  | 5 => .register .l
  | 6 => .atHL
  | _ => .register .a

/-- The pair that a two-bit field names. -/
def PairRegister.ofField : Nat → PairRegister
  | 0 => .bc
  | 1 => .de
  | 2 => .hl
  | _ => .sp

/-- The pair that a two-bit field names in stack instructions. -/
def StackRegister.ofField : Nat → StackRegister
  | 0 => .bc
  | 1 => .de
  | 2 => .hl
  | _ => .af

/-- The address that a two-bit field names in moves of A. -/
def Pointer.ofField : Nat → Pointer
  | 0 => .bc
  | 1 => .de
  | 2 => .hlUp
  | _ => .hlDown

/-- The operation that a three-bit field names. -/
def Arithmetic.ofField : Nat → Arithmetic
  | 0 => .add
  | 1 => .adc
  | 2 => .sub
  | 3 => .sbc
  | 4 => .and
  | 5 => .xor
  | 6 => .or
  | _ => .cp

/-- The condition that a two-bit field names. -/
def Condition.ofField : Nat → Condition
  | 0 => .nz
  | 1 => .z
  | 2 => .nc
  | _ => .c

/-- The rotation that a two-bit field names. -/
def Rotation.ofField : Nat → Rotation
  | 0 => .rlc
  | 1 => .rrc
  | 2 => .rl
  | _ => .rr

namespace Instruction

/-- Loads between two cells; where both would be the byte at HL the machine halts. -/
def ofLoad (dst src : Cell) : Instruction :=
  match dst, src with
  | .register r, s => .load r (.cell s)
  | .atHL, .register s => .store s
  | .atHL, .atHL => .halt

/-- A load of the byte after the opcode. -/
def ofLoadImmediate : Cell → Instruction
  | .register r => .load r .immediate
  | .atHL => .storeImmediate

/-- The first group: loads of immediates, counting, 16-bit addition, relative jumps. -/
def firstGroup (row column : Nat) : Instruction :=
  match column with
  | 0 =>
    match row with
    | 0 => .nop
    | 1 => .storeSP
    | 2 => .stop
    | 3 => .jumpRelative none
    | _ => .jumpRelative (some (.ofField (row - 4)))
  | 1 => if row % 2 = 0 then .loadPair (.ofField (row / 2)) else .addToHL (.ofField (row / 2))
  | 2 => if row % 2 = 0 then .storeA (.ofField (row / 2)) else .loadA (.ofField (row / 2))
  | 3 =>
    if row % 2 = 0 then .incrementPair (.ofField (row / 2))
    else .decrementPair (.ofField (row / 2))
  | 4 => .increment (.ofField row)
  | 5 => .decrement (.ofField row)
  | 6 => ofLoadImmediate (.ofField row)
  | _ =>
    match row with
    | 4 => .decimalAdjust
    | 5 => .complementA
    | 6 => .setCarry
    | 7 => .complementCarry
    | _ => .rotateA (.ofField row)

/-- The last group: control flow, the stack, the last page of memory, arithmetic with immediates. -/
def lastGroup (row column : Nat) : Instruction :=
  match column with
  | 0 =>
    match row with
    | 4 => .storeA .pageImmediate
    | 5 => .addToSP
    | 6 => .loadA .pageImmediate
    | 7 => .loadHLFromSP
    | _ => .ret (some (.ofField row))
  | 1 =>
    match row with
    | 1 => .ret none
    | 3 => .returnFromInterrupt
    | 5 => .jumpToHL
    | 7 => .loadSPFromHL
    | _ => .pop (.ofField (row / 2))
  | 2 =>
    match row with
    | 4 => .storeA .pageC
    | 5 => .storeA .immediate
    | 6 => .loadA .pageC
    | 7 => .loadA .immediate
    | _ => .jump (some (.ofField row))
  | 3 =>
    match row with
    | 0 => .jump none
    | 1 => .extended
    | 6 => .disableInterrupts
    | 7 => .enableInterrupts
    | _ => .unused
  | 4 => if row < 4 then .call (some (.ofField row)) else .unused
  | 5 =>
    if row % 2 = 0 then .push (.ofField (row / 2)) else if row = 1 then .call none else .unused
  | 6 => .arithmetic (.ofField row) .immediate
  | _ => .restart (UInt8.ofNat (row * 8))

/-- The instruction that an opcode stands for. -/
def decode (opcode : UInt8) : Instruction :=
  let row := opcode.toNat / 8 % 8
  let column := opcode.toNat % 8
  match opcode.toNat / 64 with
  | 0 => firstGroup row column
  | 1 => ofLoad (.ofField row) (.ofField column)
  | 2 => .arithmetic (.ofField row) (.cell (.ofField column))
  | _ => lastGroup row column

/-- The bytes that stand for no instruction. -/
def unusedOpcodes : List UInt8 :=
  [0xD3, 0xDB, 0xDD, 0xE3, 0xE4, 0xEB, 0xEC, 0xED, 0xF4, 0xFC, 0xFD]

theorem decode_eq_unused_iff (opcode : UInt8) :
    decode opcode = .unused ↔ opcode ∈ unusedOpcodes :=
  Byte.forall_of_fin (by decide +kernel) opcode

end Instruction

/-- The operation that group and row of a second opcode byte name. -/
def BitOperation.ofFields (group : Nat) (row : Fin 8) : BitOperation :=
  match group with
  | 0 =>
    match row.val with
    | 4 => .shiftLeft
    | 5 => .shiftRightSigned
    | 6 => .swap
    | 7 => .shiftRight
    | n => .rotate (.ofField n)
  | 1 => .test row
  | 2 => .reset row
  | _ => .set row

/-- The instruction that a second opcode byte stands for. -/
def Extended.decode (opcode : UInt8) : Extended :=
  { operation := .ofFields (opcode.toNat / 64) (Fin.ofNat 8 (opcode.toNat / 8))
    target := .ofField (opcode.toNat % 8) }

end DotMatrix
