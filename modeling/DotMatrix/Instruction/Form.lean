import DotMatrix.Instruction

/-!
# Operand forms

The row of an opcode chart for each instruction: its class of operation, its addressing mode, the
registers that the mode names, the condition and the restart vector.
-/

namespace DotMatrix

/-- Classes of operations. -/
inductive Operation
  | unused | nop | load | loadHigh | increment | decrement
  | add | adc | sub | sbc | and | xor | or | cp
  | rotateA (r : Rotation)
  | decimalAdjust | complementA | setCarry | complementCarry
  | jumpRelative | jump | call | ret | returnFromInterrupt | restart
  | push | pop | halt | stop | disableInterrupts | enableInterrupts | extended
  deriving DecidableEq, Repr

/-- Where an operand comes from and where the result goes. -/
inductive Addressing
  /-- No operand. -/
  | implied
  /-- One register. -/
  | register
  /-- Register, register. -/
  | registerRegister
  /-- Register, byte after the opcode. -/
  | registerByte
  /-- Register, word after the opcode. -/
  | registerWord
  /-- Byte after the opcode. -/
  | byte
  /-- Word after the opcode. -/
  | word
  /-- Memory at a register. -/
  | memory
  /-- Memory at a register, byte after the opcode. -/
  | memoryByte
  /-- Memory at a register, register. -/
  | memoryRegister
  /-- Register, memory at a register. -/
  | registerMemory
  /-- Register, memory at HL, which counts up. -/
  | registerMemoryUp
  /-- Register, memory at HL, which counts down. -/
  | registerMemoryDown
  /-- Memory at HL, which counts up, register. -/
  | memoryUpRegister
  /-- Memory at HL, which counts down, register. -/
  | memoryDownRegister
  /-- Register, last page at the byte after the opcode. -/
  | registerPage
  /-- Last page at the byte after the opcode, register. -/
  | pageRegister
  /-- Register, memory at the word after the opcode. -/
  | registerAbsolute
  /-- Memory at the word after the opcode, register. -/
  | absoluteRegister
  /-- HL, SP displaced by the byte after the opcode. -/
  | hlDisplacedSP
  deriving DecidableEq, Repr

/-- One row of an opcode chart. -/
structure Form where
  operation : Operation
  addressing : Addressing
  first : Option Register := none
  second : Option Register := none
  condition : Option Condition := none
  vector : UInt8 := 0
  deriving DecidableEq, Repr

def Arithmetic.operation : Arithmetic → Operation
  | .add => .add | .adc => .adc | .sub => .sub | .sbc => .sbc
  | .and => .and | .xor => .xor | .or => .or | .cp => .cp

namespace Form

/-- Load a register from an operand, or combine it with one. -/
def ofOperand (op : Operation) (dst : Register) : Operand → Form
  | .cell (.register r) =>
    { operation := op, addressing := .registerRegister, first := some dst
      second := some r.toRegister }
  | .cell .atHL =>
    { operation := op, addressing := .registerMemory, first := some dst, second := some .hl }
  | .immediate => { operation := op, addressing := .registerByte, first := some dst }

/-- Load A from memory that a register points at. -/
def loadThrough (mode : Addressing) (r : Register) : Form :=
  { operation := .load, addressing := mode, first := some .a, second := some r }

/-- Store A in memory that a register points at. -/
def storeThrough (op : Operation) (mode : Addressing) (r : Register) : Form :=
  { operation := op, addressing := mode, first := some r, second := some .a }

/-- Load A through a pointer. -/
def ofLoadA : Pointer → Form
  | .bc => loadThrough .registerMemory .bc
  | .de => loadThrough .registerMemory .de
  | .hlUp => loadThrough .registerMemoryUp .hl
  | .hlDown => loadThrough .registerMemoryDown .hl
  | .pageC => loadThrough .registerMemory .c
  | .pageImmediate => { operation := .loadHigh, addressing := .registerPage, first := some .a }
  | .immediate => { operation := .load, addressing := .registerAbsolute, first := some .a }

/-- Store A through a pointer. An address after the opcode is reached by way of PC. -/
def ofStoreA : Pointer → Form
  | .bc => storeThrough .load .memoryRegister .bc
  | .de => storeThrough .load .memoryRegister .de
  | .hlUp => storeThrough .load .memoryUpRegister .hl
  | .hlDown => storeThrough .load .memoryDownRegister .hl
  | .pageC => storeThrough .load .memoryRegister .c
  | .pageImmediate => storeThrough .loadHigh .pageRegister .pc
  | .immediate => storeThrough .load .absoluteRegister .pc

/-- Count a cell up or down. -/
def ofCount (op : Operation) : Cell → Form
  | .register r => { operation := op, addressing := .register, first := some r.toRegister }
  | .atHL => { operation := op, addressing := .memory, first := some .hl }

/-- An operation on one register. -/
def ofRegister (op : Operation) (r : Register) : Form :=
  { operation := op, addressing := .register, first := some r }

/-- An operation without operands. -/
def ofImplied (op : Operation) : Form := { operation := op, addressing := .implied }

end Form

/-- The chart's row for an instruction. -/
def Instruction.form : Instruction → Form
  | .unused => .ofImplied .unused
  | .nop => .ofImplied .nop
  | .halt => .ofImplied .halt
  | .stop => { operation := .stop, addressing := .byte }
  | .disableInterrupts => .ofImplied .disableInterrupts
  | .enableInterrupts => .ofImplied .enableInterrupts
  | .load dst src => .ofOperand .load dst.toRegister src
  | .store src =>
    { operation := .load, addressing := .memoryRegister, first := some .hl
      second := some src.toRegister }
  | .storeImmediate => { operation := .load, addressing := .memoryByte, first := some .hl }
  | .loadA src => .ofLoadA src
  | .storeA dst => .ofStoreA dst
  | .loadPair dst =>
    { operation := .load, addressing := .registerWord, first := some dst.toRegister }
  | .storeSP =>
    { operation := .load, addressing := .absoluteRegister, first := some .pc, second := some .sp }
  | .loadSPFromHL =>
    { operation := .load, addressing := .registerRegister, first := some .sp, second := some .hl }
  | .loadHLFromSP =>
    { operation := .load, addressing := .hlDisplacedSP, first := some .hl, second := some .sp }
  | .push src => .ofRegister .push src.toRegister
  | .pop dst => .ofRegister .pop dst.toRegister
  | .arithmetic op right => .ofOperand op.operation .a right
  | .increment c => .ofCount .increment c
  | .decrement c => .ofCount .decrement c
  | .incrementPair p => .ofRegister .increment p.toRegister
  | .decrementPair p => .ofRegister .decrement p.toRegister
  | .addToHL p =>
    { operation := .add, addressing := .registerRegister, first := some .hl
      second := some p.toRegister }
  | .addToSP => { operation := .add, addressing := .registerByte, first := some .sp }
  | .rotateA r => .ofImplied (.rotateA r)
  | .decimalAdjust => .ofImplied .decimalAdjust
  | .complementA => .ofImplied .complementA
  | .setCarry => .ofImplied .setCarry
  | .complementCarry => .ofImplied .complementCarry
  | .jumpRelative c => { operation := .jumpRelative, addressing := .byte, condition := c }
  | .jump c => { operation := .jump, addressing := .word, condition := c }
  | .jumpToHL => .ofRegister .jump .hl
  | .call c => { operation := .call, addressing := .word, condition := c }
  | .ret c => { operation := .ret, addressing := .implied, condition := c }
  | .returnFromInterrupt => .ofImplied .returnFromInterrupt
  | .restart v => { operation := .restart, addressing := .implied, vector := v }
  | .extended => { operation := .extended, addressing := .byte }

end DotMatrix
