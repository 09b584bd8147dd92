import DotMatrix.Bus.Basic
import DotMatrix.Registers

/-!
# Processor and bus together

The processor reaches the rest of the machine through the bus, one byte in a machine cycle. Each
access first happens and then takes its time, during which every other device goes on.

`Machine.cycle` is one machine cycle; fetching, reading, writing, pushing and popping are built on
it.
-/

namespace DotMatrix

/-- The state of the processor. -/
structure Processor where
  registers : Registers
  /-- Clock ticks since power on. -/
  cycles : Nat
  /-- Does the processor serve interrupts? -/
  interruptsOn : Bool
  /-- Is it waiting for an interrupt? -/
  halted : Bool
  /-- Instructions to complete before interrupts are switched on; zero if that was not asked for. -/
  enableDelay : Nat
  deriving DecidableEq, Repr

namespace Processor

/-- A processor that has not run yet, with the given registers. -/
def ofRegisters (registers : Registers) : Processor :=
  { registers, cycles := 0, interruptsOn := false, halted := false, enableDelay := 0 }

/-- The processor when a program starts. -/
def powerOn : Processor := ofRegisters .powerOn

/-- Has switching interrupts on been asked for? -/
def enablePending (p : Processor) : Bool := 0 < p.enableDelay

end Processor

/-- The processor and everything it reaches. -/
structure Machine where
  cpu : Processor
  bus : Bus

namespace Machine

variable (m : Machine)

/-- The contents of the registers. -/
def registers : Registers := m.cpu.registers

/-- Change the registers. -/
def mapRegisters (f : Registers → Registers) : Machine :=
  { m with cpu := { m.cpu with registers := f m.cpu.registers } }

/-- Set the flags. -/
def setFlags (f : Flags) : Machine := m.mapRegisters fun r => { r with flags := f }

/-- Go on at an address. -/
def setPC (a : UInt16) : Machine := m.mapRegisters fun r => { r with pc := a }

/-- Move the stack. -/
def setSP (a : UInt16) : Machine := m.mapRegisters fun r => { r with sp := a }

/-! ### Time -/

/-- One machine cycle. -/
def cycle : Machine :=
  { cpu := { m.cpu with cycles := m.cpu.cycles + Bus.ticksPerCycle }, bus := m.bus.cycle }

/-- Machine cycles in a row. -/
def idle : Nat → Machine → Machine
  | 0, m => m
  | n + 1, m => idle n m.cycle

/-! ### Access to memory -/

/-- Read a byte; takes one machine cycle. -/
def read (a : UInt16) : UInt8 × Machine := (m.bus.read a, m.cycle)

/-- Write a byte; takes one machine cycle. -/
def write (a : UInt16) (v : UInt8) : Machine := cycle { m with bus := m.bus.write a v }

/-- Write a word, low byte first; takes two machine cycles. -/
def writeWord (a : UInt16) (w : UInt16) : Machine :=
  (m.write a (Word.low w)).write (a + 1) (Word.high w)

/-- Read the byte at PC and go past it. -/
def fetch : UInt8 × Machine :=
  let pc := m.cpu.registers.pc
  (m.setPC (pc + 1)).read pc

/-- Read the word at PC, low byte first, and go past it. -/
def fetchWord : UInt16 × Machine :=
  let (low, m) := m.fetch
  let (high, m) := m.fetch
  (Word.ofBytes high low, m)

/-! ### The stack -/

/-- Push a byte. -/
def pushByte (v : UInt8) : Machine :=
  let sp := m.cpu.registers.sp - 1
  (m.setSP sp).write sp v

/-- Pop a byte. -/
def popByte : UInt8 × Machine :=
  let sp := m.cpu.registers.sp
  let (v, m) := m.read sp
  (v, m.setSP (sp + 1))

/-- Push a word, high byte first. -/
def push (w : UInt16) : Machine := (m.pushByte (Word.high w)).pushByte (Word.low w)

/-- Pop a word, low byte first. -/
def pop : UInt16 × Machine :=
  let (low, m) := m.popByte
  let (high, m) := m.popByte
  (Word.ofBytes high low, m)

end Machine

end DotMatrix
