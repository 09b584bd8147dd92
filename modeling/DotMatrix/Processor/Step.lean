import DotMatrix.Processor.Execute

/-!
# One step of the processor

A step is one instruction, or one machine cycle of waiting while the processor is halted, and then
the service of an interrupt if one is due. Waiting ends with any pending interrupt, whether or not
interrupts are on. Asking to switch interrupts on takes effect after the next instruction.

An instruction that the processor cannot execute is a fault: the step ends with it, and neither the
wait for interrupts to be switched on nor an interrupt is looked at.
-/

namespace DotMatrix

/-- Why the processor cannot go on. -/
inductive Fault
  /-- The opcode has no meaning. -/
  | unusedOpcode (opcode : UInt8) (pc : UInt16)
  /-- The program stopped the machine. -/
  | stopped (pc : UInt16)
  deriving DecidableEq, Repr

/-- The reason in words. -/
def Fault.message : Fault → String
  | .unusedOpcode opcode pc => s!"invalid opcode {Hex.byte opcode} at PC={Hex.word pc}"
  | .stopped pc => s!"STOP executed at PC={Hex.word pc}"

/-- The fault of an instruction, if executing it is one. -/
def Instruction.fault? (opcode : UInt8) (pc : UInt16) : Instruction → Option Fault
  | .unused => some (.unusedOpcode opcode pc)
  | .stop => some (.stopped pc)
  | _ => none

namespace Processor

/-- Count the completed instruction towards switching interrupts on. The instruction itself counts
only if the wait began before it, and it may have ended the wait. -/
def countDelay (p : Processor) (delayBefore : Nat) : Processor :=
  { p with
    interruptsOn := p.interruptsOn || (delayBefore == 1 && p.enableDelay != 0)
    enableDelay := p.enableDelay - 1 }

end Processor

namespace Machine

variable (m : Machine)

/-- Serve an interrupt: push PC and go on at the source's handler, with interrupts off. -/
def serve (source : Interrupt) : Machine :=
  let cpu := { m.cpu with interruptsOn := false, halted := false }
  let bus := { m.bus with interrupts := m.bus.interrupts.acknowledge source }
  let m : Machine := { cpu, bus }
  idle 3 ((m.push m.cpu.registers.pc).setPC source.vector)

/-- Serve the most urgent pending interrupt, if interrupts are on and there is one. -/
def poll : Machine :=
  if m.cpu.interruptsOn then
    match m.bus.interrupts.highest? with
    | some source => m.serve source
    | none => m
  else m

/-- A machine cycle of waiting. -/
def wait : Machine :=
  let m := m.cycle
  let halted := m.cpu.halted && m.bus.interrupts.pending == 0
  poll { m with cpu := { m.cpu with halted } }

/-- One instruction. -/
def runInstruction : Machine × Option Fault :=
  let delay := m.cpu.enableDelay
  let pc := m.cpu.registers.pc
  let (opcode, m) := m.fetch
  let instruction := Instruction.decode opcode
  let m := m.execute instruction
  match instruction.fault? opcode pc with
  | some fault => (m, some fault)
  | none => (poll { m with cpu := m.cpu.countDelay delay }, none)

/-- One step. -/
def step : Machine × Option Fault := if m.cpu.halted then (m.wait, none) else m.runInstruction

end Machine

end DotMatrix
