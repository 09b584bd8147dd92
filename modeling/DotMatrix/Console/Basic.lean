import DotMatrix.Processor.Step
import DotMatrix.Trace.Line
import DotMatrix.Trace.Sink

/-!
# The console

The machine with what its user adds to it: a policy for saving cartridge RAM, and a trace. None of
these takes part in the emulation.

`Console.step` is one step of the processor, traced before and followed by a save if the policy
asks for one.
-/

namespace DotMatrix

/-- When changed cartridge RAM is saved. -/
inductive SavePolicy
  /-- After every instruction. -/
  | everyInstruction
  /-- When vertical blank begins. -/
  | vblank
  /-- Only when asked for. -/
  | manual
  deriving DecidableEq, Repr

/-- Does the policy save when vertical blank begins? -/
def SavePolicy.savesAtVBlank : SavePolicy → Bool
  | .vblank => true
  | _ => false

/-- The machine and what its user adds. -/
structure Console where
  machine : Machine
  policy : SavePolicy
  trace : Option Trace.Sink
  /-- Frames for which the pace was kept, or would have been. -/
  framesDone : Nat

namespace Console

/-- A console without a cartridge. -/
def powerOn (host : Host) : Console :=
  { machine := { cpu := .powerOn, bus := .powerOn host }
    policy := .everyInstruction, trace := none, framesDone := 0 }

variable (c : Console)

/-- Clock ticks since power on. -/
def cycles : Nat := c.machine.cpu.cycles

/-- The cartridge that is in. -/
def cartridge : Option Cartridge := c.machine.bus.cartridge

/-- The files and the log. -/
def host : Host := c.machine.bus.host

/-- The picture on the screen. -/
def picture : Picture := c.machine.bus.video.picture

/-- Is there a frame that was not acknowledged? -/
def frameReady : Bool := c.machine.bus.video.frameReady

/-- Change what the processor reaches. -/
def mapBus (f : Bus → Bus) : Console :=
  { c with machine := { c.machine with bus := f c.machine.bus } }

/-- Change the files and the log. -/
def mapHost (f : Host → Host) : Console := c.mapBus fun b => { b with host := f b.host }

/-! ### Cartridges -/

/-- Put a cartridge in, instead of the one that was in. -/
def insert (cartridge : Cartridge) : Console :=
  let c := c.mapHost (·.record (.cartridgeInserted cartridge.header.title))
  c.mapBus (·.insert cartridge)

/-- Put in a cartridge with the given image. -/
def insertImage (image : ByteArray) : Except Cartridge.ImageError Console :=
  match Cartridge.ofImage image with
  | .error e => .error e
  | .ok cartridge => .ok ((c.mapHost (·.recordAll cartridge.warnings)).insert cartridge)

/-- Put in the cartridge whose image is in a file. -/
def insertFile (path : String) : Except Cartridge.LoadError Console :=
  match Cartridge.ofFile c.host.volume path with
  | .error e => .error e
  | .ok (cartridge, events) => .ok ((c.mapHost (·.recordAll events)).insert cartridge)

/-! ### Settings -/

/-- Choose when RAM is saved. -/
def setPolicy (policy : SavePolicy) : Console :=
  mapBus { c with policy } fun b => { b with saveAtVBlank := policy.savesAtVBlank }

/-- Send the trace somewhere else, or nowhere. -/
def setTrace (sink : Option Trace.Sink) : Console := { c with trace := sink }

/-- Start again. The cartridge stays in as it is, and so do policy and trace. -/
def reset : Console :=
  let bus := Bus.powerOn c.host
  let bus := { bus with cartridge := c.cartridge, saveAtVBlank := c.policy.savesAtVBlank }
  { c with machine := { cpu := .powerOn, bus } }

/-! ### Running -/

/-- The trace line for the next instruction. -/
def traceLine : String :=
  let r := c.machine.cpu.registers
  let byteAfter (i : UInt16) : UInt8 := c.machine.bus.read (r.pc + i)
  Trace.line r (byteAfter 0) (byteAfter 1) (byteAfter 2) (byteAfter 3)

/-- Trace the next instruction, if there is a trace and the processor is about to execute one. -/
def traceStep : Console :=
  if c.machine.cpu.halted then c
  else
    match c.trace with
    | none => c
    | some sink =>
      let (sink, volume) := sink.record c.host.volume c.traceLine
      mapHost { c with trace := some sink } fun h => { h with volume }

/-- Save the cartridge's RAM if it has changed. -/
def save : Console := if c.machine.bus.needsSave then c.mapBus Bus.saveRam else c

/-- One step of the processor, and the fault if it cannot go on. -/
def step : Console × Option Fault :=
  let c := c.traceStep
  match c.machine.step with
  | (machine, some fault) => ({ c with machine }, some fault)
  | (machine, none) =>
    let c := { c with machine }
    (if c.policy = .everyInstruction then c.save else c, none)

/-! ### The player -/

/-- Press or release a button. -/
def setButton (button : Button) (down : Bool) : Console := c.mapBus (·.setButton button down)

/-- Take the bytes that the program has sent over the serial link. -/
def takeSerial : Array UInt8 × Console :=
  (c.machine.bus.serial.sent, c.mapBus fun b => { b with serial := b.serial.drain })

end Console

end DotMatrix
