import DotMatrix.Word

/-!
# Interrupt lines

Five sources share two registers: `flags` holds the requests and `enable` the sources that the
program listens to. A source is pending when both have its bit. Of several pending sources the one
with the lowest bit is served first.
-/

namespace DotMatrix

/-- The sources of interrupts, the most urgent first. -/
inductive Interrupt
  | vblank | lcdStatus | timer | serial | joypad
  deriving DecidableEq, Repr

namespace Interrupt

/-- All sources, the most urgent first. -/
def all : List Interrupt := [.vblank, .lcdStatus, .timer, .serial, .joypad]

/-- The bit of the source in both registers. -/
def mask : Interrupt → UInt8
  | .vblank => 0x01
  | .lcdStatus => 0x02
  | .timer => 0x04
  | .serial => 0x08
  | .joypad => 0x10

/-- The address of the source's handler. -/
def vector : Interrupt → UInt16
  | .vblank => 0x40
  | .lcdStatus => 0x48
  | .timer => 0x50
  | .serial => 0x58
  | .joypad => 0x60

end Interrupt

/-- The two interrupt registers. -/
structure Interrupts where
  flags : UInt8
  enable : UInt8
  deriving DecidableEq, Repr

namespace Interrupts

/-- The registers when a program starts. -/
def powerOn : Interrupts := ⟨0xE1, 0⟩

variable (i : Interrupts)

/-- Raise a source's request. -/
def request (source : Interrupt) : Interrupts := { i with flags := i.flags ||| source.mask }

/-- Raise a source's request if a condition holds. -/
def requestIf (on : Bool) (source : Interrupt) : Interrupts := if on then i.request source else i

/-- Take a source's request back, because it is being served. -/
def acknowledge (source : Interrupt) : Interrupts := { i with flags := i.flags &&& ~~~source.mask }

/-- The sources that are requested and enabled. -/
def pending : UInt8 := i.flags &&& i.enable &&& 0x1F

/-- The most urgent pending source. -/
def highest? : Option Interrupt := Interrupt.all.find? fun source => i.pending &&& source.mask != 0

/-- The request register as a program reads it: the upper three bits are on. -/
def readFlags : UInt8 := i.flags ||| 0xE0

/-- A program's write to the request register; the upper three bits are dropped. -/
def writeFlags (b : UInt8) : Interrupts := { i with flags := b &&& 0x1F }

end Interrupts

end DotMatrix
