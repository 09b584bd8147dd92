import DotMatrix.Word

/-!
# The timer

A 16-bit divider counts every clock tick. While the timer is enabled a second counter goes up each
time the divider reaches a multiple of the chosen period. When that counter wraps to zero it stays
there for a window of four ticks; at the end of the window it is reloaded from the modulo register
and the timer interrupt is requested. Writing the counter inside the window, or switching the timer
off, cancels the reload.

`Timer.tick` is one clock tick. The interrupt is requested by exactly the ticks after which
`reloading` holds.
-/

namespace DotMatrix

namespace Timer

/-- The four registers that a program sees. -/
inductive Register
  /-- The upper byte of the divider. Writing clears the whole divider. -/
  | divider
  | counter
  | modulo
  | control
  deriving DecidableEq, Repr

/-- The time after a wrap and before its reload. -/
structure Window where
  /-- Ticks since the wrap. -/
  elapsed : Nat
  /-- The counter was still zero when the reload was decided. -/
  decided : Bool
  deriving DecidableEq, Repr

/-- Ticks from the wrap to the reload. -/
def Window.length : Nat := 4

/-- The tick at which the reload is decided. -/
def Window.decision : Nat := 3

end Timer

/-- The state of the timer. -/
structure Timer where
  divider : UInt16
  counter : UInt8
  modulo : UInt8
  /-- Bit 2 enables the counter, bits 0 and 1 choose its period. -/
  control : UInt8
  /-- The window that is running, if the counter wrapped. -/
  window : Option Timer.Window
  /-- The last tick reloaded the counter. -/
  reloading : Bool
  deriving DecidableEq, Repr

namespace Timer

/-- The timer when a program starts. -/
def powerOn : Timer :=
  { divider := 0xABCC, counter := 0, modulo := 0, control := 0, window := none, reloading := false }

variable (t : Timer)

/-- Is the counter running? -/
def enabled : Bool := Byte.bit t.control 2

/-- Ticks between two steps of the counter. -/
def period : Nat :=
  match t.control.toNat % 4 with
  | 0 => 1024
  | 1 => 16
  | 2 => 64
  | _ => 256

/-- Has the counter wrapped without its reload being done? -/
def inWindow : Bool := t.window.isSome

/-- A program's read. -/
def read : Register → UInt8
  | .divider => Word.high t.divider
  | .counter => t.counter
  | .modulo => t.modulo
  | .control => t.control ||| 0xF8

/-- A program's write. On the tick of a reload the counter takes the modulo register's value,
whatever is written to it. -/
def write (register : Register) (b : UInt8) : Timer :=
  match register with
  | .divider => { t with divider := 0 }
  | .counter => if t.reloading then t else { t with counter := b, window := none }
  | .modulo => { t with modulo := b, counter := if t.reloading then b else t.counter }
  | .control =>
    let t := { t with control := b &&& 0x07 }
    if t.enabled then t else { t with window := none }

/-- One more tick of the window `w`. -/
def tickWindow (w : Window) : Timer :=
  let elapsed := w.elapsed + 1
  let decided := w.decided || (elapsed == Window.decision && t.counter == 0)
  if elapsed = Window.length then
    if decided then { t with counter := t.modulo, window := none, reloading := true }
    else { t with window := none }
  else { t with window := some ⟨elapsed, decided⟩ }

/-- One step of the counter. -/
def countUp : Timer :=
  let counter := t.counter + 1
  { t with counter, window := if counter = 0 then some ⟨0, false⟩ else none }

/-- One clock tick. -/
def tick : Timer :=
  let t := { t with divider := t.divider + 1, reloading := false }
  if t.enabled then
    match t.window with
    | some w => t.tickWindow w
    | none => if t.divider.toNat % t.period = 0 then t.countUp else t
  else { t with window := none }

end Timer

end DotMatrix
