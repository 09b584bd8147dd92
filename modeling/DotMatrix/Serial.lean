import DotMatrix.Word

/-!
# The serial link

Nobody is at the other end of the cable. A transfer that the machine clocks itself is over at once:
the byte that leaves is recorded, the byte that arrives is all ones, and the serial interrupt is
requested.
-/

namespace DotMatrix

namespace Serial

/-- The two registers that a program sees. -/
inductive Register
  | data
  | control
  deriving DecidableEq, Repr

/-- Does a write to this register start a transfer on the machine's own clock? -/
def starts (register : Register) (b : UInt8) : Bool := register == .control && b &&& 0x81 == 0x81

end Serial

/-- The state of the serial link. -/
structure Serial where
  data : UInt8
  control : UInt8
  /-- The bytes that have left and were not taken yet, oldest first. -/
  sent : Array UInt8
  deriving DecidableEq, Repr

namespace Serial

/-- The link when a program starts. -/
def powerOn : Serial := ⟨0, 0x7E, #[]⟩

variable (s : Serial)

/-- A program's read. -/
def read : Register → UInt8
  | .data => s.data
  | .control => s.control ||| 0x7E

/-- A program's write. A transfer that starts is complete when the write is over. -/
def write (register : Register) (b : UInt8) : Serial :=
  match register with
  | .data => { s with data := b }
  | .control =>
    if starts .control b then
      { data := 0xFF, control := b &&& 0x7F, sent := s.sent.push s.data }
    else { s with control := b }

/-- Forget the bytes that have left, because they were taken. -/
def drain : Serial := { s with sent := #[] }

end Serial

end DotMatrix
