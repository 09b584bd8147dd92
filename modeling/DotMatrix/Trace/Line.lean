import DotMatrix.Registers
import DotMatrix.Text.Hex

/-!
# Trace lines

A trace line describes the machine before an instruction: every register and the four bytes from PC
on, in the layout that emulators exchange to find where they part.
-/

namespace DotMatrix.Trace

/-- The trace line for the registers and the four bytes from PC on. -/
def line (r : Registers) (b0 b1 b2 b3 : UInt8) : String :=
  s!"A:{Hex.byte r.a} F:{Hex.byte r.flags.toByte} B:{Hex.byte r.b} C:{Hex.byte r.c} " ++
    s!"D:{Hex.byte r.d} E:{Hex.byte r.e} H:{Hex.byte r.h} L:{Hex.byte r.l} " ++
    s!"SP:{Hex.word r.sp} PC:{Hex.word r.pc} " ++
    s!"PCMEM:{Hex.byte b0},{Hex.byte b1},{Hex.byte b2},{Hex.byte b3}"

end DotMatrix.Trace
