import DotMatrix.Instruction.Decode
import DotMatrix.Processor.Alu
import DotMatrix.Processor.Machine

/-!
# Executing instructions

`Machine.execute` is the effect of an instruction whose opcode has been fetched. It fetches the
bytes that follow, reads and writes memory, and takes the machine cycles that each of these takes
and those that the processor needs for itself.
-/

namespace DotMatrix.Machine

variable (m : Machine)

/-! ### Operands -/

/-- The byte in a cell. -/
def readCell : Cell → UInt8 × Machine
  | .register r => (m.cpu.registers.byte r, m)
  | .atHL => m.read m.cpu.registers.hl

/-- Put a byte into a cell. -/
def writeCell (c : Cell) (v : UInt8) : Machine :=
  match c with
  | .register r => m.mapRegisters (·.setByte r v)
  | .atHL => m.write m.cpu.registers.hl v

/-- The value of an operand. -/
def readOperand : Operand → UInt8 × Machine
  | .cell c => m.readCell c
  | .immediate => m.fetch

/-- The address that a pointer stands for. HL counts as the pointer says. -/
def resolve : Pointer → UInt16 × Machine
  | .bc => (m.cpu.registers.bc, m)
  | .de => (m.cpu.registers.de, m)
  | .hlUp =>
    let hl := m.cpu.registers.hl
    (hl, m.mapRegisters (·.setHL (hl + 1)))
  | .hlDown =>
    let hl := m.cpu.registers.hl
    (hl, m.mapRegisters (·.setHL (hl - 1)))
  | .pageC => (Word.ofBytes 0xFF m.cpu.registers.c, m)
  | .pageImmediate =>
    let (offset, m) := m.fetch
    (Word.ofBytes 0xFF offset, m)
  | .immediate => m.fetchWord

/-- Is the way of a conditional instruction open? -/
def taken : Option Condition → Bool
  | none => true
  | some condition => Alu.holds m.cpu.registers.flags condition

/-! ### Families of instructions -/

/-- Replace A and the flags. -/
def setResult (result : UInt8 × Flags) : Machine :=
  m.mapRegisters fun r => { r with a := result.1, flags := result.2 }

/-- Combine A with an operand. -/
def combine (op : Arithmetic) (right : Operand) : Machine :=
  let (n, m) := m.readOperand right
  let r := m.cpu.registers
  m.setResult (Alu.arithmetic op r.a n r.flags)

/-- Replace a cell by a function of it and the flags. -/
def count (f : UInt8 → Flags → UInt8 × Flags) (c : Cell) : Machine :=
  let (n, m) := m.readCell c
  let (result, flags) := f n m.cpu.registers.flags
  (m.setFlags flags).writeCell c result

/-- Load A through a pointer. -/
def loadA (p : Pointer) : Machine :=
  let (address, m) := m.resolve p
  let (v, m) := m.read address
  m.mapRegisters fun r => { r with a := v }

/-- Store A through a pointer. -/
def storeA (p : Pointer) : Machine :=
  let (address, m) := m.resolve p
  m.write address m.cpu.registers.a

/-- Add to HL. -/
def addToHL (p : PairRegister) : Machine :=
  let r := m.cpu.registers
  let (result, flags) := Alu.addWords r.hl (r.pair p) r.flags
  (m.mapRegisters fun r => { r with flags }.setHL result).cycle

/-- SP displaced by the byte after the opcode. -/
def displacedSP : (UInt16 × Flags) × Machine :=
  let (e, m) := m.fetch
  (Alu.displace m.cpu.registers.sp e, m)

/-- Jump to a displacement of PC. -/
def jumpRelative (when? : Option Condition) : Machine :=
  let (e, m) := m.fetch
  if m.taken when? then (m.mapRegisters (·.jumpRelative e)).cycle else m

/-- Jump to the address after the opcode. -/
def jump (when? : Option Condition) : Machine :=
  let (target, m) := m.fetchWord
  if m.taken when? then (m.setPC target).cycle else m

/-- Push PC and go on at an address. -/
def callAddress (target : UInt16) : Machine :=
  let m := m.cycle
  (m.push m.cpu.registers.pc).setPC target

/-- Call the address after the opcode. -/
def call (when? : Option Condition) : Machine :=
  let (target, m) := m.fetchWord
  if m.taken when? then m.callAddress target else m

/-- Pop PC. -/
def popPC : Machine :=
  let (target, m) := m.pop
  (m.setPC target).cycle

/-- Return. Testing a condition takes a machine cycle. -/
def ret (when? : Option Condition) : Machine :=
  match when? with
  | none => m.popPC
  | some condition =>
    let m := m.cycle
    if m.taken (some condition) then m.popPC else m

/-- An instruction of the second set. -/
def executeExtended (x : Extended) : Machine :=
  let (n, m) := m.readCell x.target
  let (result?, flags) := Alu.bitOperation x.operation n m.cpu.registers.flags
  let m := m.setFlags flags
  match result? with
  | none => m
  | some result => m.writeCell x.target result

/-! ### All instructions -/

/-- The effect of an instruction. Unused opcodes have none, and `stop` only fetches its second
byte; what becomes of the machine is decided by the caller. -/
def execute : Instruction → Machine
  | .unused => m
  | .nop => m
  | .halt => { m with cpu := { m.cpu with halted := true } }
  | .stop => m.fetch.2
  | .disableInterrupts => { m with cpu := { m.cpu with interruptsOn := false, enableDelay := 0 } }
  | .enableInterrupts => { m with cpu := { m.cpu with enableDelay := 2 } }
  | .load dst src =>
    let (v, m) := m.readOperand src
    m.mapRegisters (·.setByte dst v)
  | .store src => m.write m.cpu.registers.hl (m.cpu.registers.byte src)
  | .storeImmediate =>
    let (v, m) := m.fetch
    m.write m.cpu.registers.hl v
  | .loadA src => m.loadA src
  | .storeA dst => m.storeA dst
  | .loadPair dst =>
    let (w, m) := m.fetchWord
    m.mapRegisters (·.setPair dst w)
  | .storeSP =>
    let (address, m) := m.fetchWord
    m.writeWord address m.cpu.registers.sp
  | .loadSPFromHL => (m.setSP m.cpu.registers.hl).cycle
  | .loadHLFromSP =>
    let ((result, flags), m) := m.displacedSP
    (m.mapRegisters fun r => { r with flags }.setHL result).cycle
  | .push src =>
    let w := m.cpu.registers.stacked src
    m.cycle.push w
  | .pop dst =>
    let (w, m) := m.pop
    m.mapRegisters (·.setStacked dst w)
  | .arithmetic op right => m.combine op right
  | .increment c => m.count Alu.increment c
  | .decrement c => m.count Alu.decrement c
  | .incrementPair p => (m.mapRegisters fun r => r.setPair p (r.pair p + 1)).cycle
  | .decrementPair p => (m.mapRegisters fun r => r.setPair p (r.pair p - 1)).cycle
  | .addToHL p => m.addToHL p
  | .addToSP =>
    let ((result, flags), m) := m.displacedSP
    idle 2 (m.mapRegisters fun r => { r with flags, sp := result })
  | .rotateA r => m.setResult (Alu.rotateA r m.cpu.registers.a m.cpu.registers.flags)
  | .decimalAdjust => m.setResult (Alu.decimalAdjust m.cpu.registers.a m.cpu.registers.flags)
  | .complementA =>
    m.mapRegisters fun r =>
      { r with a := ~~~r.a, flags := { r.flags with subtract := true, halfCarry := true } }
  | .setCarry =>
    m.mapRegisters fun r =>
      { r with flags := { r.flags with subtract := false, halfCarry := false, carry := true } }
  | .complementCarry =>
    m.mapRegisters fun r =>
      { r with
        flags := { r.flags with subtract := false, halfCarry := false, carry := !r.flags.carry } }
  | .jumpRelative c => m.jumpRelative c
  | .jump c => m.jump c
  | .jumpToHL => m.setPC m.cpu.registers.hl
  | .call c => m.call c
  | .ret c => m.ret c
  | .returnFromInterrupt =>
    popPC { m with cpu := { m.cpu with interruptsOn := true, enableDelay := 0 } }
  | .restart v => m.callAddress v.toUInt16
  | .extended =>
    let (opcode, m) := m.fetch
    m.executeExtended (.decode opcode)

end DotMatrix.Machine
