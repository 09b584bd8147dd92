import DotMatrix.Processor.Step
import DotMatrix.Proofs.Checked.Alu
import DotMatrix.Proofs.Checked.Machine

/-!
# Steps of the processor, checked

Every function that takes part in a step is repeated with the checked access to memory and the
checked arithmetic, and tracks its original.

* `execute_tracks`: an instruction, one case for each that goes to memory or takes more time;
* `step_tracks`: a step, with the service of an interrupt.
-/

namespace DotMatrix

namespace Machine

variable (m : Machine)

/-! ### Operands -/

/-- The byte in a cell. -/
def readCell? : Cell → Option (UInt8 × Machine)
  | .register r => some (m.cpu.registers.byte r, m)
  | .atHL => m.read? m.cpu.registers.hl

/-- Put a byte into a cell. -/
def writeCell? (c : Cell) (v : UInt8) : Option Machine :=
  match c with
  | .register r => some (m.mapRegisters (·.setByte r v))
  | .atHL => m.write? m.cpu.registers.hl v

/-- The value of an operand. -/
def readOperand? : Operand → Option (UInt8 × Machine)
  | .cell c => m.readCell? c
  | .immediate => m.fetch?

/-- The address that a pointer stands for. -/
def resolve? (p : Pointer) : Option (UInt16 × Machine) :=
  match p with
  | .pageImmediate => do
    let (offset, m) ← m.fetch?
    some (Word.ofBytes 0xFF offset, m)
  | .immediate => m.fetchWord?
  | p => some (m.resolve p)

theorem readCell_tracks (c : Cell) : Tracks Prod.snd m (m.readCell? c) (m.readCell c) := by
  cases c with
  | register r => exact .some (.refl m)
  | atHL => exact m.read_tracks _

theorem writeCell_tracks (c : Cell) (v : UInt8) :
    Tracks id m (m.writeCell? c v) (m.writeCell c v) := by
  cases c with
  | register r => exact .some (.ofCpu rfl)
  | atHL => exact m.write_tracks _ v

theorem readOperand_tracks (o : Operand) :
    Tracks Prod.snd m (m.readOperand? o) (m.readOperand o) := by
  cases o with
  | cell c => exact m.readCell_tracks c
  | immediate => exact m.fetch_tracks

theorem resolve_tracks (p : Pointer) : Tracks Prod.snd m (m.resolve? p) (m.resolve p) := by
  cases p with
  | pageImmediate => exact m.fetch_tracks.bind (.some (.refl _))
  | immediate => exact m.fetchWord_tracks
  | _ => exact .some (.ofCpu rfl)

/-! ### Families of instructions -/

/-- Combine A with an operand. -/
def combine? (op : Arithmetic) (right : Operand) : Option Machine := do
  let (n, m) ← m.readOperand? right
  let r := m.cpu.registers
  let result ← Alu.arithmetic? op r.a n r.flags
  some (m.setResult result)

/-- Replace a cell by a function of it and the flags. -/
def count? (f : UInt8 → Flags → UInt8 × Flags) (c : Cell) : Option Machine := do
  let (n, m) ← m.readCell? c
  let (result, flags) := f n m.cpu.registers.flags
  (m.setFlags flags).writeCell? c result

/-- Load A through a pointer. -/
def loadA? (p : Pointer) : Option Machine := do
  let (address, m) ← m.resolve? p
  let (v, m) ← m.read? address
  some (m.mapRegisters fun r => { r with a := v })

/-- Store A through a pointer. -/
def storeA? (p : Pointer) : Option Machine := do
  let (address, m) ← m.resolve? p
  m.write? address m.cpu.registers.a

/-- Add to HL. -/
def addToHL? (p : PairRegister) : Option Machine := do
  let r := m.cpu.registers
  let (result, flags) ← Alu.addWords? r.hl (r.pair p) r.flags
  (m.mapRegisters fun r => { r with flags }.setHL result).cycle?

/-- SP displaced by the byte after the opcode. -/
def displacedSP? : Option ((UInt16 × Flags) × Machine) := do
  let (e, m) ← m.fetch?
  let result ← Alu.displace? m.cpu.registers.sp e
  some (result, m)

/-- Jump to a displacement of PC. -/
def jumpRelative? (c : Option Condition) : Option Machine := do
  let (e, m) ← m.fetch?
  if m.taken c then (m.mapRegisters (·.jumpRelative e)).cycle? else some m

/-- Jump to the address after the opcode. -/
def jump? (c : Option Condition) : Option Machine := do
  let (target, m) ← m.fetchWord?
  if m.taken c then (m.setPC target).cycle? else some m

/-- Push PC and go on at an address. -/
def callAddress? (target : UInt16) : Option Machine := do
  let m ← m.cycle?
  let m ← m.push? m.cpu.registers.pc
  some (m.setPC target)

/-- Call the address after the opcode. -/
def call? (c : Option Condition) : Option Machine := do
  let (target, m) ← m.fetchWord?
  if m.taken c then m.callAddress? target else some m

/-- Pop PC. -/
def popPC? : Option Machine := do
  let (target, m) ← m.pop?
  (m.setPC target).cycle?

/-- Return. -/
def ret? (c : Option Condition) : Option Machine :=
  match c with
  | none => m.popPC?
  | some condition => do
    let m ← m.cycle?
    if m.taken (some condition) then m.popPC? else some m

/-- An instruction of the second set. -/
def executeExtended? (x : Extended) : Option Machine := do
  let (n, m) ← m.readCell? x.target
  let (result?, flags) ← Alu.bitOperation? x.operation n m.cpu.registers.flags
  let m := m.setFlags flags
  match result? with
  | none => some m
  | some result => m.writeCell? x.target result

theorem combine_tracks (op : Arithmetic) (right : Operand) :
    Tracks id m (m.combine? op right) (m.combine op right) := by
  refine (m.readOperand_tracks right).bind ?_
  unfold combine
  -- All that follows begins at the machine that the operand was read from, which takes over the name.
  generalize m.readOperand right = x
  obtain ⟨n, m⟩ := x
  dsimp only
  rw [Alu.arithmetic?_eq]
  exact .some (.ofCpu rfl)

theorem count_tracks (f : UInt8 → Flags → UInt8 × Flags) (c : Cell) :
    Tracks id m (m.count? f c) (m.count f c) := by
  refine (m.readCell_tracks c).bind ?_
  unfold count
  generalize m.readCell c = x
  obtain ⟨n, m⟩ := x
  exact (writeCell_tracks _ c _).after (.ofCpu rfl)

theorem loadA_tracks (p : Pointer) : Tracks id m (m.loadA? p) (m.loadA p) := by
  refine (m.resolve_tracks p).bind ?_
  unfold loadA
  generalize m.resolve p = x
  obtain ⟨address, m⟩ := x
  exact (m.read_tracks address).bind (.some (.ofCpu rfl))

theorem storeA_tracks (p : Pointer) : Tracks id m (m.storeA? p) (m.storeA p) := by
  refine (m.resolve_tracks p).bind ?_
  unfold storeA
  generalize m.resolve p = x
  obtain ⟨address, m⟩ := x
  exact m.write_tracks address _

theorem addToHL_tracks (p : PairRegister) : Tracks id m (m.addToHL? p) (m.addToHL p) := by
  rw [addToHL?, Alu.addWords?_eq]
  exact (cycle_tracks _).after (.ofCpu rfl)

theorem displacedSP_tracks : Tracks Prod.snd m m.displacedSP? m.displacedSP := by
  refine m.fetch_tracks.bind ?_
  unfold displacedSP
  generalize m.fetch = x
  obtain ⟨e, m⟩ := x
  dsimp only
  rw [Alu.displace?_eq]
  exact .some (.refl _)

theorem jumpRelative_tracks (c : Option Condition) :
    Tracks id m (m.jumpRelative? c) (m.jumpRelative c) := by
  refine m.fetch_tracks.bind ?_
  unfold jumpRelative
  generalize m.fetch = x
  obtain ⟨e, m⟩ := x
  dsimp only
  split
  · exact (cycle_tracks _).after (.ofCpu rfl)
  · exact .some (.refl _)

theorem jump_tracks (c : Option Condition) : Tracks id m (m.jump? c) (m.jump c) := by
  refine m.fetchWord_tracks.bind ?_
  unfold jump
  generalize m.fetchWord = x
  obtain ⟨target, m⟩ := x
  dsimp only
  split
  · exact (cycle_tracks _).after (.ofCpu rfl)
  · exact .some (.refl _)

theorem callAddress_tracks (target : UInt16) :
    Tracks id m (m.callAddress? target) (m.callAddress target) :=
  m.cycle_tracks.bind ((push_tracks _ _).bind (.some (.ofCpu rfl)))

theorem call_tracks (c : Option Condition) : Tracks id m (m.call? c) (m.call c) := by
  refine m.fetchWord_tracks.bind ?_
  unfold call
  generalize m.fetchWord = x
  obtain ⟨target, m⟩ := x
  dsimp only
  split
  · exact m.callAddress_tracks target
  · exact .some (.refl _)

theorem popPC_tracks : Tracks id m m.popPC? m.popPC := by
  refine m.pop_tracks.bind ?_
  unfold popPC
  generalize m.pop = x
  obtain ⟨target, m⟩ := x
  exact (cycle_tracks _).after (.ofCpu rfl)

theorem ret_tracks (c : Option Condition) : Tracks id m (m.ret? c) (m.ret c) := by
  cases c with
  | none => exact m.popPC_tracks
  | some condition =>
    refine m.cycle_tracks.bind ?_
    unfold ret
    dsimp only [id]
    split
    · exact popPC_tracks _
    · exact .some (.refl _)

theorem executeExtended_tracks (x : Extended) :
    Tracks id m (m.executeExtended? x) (m.executeExtended x) := by
  refine (m.readCell_tracks x.target).bind ?_
  unfold executeExtended
  generalize m.readCell x.target = y
  obtain ⟨n, m⟩ := y
  dsimp only
  rw [Alu.bitOperation?_eq]
  generalize Alu.bitOperation x.operation n m.cpu.registers.flags = y
  obtain ⟨result?, flags⟩ := y
  cases result? with
  | none => exact .some (.ofCpu rfl)
  | some result => exact (writeCell_tracks _ x.target result).after (.ofCpu rfl)

/-! ### All instructions -/

/-- The effect of an instruction. Those that are left to the end only change registers and
switches, with nothing in it that has a bound. -/
def execute? (i : Instruction) : Option Machine :=
  match i with
  | .stop => do
    let (_, m) ← m.fetch?
    some m
  | .load dst src => do
    let (v, m) ← m.readOperand? src
    some (m.mapRegisters (·.setByte dst v))
  | .store src => m.write? m.cpu.registers.hl (m.cpu.registers.byte src)
  | .storeImmediate => do
    let (v, m) ← m.fetch?
    m.write? m.cpu.registers.hl v
  | .loadA src => m.loadA? src
  | .storeA dst => m.storeA? dst
  | .loadPair dst => do
    let (w, m) ← m.fetchWord?
    some (m.mapRegisters (·.setPair dst w))
  | .storeSP => do
    let (address, m) ← m.fetchWord?
    m.writeWord? address m.cpu.registers.sp
  | .loadSPFromHL => (m.setSP m.cpu.registers.hl).cycle?
  | .loadHLFromSP => do
    let ((result, flags), m) ← m.displacedSP?
    (m.mapRegisters fun r => { r with flags }.setHL result).cycle?
  | .push src => do
    let w := m.cpu.registers.stacked src
    let m ← m.cycle?
    m.push? w
  | .pop dst => do
    let (w, m) ← m.pop?
    some (m.mapRegisters (·.setStacked dst w))
  | .arithmetic op right => m.combine? op right
  | .increment c => m.count? Alu.increment c
  | .decrement c => m.count? Alu.decrement c
  | .incrementPair p => (m.mapRegisters fun r => r.setPair p (r.pair p + 1)).cycle?
  | .decrementPair p => (m.mapRegisters fun r => r.setPair p (r.pair p - 1)).cycle?
  | .addToHL p => m.addToHL? p
  | .addToSP => do
    let ((result, flags), m) ← m.displacedSP?
    idle? 2 (m.mapRegisters fun r => { r with flags, sp := result })
  | .jumpRelative c => m.jumpRelative? c
  | .jump c => m.jump? c
  | .call c => m.call? c
  | .ret c => m.ret? c
  | .returnFromInterrupt =>
    popPC? { m with cpu := { m.cpu with interruptsOn := true, enableDelay := 0 } }
  | .restart v => m.callAddress? v.toUInt16
  | .extended => do
    let (opcode, m) ← m.fetch?
    let x ← Extended.decode? opcode
    m.executeExtended? x
  | i => some (m.execute i)

/-- The effect of an instruction. -/
theorem execute_tracks (i : Instruction) : Tracks id m (m.execute? i) (m.execute i) := by
  cases i with
  | stop => exact m.fetch_tracks.bind (.some (.refl _))
  | load dst src => exact (m.readOperand_tracks src).bind (.some (.ofCpu rfl))
  | store src => exact m.write_tracks _ _
  | storeImmediate => exact m.fetch_tracks.bind (write_tracks _ _ _)
  | loadA src => exact m.loadA_tracks src
  | storeA dst => exact m.storeA_tracks dst
  | loadPair dst => exact m.fetchWord_tracks.bind (.some (.ofCpu rfl))
  | storeSP => exact m.fetchWord_tracks.bind (writeWord_tracks _ _ _)
  | loadSPFromHL => exact (cycle_tracks _).after (.ofCpu rfl)
  | loadHLFromSP => exact m.displacedSP_tracks.bind ((cycle_tracks _).after (.ofCpu rfl))
  | push src => exact m.cycle_tracks.bind (push_tracks _ _)
  | pop dst => exact m.pop_tracks.bind (.some (.ofCpu rfl))
  | arithmetic op right => exact m.combine_tracks op right
  | increment c => exact m.count_tracks Alu.increment c
  | decrement c => exact m.count_tracks Alu.decrement c
  | incrementPair p => exact (cycle_tracks _).after (.ofCpu rfl)
  | decrementPair p => exact (cycle_tracks _).after (.ofCpu rfl)
  | addToHL p => exact m.addToHL_tracks p
  | addToSP => exact m.displacedSP_tracks.bind ((idle_tracks _ 2).after (.ofCpu rfl))
  | jumpRelative c => exact m.jumpRelative_tracks c
  | jump c => exact m.jump_tracks c
  | call c => exact m.call_tracks c
  | ret c => exact m.ret_tracks c
  | returnFromInterrupt => exact (popPC_tracks _).after (.ofCpu rfl)
  | restart v => exact m.callAddress_tracks v.toUInt16
  | extended =>
    refine m.fetch_tracks.bind ?_
    unfold execute
    generalize m.fetch = x
    obtain ⟨opcode, m⟩ := x
    dsimp only
    rw [Extended.decode?_eq]
    exact m.executeExtended_tracks _
  -- The others change registers and switches, and the machine is where it was.
  | _ => exact .some (.ofCpu rfl)

end Machine

/-! ### Steps -/

/-- Count the completed instruction towards switching interrupts on. -/
def Processor.countDelay? (p : Processor) (delayBefore : Nat) : Option Processor := do
  let enableDelay ← if 0 < p.enableDelay then Checked.sub p.enableDelay 1 else some p.enableDelay
  some
    { p with
      interruptsOn := p.interruptsOn || (delayBefore == 1 && p.enableDelay != 0)
      enableDelay }

theorem Processor.countDelay?_eq (p : Processor) (delayBefore : Nat) :
    p.countDelay? delayBefore = some (p.countDelay delayBefore) := by
  unfold countDelay? countDelay
  by_cases hd : 0 < p.enableDelay
  · rw [if_pos hd, Checked.sub_eq hd]
    rfl
  · rw [if_neg hd]
    -- Nothing is taken away from a delay that is over, which subtraction of numbers agrees with.
    have hz : p.enableDelay - 1 = p.enableDelay := by omega
    rw [hz]
    rfl

namespace Machine

variable (m : Machine)

/-- Serve an interrupt. -/
def serve? (source : Interrupt) : Option Machine := do
  let cpu := { m.cpu with interruptsOn := false, halted := false }
  let bus := { m.bus with interrupts := m.bus.interrupts.acknowledge source }
  let m : Machine := { cpu, bus }
  let m ← m.push? m.cpu.registers.pc
  idle? 3 (m.setPC source.vector)

/-- Serve the most urgent pending interrupt, if interrupts are on and there is one. -/
def poll? : Option Machine :=
  if m.cpu.interruptsOn then
    match m.bus.interrupts.highest? with
    | some source => m.serve? source
    | none => some m
  else some m

/-- A machine cycle of waiting. -/
def wait? : Option Machine := do
  let m ← m.cycle?
  let halted := m.cpu.halted && m.bus.interrupts.pending == 0
  poll? { m with cpu := { m.cpu with halted } }

/-- One instruction. -/
def runInstruction? : Option (Machine × Option Fault) := do
  let delay := m.cpu.enableDelay
  let pc := m.cpu.registers.pc
  let (opcode, m) ← m.fetch?
  let instruction ← Instruction.decode? opcode
  let m ← m.execute? instruction
  match instruction.fault? opcode pc with
  | some fault => some (m, some fault)
  | none => do
    let cpu ← m.cpu.countDelay? delay
    let m ← poll? { m with cpu }
    some (m, none)

/-- One step. -/
def step? : Option (Machine × Option Fault) :=
  if m.cpu.halted then do
    let m ← m.wait?
    some (m, none)
  else m.runInstruction?

theorem serve_tracks (source : Interrupt) :
    Tracks id m (m.serve? source) (m.serve source) := by
  let cpu := { m.cpu with interruptsOn := false, halted := false }
  let bus := { m.bus with interrupts := m.bus.interrupts.acknowledge source }
  have hleads : Leads m { cpu, bus } := ⟨fun h => h.congr rfl rfl rfl, 0, rfl⟩
  refine Tracks.after ?_ hleads
  exact (push_tracks _ _).bind ((idle_tracks _ 3).after (.ofCpu rfl))

theorem poll_tracks : Tracks id m m.poll? m.poll := by
  unfold poll? poll
  cases m.cpu.interruptsOn with
  | false => exact .some (.refl m)
  | true =>
    cases m.bus.interrupts.highest? with
    | none => exact .some (.refl m)
    | some source => exact m.serve_tracks source

theorem wait_tracks : Tracks id m m.wait? m.wait :=
  m.cycle_tracks.bind ((poll_tracks _).after (.ofCpu rfl))

theorem runInstruction_tracks : Tracks Prod.fst m m.runInstruction? m.runInstruction := by
  refine m.fetch_tracks.bind ?_
  unfold runInstruction
  generalize m.cpu.enableDelay = delay
  generalize m.cpu.registers.pc = pc
  generalize m.fetch = x
  obtain ⟨opcode, m⟩ := x
  dsimp only
  rw [Instruction.decode?_eq]
  generalize Instruction.decode opcode = instruction
  refine (m.execute_tracks instruction).bind ?_
  cases instruction.fault? opcode pc with
  | some fault => exact .some (.refl _)
  | none =>
    dsimp only [id]
    rw [Processor.countDelay?_eq]
    exact Tracks.after ((poll_tracks _).bind (.some (.refl _))) (.ofCpu rfl)

/-- **A step of the processor.** -/
theorem step_tracks : Tracks Prod.fst m m.step? m.step := by
  unfold step? step
  split
  · exact m.wait_tracks.bind (.some (.refl _))
  · exact m.runInstruction_tracks

end Machine

end DotMatrix
