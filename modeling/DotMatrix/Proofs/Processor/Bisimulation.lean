import DotMatrix.Processor.Step

/-!
# Buses that the processor cannot tell apart

The processor learns of the rest of the machine from the bytes that it reads and from the interrupts
that are requested. If two buses agree on these, and go on agreeing when the same byte is written to
both, when a machine cycle passes and when an interrupt is acknowledged, then processors that are in
the same state stay so.

* `Bus.Lockstep`: a relation that is kept by all that happens in a machine cycle;
* `Bus.Bisimulation`: a relation between buses with these properties;
* `Machine.Related`: the same processor on related buses;
* `Machine.Yields`: related machines that come with the same answer;
* `Machine.Related.step`: a step takes related machines to related ones, with the same fault.
-/

namespace DotMatrix

/-! ### Buses -/

/-- A relation between buses that is kept by each of the things that happen in a machine cycle. The
same bytes are read on both, and vertical blank begins on both at once. -/
structure Bus.Lockstep (R : Bus → Bus → Prop) : Prop where
  read {b b' : Bus} : R b b' → ∀ a, b'.read a = b.read a
  transfer_eq {b b' : Bus} : R b b' → b'.transfer = b.transfer
  setTransfer {b b' : Bus} : R b b' → ∀ transfer, R { b with transfer } { b' with transfer }
  writeObject {b b' : Bus} : R b b' → ∀ i v, R (b.writeObject i v) (b'.writeObject i v)
  tickTimer {b b' : Bus} : R b b' → R b.tickTimer b'.tickTimer
  tickVideo {b b' : Bus} : R b b' →
    R b.tickVideo.1 b'.tickVideo.1 ∧ b'.tickVideo.2 = b.tickVideo.2
  vblankBegan {b b' : Bus} : R b b' → R b.vblankBegan b'.vblankBegan

namespace Bus.Lockstep

variable {R : Bus → Bus → Prop} {b b' : Bus} (hR : Lockstep R)
include hR

theorem runTimer (h : R b b') (n : Nat) : R (Bus.runTimer n b) (Bus.runTimer n b') := by
  induction n generalizing b b' with
  | zero => exact h
  | succ n ih => exact ih (hR.tickTimer h)

theorem runVideo (h : R b b') (n : Nat) :
    R (Bus.runVideo n b).1 (Bus.runVideo n b').1 ∧
      (Bus.runVideo n b').2 = (Bus.runVideo n b).2 := by
  induction n generalizing b b' with
  | zero => exact ⟨h, rfl⟩
  | succ n ih =>
    obtain ⟨htick, hbegan⟩ := hR.tickVideo h
    obtain ⟨hrest, hlater⟩ := ih htick
    refine ⟨hrest, ?_⟩
    unfold Bus.runVideo
    dsimp only
    rw [hbegan, hlater]

theorem stepTransfer (h : R b b') : R b.stepTransfer b'.stepTransfer := by
  unfold Bus.stepTransfer
  rw [hR.transfer_eq h]
  dsimp only
  have hmoved := hR.setTransfer h b.transfer.step.1
  split
  · exact hmoved
  · rw [hR.read hmoved]
    exact hR.writeObject hmoved _ _

/-- A machine cycle. -/
theorem cycle (h : R b b') : R b.cycle b'.cycle := by
  obtain ⟨hrun, hbegan⟩ := hR.runVideo (hR.runTimer h ticksPerCycle) ticksPerCycle
  unfold Bus.cycle
  dsimp only
  rw [hbegan]
  refine hR.stepTransfer ?_
  split
  · exact hR.vblankBegan hrun
  · exact hrun

end Bus.Lockstep

/-- A relation between buses that the processor cannot tell apart, now or later. -/
structure Bus.Bisimulation (R : Bus → Bus → Prop) : Prop where
  read {b b' : Bus} : R b b' → ∀ a, b'.read a = b.read a
  interrupts {b b' : Bus} : R b b' → b'.interrupts = b.interrupts
  write {b b' : Bus} : R b b' → ∀ a v, R (b.write a v) (b'.write a v)
  cycle {b b' : Bus} : R b b' → R b.cycle b'.cycle
  acknowledge {b b' : Bus} : R b b' → ∀ source,
    R { b with interrupts := b.interrupts.acknowledge source }
      { b' with interrupts := b'.interrupts.acknowledge source }

/-! ### Machines -/

namespace Machine

/-- The same processor on related buses. -/
inductive Related (R : Bus → Bus → Prop) : Machine → Machine → Prop
  | intro (cpu : Processor) {b b' : Bus} : R b b' → Related R ⟨cpu, b⟩ ⟨cpu, b'⟩

/-- The same answer, with the same processor on related buses. -/
def Yields {α : Type} (R : Bus → Bus → Prop) (x x' : α × Machine) : Prop :=
  ∃ answer cpu b b', R b b' ∧ x = (answer, ⟨cpu, b⟩) ∧ x' = (answer, ⟨cpu, b'⟩)

variable {R : Bus → Bus → Prop} {m m' : Machine}

namespace Related

theorem cpu_eq (h : m.Related R m') : m'.cpu = m.cpu := by
  cases h
  rfl

theorem bus (h : m.Related R m') : R m.bus m'.bus := by
  cases h with
  | intro cpu hb => exact hb

/-- A change of the processor that takes no time. -/
theorem mapCpu (h : m.Related R m') (f : Processor → Processor) :
    Related R { m with cpu := f m.cpu } { m' with cpu := f m'.cpu } := by
  cases h with
  | intro cpu hb => exact .intro (f cpu) hb

theorem mapRegisters (h : m.Related R m') (f : Registers → Registers) :
    (m.mapRegisters f).Related R (m'.mapRegisters f) :=
  h.mapCpu fun cpu => { cpu with registers := f cpu.registers }

/-- Other buses, which are related in another way. -/
theorem withBus {S : Bus → Bus → Prop} (h : m.Related R m') {b b' : Bus} (hb : S b b') :
    Related S { m with bus := b } { m' with bus := b' } := by
  cases h with
  | intro cpu _ => exact .intro cpu hb

theorem ite (p : Prop) [Decidable p] {n n' : Machine} (h : m.Related R m') (h' : n.Related R n') :
    (if p then m else n).Related R (if p then m' else n') := by
  split
  · exact h
  · exact h'

theorem symm {S : Bus → Bus → Prop} (hRS : ∀ {b b' : Bus}, R b b' → S b' b) (h : m.Related R m') :
    m'.Related S m := by
  cases h with
  | intro cpu hb => exact .intro cpu (hRS hb)

theorem trans {m'' : Machine} {S T : Bus → Bus → Prop}
    (hRS : ∀ {b b' b'' : Bus}, R b b' → S b' b'' → T b b'') (h : m.Related R m')
    (h' : m'.Related S m'') : m.Related T m'' := by
  cases h with
  | intro cpu hb =>
    cases h' with
    | intro _ hb' => exact .intro cpu (hRS hb hb')

variable (hR : Bus.Bisimulation R)
include hR

/-! ### Access to memory -/

theorem cycle (h : m.Related R m') : m.cycle.Related R m'.cycle := by
  cases h with
  | intro cpu hb => exact .intro _ (hR.cycle hb)

theorem idle (h : m.Related R m') (n : Nat) : (m.idle n).Related R (m'.idle n) := by
  induction n generalizing m m' with
  | zero => exact h
  | succ n ih => exact ih (h.cycle hR)

theorem read (h : m.Related R m') (a : UInt16) : Yields R (m.read a) (m'.read a) := by
  cases h with
  | intro cpu hb =>
    refine ⟨_, _, _, _, hR.cycle hb, rfl, ?_⟩
    unfold Machine.read
    rw [hR.read hb a]
    rfl

theorem write (h : m.Related R m') (a : UInt16) (v : UInt8) :
    (m.write a v).Related R (m'.write a v) := by
  cases h with
  | intro cpu hb => exact .intro _ (hR.cycle (hR.write hb a v))

theorem writeWord (h : m.Related R m') (a w : UInt16) :
    (m.writeWord a w).Related R (m'.writeWord a w) :=
  (h.write hR a _).write hR _ _

theorem fetch (h : m.Related R m') : Yields R m.fetch m'.fetch := by
  cases h with
  | intro cpu hb => exact (Related.intro _ hb).read hR _

theorem fetchWord (h : m.Related R m') : Yields R m.fetchWord m'.fetchWord := by
  obtain ⟨low, cpu, b, b', hb, hx, hx'⟩ := h.fetch hR
  obtain ⟨high, cpu, b, b', hb, hy, hy'⟩ := (Related.intro cpu hb).fetch hR
  unfold Machine.fetchWord
  rw [hx, hx']
  dsimp only
  rw [hy, hy']
  exact ⟨_, _, _, _, hb, rfl, rfl⟩

/-! ### The stack -/

theorem pushByte (h : m.Related R m') (v : UInt8) : (m.pushByte v).Related R (m'.pushByte v) := by
  cases h with
  | intro cpu hb => exact (Related.intro _ hb).write hR _ v

theorem popByte (h : m.Related R m') : Yields R m.popByte m'.popByte := by
  cases h with
  | intro cpu hb =>
    obtain ⟨v, cpu', b, b', hb, hx, hx'⟩ := (Related.intro cpu hb).read hR cpu.registers.sp
    unfold Machine.popByte
    dsimp only
    rw [hx, hx']
    exact ⟨_, _, _, _, hb, rfl, rfl⟩

theorem push (h : m.Related R m') (w : UInt16) : (m.push w).Related R (m'.push w) :=
  (h.pushByte hR _).pushByte hR _

theorem pop (h : m.Related R m') : Yields R m.pop m'.pop := by
  obtain ⟨low, cpu, b, b', hb, hx, hx'⟩ := h.popByte hR
  obtain ⟨high, cpu, b, b', hb, hy, hy'⟩ := (Related.intro cpu hb).popByte hR
  unfold Machine.pop
  rw [hx, hx']
  dsimp only
  rw [hy, hy']
  exact ⟨_, _, _, _, hb, rfl, rfl⟩

/-! ### Operands -/

theorem readCell (h : m.Related R m') (c : Cell) : Yields R (m.readCell c) (m'.readCell c) := by
  cases h with
  | intro cpu hb =>
    cases c with
    | register r => exact ⟨_, _, _, _, hb, rfl, rfl⟩
    | atHL => exact (Related.intro cpu hb).read hR _

theorem writeCell (h : m.Related R m') (c : Cell) (v : UInt8) :
    (m.writeCell c v).Related R (m'.writeCell c v) := by
  cases h with
  | intro cpu hb =>
    cases c with
    | register r => exact .intro _ hb
    | atHL => exact (Related.intro cpu hb).write hR _ v

theorem readOperand (h : m.Related R m') (o : Operand) :
    Yields R (m.readOperand o) (m'.readOperand o) := by
  cases o with
  | cell c => exact h.readCell hR c
  | immediate => exact h.fetch hR

theorem resolve (h : m.Related R m') (p : Pointer) : Yields R (m.resolve p) (m'.resolve p) := by
  cases p with
  | pageImmediate =>
    obtain ⟨offset, cpu, b, b', hb, hx, hx'⟩ := h.fetch hR
    unfold Machine.resolve
    rw [hx, hx']
    exact ⟨_, _, _, _, hb, rfl, rfl⟩
  | immediate => exact h.fetchWord hR
  -- The others look at registers only.
  | _ =>
    cases h with
    | intro cpu hb => exact ⟨_, _, _, _, hb, rfl, rfl⟩

/-! ### Families of instructions -/

theorem combine (h : m.Related R m') (op : Arithmetic) (right : Operand) :
    (m.combine op right).Related R (m'.combine op right) := by
  obtain ⟨n, cpu, b, b', hb, hx, hx'⟩ := h.readOperand hR right
  unfold Machine.combine
  rw [hx, hx']
  exact .intro _ hb

theorem count (h : m.Related R m') (f : UInt8 → Flags → UInt8 × Flags) (c : Cell) :
    (m.count f c).Related R (m'.count f c) := by
  obtain ⟨n, cpu, b, b', hb, hx, hx'⟩ := h.readCell hR c
  unfold Machine.count
  rw [hx, hx']
  exact (Related.intro _ hb).writeCell hR c _

theorem loadA (h : m.Related R m') (p : Pointer) : (m.loadA p).Related R (m'.loadA p) := by
  obtain ⟨address, cpu, b, b', hb, hx, hx'⟩ := h.resolve hR p
  obtain ⟨v, cpu, b, b', hb, hy, hy'⟩ := (Related.intro cpu hb).read hR address
  unfold Machine.loadA
  rw [hx, hx']
  dsimp only
  rw [hy, hy']
  exact .intro _ hb

theorem storeA (h : m.Related R m') (p : Pointer) : (m.storeA p).Related R (m'.storeA p) := by
  obtain ⟨address, cpu, b, b', hb, hx, hx'⟩ := h.resolve hR p
  unfold Machine.storeA
  rw [hx, hx']
  exact (Related.intro cpu hb).write hR address _

theorem addToHL (h : m.Related R m') (p : PairRegister) :
    (m.addToHL p).Related R (m'.addToHL p) := by
  cases h with
  | intro cpu hb => exact (Related.intro _ hb).cycle hR

theorem displacedSP (h : m.Related R m') : Yields R m.displacedSP m'.displacedSP := by
  obtain ⟨e, cpu, b, b', hb, hx, hx'⟩ := h.fetch hR
  unfold Machine.displacedSP
  rw [hx, hx']
  exact ⟨_, _, _, _, hb, rfl, rfl⟩

theorem jumpRelative (h : m.Related R m') (when? : Option Condition) :
    (m.jumpRelative when?).Related R (m'.jumpRelative when?) := by
  obtain ⟨e, cpu, b, b', hb, hx, hx'⟩ := h.fetch hR
  unfold Machine.jumpRelative
  rw [hx, hx']
  exact .ite _ ((Related.intro _ hb).cycle hR) (.intro cpu hb)

theorem jump (h : m.Related R m') (when? : Option Condition) :
    (m.jump when?).Related R (m'.jump when?) := by
  obtain ⟨target, cpu, b, b', hb, hx, hx'⟩ := h.fetchWord hR
  unfold Machine.jump
  rw [hx, hx']
  exact .ite _ ((Related.intro _ hb).cycle hR) (.intro cpu hb)

theorem callAddress (h : m.Related R m') (target : UInt16) :
    (m.callAddress target).Related R (m'.callAddress target) := by
  cases h with
  | intro cpu hb =>
    have hpushed := ((Related.intro cpu hb).cycle hR).push hR cpu.registers.pc
    exact hpushed.mapRegisters fun r => { r with pc := target }

theorem call (h : m.Related R m') (when? : Option Condition) :
    (m.call when?).Related R (m'.call when?) := by
  obtain ⟨target, cpu, b, b', hb, hx, hx'⟩ := h.fetchWord hR
  unfold Machine.call
  rw [hx, hx']
  exact .ite _ ((Related.intro cpu hb).callAddress hR target) (.intro cpu hb)

theorem popPC (h : m.Related R m') : m.popPC.Related R m'.popPC := by
  obtain ⟨target, cpu, b, b', hb, hx, hx'⟩ := h.pop hR
  unfold Machine.popPC
  rw [hx, hx']
  exact (Related.intro _ hb).cycle hR

theorem ret (h : m.Related R m') (when? : Option Condition) :
    (m.ret when?).Related R (m'.ret when?) := by
  cases when? with
  | none => exact h.popPC hR
  | some condition =>
    cases h with
    | intro cpu hb =>
      have hcycle := (Related.intro cpu hb).cycle hR
      exact .ite _ (hcycle.popPC hR) hcycle

theorem executeExtended (h : m.Related R m') (x : Extended) :
    (m.executeExtended x).Related R (m'.executeExtended x) := by
  obtain ⟨n, cpu, b, b', hb, hx, hx'⟩ := h.readCell hR x.target
  unfold Machine.executeExtended
  rw [hx, hx']
  dsimp only
  split
  · exact .intro _ hb
  · exact (Related.intro _ hb).writeCell hR x.target _

/-! ### All instructions -/

/-- The effect of an instruction. -/
theorem execute (h : m.Related R m') (i : Instruction) :
    (m.execute i).Related R (m'.execute i) := by
  cases i with
  | stop =>
    obtain ⟨_, cpu, b, b', hb, hx, hx'⟩ := h.fetch hR
    rw [Machine.execute, Machine.execute, hx, hx']
    exact .intro cpu hb
  | load dst src =>
    obtain ⟨v, cpu, b, b', hb, hx, hx'⟩ := h.readOperand hR src
    rw [Machine.execute, Machine.execute, hx, hx']
    exact .intro _ hb
  | storeImmediate =>
    obtain ⟨v, cpu, b, b', hb, hx, hx'⟩ := h.fetch hR
    rw [Machine.execute, Machine.execute, hx, hx']
    exact (Related.intro cpu hb).write hR _ v
  | loadA src => exact h.loadA hR src
  | storeA dst => exact h.storeA hR dst
  | loadPair dst =>
    obtain ⟨w, cpu, b, b', hb, hx, hx'⟩ := h.fetchWord hR
    rw [Machine.execute, Machine.execute, hx, hx']
    exact .intro _ hb
  | storeSP =>
    obtain ⟨address, cpu, b, b', hb, hx, hx'⟩ := h.fetchWord hR
    rw [Machine.execute, Machine.execute, hx, hx']
    exact (Related.intro cpu hb).writeWord hR address _
  | loadHLFromSP =>
    obtain ⟨x, cpu, b, b', hb, hx, hx'⟩ := h.displacedSP hR
    rw [Machine.execute, Machine.execute, hx, hx']
    exact (Related.intro _ hb).cycle hR
  | pop dst =>
    obtain ⟨w, cpu, b, b', hb, hx, hx'⟩ := h.pop hR
    rw [Machine.execute, Machine.execute, hx, hx']
    exact .intro _ hb
  | arithmetic op right => exact h.combine hR op right
  | increment c => exact h.count hR Alu.increment c
  | decrement c => exact h.count hR Alu.decrement c
  | addToHL p => exact h.addToHL hR p
  | addToSP =>
    obtain ⟨x, cpu, b, b', hb, hx, hx'⟩ := h.displacedSP hR
    rw [Machine.execute, Machine.execute, hx, hx']
    exact (Related.intro _ hb).idle hR 2
  | jumpRelative c => exact h.jumpRelative hR c
  | jump c => exact h.jump hR c
  | call c => exact h.call hR c
  | ret c => exact h.ret hR c
  | restart v => exact h.callAddress hR v.toUInt16
  | extended =>
    obtain ⟨opcode, cpu, b, b', hb, hx, hx'⟩ := h.fetch hR
    rw [Machine.execute, Machine.execute, hx, hx']
    exact (Related.intro cpu hb).executeExtended hR _
  | store src =>
    cases h with
    | intro cpu hb => exact (Related.intro cpu hb).write hR _ _
  | push src =>
    cases h with
    | intro cpu hb => exact ((Related.intro cpu hb).cycle hR).push hR _
  | incrementPair | decrementPair | loadSPFromHL =>
    cases h with
    | intro cpu hb => exact (Related.intro _ hb).cycle hR
  | returnFromInterrupt =>
    cases h with
    | intro cpu hb => exact (Related.intro _ hb).popPC hR
  -- The others change registers and switches only.
  | _ =>
    cases h with
    | intro cpu hb => exact .intro _ hb

/-! ### Steps -/

theorem serve (h : m.Related R m') (source : Interrupt) :
    (m.serve source).Related R (m'.serve source) := by
  cases h with
  | intro cpu hb =>
    have hpushed := (Related.intro { cpu with interruptsOn := false, halted := false }
      (hR.acknowledge hb source)).push hR cpu.registers.pc
    exact (hpushed.mapRegisters fun r => { r with pc := source.vector }).idle hR 3

theorem poll (h : m.Related R m') : m.poll.Related R m'.poll := by
  unfold Machine.poll
  rw [h.cpu_eq, hR.interrupts h.bus]
  split
  · split
    · exact h.serve hR _
    · exact h
  · exact h

theorem wait (h : m.Related R m') : m.wait.Related R m'.wait := by
  cases h with
  | intro cpu hb =>
    have hcycle := hR.cycle hb
    have hpending := congrArg Interrupts.pending (hR.interrupts hcycle)
    unfold Machine.wait Machine.cycle
    dsimp only
    rw [hpending]
    exact (Related.intro _ hcycle).poll hR

theorem runInstruction (h : m.Related R m') :
    m.runInstruction.1.Related R m'.runInstruction.1 ∧
      m'.runInstruction.2 = m.runInstruction.2 := by
  obtain ⟨opcode, cpu, b, b', hb, hx, hx'⟩ := h.fetch hR
  have hexecuted := (Related.intro cpu hb).execute hR (.decode opcode)
  unfold Machine.runInstruction
  rw [hx, hx', h.cpu_eq]
  dsimp only
  split
  · exact ⟨hexecuted, rfl⟩
  · exact ⟨(hexecuted.mapCpu fun cpu => cpu.countDelay m.cpu.enableDelay).poll hR, rfl⟩

/-- **Related machines stay related**, and a step that is a fault on one is the same fault on the
other. -/
theorem step (h : m.Related R m') :
    m.step.1.Related R m'.step.1 ∧ m'.step.2 = m.step.2 := by
  unfold Machine.step
  rw [h.cpu_eq]
  split
  · exact ⟨h.wait hR, rfl⟩
  · exact h.runInstruction hR

end Related

end Machine

end DotMatrix
