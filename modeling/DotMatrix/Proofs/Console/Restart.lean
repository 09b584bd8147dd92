import DotMatrix.Proofs.Bus.Kept
import DotMatrix.Proofs.Cartridge.Banks
import DotMatrix.Proofs.Console.FrameEnd
import DotMatrix.Proofs.Processor.Dispatch

/-!
# A frame that never ends

A program can switch the display off with an instruction and on again with the service of an
interrupt in the same step: the stack stands behind the control register, and the return address is
pushed into it. Between two steps the display is always on then. If that happens again and again it
never comes to vertical blank, and running a frame goes on for ever.

* `About`: a console that is about to execute an instruction of a program in a plain cartridge, and
  what four instructions make of it;
* `Place`, `At`: the places in such a program, and what holds at each of them;
* `At.step`: from each place the console comes to the next;
* `runFrame_unfinished`: no number of steps completes a frame of the program.
-/

namespace DotMatrix

namespace Machine

variable (m : Machine)

theorem executed_cpu (i : Instruction) :
    (m.executed i).cpu = (m.fetch.2.execute i).cpu.countDelay m.cpu.enableDelay :=
  rfl

variable {m}

theorem step_of_read {opcode : UInt8} {i : Instruction} (hh : m.cpu.halted = false)
    (hread : m.bus.read m.cpu.registers.pc = opcode) (hi : Instruction.decode opcode = i)
    (hf : ∀ pc, i.fault? opcode pc = none) : m.step = ((m.executed i).poll, none) := by
  subst hi
  have hfetch : m.fetch = (opcode, m.fetch.2) := by
    rw [← hread]
    rfl
  unfold step
  rw [if_neg (by simp [hh]), runInstruction, hfetch]
  dsimp only
  rw [hf]
  rfl

/-- With no wait for interrupts, an instruction does not switch them on. -/
theorem executed_cpu_of_no_delay {i : Instruction} (h : m.cpu.enableDelay = 0) {p : Processor}
    (hp : (m.fetch.2.execute i).cpu = p) :
    (m.executed i).cpu = { p with enableDelay := p.enableDelay - 1 } := by
  rw [executed_cpu, hp, h, Processor.countDelay]
  simp

/-! What four instructions and the service of an interrupt do to the processor. -/

variable (m)

theorem fetch_cpu : m.fetch.2.cpu =
    { m.cpu with
      registers := { m.cpu.registers with pc := m.cpu.registers.pc + 1 }
      cycles := m.cpu.cycles + Bus.ticksPerCycle } :=
  rfl

theorem fetchWord_cpu : m.fetchWord.2.cpu =
    { m.cpu with
      registers := { m.cpu.registers with pc := m.cpu.registers.pc + 1 + 1 }
      cycles := m.cpu.cycles + Bus.ticksPerCycle + Bus.ticksPerCycle } := by
  have h : m.fetchWord.2.cpu = m.fetch.2.fetch.2.cpu := rfl
  rw [h, fetch_cpu, fetch_cpu]

theorem fetchWord_fst : m.fetchWord.1 =
    Word.ofBytes (m.bus.cycle.read (m.cpu.registers.pc + 1)) (m.bus.read m.cpu.registers.pc) :=
  rfl

theorem storeHigh_cpu : (m.fetch.2.execute (.storeA .pageImmediate)).cpu =
    { m.cpu with
      registers := { m.cpu.registers with pc := m.cpu.registers.pc + 1 + 1, sp := m.cpu.registers.sp }
      cycles := m.cpu.cycles + Bus.ticksPerCycle + Bus.ticksPerCycle + Bus.ticksPerCycle
      enableDelay := m.cpu.enableDelay } :=
  rfl

theorem jump_none : m.jump none = (m.fetchWord.2.setPC m.fetchWord.1).cycle := by
  unfold jump
  generalize m.fetchWord = x
  obtain ⟨target, m⟩ := x
  exact if_pos rfl

theorem jump_cpu : (m.fetch.2.execute (.jump none)).cpu =
    { m.cpu with
      registers :=
        { m.cpu.registers with pc := m.fetch.2.fetchWord.1, sp := m.cpu.registers.sp }
      cycles :=
        m.cpu.cycles + Bus.ticksPerCycle + Bus.ticksPerCycle + Bus.ticksPerCycle + Bus.ticksPerCycle
      enableDelay := m.cpu.enableDelay } := by
  rw [execute, jump_none, cycle, setPC, mapRegisters]
  dsimp only
  rw [fetchWord_cpu, fetch_cpu]

theorem loadSP_cpu : (m.fetch.2.execute (.loadPair .sp)).cpu =
    { m.cpu with
      registers :=
        { m.cpu.registers with
          pc := m.cpu.registers.pc + 1 + 1 + 1
          sp := m.fetch.2.fetchWord.1 }
      cycles := m.cpu.cycles + Bus.ticksPerCycle + Bus.ticksPerCycle + Bus.ticksPerCycle
      enableDelay := m.cpu.enableDelay } := by
  have h : m.fetch.2.execute (.loadPair .sp) =
      m.fetch.2.fetchWord.2.mapRegisters (·.setPair .sp m.fetch.2.fetchWord.1) := rfl
  rw [h, mapRegisters]
  dsimp only
  rw [fetchWord_cpu, fetch_cpu]
  rfl

theorem enable_cpu : (m.fetch.2.execute .enableInterrupts).cpu =
    { m.cpu with
      registers := { m.cpu.registers with pc := m.cpu.registers.pc + 1, sp := m.cpu.registers.sp }
      cycles := m.cpu.cycles + Bus.ticksPerCycle
      enableDelay := 2 } :=
  rfl

end Machine

namespace Console

/-- The console is about to execute the instruction at `pc` of a program in the cartridge `p`.
Interrupts are off, and `delay` instructions from being on if that is not zero. A holds one. -/
structure About (p : Cartridge) (pc : UInt16) (delay : Nat) (c : Console) : Prop where
  trace_eq : c.trace = none
  pc_eq : c.machine.cpu.registers.pc = pc
  a_eq : c.machine.cpu.registers.a = 1
  halted_eq : c.machine.cpu.halted = false
  interruptsOn_eq : c.machine.cpu.interruptsOn = false
  delay_eq : c.machine.cpu.enableDelay = delay
  fixed : c.machine.bus.Fixed p

variable {c : Console} {p : Cartridge} {pc : UInt16} {delay : Nat}

theorem step_of_fixed {m : Machine} (ht : c.trace = none) (hm : c.machine.step = (m, none))
    (hf : m.bus.Fixed p) : c.step = ({ c with machine := m }, none) := by
  have htrace : c.traceStep = c := by
    unfold traceStep
    rw [ht]
    exact ite_self _
  have hsave : save { c with machine := m } = { c with machine := m } :=
    if_neg (by simp [hf.needsSave])
  unfold step
  rw [htrace]
  dsimp only
  rw [hm]
  dsimp only
  rw [hsave, ite_self]

theorem About.read (h : About p pc delay c) (hpc : pc.toNat < 0x8000) :
    c.machine.bus.read c.machine.cpu.registers.pc = p.romByte pc.toNat := by
  rw [h.pc_eq, h.fixed.read hpc]

/-- An instruction that leaves A and the switch for interrupts alone, with no wait for them. -/
theorem About.step (h : About p pc 0 c) {opcode : UInt8} {i : Instruction} {pc' sp' : UInt16}
    {delay' n : Nat} (hpc : pc.toNat < 0x8000) (hop : p.romByte pc.toNat = opcode)
    (hi : Instruction.decode opcode = i) (hf : ∀ pc, i.fault? opcode pc = none)
    (hcpu : (c.machine.fetch.2.execute i).cpu =
      { c.machine.cpu with
        registers := { c.machine.cpu.registers with pc := pc', sp := sp' }
        cycles := n
        enableDelay := delay' }) :
    ∃ m, c.step = ({ c with machine := m }, none) ∧
      About p pc' (delay' - 1) { c with machine := m } ∧ m.cpu.registers.sp = sp' ∧
      m.bus = c.machine.bus.perform (.quiet :: c.machine.fetch.2.accesses i) := by
  have hcpu' := Machine.executed_cpu_of_no_delay h.delay_eq hcpu
  have hbus := (c.machine.executed_performs i).bus_eq
  have hfixed : (c.machine.executed i).bus.Fixed p := by
    rw [hbus]
    exact h.fixed.perform _
  have hoff : (c.machine.executed i).cpu.interruptsOn = false := by
    rw [hcpu']
    exact h.interruptsOn_eq
  have hstep : c.machine.step = (c.machine.executed i, none) := by
    rw [Machine.step_of_read h.halted_eq ((h.read hpc).trans hop) hi hf, Machine.poll_of_off hoff]
  refine ⟨_, step_of_fixed h.trace_eq hstep hfixed, ⟨h.trace_eq, ?_, ?_, ?_, hoff, ?_, hfixed⟩, ?_,
    hbus⟩ <;> rw [hcpu']
  · exact h.a_eq
  · exact h.halted_eq

/-! ### Four instructions -/

/-- `LDH (n),A` fetches its operand and writes A into the last page. -/
theorem About.storeHigh_accesses (h : About p pc delay c) {n : UInt8}
    (hn : p.romByte (pc + 1).toNat = n) (hpc : (pc + 1).toNat < 0x8000) :
    .quiet :: c.machine.fetch.2.accesses (.storeA .pageImmediate) =
      [.quiet, .quiet, .write (Word.ofBytes 0xFF n) 1] := by
  have hread : c.machine.bus.cycle.read (c.machine.cpu.registers.pc + 1) = n := by
    rw [h.pc_eq, h.fixed.cycle.read hpc, hn]
  rw [← hread, ← h.a_eq]
  rfl

/-- `LDH (n),A`, with no wait for interrupts. -/
theorem About.storeHigh (h : About p pc 0 c) (hop : p.romByte pc.toNat = 0xE0) {n : UInt8}
    (hn : p.romByte (pc + 1).toNat = n) (hpc : pc.toNat < 0x8000) (hpc' : (pc + 1).toNat < 0x8000) :
    ∃ m, c.step = ({ c with machine := m }, none) ∧ About p (pc + 1 + 1) 0 { c with machine := m } ∧
      m.cpu.registers.sp = c.machine.cpu.registers.sp ∧
      m.bus = c.machine.bus.perform [.quiet, .quiet, .write (Word.ofBytes 0xFF n) 1] := by
  have hstep := h.step (i := .storeA .pageImmediate) hpc hop rfl (fun _ => rfl) (Machine.storeHigh_cpu _)
  rw [h.storeHigh_accesses hn hpc', h.pc_eq, h.delay_eq] at hstep
  exact hstep

/-- The word after the opcode. -/
theorem About.fetchWord (h : About p pc delay c) {low high : UInt8}
    (hlow : p.romByte (pc + 1).toNat = low) (hhigh : p.romByte (pc + 1 + 1).toNat = high)
    (hpc : (pc + 1).toNat < 0x8000) (hpc' : (pc + 1 + 1).toNat < 0x8000) :
    c.machine.fetch.2.fetchWord.1 = Word.ofBytes high low := by
  have hbus : c.machine.fetch.2.bus = c.machine.bus.cycle := rfl
  rw [Machine.fetchWord_fst, hbus, Machine.fetch_cpu]
  dsimp only
  rw [h.pc_eq, h.fixed.cycle.read hpc, h.fixed.cycle.cycle.read hpc', hlow, hhigh]

/-- `JP nn`, with no wait for interrupts. -/
theorem About.jump (h : About p pc 0 c) (hop : p.romByte pc.toNat = 0xC3) {low high : UInt8}
    (hlow : p.romByte (pc + 1).toNat = low) (hhigh : p.romByte (pc + 1 + 1).toNat = high)
    (hpc : pc.toNat < 0x8000) (hpc' : (pc + 1).toNat < 0x8000)
    (hpc'' : (pc + 1 + 1).toNat < 0x8000) :
    ∃ m, c.step = ({ c with machine := m }, none) ∧
      About p (Word.ofBytes high low) 0 { c with machine := m } ∧
      m.cpu.registers.sp = c.machine.cpu.registers.sp ∧
      m.bus = c.machine.bus.perform [.quiet, .quiet, .quiet, .quiet] := by
  have hstep := h.step hpc hop rfl (fun _ => rfl) (Machine.jump_cpu _)
  rw [h.fetchWord hlow hhigh hpc' hpc'', h.delay_eq] at hstep
  exact hstep

/-- `LD SP,nn`, with no wait for interrupts. -/
theorem About.loadSP (h : About p pc 0 c) (hop : p.romByte pc.toNat = 0x31) {low high : UInt8}
    (hlow : p.romByte (pc + 1).toNat = low) (hhigh : p.romByte (pc + 1 + 1).toNat = high)
    (hpc : pc.toNat < 0x8000) (hpc' : (pc + 1).toNat < 0x8000)
    (hpc'' : (pc + 1 + 1).toNat < 0x8000) :
    ∃ m, c.step = ({ c with machine := m }, none) ∧
      About p (pc + 1 + 1 + 1) 0 { c with machine := m } ∧
      m.cpu.registers.sp = Word.ofBytes high low ∧
      m.bus = c.machine.bus.perform [.quiet, .quiet, .quiet] := by
  have hstep := h.step hpc hop rfl (fun _ => rfl) (Machine.loadSP_cpu _)
  rw [h.fetchWord hlow hhigh hpc' hpc'', h.pc_eq, h.delay_eq] at hstep
  exact hstep

/-- `EI`. -/
theorem About.enable (h : About p pc 0 c) (hop : p.romByte pc.toNat = 0xFB)
    (hpc : pc.toNat < 0x8000) :
    ∃ m, c.step = ({ c with machine := m }, none) ∧ About p (pc + 1) 1 { c with machine := m } ∧
      m.cpu.registers.sp = c.machine.cpu.registers.sp ∧
      m.bus = c.machine.bus.perform [.quiet] := by
  have hstep := h.step hpc hop rfl (fun _ => rfl) (Machine.enable_cpu _)
  rw [h.pc_eq] at hstep
  exact hstep

/-! ### The program -/

/-- The places in the program, each before an instruction. The last five are a loop. -/
inductive Place
  /-- The program begins; it enables the vertical blank interrupt. -/
  | enable
  /-- It goes to the handler of the interrupt. -/
  | enter
  /-- The handler requests the interrupt again. -/
  | ask
  /-- The stack is put behind the control register of the display. -/
  | stack
  /-- The program goes to an address whose lower byte switches the display on. -/
  | leave
  /-- Interrupts are switched on, from the instruction after the next on. -/
  | listen
  /-- The display is switched off. The interrupt is served, and switches the display on. -/
  | restart
  deriving DecidableEq, Repr

namespace Place

/-- The address of the instruction. -/
def address : Place → UInt16
  | enable => 0x100
  | enter => 0x102
  | ask => 0x40
  | stack => 0x42
  | leave => 0x45
  | listen => 0x80
  | restart => 0x81

/-- The instruction: `LDH (FF),A`, `JP 0040`, `LDH (0F),A`, `LD SP,FF42`, `JP 0080`, `EI`,
`LDH (40),A`. -/
def code : Place → List UInt8
  | enable => [0xE0, 0xFF]
  | enter => [0xC3, 0x40, 0x00]
  | ask => [0xE0, 0x0F]
  | stack => [0x31, 0x42, 0xFF]
  | leave => [0xC3, 0x80, 0x00]
  | listen => [0xFB]
  | restart => [0xE0, 0x40]

/-- Instructions before interrupts are on. -/
def wait : Place → Nat
  | restart => 1
  | _ => 0

/-- Dots for which the display must be able to stay on. -/
def dots : Place → Nat
  | enable => 80
  | enter => 68
  | ask => 52
  | stack => 40
  | leave => 28
  | listen => 12
  | restart => 8

/-- The place after the instruction. -/
def next : Place → Place
  | enable => enter
  | enter => ask
  | ask => stack
  | stack => leave
  | leave => listen
  | listen => restart
  | restart => ask

/-- Is the stack behind the control register? -/
def stacked : Place → Bool
  | leave | listen | restart => true
  | _ => false

end Place

/-- The cartridge has the instructions of the program in their places. -/
def HoldsProgram (p : Cartridge) : Prop :=
  ∀ s : Place, ∀ i (h : i < s.code.length), p.romByte (s.address.toNat + i) = s.code[i]

/-- The console is at a place in the program. -/
structure At (p : Cartridge) (s : Place) (c : Console) : Prop where
  about : About p s.address s.wait c
  shows : c.machine.bus.Shows s.dots
  enabled : s ≠ .enable → Byte.bit c.machine.bus.interrupts.enable 0 = true
  requested : s ≠ .ask → Byte.bit c.machine.bus.interrupts.flags 0 = true
  sp_eq : s.stacked = true → c.machine.cpu.registers.sp = 0xFF42

variable {s : Place}

/-- An instruction of the program that writes nothing. -/
theorem At.quiet (h : At p s c) {m : Machine} (n : Nat)
    (habout : About p s.next.address s.next.wait { c with machine := m })
    (hbus : m.bus = c.machine.bus.perform (List.replicate n .quiet))
    (hdots : s.next.dots + 4 * n = s.dots) (henable : s ≠ .enable) (hask : s ≠ .ask)
    (hsp : s.next.stacked = true → m.cpu.registers.sp = 0xFF42) :
    At p s.next { c with machine := m } := by
  have hraised : c.machine.bus.interrupts.Raised m.bus.interrupts := by
    rw [hbus]
    exact Bus.perform_raised (by simp) (by simp) (by simp)
  refine ⟨habout, ?_, fun _ => ?_, fun _ => hraised.flags (h.requested hask), hsp⟩
  · show m.bus.Shows s.next.dots
    rw [hbus]
    refine h.shows.perform (by simp) ?_
    rw [Access.length_replicate_quiet]
    exact hdots
  · rw [hraised.enable_eq]
    exact h.enabled henable

theorem At.enable (hp : HoldsProgram p) (h : At p .enable c) :
    ∃ m, c.step = ({ c with machine := m }, none) ∧ At p .enter { c with machine := m } := by
  obtain ⟨m, hstep, hnext, -, hbus⟩ := h.about.storeHigh (hp .enable 0 (by decide))
    (hp .enable 1 (by decide)) (by decide) (by decide)
  have haddress : Word.ofBytes 0xFF Place.enable.code[1] = 0xFFFF := rfl
  rw [haddress] at hbus
  have hbefore : c.machine.bus.interrupts.Raised
      (c.machine.bus.perform [.quiet, .quiet]).interrupts :=
    Bus.perform_raised (by simp) (by simp) (by simp)
  have hlast : c.machine.bus.perform [.quiet, .quiet, .write 0xFFFF 1] =
      ((c.machine.bus.perform [.quiet, .quiet]).write 0xFFFF 1).cycle :=
    Bus.perform_concat_write _ [.quiet, .quiet] _ _
  have hafter := ((c.machine.bus.perform [.quiet, .quiet]).write 0xFFFF 1).cycle_raised
  rw [Bus.write_enable_interrupts, ← hlast] at hafter
  refine ⟨m, hstep, hnext, ?_, fun _ => ?_, fun _ => ?_, fun hs => Bool.noConfusion hs⟩ <;>
    dsimp only <;> rw [hbus]
  · exact h.shows.perform (by simp) rfl
  · exact (congrArg (Byte.bit · 0) hafter.enable_eq).trans (show Byte.bit 1 0 = true by decide)
  · exact hafter.flags (hbefore.flags (h.requested (by decide)))

theorem At.ask (hp : HoldsProgram p) (h : At p .ask c) :
    ∃ m, c.step = ({ c with machine := m }, none) ∧ At p .stack { c with machine := m } := by
  obtain ⟨m, hstep, hnext, -, hbus⟩ := h.about.storeHigh (hp .ask 0 (by decide))
    (hp .ask 1 (by decide)) (by decide) (by decide)
  have haddress : Word.ofBytes 0xFF Place.ask.code[1] = 0xFF0F := rfl
  rw [haddress] at hbus
  have hlast : c.machine.bus.perform [.quiet, .quiet, .write 0xFF0F 1] =
      ((c.machine.bus.perform [.quiet, .quiet]).write 0xFF0F 1).cycle :=
    Bus.perform_concat_write _ [.quiet, .quiet] _ _
  have hafter := ((c.machine.bus.perform [.quiet, .quiet]).write 0xFF0F 1).cycle_raised
  rw [Bus.write_flags_interrupts, ← hlast] at hafter
  refine ⟨m, hstep, hnext, ?_, fun _ => ?_, fun _ => ?_, fun hs => Bool.noConfusion hs⟩ <;>
    dsimp only <;> rw [hbus]
  · exact h.shows.perform (by simp) rfl
  · rw [Bus.perform_enable (by simp)]
    exact h.enabled (by decide)
  · exact hafter.flags (show Byte.bit (1 &&& 0x1F) 0 = true by decide)

/-- The machine in the middle of the last step of the loop: the display is off, and the interrupt is
about to be served. -/
structure Serving (p : Cartridge) (m : Machine) : Prop where
  pc_eq : m.cpu.registers.pc = 0x83
  sp_eq : m.cpu.registers.sp = 0xFF42
  a_eq : m.cpu.registers.a = 1
  interruptsOn_eq : m.cpu.interruptsOn = true
  delay_eq : m.cpu.enableDelay = 0
  enabled : Byte.bit m.bus.interrupts.enable 0 = true
  requested : Byte.bit m.bus.interrupts.flags 0 = true
  dark : m.bus.Dark
  fixed : m.bus.Fixed p

theorem At.switchOff (hp : HoldsProgram p) (h : At p .restart c) :
    ∃ m, c.machine.step = (m.poll, none) ∧ Serving p m := by
  -- The wait for interrupts ends with this instruction, so `About.step` does not apply.
  have hop : c.machine.bus.read c.machine.cpu.registers.pc = 0xE0 :=
    (h.about.read (by decide)).trans (hp .restart 0 (by decide))
  have hstep : c.machine.step = ((c.machine.executed (.storeA .pageImmediate)).poll, none) :=
    Machine.step_of_read h.about.halted_eq hop rfl fun _ => rfl
  have hcpu := c.machine.executed_cpu (.storeA .pageImmediate)
  rw [Machine.storeHigh_cpu, h.about.delay_eq, h.about.pc_eq, h.sp_eq rfl] at hcpu
  have hbus : (c.machine.executed (.storeA .pageImmediate)).bus =
      c.machine.bus.perform [.quiet, .quiet, .write 0xFF40 1] := by
    rw [(c.machine.executed_performs _).bus_eq,
      h.about.storeHigh_accesses (hp .restart 1 (by decide)) (by decide)]
    rfl
  have hraised : c.machine.bus.interrupts.Raised
      (c.machine.bus.perform [.quiet, .quiet, .write 0xFF40 1]).interrupts :=
    Bus.perform_raised (by simp) (by simp) (by simp)
  have hshows : (c.machine.bus.perform [.quiet, .quiet]).Shows 0 := h.shows.perform (by simp) rfl
  have hlast : c.machine.bus.perform [.quiet, .quiet, .write 0xFF40 1] =
      ((c.machine.bus.perform [.quiet, .quiet]).write 0xFF40 1).cycle :=
    Bus.perform_concat_write _ [.quiet, .quiet] _ _
  refine ⟨_, hstep, ?pc, ?sp, ?a, ?on, ?delay, ?enabled, ?requested, ?dark, ?fixed⟩
  case pc | sp | delay =>
    rw [hcpu]
    rfl
  case a =>
    rw [hcpu]
    exact h.about.a_eq
  case on =>
    rw [hcpu]
    simp [Processor.countDelay, Place.wait]
  case enabled =>
    rw [hbus, hraised.enable_eq]
    exact h.enabled (by decide)
  case requested =>
    rw [hbus]
    exact hraised.flags (h.requested (by decide))
  case dark =>
    rw [hbus, hlast]
    exact (hshows.switchOff (by decide)).cycle
  case fixed =>
    rw [hbus]
    exact h.about.fixed.perform _

/-- The bus when the interrupt has been served. The return address goes to the two registers below
the stack, of which the lower one switches the display on. -/
theorem switchOn {b : Bus} (h : b.Dark) :
    (b.perform [.acknowledge .vblank, .write 0xFF41 0x00, .write 0xFF40 0x83, .quiet, .quiet,
      .quiet]).Shows Place.ask.dots := by
  have hdark : Bus.Dark { b with interrupts := b.interrupts.acknowledge .vblank } :=
    ⟨h.onSchedule, h.displayOn, h.frameReady⟩
  have hshows := (hdark.writeStatus 0x00).cycle.switchOn (v := 0x83) (by decide)
  have hfar := (hshows.mono (by decide : Place.ask.dots + 4 + 4 + 4 + 4 ≤ _)).cycle.cycle.cycle.cycle
  simp only [Bus.perform_cons, Bus.perform_nil, Bus.access]
  exact hfar

theorem Serving.serve {m : Machine} (h : Serving p m) (ht : c.trace = none) :
    At p .ask { c with machine := m.serve .vblank } := by
  have hbus : (m.serve .vblank).bus = m.bus.perform [.acknowledge .vblank, .write 0xFF41 0x00,
      .write 0xFF40 0x83, .quiet, .quiet, .quiet] := by
    rw [(m.serve_performs .vblank).bus_eq, Machine.serving, Machine.pushing, h.sp_eq, h.pc_eq]
    rfl
  have hcpu := m.serve_cpu .vblank
  have hfixed : (m.serve .vblank).bus.Fixed p := by
    rw [hbus]
    exact h.fixed.perform _
  have habout : About p 0x40 0 { c with machine := m.serve .vblank } := by
    refine ⟨ht, ?_, ?_, ?_, ?_, ?_, hfixed⟩ <;> dsimp only <;> rw [hcpu]
    · rfl
    · exact h.a_eq
    · exact h.delay_eq
  refine ⟨habout, ?_, fun _ => ?_, fun hs => absurd rfl hs, fun hs => Bool.noConfusion hs⟩ <;>
    dsimp only <;> rw [hbus]
  · exact switchOn h.dark
  · rw [Bus.perform_enable (by simp)]
    exact h.enabled

theorem At.restart (hp : HoldsProgram p) (h : At p .restart c) :
    ∃ m, c.step = ({ c with machine := m }, none) ∧ At p .ask { c with machine := m } := by
  obtain ⟨m, hstep, hm⟩ := h.switchOff hp
  rw [Machine.poll_of_highest hm.interruptsOn_eq
    (Interrupts.highest?_eq_vblank hm.enabled hm.requested)] at hstep
  have hnext := hm.serve h.about.trace_eq
  exact ⟨_, step_of_fixed h.about.trace_eq hstep hnext.about.fixed, hnext⟩

/-- One instruction of the program. -/
theorem At.step (hp : HoldsProgram p) (h : At p s c) :
    ∃ m, c.step = ({ c with machine := m }, none) ∧ At p s.next { c with machine := m } := by
  have habout := h.about
  cases s with
  | enable => exact h.enable hp
  | enter =>
    obtain ⟨m, hstep, hnext, -, hbus⟩ := habout.jump (hp .enter 0 (by decide))
      (hp .enter 1 (by decide)) (hp .enter 2 (by decide)) (by decide) (by decide) (by decide)
    exact ⟨m, hstep, h.quiet 4 hnext hbus rfl (by decide) (by decide) (fun hs => Bool.noConfusion hs)⟩
  | ask => exact h.ask hp
  | stack =>
    obtain ⟨m, hstep, hnext, hsp, hbus⟩ := habout.loadSP (hp .stack 0 (by decide))
      (hp .stack 1 (by decide)) (hp .stack 2 (by decide)) (by decide) (by decide) (by decide)
    exact ⟨m, hstep, h.quiet 3 hnext hbus rfl (by decide) (by decide) fun _ => hsp⟩
  | leave =>
    obtain ⟨m, hstep, hnext, hsp, hbus⟩ := habout.jump (hp .leave 0 (by decide))
      (hp .leave 1 (by decide)) (hp .leave 2 (by decide)) (by decide) (by decide) (by decide)
    have hsp' := hsp.trans (h.sp_eq rfl)
    exact ⟨m, hstep, h.quiet 4 hnext hbus rfl (by decide) (by decide) fun _ => hsp'⟩
  | listen =>
    obtain ⟨m, hstep, hnext, hsp, hbus⟩ := habout.enable (hp .listen 0 (by decide)) (by decide)
    have hsp' := hsp.trans (h.sp_eq rfl)
    exact ⟨m, hstep, h.quiet 1 hnext hbus rfl (by decide) (by decide) fun _ => hsp'⟩
  | restart => exact h.restart hp

/-- Any number of instructions of the program. No frame ends with any of them. -/
theorem At.runToFrameEnd (hp : HoldsProgram p) (h : At p s c) (start fuel : Nat) :
    (runToFrameEnd start fuel c).2 = .unfinished ∧
      ∃ s', At p s' (runToFrameEnd start fuel c).1 := by
  induction fuel generalizing c s with
  | zero => exact ⟨rfl, s, h⟩
  | succ fuel ih =>
    obtain ⟨m, hstep, hnext⟩ := h.step hp
    have hend : frameEnded { c with machine := m } start = false :=
      not_ended_iff.2 ⟨hnext.shows.frameReady, fun hoff => by simp [hnext.shows.displayOn] at hoff⟩
    rw [Console.runToFrameEnd, hstep]
    dsimp only
    rw [hend]
    exact ih hnext

/-- A console into which a cartridge with the program has been put is at its beginning. -/
theorem at_enable {image : ByteArray} (h : Cartridge.ofImage image = .ok p)
    (hm : p.mapper = .direct) (host : Host) :
    At p .enable (Operation.run [.insertImage image] (powerOn host)) := by
  have hclean : p.dirty = false := (Cartridge.ofImage_eq h).clean
  have hinsert : Operation.run [.insertImage image] (powerOn host) =
      ((powerOn host).mapHost (·.recordAll p.warnings)).insert p := by
    rw [Operation.run, Operation.run, Operation.perform, insertAccepted, insertImage, h]
  rw [hinsert]
  refine ⟨⟨rfl, rfl, rfl, rfl, rfl, rfl, rfl, hm, hclean⟩, ⟨?_, ?_, rfl, ?_⟩,
    fun hs => absurd rfl hs, fun _ => ?_, fun hs => Bool.noConfusion hs⟩
  · exact Video.powerOn_onSchedule
  · show Video.powerOn.displayOn = true
    decide
  · show 80 < Video.powerOn.toBlank
    decide
  · show Byte.bit 0xE1 0 = true
    decide

/-- **A frame that never ends.** If a cartridge with the program is put into a console, then no
number of steps completes the first frame. -/
theorem runFrame_unfinished {image : ByteArray} (h : Cartridge.ofImage image = .ok p)
    (hm : p.mapper = .direct) (hp : HoldsProgram p) (host : Host) (fuel : Nat) :
    ((Operation.run [.insertImage image] (powerOn host)).runFrame fuel).2 = .unfinished :=
  ((at_enable h hm host).runToFrameEnd hp _ fuel).1

/-- The smallest image with the program. -/
def restartImage : ByteArray :=
  ⟨⟨List.replicate 0x40 0 ++ Place.ask.code ++ Place.stack.code ++ Place.leave.code ++
    List.replicate 0x38 0 ++ Place.listen.code ++ Place.restart.code ++
    List.replicate 0x7D 0 ++ Place.enable.code ++ Place.enter.code ++
    List.replicate 0x48 0 ++ [0xE7, 0, 0]⟩⟩

theorem restartImage_accepted :
    ∃ p, Cartridge.ofImage restartImage = .ok p ∧ p.mapper = .direct ∧ HoldsProgram p := by
  have hs : Cartridge.headerEnd ≤ restartImage.size := by decide +kernel
  have hsum : Cartridge.Header.computedChecksum restartImage = 0xE7 := by decide +kernel
  have hholds : ∀ s : Place, ∀ i (h : i < s.code.length),
      restartImage.data[s.address.toNat + i]? = some s.code[i] := by
    intro s
    cases s <;> decide +kernel
  obtain ⟨p, hp, hheader, hmapper⟩ := Cartridge.ofImage_of_checksum hs (hsum.trans rfl)
  rw [hheader] at hmapper
  refine ⟨p, hp, hmapper, fun s i h => ?_⟩
  have hbyte := hholds s i h
  rw [← (Cartridge.ofImage_eq hp).rom_eq] at hbyte
  obtain ⟨hi, hbyte⟩ := Array.getElem?_eq_some_iff.1 hbyte
  rw [Cartridge.romByte]
  exact (dif_pos hi).trans hbyte

/-- With this image in, running a frame goes on for ever. -/
theorem runFrame_restartImage_unfinished :
    ¬∃ fuel, ((Operation.run [.insertImage restartImage]
      (powerOn (.ofVolume .empty))).runFrame fuel).2 ≠ .unfinished := by
  obtain ⟨p, h, hm, hp⟩ := restartImage_accepted
  rintro ⟨fuel, hne⟩
  exact hne (runFrame_unfinished h hm hp _ fuel)

end Console

end DotMatrix
