import DotMatrix.Proofs.Processor.Dispatch

/-!
# How long an instruction takes

An instruction takes a machine cycle for each of its own bytes, one for each byte of memory that it
reads or writes, and for some work inside the processor one or two more. Unless it goes on somewhere
else, PC ends after its last byte.

* `Instruction.size`: the bytes of an instruction;
* `Machine.bytesRead`, `Machine.bytesWritten`: the bytes of memory that it reads and writes, those of
  the instruction itself apart;
* `Machine.internalCycles`: the machine cycles in which it leaves the bus alone;
* `Machine.goesElsewhere`: does it set PC?
* `accesses_length`, `execute_pc`: what these say about each instruction;
* `step_timing`: the time of a step, and where it leaves PC;
* `Executes`: the processor executes an instruction and serves no interrupt after it.
-/

namespace DotMatrix

/-! ### Numbers of bytes -/

/-- The bytes of an instruction: its opcode and what belongs to it. -/
def Instruction.size : Instruction → Nat
  | .stop | .load _ .immediate | .storeImmediate | .loadA .pageImmediate | .storeA .pageImmediate
  | .loadHLFromSP | .arithmetic _ .immediate | .addToSP | .jumpRelative _ | .extended => 2
  | .loadA .immediate | .storeA .immediate | .loadPair _ | .storeSP | .jump _ | .call _ => 3
  | _ => 1

/-- The opcode is the first of the bytes. -/
theorem Instruction.add_one_add_size (pc : UInt16) (i : Instruction) :
    pc + 1 + UInt16.ofNat (i.size - 1) = pc + UInt16.ofNat i.size := by
  have hpos : 1 ≤ i.size := by
    unfold size
    split <;> decide
  have hsize : 1 + (i.size - 1) = i.size := Nat.add_sub_cancel' hpos
  rw [UInt16.add_assoc, ← hsize, UInt16.ofNat_add, Nat.add_sub_cancel_left]
  rfl

/-- The bytes of memory in a cell. -/
def Cell.bytes : Cell → Nat
  | register _ => 0
  | atHL => 1

/-- The bytes of memory that an instruction of the second set writes: testing a bit writes none. -/
def Extended.bytesWritten (x : Extended) : Nat :=
  match x.operation with
  | .test _ => 0
  | _ => x.target.bytes

/-- Is a byte written? -/
def Access.isWrite : Access → Bool
  | write _ _ => true
  | _ => false

namespace Machine

variable (m : Machine)

/-! The machine is the one that the instruction begins with, its opcode being fetched. -/

/-- The bytes of memory that an instruction reads besides its own. -/
def bytesRead : Instruction → Nat
  | .load _ (.cell c) | .arithmetic _ (.cell c) | .increment c | .decrement c => c.bytes
  | .loadA _ => 1
  | .pop _ | .returnFromInterrupt => 2
  | .ret way => if m.taken way then 2 else 0
  | .extended => (Extended.decode m.fetch.1).target.bytes
  | _ => 0

/-- The bytes of memory that an instruction writes. -/
def bytesWritten : Instruction → Nat
  | .store _ | .storeImmediate | .storeA _ => 1
  | .increment c | .decrement c => c.bytes
  | .storeSP | .push _ | .restart _ => 2
  | .call way => if m.taken way then 2 else 0
  | .extended => (Extended.decode m.fetch.1).bytesWritten
  | _ => 0

/-- The machine cycles that an instruction spends inside the processor. -/
def internalCycles : Instruction → Nat
  | .incrementPair _ | .decrementPair _ | .addToHL _ | .loadSPFromHL | .loadHLFromSP | .push _
  | .restart _ | .returnFromInterrupt | .ret none => 1
  | .addToSP => 2
  | .jumpRelative way | .jump way | .call way => if m.taken way then 1 else 0
  | .ret (some condition) => if m.taken (some condition) then 2 else 1
  | _ => 0

/-- Does an instruction go on somewhere else than after its last byte? -/
def goesElsewhere : Instruction → Bool
  | .jumpRelative way | .jump way | .call way | .ret way => m.taken way
  | .jumpToHL | .returnFromInterrupt | .restart _ => true
  | _ => false

/-! ### The accesses in numbers -/

section

variable {m}

theorem reading_length (c : Cell) : Access.length c.reading = c.bytes := by
  cases c <;> rfl

theorem writing_length (c : Cell) (v : UInt8) : Access.length (m.writing c v) = c.bytes := by
  cases c <;> rfl

theorem going_length (way : Option Condition) (as : List Access) :
    Access.length (m.going way as) = if m.taken way then Access.length as else 0 := by
  unfold going
  split <;> rfl

theorem extendedAccesses_length (x : Extended) :
    Access.length (m.extendedAccesses x) = x.target.bytes + x.bytesWritten := by
  obtain ⟨operation, target⟩ := x
  rw [extendedAccesses, Access.length_append, reading_length]
  congr 1
  cases operation with
  | test n => rfl
  | _ => exact writing_length target _

/-- **An instruction takes a machine cycle for each byte and for each piece of internal work.** -/
theorem accesses_length (i : Instruction) :
    1 + Access.length (m.accesses i) =
      i.size + (m.bytesRead i + m.bytesWritten i) + m.internalCycles i := by
  cases i with
  | load dst src =>
    cases src with
    | cell c => cases c <;> rfl
    | immediate => rfl
  | loadA src => cases src <;> rfl
  | storeA dst => cases dst <;> rfl
  | arithmetic op right =>
    cases right with
    | cell c => cases c <;> rfl
    | immediate => rfl
  | increment c => cases c <;> rfl
  | decrement c => cases c <;> rfl
  | jumpRelative way =>
    show 1 + (1 + Access.length (m.going way [.quiet])) = 2 + 0 + if m.taken way then 1 else 0
    rw [going_length]
    split <;> rfl
  | jump way =>
    show 1 + (1 + (1 + Access.length (m.going way [.quiet]))) =
      3 + 0 + if m.taken way then 1 else 0
    rw [going_length]
    split <;> rfl
  | call way =>
    show 1 + (1 + (1 + Access.length (m.going way m.fetchWord.2.calling))) =
      3 + (0 + if m.taken way then 2 else 0) + if m.taken way then 1 else 0
    rw [going_length]
    split <;> rfl
  | ret way =>
    cases way with
    | none => rfl
    | some condition =>
      show 1 + (1 + Access.length (m.going (some condition) returning)) =
        1 + ((if m.taken (some condition) then 2 else 0) + 0) +
          if m.taken (some condition) then 2 else 1
      rw [going_length]
      split <;> rfl
  | extended =>
    let x := Extended.decode m.fetch.1
    show 1 + (1 + Access.length (m.fetch.2.extendedAccesses x)) =
      2 + (x.target.bytes + x.bytesWritten) + 0
    rw [extendedAccesses_length]
    omega
  -- The number is fixed.
  | _ => rfl

/-! ### The writes among them -/

theorem countP_isWrite_reading (c : Cell) : c.reading.countP Access.isWrite = 0 := by
  cases c <;> rfl

theorem countP_isWrite_resolving (p : Pointer) : p.resolving.countP Access.isWrite = 0 := by
  cases p <;> rfl

theorem countP_isWrite_writing (c : Cell) (v : UInt8) :
    (m.writing c v).countP Access.isWrite = c.bytes := by
  cases c <;> rfl

theorem countP_isWrite_going (way : Option Condition) (as : List Access) :
    (m.going way as).countP Access.isWrite =
      if m.taken way then as.countP Access.isWrite else 0 := by
  unfold going
  split <;> rfl

theorem countP_isWrite_counting (f : UInt8 → Flags → UInt8 × Flags) (c : Cell) :
    (m.counting f c).countP Access.isWrite = c.bytes := by
  rw [counting, List.countP_append, countP_isWrite_reading, countP_isWrite_writing, Nat.zero_add]

theorem countP_isWrite_extended (x : Extended) :
    (m.extendedAccesses x).countP Access.isWrite = x.bytesWritten := by
  obtain ⟨operation, target⟩ := x
  rw [extendedAccesses, List.countP_append, countP_isWrite_reading, Nat.zero_add]
  cases operation with
  | test n => rfl
  | _ => exact countP_isWrite_writing target _

/-- An instruction writes as many bytes as it is said to. -/
theorem countP_isWrite_accesses (i : Instruction) :
    (m.accesses i).countP Access.isWrite = m.bytesWritten i := by
  cases i with
  | load dst src =>
    cases src with
    | cell c => exact countP_isWrite_reading c
    | immediate => rfl
  | loadA src => rw [accesses, List.countP_append, countP_isWrite_resolving]; rfl
  | storeA dst => rw [accesses, List.countP_append, countP_isWrite_resolving]; rfl
  | arithmetic op right =>
    cases right with
    | cell c => exact countP_isWrite_reading c
    | immediate => rfl
  | increment c => exact countP_isWrite_counting _ c
  | decrement c => exact countP_isWrite_counting _ c
  | jumpRelative way =>
    simp only [accesses, List.countP_cons, countP_isWrite_going]
    split <;> rfl
  | jump way =>
    simp only [accesses, List.countP_cons, countP_isWrite_going]
    split <;> rfl
  | call way =>
    show (m.going way m.fetchWord.2.calling).countP Access.isWrite = if m.taken way then 2 else 0
    rw [countP_isWrite_going]
    rfl
  | ret way =>
    cases way with
    | none => rfl
    | some condition =>
      simp only [accesses, List.countP_cons, countP_isWrite_going]
      split <;> rfl
  | extended => exact countP_isWrite_extended _
  -- The number is fixed.
  | _ => rfl

end

/-! ### Where an instruction leaves PC -/

section

variable {m}

theorem fetchWord_pc : m.fetchWord.2.cpu.registers.pc = m.cpu.registers.pc + 2 :=
  UInt16.add_assoc _ 1 1

theorem setByte_pc (r : Registers) (name : ByteRegister) (v : UInt8) :
    (r.setByte name v).pc = r.pc := by
  cases name <;> rfl

theorem setPair_pc (r : Registers) (name : PairRegister) (w : UInt16) :
    (r.setPair name w).pc = r.pc := by
  cases name <;> rfl

theorem setStacked_pc (r : Registers) (name : StackRegister) (w : UInt16) :
    (r.setStacked name w).pc = r.pc := by
  cases name <;> rfl

theorem readCell_registers (c : Cell) : (m.readCell c).2.cpu.registers = m.cpu.registers := by
  cases c <;> rfl

theorem writeCell_pc (c : Cell) (v : UInt8) :
    (m.writeCell c v).cpu.registers.pc = m.cpu.registers.pc := by
  cases c with
  | register r => exact setByte_pc _ r v
  | atHL => rfl

theorem count_pc (f : UInt8 → Flags → UInt8 × Flags) (c : Cell) :
    (m.count f c).cpu.registers.pc = m.cpu.registers.pc := by
  refine (writeCell_pc c _).trans ?_
  show (m.readCell c).2.cpu.registers.pc = m.cpu.registers.pc
  rw [readCell_registers]

theorem executeExtended_pc (x : Extended) :
    (m.executeExtended x).cpu.registers.pc = m.cpu.registers.pc := by
  have hread : (m.readCell x.target).2.cpu.registers.pc = m.cpu.registers.pc := by
    rw [readCell_registers]
  unfold executeExtended
  dsimp only
  split
  · exact hread
  · exact (writeCell_pc _ _).trans hread

/-! A way that is closed is not gone; the bytes that would say where it leads have been fetched. -/

theorem jumpRelative_of_closed {way : Option Condition} (h : m.taken way = false) :
    m.jumpRelative way = m.fetch.2 :=
  if_neg (ne_true_of_eq_false h)

theorem jump_of_closed {way : Option Condition} (h : m.taken way = false) :
    m.jump way = m.fetchWord.2 :=
  if_neg (ne_true_of_eq_false h)

theorem call_of_closed {way : Option Condition} (h : m.taken way = false) :
    m.call way = m.fetchWord.2 :=
  if_neg (ne_true_of_eq_false h)

theorem ret_of_closed {way : Option Condition} (h : m.taken way = false) : m.ret way = m.cycle := by
  cases way with
  | none => cases h
  | some condition => exact if_neg (ne_true_of_eq_false h)

/-- **An instruction leaves PC after its last byte**, unless it goes on somewhere else. The machine
is the one whose PC is after the opcode. -/
theorem execute_pc {i : Instruction} (h : m.goesElsewhere i = false) :
    (m.execute i).cpu.registers.pc = m.cpu.registers.pc + UInt16.ofNat (i.size - 1) := by
  have hzero : m.cpu.registers.pc = m.cpu.registers.pc + UInt16.ofNat 0 := (UInt16.add_zero _).symm
  cases i with
  | load dst src =>
    refine (setByte_pc _ dst _).trans ?_
    cases src with
    | cell c => cases c <;> exact hzero
    | immediate => rfl
  | loadA src =>
    cases src with
    | pageImmediate => rfl
    | immediate => exact fetchWord_pc
    | _ => exact hzero
  | storeA dst =>
    cases dst with
    | pageImmediate => rfl
    | immediate => exact fetchWord_pc
    | _ => exact hzero
  | loadPair dst => exact (setPair_pc _ dst _).trans fetchWord_pc
  | pop dst => exact (setStacked_pc _ dst _).trans hzero
  | arithmetic op right =>
    cases right with
    | cell c => cases c <;> exact hzero
    | immediate => rfl
  | increment c => exact (count_pc _ c).trans hzero
  | decrement c => exact (count_pc _ c).trans hzero
  | incrementPair p => exact (setPair_pc _ p _).trans hzero
  | decrementPair p => exact (setPair_pc _ p _).trans hzero
  | jumpRelative way =>
    rw [execute, jumpRelative_of_closed h]
    rfl
  | jump way =>
    rw [execute, jump_of_closed h]
    exact fetchWord_pc
  | call way =>
    rw [execute, call_of_closed h]
    exact fetchWord_pc
  | ret way =>
    rw [execute, ret_of_closed h]
    exact hzero
  | extended => exact executeExtended_pc _
  | storeSP => exact fetchWord_pc
  | stop | storeImmediate | loadHLFromSP | addToSP => rfl
  | jumpToHL | returnFromInterrupt | restart => cases h
  | _ => exact hzero

end

end Machine

/-! ### Opcodes that can be executed -/

/-- One opcode stops the machine. -/
theorem Instruction.decode_eq_stop_iff (opcode : UInt8) : decode opcode = .stop ↔ opcode = 0x10 :=
  Byte.forall_of_fin (by decide +kernel) opcode

theorem Instruction.fault?_eq_none {i : Instruction} (hunused : i ≠ .unused) (hstop : i ≠ .stop)
    (opcode : UInt8) (pc : UInt16) : i.fault? opcode pc = none := by
  cases i with
  | unused => exact absurd rfl hunused
  | stop => exact absurd rfl hstop
  | _ => rfl

namespace Machine

/-! ### Steps -/

section

variable {m : Machine} {i : Instruction}

/-- A step that executes an instruction looks at interrupts when the instruction is over. -/
theorem polled?_of_running (hrun : m.cpu.halted = false)
    (hi : Instruction.decode (m.bus.read m.cpu.registers.pc) = i) (hunused : i ≠ .unused)
    (hstop : i ≠ .stop) : m.polled? = some (m.executed i) := by
  subst hi
  have hfault := Instruction.fault?_eq_none hunused hstop m.fetch.1 m.cpu.registers.pc
  unfold polled?
  rw [if_neg (ne_true_of_eq_false hrun)]
  dsimp only
  change Instruction.fault? m.fetch.1 m.cpu.registers.pc (.decode m.fetch.1) = none at hfault
  rw [hfault]
  rfl

/-- The time of an instruction. -/
theorem executed_cycles (m : Machine) (i : Instruction) :
    (m.executed i).cpu.cycles = m.cpu.cycles +
      4 * (i.size + (m.fetch.2.bytesRead i + m.fetch.2.bytesWritten i) + m.fetch.2.internalCycles i) := by
  rw [← accesses_length]
  exact (m.executed_performs i).cycles_eq

theorem executed_pc (h : m.fetch.2.goesElsewhere i = false) :
    (m.executed i).cpu.registers.pc = m.cpu.registers.pc + UInt16.ofNat i.size := by
  rw [← Instruction.add_one_add_size]
  exact execute_pc h

/-- A step that serves no interrupt is over when it has looked for one. -/
theorem over_of_unserved {p : Machine} (hp : m.polled? = some p)
    (h : ∀ source, .acknowledge source ∉ m.stepAccesses) :
    m.step = (p, none) ∧ m.stepAccesses = m.opening := by
  obtain ⟨p', hp', hstep, -, haccesses⟩ | ⟨fault, hnone, -⟩ := m.step_cases
  · obtain rfl : p' = p := Option.some.inj (hp'.symm.trans hp)
    obtain ⟨-, -, source, -, hpolling⟩ | ⟨-, hpoll, hpolling⟩ := p'.poll_cases
    · refine absurd ?_ (h source)
      rw [haccesses, hpolling]
      exact List.mem_append_right _ (acknowledge_mem_serving.2 rfl)
    · rw [hstep, hpoll, haccesses, hpolling]
      exact ⟨rfl, List.append_nil _⟩
  · rw [hp] at hnone
    cases hnone

theorem step_of_unserved {p : Machine} (hp : m.polled? = some p)
    (h : ∀ source, .acknowledge source ∉ m.stepAccesses) : m.step = (p, none) :=
  (over_of_unserved hp h).1

end

/-- **Time and length of an instruction.** Take a machine that is not halted, at an opcode that can be
executed. Its instruction takes four ticks for each of its bytes, for each byte of memory that it
reads or writes and for each machine cycle of internal work, and leaves PC after its last byte unless
it goes on elsewhere; of the bytes of memory those that are written are the writes on the bus. Then
the step is over, or an interrupt is served, which takes twenty ticks more. Any step, also one that
waits or ends with a fault, takes from four to forty-four ticks. -/
theorem step_timing (m : Machine) :
    (m.cpu.halted = false → m.bus.read m.cpu.registers.pc ≠ 0x10 →
      m.bus.read m.cpu.registers.pc ∉ Instruction.unusedOpcodes →
      let i := Instruction.decode (m.bus.read m.cpu.registers.pc)
      let m' := m.fetch.2
      let time := 4 * (i.size + (m'.bytesRead i + m'.bytesWritten i) + m'.internalCycles i)
      ∃ p : Machine, m.polled? = some p ∧ m.step = (p.poll, none) ∧
        p.cpu.cycles = m.cpu.cycles + time ∧
        (m'.goesElsewhere i = false →
          p.cpu.registers.pc = m.cpu.registers.pc + UInt16.ofNat i.size) ∧
        m.opening.countP Access.isWrite = m'.bytesWritten i ∧
        ((∀ source, .acknowledge source ∉ m.stepAccesses) ∧ m.step.1 = p ∨
          ∃ source, .acknowledge source ∈ m.stepAccesses ∧ Dispatched p source m.step.1 ∧
            m.step.1.cpu.cycles = m.cpu.cycles + time + 20)) ∧
    m.cpu.cycles + 4 ≤ m.step.1.cpu.cycles ∧ m.step.1.cpu.cycles ≤ m.cpu.cycles + 44 := by
  constructor
  · intro hrun hstop hunused i m' time
    have hpolled : m.polled? = some (m.executed i) :=
      polled?_of_running hrun rfl (mt (Instruction.decode_eq_unused_iff _).1 hunused)
        (mt (Instruction.decode_eq_stop_iff _).1 hstop)
    have hcycles : (m.executed i).cpu.cycles = m.cpu.cycles + time := m.executed_cycles i
    have hopening : m.opening = .quiet :: m'.accesses i := if_neg (ne_true_of_eq_false hrun)
    refine ⟨m.executed i, hpolled, ?_, hcycles, executed_pc, ?_, ?_⟩
    · obtain ⟨p, hp, hstep, -⟩ | ⟨fault, hnone, -⟩ := m.step_cases
      · obtain rfl : p = m.executed i := Option.some.inj (hp.symm.trans hpolled)
        exact hstep
      · rw [hpolled] at hnone
        cases hnone
    · rw [hopening]
      exact countP_isWrite_accesses i
    · by_cases hserved : ∃ source, .acknowledge source ∈ m.stepAccesses
      · obtain ⟨source, hsource⟩ := hserved
        obtain ⟨p, hp, hdispatched⟩ := dispatched_of_mem hsource
        obtain rfl : p = m.executed i := Option.some.inj (hp.symm.trans hpolled)
        refine .inr ⟨source, hsource, hdispatched, ?_⟩
        rw [hdispatched.cycles, hcycles]
        rfl
      · have hunserved : ∀ source, .acknowledge source ∉ m.stepAccesses := not_exists.1 hserved
        exact .inl ⟨hunserved, by rw [step_of_unserved hpolled hunserved]⟩
  · obtain ⟨hone, heleven⟩ := stepAccesses_length (m := m)
    rw [m.step_performs.cycles_eq, Bus.ticksPerCycle]
    omega

/-- Without a cartridge the first step calls the address 38 and takes sixteen ticks: one byte for the
instruction, two for the stack and a machine cycle inside the processor. -/
theorem step_timing_restart :
    let m := start (.ofVolume .empty) none false
    m.cpu.halted = false ∧ m.bus.read m.cpu.registers.pc ≠ 0x10 ∧
      m.bus.read m.cpu.registers.pc ∉ Instruction.unusedOpcodes ∧
      ∃ p : Machine, m.polled? = some p ∧ p.cpu.cycles = 16 := by
  intro m
  have hread : m.bus.read m.cpu.registers.pc = 0xFF := by decide +kernel
  have hstop : m.bus.read m.cpu.registers.pc ≠ 0x10 := by
    rw [hread]
    decide
  have hunused : m.bus.read m.cpu.registers.pc ∉ Instruction.unusedOpcodes := by
    rw [hread]
    decide
  obtain ⟨p, hp, -, hcycles, -⟩ := (step_timing m).1 rfl hstop hunused
  refine ⟨rfl, hstop, hunused, p, hp, ?_⟩
  rw [hcycles, hread]
  rfl

/-! ### An instruction alone -/

/-- The processor executes the instruction, and serves no interrupt after it. -/
structure Executes (m : Machine) (i : Instruction) : Prop where
  running : m.cpu.halted = false
  decode_eq : Instruction.decode (m.bus.read m.cpu.registers.pc) = i
  unserved (source : Interrupt) : .acknowledge source ∉ m.stepAccesses

theorem Executes.step_eq {m : Machine} {i : Instruction} (h : m.Executes i)
    (hunused : i ≠ .unused) (hstop : i ≠ .stop) : m.step = (m.executed i, none) :=
  step_of_unserved (polled?_of_running h.running h.decode_eq hunused hstop) h.unserved

/-- The same for an instruction of a kind that neither stops the machine nor is unused. -/
theorem Executes.step_eq_of_kind {m : Machine} {i : Instruction} {kind : Instruction → Bool}
    (h : m.Executes i) (hi : kind i = true) (hunused : kind .unused = false)
    (hstop : kind .stop = false) : m.step = (m.executed i, none) := by
  refine h.step_eq ?_ ?_
  · rintro rfl
    cases hi.symm.trans hunused
  · rintro rfl
    cases hi.symm.trans hstop

/-- The accesses of an instruction alone. -/
theorem Executes.stepAccesses_eq {m : Machine} {i : Instruction} (h : m.Executes i)
    (hunused : i ≠ .unused) (hstop : i ≠ .stop) :
    m.stepAccesses = .quiet :: m.fetch.2.accesses i := by
  have hpolled := polled?_of_running h.running h.decode_eq hunused hstop
  rw [(over_of_unserved hpolled h.unserved).2, ← h.decode_eq]
  exact if_neg (ne_true_of_eq_false h.running)

instance (m : Machine) (i : Instruction) : Decidable (m.Executes i) :=
  decidable_of_iff (m.cpu.halted = false ∧ Instruction.decode (m.bus.read m.cpu.registers.pc) = i ∧
      ∀ source ∈ Interrupt.all, .acknowledge source ∉ m.stepAccesses)
    ⟨fun ⟨hrun, hi, h⟩ => ⟨hrun, hi, fun source => h source (by cases source <;> decide)⟩,
      fun h => ⟨h.running, h.decode_eq, fun source _ => h.unserved source⟩⟩

/-- A machine without a cartridge, at the start of a program in high RAM. -/
def ofProgram (registers : Registers) (program : List UInt8) : Machine :=
  let place (b : Bus) (cell : UInt8 × Nat) : Bus := b.write (0xFF80 + UInt16.ofNat cell.2) cell.1
  { cpu := .ofRegisters { registers with pc := 0xFF80 }
    bus := program.zipIdx.foldl place (.powerOn (.ofVolume .empty)) }

end Machine

end DotMatrix
