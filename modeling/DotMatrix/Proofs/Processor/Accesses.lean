import DotMatrix.Processor.Step

/-!
# What a step does on the bus

The registers of the processor act on the rest of the machine in one way only: a machine cycle at a
time, each of which writes a byte or writes none. This file gives the list of these accesses for
every instruction, for the service of an interrupt and for a step, and shows that the bus and the
clock after a step are those that the list leads to.

* `Access`, `Bus.perform`, `length`: an access, and what a list of them does to the bus and takes;
* `Machine.accesses`, `Machine.stepAccesses`: the accesses of an instruction and of a step;
* `step_performs`: a step performs its accesses;
* `stepAccesses_length`: it takes from one to eleven machine cycles;
* `run`, `run_performs`: the same for steps in a row, faults included.
-/

namespace DotMatrix

/-- What the processor does on the bus. -/
inductive Access
  /-- A machine cycle in which nothing is written: a read, or work inside the processor. -/
  | quiet
  /-- A machine cycle in which a byte is written. -/
  | write (a : UInt16) (v : UInt8)
  /-- An interrupt's request is taken back, because it is being served. This takes no time. -/
  | acknowledge (source : Interrupt)
  deriving DecidableEq, Repr

namespace Access

/-- Machine cycles that an access takes. -/
def cycles : Access → Nat
  | quiet => 1
  | write _ _ => 1
  | acknowledge _ => 0

/-- Machine cycles that accesses in a row take. -/
def length : List Access → Nat
  | [] => 0
  | a :: as => a.cycles + length as

@[simp] theorem cycles_quiet : quiet.cycles = 1 := rfl

@[simp] theorem cycles_write (a : UInt16) (v : UInt8) : (write a v).cycles = 1 := rfl

@[simp] theorem cycles_acknowledge (source : Interrupt) : (acknowledge source).cycles = 0 := rfl

@[simp] theorem length_nil : length [] = 0 := rfl

@[simp] theorem length_cons (a : Access) (as : List Access) :
    length (a :: as) = a.cycles + length as := rfl

@[simp] theorem length_append (as bs : List Access) : length (as ++ bs) = length as + length bs := by
  induction as with
  | nil => exact (Nat.zero_add _).symm
  | cons a as ih => rw [List.cons_append, length_cons, length_cons, ih, Nat.add_assoc]

@[simp] theorem length_replicate_quiet (n : Nat) : length (List.replicate n quiet) = n := by
  induction n with
  | zero => rfl
  | succ n ih => rw [List.replicate_succ, length_cons, ih, cycles_quiet, Nat.add_comm]

end Access

namespace Bus

/-- The bus after an access. -/
def access (b : Bus) : Access → Bus
  | .quiet => b.cycle
  | .write a v => (b.write a v).cycle
  | .acknowledge source => { b with interrupts := b.interrupts.acknowledge source }

/-- The bus after accesses in a row. -/
def perform (b : Bus) (as : List Access) : Bus := as.foldl access b

@[simp] theorem perform_nil (b : Bus) : b.perform [] = b := rfl

@[simp] theorem perform_cons (b : Bus) (a : Access) (as : List Access) :
    b.perform (a :: as) = (b.access a).perform as := rfl

theorem perform_append (b : Bus) (as bs : List Access) :
    b.perform (as ++ bs) = (b.perform as).perform bs := List.foldl_append

end Bus

/-! ### The accesses of an instruction

They are read off the machine that the instruction begins with, its opcode being fetched. -/

/-- To read a cell. -/
def Cell.reading : Cell → List Access
  | register _ => []
  | atHL => [.quiet]

/-- To read an operand. -/
def Operand.reading : Operand → List Access
  | cell c => c.reading
  | immediate => [.quiet]

/-- To find the address that a pointer stands for. -/
def Pointer.resolving : Pointer → List Access
  | pageImmediate => [.quiet]
  | immediate => [.quiet, .quiet]
  | _ => []

namespace Machine

variable (m : Machine)

/-- To write a cell. -/
def writing (target : Cell) (v : UInt8) : List Access :=
  match target with
  | .register _ => []
  | .atHL => [.write m.cpu.registers.hl v]

/-- To push a word. -/
def pushing (w : UInt16) : List Access :=
  [.write (m.cpu.registers.sp - 1) (Word.high w), .write (m.cpu.registers.sp - 1 - 1) (Word.low w)]

/-- To call an address. -/
def calling : List Access := .quiet :: m.pushing m.cpu.registers.pc

/-- To pop PC. -/
def returning : List Access := [.quiet, .quiet, .quiet]

/-- To go a way that may be closed. -/
def going (way : Option Condition) (as : List Access) : List Access :=
  if m.taken way then as else []

/-- To replace a cell by a function of it and the flags. -/
def counting (f : UInt8 → Flags → UInt8 × Flags) (target : Cell) : List Access :=
  target.reading ++ m.writing target (f (m.readCell target).1 m.cpu.registers.flags).1

/-- To execute an instruction of the second set. -/
def extendedAccesses (x : Extended) : List Access :=
  x.target.reading ++
    match (Alu.bitOperation x.operation (m.readCell x.target).1 m.cpu.registers.flags).1 with
    | none => []
    | some result => m.writing x.target result

/-- To execute an instruction. -/
def accesses : Instruction → List Access
  | .unused | .nop | .halt | .disableInterrupts | .enableInterrupts => []
  | .stop => [.quiet]
  | .load _ src => src.reading
  | .store src => [.write m.cpu.registers.hl (m.cpu.registers.byte src)]
  | .storeImmediate => [.quiet, .write m.cpu.registers.hl m.fetch.1]
  | .loadA src => src.resolving ++ [.quiet]
  | .storeA dst => dst.resolving ++ [.write (m.resolve dst).1 m.cpu.registers.a]
  | .loadPair _ => [.quiet, .quiet]
  | .storeSP =>
    let address := m.fetchWord.1
    [.quiet, .quiet, .write address (Word.low m.cpu.registers.sp),
      .write (address + 1) (Word.high m.cpu.registers.sp)]
  | .loadSPFromHL => [.quiet]
  | .loadHLFromSP => [.quiet, .quiet]
  | .push src => .quiet :: m.pushing (m.cpu.registers.stacked src)
  | .pop _ => [.quiet, .quiet]
  | .arithmetic _ right => right.reading
  | .increment c => m.counting Alu.increment c
  | .decrement c => m.counting Alu.decrement c
  | .incrementPair _ | .decrementPair _ | .addToHL _ => [.quiet]
  | .addToSP => [.quiet, .quiet, .quiet]
  | .rotateA _ | .decimalAdjust | .complementA | .setCarry | .complementCarry => []
  | .jumpRelative c => .quiet :: m.going c [.quiet]
  | .jump c => .quiet :: .quiet :: m.going c [.quiet]
  | .jumpToHL => []
  | .call c => .quiet :: .quiet :: m.going c m.fetchWord.2.calling
  | .ret none => returning
  | .ret (some condition) => .quiet :: m.going (some condition) returning
  | .returnFromInterrupt => returning
  | .restart _ => m.calling
  | .extended => .quiet :: m.fetch.2.extendedAccesses (.decode m.fetch.1)

/-- To serve an interrupt. -/
def serving (source : Interrupt) : List Access :=
  .acknowledge source :: (m.pushing m.cpu.registers.pc ++ [.quiet, .quiet, .quiet])

/-- To serve the most urgent pending interrupt, if that is due. -/
def polling : List Access :=
  if m.cpu.interruptsOn then
    match m.bus.interrupts.highest? with
    | some source => m.serving source
    | none => []
  else []

/-- To wait for a machine cycle. -/
def waiting : List Access :=
  let m := m.cycle
  let halted := m.cpu.halted && m.bus.interrupts.pending == 0
  .quiet :: polling { m with cpu := { m.cpu with halted } }

/-- To execute the instruction at PC. -/
def instructionAccesses : List Access :=
  let delay := m.cpu.enableDelay
  let pc := m.cpu.registers.pc
  let (opcode, m) := m.fetch
  let instruction := Instruction.decode opcode
  let m' := m.execute instruction
  .quiet :: m.accesses instruction ++
    match instruction.fault? opcode pc with
    | some _ => []
    | none => polling { m' with cpu := m'.cpu.countDelay delay }

/-- To take a step. -/
def stepAccesses : List Access := if m.cpu.halted then m.waiting else m.instructionAccesses

/-! ### Accesses are performed -/

/-- From `m` to `m'` nothing has happened to the bus but these accesses, and the clock has gone on by
the time that they take. -/
structure Performs (m : Machine) (as : List Access) (m' : Machine) : Prop where
  bus_eq : m'.bus = m.bus.perform as
  cycles_eq : m'.cpu.cycles = m.cpu.cycles + Bus.ticksPerCycle * Access.length as

section

variable {m m' m'' : Machine} {as bs : List Access}

theorem Performs.refl (m : Machine) : Performs m [] m := ⟨rfl, rfl⟩

theorem Performs.trans (h : Performs m as m') (h' : Performs m' bs m'') :
    Performs m (as ++ bs) m'' := by
  constructor
  · rw [h'.bus_eq, h.bus_eq, Bus.perform_append]
  · rw [h'.cycles_eq, h.cycles_eq, Access.length_append, Nat.mul_add, Nat.add_assoc]

/-- A change of the processor that takes no time, before accesses. -/
theorem Performs.after {cpu : Processor} (h : Performs { m with cpu } as m')
    (hc : cpu.cycles = m.cpu.cycles) : Performs m as m' :=
  ⟨h.bus_eq, h.cycles_eq.trans (by rw [hc])⟩

/-- The same after accesses. -/
theorem Performs.before {cpu : Processor} (h : Performs m as m')
    (hc : cpu.cycles = m'.cpu.cycles) : Performs m as { m' with cpu } :=
  ⟨h.bus_eq, hc.trans h.cycles_eq⟩

/-- Accesses on a way that may be closed. -/
theorem Performs.ite {p : Prop} [Decidable p] (h : Performs m as m') :
    Performs m (if p then as else []) (if p then m' else m) := by
  by_cases hp : p
  · rw [if_pos hp, if_pos hp]
    exact h
  · rw [if_neg hp, if_neg hp]
    exact .refl m

end

theorem cycle_performs : Performs m [.quiet] m.cycle := ⟨rfl, rfl⟩

theorem idle_performs (n : Nat) : Performs m (List.replicate n .quiet) (idle n m) := by
  induction n generalizing m with
  | zero => exact .refl m
  | succ n ih => exact m.cycle_performs.trans (ih m.cycle)

theorem write_performs (a : UInt16) (v : UInt8) : Performs m [.write a v] (m.write a v) := ⟨rfl, rfl⟩

theorem read_performs (a : UInt16) : Performs m [.quiet] (m.read a).2 := ⟨rfl, rfl⟩

theorem fetch_performs : Performs m [.quiet] m.fetch.2 := ⟨rfl, rfl⟩

theorem fetchWord_performs : Performs m [.quiet, .quiet] m.fetchWord.2 :=
  m.fetch_performs.trans (fetch_performs _)

theorem writeWord_performs (a w : UInt16) :
    Performs m [.write a (Word.low w), .write (a + 1) (Word.high w)] (m.writeWord a w) :=
  (m.write_performs a _).trans (write_performs _ _ _)

theorem pushByte_performs (v : UInt8) :
    Performs m [.write (m.cpu.registers.sp - 1) v] (m.pushByte v) :=
  (write_performs _ _ _).after rfl

theorem popByte_performs : Performs m [.quiet] m.popByte.2 := by
  have hread : Performs m [.quiet] (m.read m.cpu.registers.sp).2 := m.read_performs _
  exact hread.before rfl

theorem push_performs (w : UInt16) : Performs m (m.pushing w) (m.push w) :=
  (m.pushByte_performs _).trans (pushByte_performs _ _)

theorem pop_performs : Performs m [.quiet, .quiet] m.pop.2 :=
  m.popByte_performs.trans (popByte_performs _)

theorem readCell_performs (c : Cell) : Performs m c.reading (m.readCell c).2 := by
  cases c with
  | register r => exact .refl m
  | atHL => exact m.read_performs _

theorem readOperand_performs (o : Operand) : Performs m o.reading (m.readOperand o).2 := by
  cases o with
  | cell c => exact m.readCell_performs c
  | immediate => exact m.fetch_performs

theorem resolve_performs (p : Pointer) : Performs m p.resolving (m.resolve p).2 := by
  cases p with
  | pageImmediate => exact m.fetch_performs
  | immediate => exact m.fetchWord_performs
  | _ => exact (Performs.refl m).before rfl

/-! ### Families of instructions -/

theorem combine_performs (op : Arithmetic) (right : Operand) :
    Performs m right.reading (m.combine op right) :=
  (m.readOperand_performs right).before rfl

theorem count_performs (f : UInt8 → Flags → UInt8 × Flags) (c : Cell) :
    Performs m (m.counting f c) (m.count f c) := by
  refine (m.readCell_performs c).trans ?_
  cases c with
  | register r => exact (Performs.refl _).before rfl
  | atHL => exact (write_performs _ _ _).after rfl

theorem loadA_performs (p : Pointer) : Performs m (p.resolving ++ [.quiet]) (m.loadA p) :=
  (m.resolve_performs p).trans ((read_performs _ (m.resolve p).1).before rfl)

theorem storeA_performs (p : Pointer) :
    Performs m (p.resolving ++ [.write (m.resolve p).1 m.cpu.registers.a]) (m.storeA p) := by
  refine (m.resolve_performs p).trans ?_
  cases p <;> exact write_performs _ _ _

theorem addToHL_performs (p : PairRegister) : Performs m [.quiet] (m.addToHL p) :=
  (cycle_performs _).after rfl

theorem displacedSP_performs : Performs m [.quiet] m.displacedSP.2 := m.fetch_performs

theorem jumpRelative_performs (c : Option Condition) :
    Performs m (.quiet :: m.going c [.quiet]) (m.jumpRelative c) := by
  have hjump : Performs m.fetch.2 [.quiet]
      (m.fetch.2.mapRegisters (·.jumpRelative m.fetch.1)).cycle := (cycle_performs _).after rfl
  exact m.fetch_performs.trans hjump.ite

theorem jump_performs (c : Option Condition) :
    Performs m (.quiet :: .quiet :: m.going c [.quiet]) (m.jump c) := by
  have hjump : Performs m.fetchWord.2 [.quiet] (m.fetchWord.2.setPC m.fetchWord.1).cycle :=
    (cycle_performs _).after rfl
  exact m.fetchWord_performs.trans hjump.ite

theorem callAddress_performs (target : UInt16) : Performs m m.calling (m.callAddress target) :=
  m.cycle_performs.trans ((push_performs _ _).before rfl)

theorem call_performs (c : Option Condition) :
    Performs m (.quiet :: .quiet :: m.going c m.fetchWord.2.calling) (m.call c) :=
  m.fetchWord_performs.trans (callAddress_performs _ _).ite

theorem popPC_performs : Performs m returning m.popPC :=
  m.pop_performs.trans ((cycle_performs _).after rfl)

theorem ret_performs (c : Option Condition) : Performs m (m.accesses (.ret c)) (m.ret c) := by
  cases c with
  | none => exact m.popPC_performs
  | some condition => exact m.cycle_performs.trans (popPC_performs _).ite

theorem executeExtended_performs (x : Extended) :
    Performs m (m.extendedAccesses x) (m.executeExtended x) := by
  obtain ⟨operation, target⟩ := x
  refine (m.readCell_performs target).trans ?_
  have hflags : (m.readCell target).2.cpu.registers.flags = m.cpu.registers.flags := by
    cases target <;> rfl
  unfold executeExtended
  dsimp only
  rw [hflags]
  generalize Alu.bitOperation operation (m.readCell target).1 m.cpu.registers.flags = y
  obtain ⟨result?, flags⟩ := y
  cases result? with
  | none => exact (Performs.refl _).before rfl
  | some result =>
    cases target with
    | register r => exact (Performs.refl m).before rfl
    | atHL => exact (write_performs _ _ _).after rfl

/-! ### All instructions -/

/-- The accesses of an instruction. -/
theorem execute_performs (i : Instruction) : Performs m (m.accesses i) (m.execute i) := by
  cases i with
  | stop => exact m.fetch_performs
  | load dst src => exact (m.readOperand_performs src).before rfl
  | store src => exact m.write_performs _ _
  | storeImmediate => exact m.fetch_performs.trans (write_performs _ _ _)
  | loadA src => exact m.loadA_performs src
  | storeA dst => exact m.storeA_performs dst
  | loadPair dst => exact m.fetchWord_performs.before rfl
  | storeSP => exact m.fetchWord_performs.trans (writeWord_performs _ _ _)
  | loadSPFromHL => exact (cycle_performs _).after rfl
  | loadHLFromSP => exact m.displacedSP_performs.trans ((cycle_performs _).after rfl)
  | push src => exact m.cycle_performs.trans (push_performs _ _)
  | pop dst => exact m.pop_performs.before rfl
  | arithmetic op right => exact m.combine_performs op right
  | increment c => exact m.count_performs Alu.increment c
  | decrement c => exact m.count_performs Alu.decrement c
  | incrementPair p => exact (cycle_performs _).after rfl
  | decrementPair p => exact (cycle_performs _).after rfl
  | addToHL p => exact m.addToHL_performs p
  | addToSP => exact m.displacedSP_performs.trans ((idle_performs _ 2).after rfl)
  | jumpRelative c => exact m.jumpRelative_performs c
  | jump c => exact m.jump_performs c
  | call c => exact m.call_performs c
  | ret c => exact m.ret_performs c
  | returnFromInterrupt => exact (popPC_performs _).after rfl
  | restart v => exact m.callAddress_performs v.toUInt16
  | extended => exact m.fetch_performs.trans (executeExtended_performs _ _)
  -- The others change registers and switches only.
  | _ => exact (Performs.refl m).before rfl

/-! ### Steps -/

theorem serve_performs (source : Interrupt) : Performs m (m.serving source) (m.serve source) := by
  let cpu := { m.cpu with interruptsOn := false, halted := false }
  let bus := { m.bus with interrupts := m.bus.interrupts.acknowledge source }
  have hacknowledge : Performs m [.acknowledge source] { cpu, bus } := ⟨rfl, rfl⟩
  exact hacknowledge.trans ((push_performs _ _).trans ((idle_performs _ 3).after rfl))

theorem poll_performs : Performs m m.polling m.poll := by
  unfold polling poll
  cases m.cpu.interruptsOn with
  | false => exact .refl m
  | true =>
    cases m.bus.interrupts.highest? with
    | none => exact .refl m
    | some source => exact m.serve_performs source

theorem wait_performs : Performs m m.waiting m.wait :=
  m.cycle_performs.trans ((poll_performs _).after rfl)

theorem runInstruction_performs : Performs m m.instructionAccesses m.runInstruction.1 := by
  have hfetch : Performs m [.quiet] m.fetch.2 := m.fetch_performs
  unfold instructionAccesses runInstruction
  generalize m.fetch = x at hfetch
  obtain ⟨opcode, m'⟩ := x
  refine hfetch.trans ((m'.execute_performs (.decode opcode)).trans ?_)
  dsimp only
  cases (Instruction.decode opcode).fault? opcode m.cpu.registers.pc with
  | some fault => exact .refl _
  | none => exact (poll_performs _).after rfl

/-- **What a step does on the bus.** -/
theorem step_performs : Performs m m.stepAccesses m.step.1 := by
  unfold stepAccesses step
  split
  · exact m.wait_performs
  · exact m.runInstruction_performs

/-! ### How long a step takes -/

section

variable {m}

theorem readCell_length_le (c : Cell) : Access.length c.reading ≤ 1 := by
  cases c with
  | register r => exact Nat.zero_le 1
  | atHL => exact Nat.le_refl 1

theorem readOperand_length_le (o : Operand) : Access.length o.reading ≤ 1 := by
  cases o with
  | cell c => exact readCell_length_le c
  | immediate => decide

theorem resolve_length_le (p : Pointer) : Access.length p.resolving ≤ 2 := by
  cases p <;> decide

theorem writing_length_le (c : Cell) (v : UInt8) : Access.length (m.writing c v) ≤ 1 := by
  cases c <;> simp [writing]

@[simp] theorem pushing_length (w : UInt16) : Access.length (m.pushing w) = 2 := rfl

@[simp] theorem calling_length : Access.length m.calling = 3 := rfl

@[simp] theorem returning_length : Access.length returning = 3 := rfl

theorem going_length_le (way : Option Condition) (as : List Access) :
    Access.length (m.going way as) ≤ Access.length as := by
  unfold going
  split
  · exact Nat.le_refl _
  · exact Nat.zero_le _

theorem counting_length_le (f : UInt8 → Flags → UInt8 × Flags) (c : Cell) :
    Access.length (m.counting f c) ≤ 2 := by
  unfold counting
  rw [Access.length_append]
  exact Nat.add_le_add (readCell_length_le c) (writing_length_le c _)

theorem extendedAccesses_length_le (x : Extended) : Access.length (m.extendedAccesses x) ≤ 2 := by
  unfold extendedAccesses
  rw [Access.length_append]
  have hread := readCell_length_le x.target
  split
  · rw [Access.length_nil]
    omega
  · next result _ =>
    have hwrite := writing_length_le (m := m) x.target result
    omega

/-- After its opcode, an instruction takes at most five machine cycles. -/
theorem accesses_length_le (i : Instruction) : Access.length (m.accesses i) ≤ 5 := by
  cases i with
  | load dst src => exact Nat.le_trans (readOperand_length_le src) (by decide)
  | loadA src =>
    have hresolve := resolve_length_le src
    simp only [accesses, Access.length_append, Access.length_cons, Access.length_nil,
      Access.cycles_quiet]
    omega
  | storeA dst =>
    have hresolve := resolve_length_le dst
    simp only [accesses, Access.length_append, Access.length_cons, Access.length_nil,
      Access.cycles_write]
    omega
  | arithmetic op right => exact Nat.le_trans (readOperand_length_le right) (by decide)
  | increment c => exact Nat.le_trans (counting_length_le _ c) (by decide)
  | decrement c => exact Nat.le_trans (counting_length_le _ c) (by decide)
  | jumpRelative c =>
    have hgoing : Access.length (m.going c [.quiet]) ≤ 1 := going_length_le c _
    simp only [accesses, Access.length_cons, Access.cycles_quiet]
    omega
  | jump c =>
    have hgoing : Access.length (m.going c [.quiet]) ≤ 1 := going_length_le c _
    simp only [accesses, Access.length_cons, Access.cycles_quiet]
    omega
  | call c =>
    have hgoing : Access.length (m.going c m.fetchWord.2.calling) ≤ 3 := going_length_le c _
    simp only [accesses, Access.length_cons, Access.cycles_quiet]
    omega
  | ret c =>
    cases c with
    | none => exact Nat.le_add_right 3 2
    | some condition =>
      have hgoing : Access.length (m.going (some condition) returning) ≤ 3 := going_length_le _ _
      simp only [accesses, Access.length_cons, Access.cycles_quiet]
      omega
  | extended =>
    have hextended := extendedAccesses_length_le (m := m.fetch.2) (.decode m.fetch.1)
    simp only [accesses, Access.length_cons, Access.cycles_quiet]
    omega
  -- The number is fixed.
  | _ => simp [accesses]

theorem polling_length_le : Access.length m.polling ≤ 5 := by
  unfold polling
  split
  · split
    · simp [serving]
    · exact Nat.zero_le _
  · exact Nat.zero_le _

theorem waiting_length_le : Access.length m.waiting ≤ 6 :=
  Nat.add_le_add_left polling_length_le 1

theorem instructionAccesses_length_le : Access.length m.instructionAccesses ≤ 11 := by
  unfold instructionAccesses
  generalize m.fetch = x
  obtain ⟨opcode, m'⟩ := x
  dsimp only
  rw [List.cons_append, Access.length_cons, Access.length_append, Access.cycles_quiet]
  have hexecute := accesses_length_le (m := m') (.decode opcode)
  split
  · rw [Access.length_nil]
    omega
  · exact Nat.add_le_add_left (Nat.add_le_add hexecute polling_length_le) 1

/-- **A step takes from one to eleven machine cycles.** -/
theorem stepAccesses_length :
    1 ≤ Access.length m.stepAccesses ∧ Access.length m.stepAccesses ≤ 11 := by
  unfold stepAccesses
  split
  · have hwait := waiting_length_le (m := m)
    exact ⟨Nat.le_add_right 1 _, by omega⟩
  · exact ⟨Nat.le_add_right 1 _, instructionAccesses_length_le⟩

end

/-! ### Steps in a row -/

/-- The machine after steps in a row. A step that ends with a fault counts too, and the next one
goes on from the machine that the fault left. -/
def run : Nat → Machine → Machine
  | 0, m => m
  | n + 1, m => run n m.step.1

/-- The accesses of steps in a row. -/
def runAccesses : Nat → Machine → List Access
  | 0, _ => []
  | n + 1, m => m.stepAccesses ++ runAccesses n m.step.1

theorem run_performs (n : Nat) : Performs m (runAccesses n m) (run n m) := by
  induction n generalizing m with
  | zero => exact .refl m
  | succ n ih => exact m.step_performs.trans (ih m.step.1)

end Machine

end DotMatrix
