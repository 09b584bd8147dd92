import DotMatrix.Proofs.Processor.Destinations

/-!
# Forms of one operation

An operation is one thing and its operand another: the byte may be in a register, in memory at HL,
or behind the opcode, and each of these forms has opcodes of its own. The forms of an operation do
the same to the byte and to the flags, whatever else is in the two machines.

* `Arithmetic.bytes`, `CellOperation.bytes`, `Rotation.bytes`: the bytes of each form;
* `decode_arithmetic` and the like: the processor reads them as that form;
* `Machine.ExecutesBytes`: a step that executes the instruction with these bytes;
* `Cell.Holds`: the byte is in the cell;
* `cell_outcome`: what a step leaves in a cell, and that it changes nothing else;
* `forms_agree`: the same byte and flags before, the same byte and flags after.
-/

namespace DotMatrix

/-! ### The bytes of an instruction -/

/-- The field that names a cell. -/
def Cell.field : Cell → UInt8
  | .register .b => 0
  | .register .c => 1
  | .register .d => 2
  | .register .e => 3
  | .register .h => 4
  | .register .l => 5
  | .atHL => 6
  | .register .a => 7

/-- The field that names an operation on A. -/
def Arithmetic.field : Arithmetic → UInt8
  | .add => 0
  | .adc => 1
  | .sub => 2
  | .sbc => 3
  | .and => 4
  | .xor => 5
  | .or => 6
  | .cp => 7

/-- The field that names a rotation. -/
def Rotation.field : Rotation → UInt8
  | .rlc => 0
  | .rrc => 1
  | .rl => 2
  | .rr => 3

/-- The field that names an operation of the second set. -/
def BitOperation.field : BitOperation → UInt8
  | .rotate r => r.field
  | .shiftLeft => 4
  | .shiftRightSigned => 5
  | .swap => 6
  | .shiftRight => 7
  | .test n => 8 + UInt8.ofNat n
  | .reset n => 16 + UInt8.ofNat n
  | .set n => 24 + UInt8.ofNat n

/-- The bytes of an operation on A and an operand. The immediate operand is `n`. -/
def Arithmetic.bytes (op : Arithmetic) (right : Operand) (n : UInt8) : List UInt8 :=
  match right with
  | .cell c => [0x80 + 8 * op.field + c.field]
  | .immediate => [0xC6 + 8 * op.field, n]

/-- The byte of a rotation of A. -/
def Rotation.bytes (r : Rotation) : List UInt8 := [0x07 + 8 * r.field]

/-- What can be done with the byte in a cell. -/
inductive CellOperation
  | increment
  | decrement
  | bits (op : BitOperation)

namespace CellOperation

/-- The bytes of an operation on a cell. -/
def bytes (o : CellOperation) (c : Cell) : List UInt8 :=
  match o with
  | increment => [0x04 + 8 * c.field]
  | decrement => [0x05 + 8 * c.field]
  | bits op => [0xCB, 8 * op.field + c.field]

/-- Does the operation write the byte back? -/
def writesBack : CellOperation → Bool
  | bits (.test _) => false
  | _ => true

/-- The byte to write back, if any, and the flags. -/
def outcome (o : CellOperation) (n : UInt8) (f : Flags) : Option UInt8 × Flags :=
  match o with
  | increment => ((Alu.increment n f).1, (Alu.increment n f).2)
  | decrement => ((Alu.decrement n f).1, (Alu.decrement n f).2)
  | bits op => Alu.bitOperation op n f

theorem isSome_outcome (o : CellOperation) (n : UInt8) (f : Flags) :
    (o.outcome n f).1.isSome = o.writesBack := by
  rcases o with _ | _ | op
  case bits => cases op <;> rfl
  all_goals rfl

end CellOperation

namespace Instruction

theorem decode_arithmetic (op : Arithmetic) (c : Cell) :
    decode (0x80 + 8 * op.field + c.field) = .arithmetic op (.cell c) := by
  rcases c with r | _
  case register => cases op <;> cases r <;> decide
  case atHL => cases op <;> decide

theorem decode_arithmetic_immediate (op : Arithmetic) :
    decode (0xC6 + 8 * op.field) = .arithmetic op .immediate := by
  cases op <;> decide

theorem decode_increment (c : Cell) : decode (0x04 + 8 * c.field) = .increment c := by
  rcases c with r | _
  case register => cases r <;> decide
  case atHL => decide

theorem decode_decrement (c : Cell) : decode (0x05 + 8 * c.field) = .decrement c := by
  rcases c with r | _
  case register => cases r <;> decide
  case atHL => decide

theorem decode_rotateA (r : Rotation) : decode (0x07 + 8 * r.field) = .rotateA r := by
  cases r <;> decide

end Instruction

/-- The fields of a second opcode byte are read back. -/
theorem Extended.decode_fields (op : BitOperation) (c : Cell) :
    decode (8 * op.field + c.field) = ⟨op, c⟩ := by
  have all : ∀ n : Fin 8,
      decode (8 * (BitOperation.test n).field + c.field) = ⟨.test n, c⟩ ∧
      decode (8 * (BitOperation.reset n).field + c.field) = ⟨.reset n, c⟩ ∧
      decode (8 * (BitOperation.set n).field + c.field) = ⟨.set n, c⟩ := by
    rcases c with r | _
    case register => cases r <;> decide
    case atHL => decide
  cases op with
  | test n => exact (all n).1
  | reset n => exact (all n).2.1
  | set n => exact (all n).2.2
  | rotate rotation =>
    rcases c with r | _
    case register => cases rotation <;> cases r <;> decide
    case atHL => cases rotation <;> decide
  | _ =>
    rcases c with r | _
    case register => cases r <;> decide
    case atHL => decide

namespace Machine

variable {m : Machine}

/-! ### Executing bytes -/

/-- The next bytes at PC, each read a machine cycle after the one before it. -/
def fetched : Nat → Machine → List UInt8
  | 0, _ => []
  | n + 1, m => m.fetch.1 :: fetched n m.fetch.2

/-- The processor executes the instruction with these bytes, and serves no interrupt after it. -/
structure ExecutesBytes (m : Machine) (bytes : List UInt8) : Prop where
  running : m.cpu.halted = false
  fetched_eq : m.fetched bytes.length = bytes
  unserved (source : Interrupt) : .acknowledge source ∉ m.stepAccesses

instance (m : Machine) (bytes : List UInt8) : Decidable (m.ExecutesBytes bytes) :=
  decidable_of_iff (m.cpu.halted = false ∧ m.fetched bytes.length = bytes ∧
      ∀ source ∈ Interrupt.all, .acknowledge source ∉ m.stepAccesses)
    ⟨fun ⟨hrun, hbytes, h⟩ => ⟨hrun, hbytes, fun source => h source (by cases source <;> decide)⟩,
      fun h => ⟨h.running, h.fetched_eq, fun source _ => h.unserved source⟩⟩

theorem ExecutesBytes.executes {b : UInt8} {bs : List UInt8} {i : Instruction}
    (h : m.ExecutesBytes (b :: bs)) (hb : .decode b = i) : m.Executes i where
  running := h.running
  decode_eq := (congrArg Instruction.decode (List.cons.inj h.fetched_eq).1).trans hb
  unserved := h.unserved

theorem ExecutesBytes.second_eq {b₁ b₂ : UInt8} (h : m.ExecutesBytes [b₁, b₂]) : m.second = b₂ :=
  (List.cons.inj (List.cons.inj h.fetched_eq).2).1

end Machine

/-! ### The byte in a cell -/

/-- The byte is in the cell. A cell in memory lies in work RAM or high RAM. -/
def Cell.Holds (c : Cell) (n : UInt8) (m : Machine) : Prop :=
  match c with
  | .register r => m.cpu.registers.byte r = n
  | .atHL =>
    (Location.ofAddress m.cpu.registers.hl).IsRam ∧ m.bus.read m.cpu.registers.hl = n

/-- The byte is the operand's. An immediate operand is one of the bytes of the instruction. -/
def Operand.Holds (right : Operand) (n : UInt8) (m : Machine) : Prop :=
  match right with
  | .cell c => c.Holds n m
  | .immediate => True

namespace Cell

variable {m m' : Machine} {c : Cell} {n : UInt8}

theorem not_mem_registers {r : ByteRegister} (h : c ≠ .register r) : r ∉ c.registers := by
  cases c with
  | register r' => exact fun hr => h (congrArg register (List.mem_singleton.1 hr).symm)
  | atHL => exact List.not_mem_nil

theorem Holds.congr (h : c.Holds n m) (hregisters : m'.cpu.registers = m.cpu.registers)
    (hbus : m'.bus = m.bus) : c.Holds n m' := by
  unfold Holds
  rw [hregisters, hbus]
  exact h

theorem Holds.cycle (h : c.Holds n m) : c.Holds n m.cycle := by
  cases c with
  | register r => exact h
  | atHL => exact ⟨h.1, (Bus.readAt_cycle _ h.1).trans h.2⟩

theorem Holds.fetch (h : c.Holds n m) : c.Holds n m.fetch.2 := by
  cases c with
  | register r => exact h
  | atHL => exact h.cycle

theorem Holds.setFlags (h : c.Holds n m) (f : Flags) : c.Holds n (m.setFlags f) := by
  cases c with
  | register r => exact h
  | atHL => exact h

theorem Holds.readCell (h : c.Holds n m) : (m.readCell c).1 = n ∧ c.Holds n (m.readCell c).2 := by
  cases c with
  | register r => exact ⟨h, h⟩
  | atHL => exact ⟨h.2, h.cycle⟩

theorem Holds.writeCell (h : c.Holds n m) (v : UInt8) : c.Holds v (m.writeCell c v) := by
  cases c with
  | register r => exact Registers.byte_setByte_self _ r v
  | atHL => exact ⟨h.1, (Bus.readAt_cycle _ h.1).trans (Bus.readAt_write_self _ v h.1)⟩

end Cell

namespace CellOperation

variable {m : Machine} {c : Cell} {n : UInt8}

/-- The operation on a cell, when its bytes have been fetched. -/
def execute (o : CellOperation) (c : Cell) (m : Machine) : Machine :=
  match o with
  | increment => m.count Alu.increment c
  | decrement => m.count Alu.decrement c
  | bits op => m.executeExtended ⟨op, c⟩

/-- The accesses of the operation. -/
def accesses (o : CellOperation) (c : Cell) (m : Machine) : List Access :=
  match o with
  | increment => m.counting Alu.increment c
  | decrement => m.counting Alu.decrement c
  | bits op => m.extendedAccesses ⟨op, c⟩

/-- Read the cell, set the flags, and write the cell if there is something to write. -/
theorem execute_eq (o : CellOperation) (h : c.Holds n m) :
    let m₁ := (m.readCell c).2.setFlags (o.outcome n m.cpu.registers.flags).2
    o.execute c m = (o.outcome n m.cpu.registers.flags).1.elim m₁ (m₁.writeCell c) := by
  have hread := h.readCell.1
  have hregisters : (m.readCell c).2.cpu.registers = m.cpu.registers := Machine.readCell_registers c
  cases o with
  | increment | decrement =>
    unfold execute Machine.count
    dsimp only
    rw [hregisters, hread]
    rfl
  | bits op =>
    unfold execute Machine.executeExtended outcome
    dsimp only
    rw [hregisters, hread]
    cases (Alu.bitOperation op n m.cpu.registers.flags).1 <;> rfl

theorem accesses_eq (o : CellOperation) (h : c.Holds n m) :
    o.accesses c m = c.reading ++ (o.outcome n m.cpu.registers.flags).1.elim [] (m.writing c) := by
  have hread := h.readCell.1
  cases o with
  | increment | decrement =>
    unfold accesses Machine.counting
    rw [hread]
    rfl
  | bits op =>
    unfold accesses Machine.extendedAccesses outcome
    dsimp only
    rw [hread]
    cases (Alu.bitOperation op n m.cpu.registers.flags).1 <;> rfl

/-- **What an operation leaves in a cell and in the flags.** -/
theorem execute_holds (o : CellOperation) (h : c.Holds n m) :
    c.Holds ((o.outcome n m.cpu.registers.flags).1.getD n) (o.execute c m) ∧
      (o.execute c m).cpu.registers.flags = (o.outcome n m.cpu.registers.flags).2 := by
  have hset (f : Flags) : c.Holds n ((m.readCell c).2.setFlags f) := h.readCell.2.setFlags f
  rw [o.execute_eq h]
  cases (o.outcome n m.cpu.registers.flags).1 with
  | none => exact ⟨hset _, rfl⟩
  | some v => exact ⟨(hset _).writeCell v, (Machine.writeCell_changes c v).flags_eq⟩

theorem execute_changes (o : CellOperation) :
    ∃ w, Machine.Changes w c.registers false m (o.execute c m) := by
  cases o with
  | increment => exact ⟨_, Machine.count_changes (f := Alu.increment) (fun _ _ => rfl) c⟩
  | decrement => exact ⟨_, Machine.count_changes (f := Alu.decrement) (fun _ _ => rfl) c⟩
  | bits op =>
    exact ⟨_, (Machine.executeExtended_changes ⟨op, c⟩).mono (Extended.destinations_subset _)⟩

/-- What is written on the bus is what has been written to the cell. -/
theorem write_mem_accesses (o : CellOperation) (h : c.Holds n m) {a : UInt16} {v : UInt8} :
    .write a v ∈ o.accesses c m ↔ o.writesBack = true ∧ c = .atHL ∧ a = m.cpu.registers.hl ∧
      v = (o.outcome n m.cpu.registers.flags).1.getD n := by
  rw [o.accesses_eq h, ← o.isSome_outcome n m.cpu.registers.flags]
  generalize (o.outcome n m.cpu.registers.flags).1 = result?
  cases c <;> cases result? <;> simp [Cell.reading, Machine.writing]

end CellOperation

namespace Machine

variable {m m' : Machine} {c : Cell} {o : CellOperation} {n : UInt8}

/-! ### Steps -/

/-- **What arithmetic makes of A and the flags**, in every form. -/
theorem arithmetic_outcome {op : Arithmetic} {right : Operand}
    (h : m.ExecutesBytes (op.bytes right n)) (hright : right.Holds n m) :
    let outcome := Alu.arithmetic op m.cpu.registers.a n m.cpu.registers.flags
    m.step.2 = none ∧ m.step.1.cpu.registers.a = outcome.1 ∧
      m.step.1.cpu.registers.flags = outcome.2 := by
  have hexecutes : m.Executes (.arithmetic op right) ∧ (m.fetch.2.readOperand right).1 = n := by
    cases right with
    | cell c =>
      exact ⟨h.executes (Instruction.decode_arithmetic op c), (Cell.Holds.fetch hright).readCell.1⟩
    | immediate => exact ⟨h.executes (Instruction.decode_arithmetic_immediate op), h.second_eq⟩
  have hresult := combine_result (m := m.fetch.2) op right
  rw [hexecutes.2] at hresult
  rw [hexecutes.1.step_eq (by simp) (by simp)]
  exact ⟨rfl, hresult⟩

/-- When the bytes of an operation on a cell have been fetched, the step is that operation. -/
theorem ExecutesBytes.cellOperation (h : m.ExecutesBytes (o.bytes c)) (hc : c.Holds n m) :
    ∃ m₁ k, Changes .keep [] false m m₁ ∧ c.Holds n m₁ ∧
      m.step = ({ o.execute c m₁ with
        cpu := (o.execute c m₁).cpu.countDelay m.cpu.enableDelay }, none) ∧
      m.stepAccesses = List.replicate k .quiet ++ o.accesses c m₁ := by
  cases o with
  | increment =>
    have hexecutes := h.executes (Instruction.decode_increment c)
    exact ⟨m.fetch.2, 1, fetch_changes, hc.fetch, hexecutes.step_eq (by simp) (by simp),
      hexecutes.stepAccesses_eq (by simp) (by simp)⟩
  | decrement =>
    have hexecutes := h.executes (Instruction.decode_decrement c)
    exact ⟨m.fetch.2, 1, fetch_changes, hc.fetch, hexecutes.step_eq (by simp) (by simp),
      hexecutes.stepAccesses_eq (by simp) (by simp)⟩
  | bits op =>
    -- The second byte names the operation and the cell, and is fetched before the cell is read.
    have hexecutes : m.Executes .extended := h.executes rfl
    have hdecode : Extended.decode m.fetch.2.fetch.1 = ⟨op, c⟩ :=
      (congrArg Extended.decode h.second_eq).trans (Extended.decode_fields op c)
    have hexecute : m.fetch.2.execute .extended =
        (CellOperation.bits op).execute c m.fetch.2.fetch.2 :=
      congrArg m.fetch.2.fetch.2.executeExtended hdecode
    have haccesses : m.fetch.2.accesses .extended =
        .quiet :: (CellOperation.bits op).accesses c m.fetch.2.fetch.2 :=
      congrArg (fun x => Access.quiet :: m.fetch.2.fetch.2.extendedAccesses x) hdecode
    refine ⟨m.fetch.2.fetch.2, 2, fetch_changes.trans fetch_changes, hc.fetch.fetch, ?_, ?_⟩
    · rw [hexecutes.step_eq (by simp) (by simp), ← hexecute]
      rfl
    · rw [hexecutes.stepAccesses_eq (by simp) (by simp), haccesses]
      rfl

/-- **What a step of an operation on a cell leaves**: its byte in the cell, its flags, and all else
as it was. On the bus only that byte is written, if the cell is in memory. -/
theorem cell_outcome (h : m.ExecutesBytes (o.bytes c)) (hc : c.Holds n m) :
    m.step.2 = none ∧
    c.Holds ((o.outcome n m.cpu.registers.flags).1.getD n) m.step.1 ∧
    m.step.1.cpu.registers.flags = (o.outcome n m.cpu.registers.flags).2 ∧
    (∀ r, c ≠ .register r → m.step.1.cpu.registers.byte r = m.cpu.registers.byte r) ∧
    m.step.1.cpu.registers.sp = m.cpu.registers.sp ∧
    ∀ a v, .write a v ∈ m.stepAccesses ↔ o.writesBack = true ∧ c = .atHL ∧
      a = m.cpu.registers.hl ∧ v = (o.outcome n m.cpu.registers.flags).1.getD n := by
  obtain ⟨m₁, k, hfetched, hc₁, hstep, haccesses⟩ := h.cellOperation hc
  obtain ⟨w, hchanges⟩ := o.execute_changes (m := m₁) (c := c)
  obtain ⟨hholds, hflags⟩ := o.execute_holds hc₁
  have hf : m₁.cpu.registers.flags = m.cpu.registers.flags := hfetched.flags_eq
  have hhl : m₁.cpu.registers.hl = m.cpu.registers.hl :=
    congrArg₂ Word.ofBytes (hfetched.byte_eq .h List.not_mem_nil)
      (hfetched.byte_eq .l List.not_mem_nil)
  rw [hf] at hholds hflags
  rw [hstep]
  refine ⟨rfl, ?_, hflags, fun r hr => ?_, ?_, fun a v => ?_⟩
  · exact hholds.congr rfl rfl
  · exact (hchanges.byte_eq r (Cell.not_mem_registers hr)).trans
      (hfetched.byte_eq r List.not_mem_nil)
  · exact (hchanges.sp_eq rfl).trans (hfetched.sp_eq rfl)
  · have hquiet : .write a v ∉ List.replicate k Access.quiet := by simp
    rw [haccesses, List.mem_append, or_iff_right hquiet, o.write_mem_accesses hc₁, hf, hhl]

/-- A rotation of A. -/
theorem rotation_outcome {r : Rotation} (h : m.ExecutesBytes r.bytes) :
    let outcome := Alu.rotateA r m.cpu.registers.a m.cpu.registers.flags
    m.step.2 = none ∧ m.step.1.cpu.registers.a = outcome.1 ∧
      m.step.1.cpu.registers.flags = outcome.2 := by
  rw [(h.executes (Instruction.decode_rotateA r)).step_eq (by simp) (by simp)]
  exact ⟨rfl, rfl, rfl⟩

/-- **The forms of an operation agree.** Take two machines, each at an instruction that it executes
and after which it serves no interrupt. If the instructions are the same operation on A and a second
byte, in whatever forms, and A, the second byte and the flags are the same, then so are A and the
flags afterwards. If they are the same operation on a cell, in whatever cells, counting it or one of
the second set, and the byte and the flags are the same, then so are the byte and the flags
afterwards; the other registers and SP are as they were, and on the bus nothing is written but the
byte to its cell, if the operation writes it back and the cell is in memory. If one is a rotation of
A and the other the same rotation of the second set, then A and all flags but the zero flag are the
same afterwards, and the first has cleared the zero flag. -/
theorem forms_agree (m m' : Machine) :
    (∀ (op : Arithmetic) (right right' : Operand) (n : UInt8),
      m.ExecutesBytes (op.bytes right n) → m'.ExecutesBytes (op.bytes right' n) →
      right.Holds n m → right'.Holds n m' → m'.cpu.registers.a = m.cpu.registers.a →
      m'.cpu.registers.flags = m.cpu.registers.flags →
      m.step.2 = none ∧ m'.step.2 = none ∧
        m'.step.1.cpu.registers.a = m.step.1.cpu.registers.a ∧
        m'.step.1.cpu.registers.flags = m.step.1.cpu.registers.flags) ∧
    (∀ (o : CellOperation) (c c' : Cell) (n : UInt8),
      m.ExecutesBytes (o.bytes c) → m'.ExecutesBytes (o.bytes c') →
      c.Holds n m → c'.Holds n m' → m'.cpu.registers.flags = m.cpu.registers.flags →
      m.step.2 = none ∧ m'.step.2 = none ∧
        m'.step.1.cpu.registers.flags = m.step.1.cpu.registers.flags ∧
        ∃ result, c.Holds result m.step.1 ∧ c'.Holds result m'.step.1 ∧
          (o.writesBack = false → result = n) ∧
          (∀ r, c ≠ .register r → m.step.1.cpu.registers.byte r = m.cpu.registers.byte r) ∧
          m.step.1.cpu.registers.sp = m.cpu.registers.sp ∧
          m.step.1.bus = m.bus.perform m.stepAccesses ∧
          ∀ a v, .write a v ∈ m.stepAccesses ↔
            o.writesBack = true ∧ c = .atHL ∧ a = m.cpu.registers.hl ∧ v = result) ∧
    ∀ r : Rotation, m.ExecutesBytes r.bytes →
      m'.ExecutesBytes ((CellOperation.bits (.rotate r)).bytes (.register .a)) →
      m'.cpu.registers.a = m.cpu.registers.a → m'.cpu.registers.flags = m.cpu.registers.flags →
      m.step.2 = none ∧ m'.step.2 = none ∧
        m'.step.1.cpu.registers.a = m.step.1.cpu.registers.a ∧
        (∀ flag, flag ≠ .zero → m'.step.1.cpu.registers.flags.get flag =
          m.step.1.cpu.registers.flags.get flag) ∧
        m.step.1.cpu.registers.flags.zero = false := by
  refine ⟨fun op right right' n h h' hright hright' ha hf => ?_,
    fun o c c' n h h' hc hc' hf => ?_, fun r h h' ha hf => ?_⟩
  · obtain ⟨hfine, hresult, hflags⟩ := arithmetic_outcome h hright
    obtain ⟨hfine', hresult', hflags'⟩ := arithmetic_outcome h' hright'
    rw [ha, hf] at hresult' hflags'
    exact ⟨hfine, hfine', hresult'.trans hresult.symm, hflags'.trans hflags.symm⟩
  · obtain ⟨hfine, hresult, hflags, hbytes, hsp, hwrites⟩ := cell_outcome h hc
    obtain ⟨hfine', hresult', hflags', -⟩ := cell_outcome h' hc'
    rw [hf] at hresult' hflags'
    refine ⟨hfine, hfine', hflags'.trans hflags.symm, _, hresult, hresult', fun hnot => ?_, hbytes,
      hsp, m.step_performs.bus_eq, hwrites⟩
    rw [← o.isSome_outcome n m.cpu.registers.flags, Option.isSome_eq_false_iff,
      Option.isNone_iff_eq_none] at hnot
    rw [hnot, Option.getD_none]
  · obtain ⟨hfine, hresult, hflags⟩ := rotation_outcome h
    obtain ⟨hfine', hresult', hflags', -⟩ := cell_outcome (n := m.cpu.registers.a) h' ha
    rw [hf] at hresult' hflags'
    refine ⟨hfine, hfine', hresult'.trans hresult.symm, fun flag hflag => ?_, ?_⟩
    · rw [hflags, hflags']
      cases flag with
      | zero => exact absurd rfl hflag
      | _ => rfl
    · rw [hflags]
      rfl

/-- A program that starts with these bytes, with HL at the first of them and A and B as given. -/
def atOwnProgram (a b : UInt8) (program : List UInt8) : Machine :=
  ofProgram { Registers.powerOn with a, b, h := 0xFF, l := 0x80 } program

/-- `ADC A,(HL)` and `ADC A,8E` add the same byte; `INC (HL)` in memory and `INC B` in a register
count the same byte; `RLCA` and `RLC A` rotate alike. -/
theorem forms_agree_in_programs :
    (let m := atOwnProgram 0x12 0x00 [0x8E]
     let m' := atOwnProgram 0x12 0x34 [0xCE, 0x8E]
     m'.step.1.cpu.registers.a = m.step.1.cpu.registers.a) ∧
    (let m := atOwnProgram 0x12 0x00 [0x34]
     let m' := atOwnProgram 0x56 0x34 [0x04]
     m'.step.1.cpu.registers.flags = m.step.1.cpu.registers.flags ∧
      ∃ v, .write 0xFF80 v ∈ m.stepAccesses ∧ m'.step.1.cpu.registers.b = v) ∧
    (let m := atOwnProgram 0x85 0x00 [0x07]
     let m' := atOwnProgram 0x85 0x00 [0xCB, 0x07]
     m'.step.1.cpu.registers.a = m.step.1.cpu.registers.a ∧
      m.step.1.cpu.registers.flags.zero = false) := by
  refine ⟨?_, ?_, ?_⟩
  · intro m m'
    have hforms := (forms_agree m m').1 .adc (.cell .atHL) .immediate 0x8E
      (by decide +kernel) (by decide +kernel) ⟨by decide +kernel, by decide +kernel⟩ trivial rfl rfl
    exact hforms.2.2.1
  · intro m m'
    obtain ⟨-, -, hflags, v, -, hv, -, -, -, -, hwrites⟩ := (forms_agree m m').2.1 .increment .atHL
      (.register .b) 0x34 (by decide +kernel) (by decide +kernel)
      ⟨by decide +kernel, by decide +kernel⟩ rfl rfl
    exact ⟨hflags, v, (hwrites 0xFF80 v).2 ⟨rfl, rfl, by decide +kernel, rfl⟩, hv⟩
  · intro m m'
    have hforms := (forms_agree m m').2.2 .rlc (by decide +kernel) (by decide +kernel) rfl rfl
    exact ⟨hforms.2.2.1, hforms.2.2.2.2⟩

end Machine

end DotMatrix
