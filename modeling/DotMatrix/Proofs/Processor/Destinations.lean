import DotMatrix.Proofs.Processor.Columns
import DotMatrix.Proofs.Processor.Control
import DotMatrix.Proofs.Processor.Stack

/-!
# What an instruction may change

An instruction names the registers that it changes, and has its own way with the flags. The other
registers and flags stay as they are, and serving an interrupt changes PC and SP alone. Register F
holds the flags in its upper half. An instruction reaches single bits of it, or loads all of the
upper half, so the lower half stays zero.

* `FlagWrite`: what happens to the flags, and to the byte in F;
* `Instruction.keeps`, `destinations`, `movesSP`: what an instruction leaves alone and what not;
* `execute_changes`, `step_changes`: an instruction and a step change no more than that;
* `flagByte`: the byte in F along a run;
* `only_destinations_change`: which registers and flags a step leaves alone.
-/

namespace DotMatrix

/-! ### Flags in a byte -/

/-- The names of the flags. -/
inductive Flag
  | zero | subtract | halfCarry | carry
  deriving DecidableEq, Repr

/-- The bit of a flag in F. -/
def Flag.place : Flag → Nat
  | zero => 7
  | subtract => 6
  | halfCarry => 5
  | carry => 4

/-- Switch bit `n` on or off, if a value is given. -/
def Byte.assign (b : UInt8) (n : Nat) (on? : Option Bool) : UInt8 := on?.elim b (withBit b n)

namespace Flags

/-- A flag by its name. -/
def get (f : Flags) : Flag → Bool
  | .zero => f.zero
  | .subtract => f.subtract
  | .halfCarry => f.halfCarry
  | .carry => f.carry

/-- Change one flag, if a value is given. -/
def assign (f : Flags) (flag : Flag) (on? : Option Bool) : Flags :=
  match flag with
  | .zero => { f with zero := on?.getD f.zero }
  | .subtract => { f with subtract := on?.getD f.subtract }
  | .halfCarry => { f with halfCarry := on?.getD f.halfCarry }
  | .carry => { f with carry := on?.getD f.carry }

theorem update_eq_assign (f : Flags) (zero subtract halfCarry carry : Option Bool) :
    f.update zero subtract halfCarry carry =
      (((f.assign .zero zero).assign .subtract subtract).assign .halfCarry halfCarry).assign .carry
        carry :=
  rfl

theorem toByte_assign (f : Flags) (flag : Flag) (on? : Option Bool) :
    (f.assign flag on?).toByte = Byte.assign f.toByte flag.place on? := by
  rcases f with ⟨_ | _, _ | _, _ | _, _ | _⟩ <;> cases flag <;> rcases on? with _ | _ | _ <;>
    decide

theorem toByte_ofByte (b : UInt8) : (ofByte b).toByte = b &&& 0xF0 :=
  Byte.forall_of_fin (by decide +kernel) b

theorem toByte_low_half (f : Flags) : f.toByte &&& 0x0F = 0 := by
  rcases f with ⟨_ | _, _ | _, _ | _, _ | _⟩ <;> decide

/-- A byte whose lower half is zero is that of its flags. -/
theorem toByte_ofByte_of_low_half {b : UInt8} (h : b &&& 0x0F = 0) : (ofByte b).toByte = b := by
  have hupper : b &&& 0x0F = 0 → b &&& 0xF0 = b := Byte.forall_of_fin (by decide +kernel) b
  rw [toByte_ofByte, hupper h]

end Flags

/-- What happens to the flags. -/
inductive FlagWrite
  /-- Flags for which a value is given change to it. -/
  | update (zero subtract halfCarry carry : Option Bool)
  /-- The flags are loaded from a byte. -/
  | load (b : UInt8)

namespace FlagWrite

/-- Nothing. -/
def keep : FlagWrite := update none none none none

/-- All flags change. -/
def all (f : Flags) : FlagWrite :=
  update (some f.zero) (some f.subtract) (some f.halfCarry) (some f.carry)

/-- The flags afterwards. -/
def apply (w : FlagWrite) (f : Flags) : Flags :=
  match w with
  | update zero subtract halfCarry carry => f.update zero subtract halfCarry carry
  | load b => .ofByte b

/-- The byte in F afterwards: the bits of the flags are changed one by one, and a byte that is
loaded loses its lower half. -/
def onByte (w : FlagWrite) (f : UInt8) : UInt8 :=
  match w with
  | update zero subtract halfCarry carry =>
    Byte.assign (Byte.assign (Byte.assign (Byte.assign f Flag.zero.place zero)
      Flag.subtract.place subtract) Flag.halfCarry.place halfCarry) Flag.carry.place carry
  | load b => b &&& 0xF0

/-- Does a flag stay as it is? -/
def keeps (w : FlagWrite) (flag : Flag) : Bool :=
  match w, flag with
  | update zero _ _ _, .zero => zero.isNone
  | update _ subtract _ _, .subtract => subtract.isNone
  | update _ _ halfCarry _, .halfCarry => halfCarry.isNone
  | update _ _ _ carry, .carry => carry.isNone
  | load _, _ => false

variable {w : FlagWrite}

/-- The byte in F is that of the flags. -/
theorem toByte_apply (w : FlagWrite) (f : Flags) : (w.apply f).toByte = w.onByte f.toByte := by
  cases w with
  | update zero subtract halfCarry carry =>
    rw [apply, Flags.update_eq_assign, onByte]
    simp only [Flags.toByte_assign]
  | load b => exact Flags.toByte_ofByte b

theorem get_apply {flag : Flag} (h : w.keeps flag = true) (f : Flags) :
    (w.apply f).get flag = f.get flag := by
  cases w with
  | update zero subtract halfCarry carry =>
    cases flag <;> exact congrArg (Option.getD · _) (Option.isNone_iff_eq_none.1 h)
  | load b => cases h

end FlagWrite

/-! ### What an instruction names -/

/-- The flags that an operation of the second set keeps. -/
def BitOperation.keeps (flag : Flag) : BitOperation → Bool
  | .test _ => flag == .carry
  | .reset _ | .set _ => true
  | _ => false

/-- The register that arithmetic changes; comparing changes none. -/
def Arithmetic.destinations : Arithmetic → List ByteRegister
  | .cp => []
  | _ => [.a]

/-- The register that a cell is, if it is one. -/
def Cell.registers : Cell → List ByteRegister
  | .register r => [r]
  | .atHL => []

/-- The halves of a pair. -/
def PairRegister.halves : PairRegister → List ByteRegister
  | .bc => [.b, .c]
  | .de => [.d, .e]
  | .hl => [.h, .l]
  | .sp => []

/-- The registers that come off the stack, the flags apart. -/
def StackRegister.halves : StackRegister → List ByteRegister
  | .bc => [.b, .c]
  | .de => [.d, .e]
  | .hl => [.h, .l]
  | .af => [.a]

/-- The registers that a pointer counts. -/
def Pointer.counted : Pointer → List ByteRegister
  | .hlUp | .hlDown => [.h, .l]
  | _ => []

/-- The register that an instruction of the second set changes, if it changes one. -/
def Extended.destinations (x : Extended) : List ByteRegister :=
  match x.operation with
  | .test _ => []
  | _ => x.target.registers

theorem Extended.destinations_subset (x : Extended) : x.destinations ⊆ x.target.registers := by
  unfold destinations
  split
  · exact List.nil_subset _
  · exact List.Subset.refl _

namespace Instruction

/-- Does an instruction keep a flag? Those of the second set are told apart by the byte after the
opcode. -/
def keeps (second : UInt8) (flag : Flag) : Instruction → Bool
  | .increment _ | .decrement _ => flag == .carry
  | .addToHL _ | .setCarry | .complementCarry => flag == .zero
  | .complementA => flag == .zero || flag == .carry
  | .decimalAdjust => flag == .subtract
  | .extended => (Extended.decode second).operation.keeps flag
  | .unused | .nop | .halt | .stop | .disableInterrupts | .enableInterrupts | .jumpRelative _
  | .jump _ | .jumpToHL | .call _ | .ret _ | .returnFromInterrupt | .restart _ => true
  | i => i.isMove

/-- The 8-bit registers that an instruction changes. -/
def destinations (second : UInt8) : Instruction → List ByteRegister
  | .load dst _ => [dst]
  | .loadA src => src.counted ++ [.a]
  | .storeA dst => dst.counted
  | .loadPair p | .incrementPair p | .decrementPair p => p.halves
  | .loadHLFromSP | .addToHL _ => [.h, .l]
  | .pop dst => dst.halves
  | .arithmetic op _ => op.destinations
  | .rotateA _ | .decimalAdjust | .complementA => [.a]
  | .increment c | .decrement c => c.registers
  | .extended => (Extended.decode second).destinations
  | _ => []

/-- Does an instruction move the stack? -/
def movesSP : Instruction → Bool
  | .loadPair p | .incrementPair p | .decrementPair p => p == .sp
  | .loadSPFromHL | .addToSP | .push _ | .pop _ | .call _ | .ret _ | .returnFromInterrupt
  | .restart _ => true
  | _ => false

end Instruction

namespace Registers

variable (regs : Registers) {r : ByteRegister}

theorem byte_setByte {name : ByteRegister} (h : r ≠ name) (v : UInt8) :
    (regs.setByte name v).byte r = regs.byte r := by
  cases name <;> cases r <;> first | rfl | exact absurd rfl h

theorem byte_setByte_self (name : ByteRegister) (v : UInt8) :
    (regs.setByte name v).byte name = v := by
  cases name <;> rfl

theorem byte_setPair {p : PairRegister} (h : r ∉ p.halves) (w : UInt16) :
    (regs.setPair p w).byte r = regs.byte r := by
  cases p <;> cases r <;> first | rfl | exact absurd (by decide) h

theorem byte_setStacked {p : StackRegister} (h : r ∉ p.halves) (w : UInt16) :
    (regs.setStacked p w).byte r = regs.byte r := by
  cases p <;> cases r <;> first | rfl | exact absurd (by decide) h

theorem setByte_sp (name : ByteRegister) (v : UInt8) : (regs.setByte name v).sp = regs.sp := by
  cases name <;> rfl

theorem setPair_sp {p : PairRegister} (h : (p == .sp) = false) (w : UInt16) :
    (regs.setPair p w).sp = regs.sp := by
  cases p with
  | sp => cases h
  | _ => rfl

end Registers

/-- What an instruction of the second set does to the flags, if its cell holds `n`. -/
def Extended.flagWrite (x : Extended) (n : UInt8) (f : Flags) : FlagWrite :=
  let result := (Alu.bitOperation x.operation n f).2
  match x.operation with
  | .test _ => .update (some result.zero) (some result.subtract) (some result.halfCarry) none
  | .reset _ | .set _ => .keep
  | _ => .all result

namespace Machine

variable {m m₁ m' : Machine} {i : Instruction}

/-! ### What an instruction does -/

/-- What counting does to the flags. -/
def countFlagWrite (m : Machine) (f : UInt8 → Flags → UInt8 × Flags) (c : Cell) : FlagWrite :=
  let result := (f (m.readCell c).1 m.cpu.registers.flags).2
  .update (some result.zero) (some result.subtract) (some result.halfCarry) none

/-- What an instruction does to the flags. The machine is the one that it begins with, its opcode
being fetched. -/
def flagWrite (m : Machine) (i : Instruction) : FlagWrite :=
  let r := m.cpu.registers
  match i with
  | .loadHLFromSP | .addToSP => .all m.displacedSP.1.2
  | .pop .af => .load (Word.low m.pop.1)
  | .arithmetic op right => .all (Alu.arithmetic op r.a (m.readOperand right).1 r.flags).2
  | .increment c => m.countFlagWrite Alu.increment c
  | .decrement c => m.countFlagWrite Alu.decrement c
  | .addToHL p =>
    let result := (Alu.addWords r.hl (r.pair p) r.flags).2
    .update none (some result.subtract) (some result.halfCarry) (some result.carry)
  | .rotateA rotation => .all (Alu.rotateA rotation r.a r.flags).2
  | .decimalAdjust =>
    let result := (Alu.decimalAdjust r.a r.flags).2
    .update (some result.zero) none (some result.halfCarry) (some result.carry)
  | .complementA => .update none (some true) (some true) none
  | .setCarry => .update none (some false) (some false) (some true)
  | .complementCarry => .update none (some false) (some false) (some !r.flags.carry)
  | .extended =>
    let x := Extended.decode m.fetch.1
    x.flagWrite (m.fetch.2.readCell x.target).1 r.flags
  | _ => .keep

/-- From `m` to `m'` the flags have been written so, and no register has changed but PC, those
named, and SP if it may move. -/
structure Changes (w : FlagWrite) (named : List ByteRegister) (moves : Bool) (m m' : Machine) :
    Prop where
  flags_eq : m'.cpu.registers.flags = w.apply m.cpu.registers.flags
  byte_eq (r : ByteRegister) : r ∉ named → m'.cpu.registers.byte r = m.cpu.registers.byte r
  sp_eq : moves = false → m'.cpu.registers.sp = m.cpu.registers.sp

variable {w : FlagWrite} {named : List ByteRegister} {moves : Bool}

/-- Nothing has changed but PC and maybe SP. -/
theorem Changes.of_registers {pc sp : UInt16}
    (h : m'.cpu.registers = { m.cpu.registers with pc, sp })
    (hsp : moves = false → sp = m.cpu.registers.sp) : Changes .keep [] moves m m' where
  flags_eq := by
    rw [h]
    rfl
  byte_eq r _ := by
    rw [h]
    cases r <;> rfl
  sp_eq hmoves := by
    rw [h]
    exact hsp hmoves

/-- One change after another, if the first leaves the flags and SP alone. -/
theorem Changes.trans {named' : List ByteRegister} (h : Changes .keep named false m m₁)
    (h' : Changes w named' moves m₁ m') : Changes w (named ++ named') moves m m' where
  flags_eq := h'.flags_eq.trans (congrArg w.apply h.flags_eq)
  byte_eq r hr :=
    have hr := not_or.1 (mt List.mem_append.2 hr)
    (h'.byte_eq r hr.2).trans (h.byte_eq r hr.1)
  sp_eq hsp := (h'.sp_eq hsp).trans (h.sp_eq rfl)

/-- Nothing but PC changes after a change. -/
theorem Changes.before (h : Changes w named moves m m₁) (h' : Changes .keep [] false m₁ m') :
    Changes w named moves m m' where
  flags_eq := h'.flags_eq.trans h.flags_eq
  byte_eq r hr := (h'.byte_eq r List.not_mem_nil).trans (h.byte_eq r hr)
  sp_eq hsp := (h'.sp_eq rfl).trans (h.sp_eq hsp)

theorem Changes.mono {named' : List ByteRegister} (h : Changes w named moves m m')
    (hnamed : named ⊆ named') : Changes w named' moves m m' :=
  ⟨h.flags_eq, fun r hr => h.byte_eq r (mt (@hnamed r) hr), h.sp_eq⟩

theorem Changes.ite {p : Prop} [Decidable p] (h : Changes w named moves m m₁)
    (h' : Changes w named moves m m') : Changes w named moves m (if p then m₁ else m') := by
  split
  · exact h
  · exact h'

theorem fetch_changes : Changes .keep [] false m m.fetch.2 := .of_registers rfl fun _ => rfl

theorem fetchWord_changes : Changes .keep [] false m m.fetchWord.2 :=
  .of_registers rfl fun _ => rfl

theorem cycle_changes : Changes .keep [] false m m.cycle := .of_registers rfl fun _ => rfl

theorem setByte_changes (name : ByteRegister) (v : UInt8) :
    Changes .keep [name] false m (m.mapRegisters (·.setByte name v)) where
  flags_eq := setByte_flags _ name v
  byte_eq _ hr := Registers.byte_setByte _ (List.ne_of_not_mem_cons hr) v
  sp_eq _ := Registers.setByte_sp _ name v

theorem setPair_changes (p : PairRegister) (v : UInt16) :
    Changes .keep p.halves (p == .sp) m (m.mapRegisters (·.setPair p v)) where
  flags_eq := setPair_flags _ p v
  byte_eq _ hr := Registers.byte_setPair _ hr v
  sp_eq hp := Registers.setPair_sp _ hp v

theorem readCell_changes (c : Cell) : Changes .keep [] false m (m.readCell c).2 := by
  cases c <;> exact .of_registers rfl fun _ => rfl

theorem readOperand_changes (right : Operand) :
    Changes .keep [] false m (m.readOperand right).2 := by
  cases right with
  | cell c => exact readCell_changes c
  | immediate => exact fetch_changes

theorem writeCell_changes (c : Cell) (v : UInt8) :
    Changes .keep c.registers false m (m.writeCell c v) := by
  cases c with
  | register r => exact setByte_changes r v
  | atHL => exact .of_registers rfl fun _ => rfl

theorem resolve_changes (p : Pointer) : Changes .keep p.counted false m (m.resolve p).2 := by
  cases p with
  | hlUp | hlDown => exact setPair_changes .hl _
  | pageImmediate => exact fetch_changes
  | immediate => exact fetchWord_changes
  | _ => exact .of_registers rfl fun _ => rfl

/-- A new A and new flags. -/
theorem setResult_changes (result : UInt8 × Flags)
    (hflags : w.apply m.cpu.registers.flags = result.2) :
    Changes w [.a] false m (m.setResult result) where
  flags_eq := hflags.symm
  byte_eq _ hr := Registers.byte_setByte _ (List.ne_of_not_mem_cons hr) result.1
  sp_eq _ := rfl

/-- New flags, and A as it was. -/
theorem setResult_changes_of_eq {result : UInt8 × Flags} (h : result.1 = m.cpu.registers.a)
    (hflags : w.apply m.cpu.registers.flags = result.2) :
    Changes w [] false m (m.setResult result) where
  flags_eq := hflags.symm
  byte_eq r _ := by
    cases r with
    | a => exact h
    | _ => rfl
  sp_eq _ := rfl

theorem combine_changes (op : Arithmetic) (right : Operand) :
    Changes (m.flagWrite (.arithmetic op right)) op.destinations false m (m.combine op right) := by
  have hread := readOperand_changes (m := m) right
  have ha : (m.readOperand right).2.cpu.registers.a = m.cpu.registers.a :=
    hread.byte_eq .a List.not_mem_nil
  have hf : (m.readOperand right).2.cpu.registers.flags = m.cpu.registers.flags := hread.flags_eq
  have hflags :
      (m.flagWrite (.arithmetic op right)).apply (m.readOperand right).2.cpu.registers.flags =
      (Alu.arithmetic op (m.readOperand right).2.cpu.registers.a (m.readOperand right).1
        (m.readOperand right).2.cpu.registers.flags).2 := by
    rw [ha, hf]
    rfl
  cases op with
  | cp => exact hread.trans (setResult_changes_of_eq rfl hflags)
  | _ => exact hread.trans (setResult_changes _ hflags)

/-- New flags, and a new byte in a cell. -/
theorem writeCell_setFlags_changes {flags : Flags} (h : w.apply m.cpu.registers.flags = flags)
    (c : Cell) (v : UInt8) : Changes w c.registers false m ((m.setFlags flags).writeCell c v) := by
  have hwrite := writeCell_changes (m := m.setFlags flags) c v
  exact ⟨hwrite.flags_eq.trans h.symm, hwrite.byte_eq, hwrite.sp_eq⟩

/-- Counting keeps the carry. -/
theorem count_changes {f : UInt8 → Flags → UInt8 × Flags}
    (hf : ∀ n flags, (f n flags).2.carry = flags.carry) (c : Cell) :
    Changes (m.countFlagWrite f c) c.registers false m (m.count f c) := by
  unfold count
  dsimp only
  refine (readCell_changes c).trans (writeCell_setFlags_changes ?_ c _)
  rw [readCell_registers]
  exact congrArg (Flags.mk _ _ _) (hf _ _).symm

theorem executeExtended_changes (x : Extended) :
    Changes (x.flagWrite (m.readCell x.target).1 m.cpu.registers.flags) x.destinations false m
      (m.executeExtended x) := by
  obtain ⟨operation, target⟩ := x
  have hread : Changes .keep [] false m (m.readCell target).2 := readCell_changes target
  have hflags : (m.readCell target).2.cpu.registers.flags = m.cpu.registers.flags :=
    hread.flags_eq
  unfold executeExtended
  dsimp only
  rw [readCell_registers]
  cases operation with
  | test n =>
    refine hread.trans ⟨?_, fun _ _ => rfl, fun _ => rfl⟩
    rw [hflags]
    rfl
  | reset n | set n => exact hread.trans (writeCell_setFlags_changes (w := .keep) hflags target _)
  | _ => exact hread.trans (writeCell_setFlags_changes rfl target _)

theorem callAddress_changes (target : UInt16) :
    Changes .keep [] true m (m.callAddress target) :=
  .of_registers rfl fun h => nomatch h

theorem popPC_changes : Changes .keep [] true m m.popPC :=
  .of_registers rfl fun h => nomatch h

/-- **What an instruction may change.** -/
theorem execute_changes (i : Instruction) :
    Changes (m.flagWrite i) (i.destinations m.fetch.1) i.movesSP m (m.execute i) := by
  cases i with
  | load dst src => exact (readOperand_changes src).trans (setByte_changes dst _)
  | loadA src =>
    exact (resolve_changes src).trans (cycle_changes.trans (setByte_changes .a _))
  | storeA dst => exact (resolve_changes dst).before (.of_registers rfl fun _ => rfl)
  | loadPair dst => exact fetchWord_changes.trans (setPair_changes dst _)
  | pop dst =>
    cases dst with
    | af => exact ⟨rfl, fun _ hr => Registers.byte_setStacked _ hr _, fun h => nomatch h⟩
    | _ => exact ⟨rfl, fun _ hr => Registers.byte_setStacked _ hr _, fun h => nomatch h⟩
  | arithmetic op right => exact combine_changes op right
  | increment c => exact count_changes (fun _ _ => rfl) c
  | decrement c => exact count_changes (fun _ _ => rfl) c
  | incrementPair p | decrementPair p =>
    exact ⟨setPair_flags _ p _, fun _ hr => Registers.byte_setPair _ hr _,
      fun hp => Registers.setPair_sp _ hp _⟩
  | addToHL | loadHLFromSP =>
    exact ⟨rfl, fun _ hr => Registers.byte_setPair (p := .hl) _ hr _, fun _ => rfl⟩
  | addToSP => exact ⟨rfl, fun _ _ => rfl, fun h => nomatch h⟩
  | rotateA rotation => exact setResult_changes _ rfl
  | decimalAdjust => exact setResult_changes _ rfl
  | complementA => exact setResult_changes (~~~m.cpu.registers.a, _) rfl
  | jumpRelative way =>
    have hopen : Changes .keep [] false m
        (m.fetch.2.mapRegisters (·.jumpRelative m.fetch.1)).cycle :=
      .of_registers rfl fun _ => rfl
    exact hopen.ite fetch_changes
  | jump way =>
    have hopen : Changes .keep [] false m (m.fetchWord.2.setPC m.fetchWord.1).cycle :=
      .of_registers rfl fun _ => rfl
    exact hopen.ite fetchWord_changes
  | call way =>
    have hopen : Changes .keep [] true m (m.fetchWord.2.callAddress m.fetchWord.1) :=
      fetchWord_changes.trans (callAddress_changes _)
    have hclosed : Changes .keep [] true m m.fetchWord.2 := .of_registers rfl fun _ => rfl
    exact hopen.ite hclosed
  | ret way =>
    cases way with
    | none => exact popPC_changes
    | some condition =>
      have hopen : Changes .keep [] true m m.cycle.popPC := cycle_changes.trans popPC_changes
      have hclosed : Changes .keep [] true m m.cycle := .of_registers rfl fun _ => rfl
      exact hopen.ite hclosed
  | returnFromInterrupt => exact .of_registers rfl fun h => nomatch h
  | extended => exact fetch_changes.trans (executeExtended_changes _)
  | push | restart | loadSPFromHL => exact .of_registers rfl fun h => nomatch h
  | _ => exact ⟨rfl, fun _ _ => rfl, fun _ => rfl⟩

/-! ### Steps -/

/-- The byte after the opcode. -/
def second (m : Machine) : UInt8 := m.fetch.2.fetch.1

/-- Does a step keep a flag? -/
def keeps (m : Machine) (flag : Flag) : Bool := m.current?.all (·.keeps m.second flag)

/-- The 8-bit registers that a step changes. -/
def destinations (m : Machine) : List ByteRegister := m.current?.elim [] (·.destinations m.second)

/-- Does a step move the stack before it looks at interrupts? -/
def movesSP (m : Machine) : Bool := m.current?.any (·.movesSP)

/-- What a step does to the flags. -/
def stepFlagWrite (m : Machine) : FlagWrite := m.current?.elim .keep m.fetch.2.flagWrite

/-- An instruction that keeps a flag does not write it. -/
theorem flagWrite_keeps {flag : Flag} (h : i.keeps m.fetch.1 flag = true) :
    (m.flagWrite i).keeps flag = true := by
  cases i with
  | extended =>
    -- Neither the cell nor the byte in it matters, only the operation.
    change (Extended.decode m.fetch.1).operation.keeps flag = true at h
    change ((Extended.decode m.fetch.1).flagWrite _ _).keeps flag = true
    generalize Extended.decode m.fetch.1 = x at h ⊢
    obtain ⟨operation, target⟩ := x
    cases operation <;> cases flag <;> first | rfl | cases h
  | pop dst => cases dst <;> cases flag <;> first | rfl | cases h
  | _ => cases flag <;> first | rfl | cases h

/-- Serving an interrupt changes PC and SP. -/
theorem poll_changes : Changes .keep [] true m m.poll := by
  obtain ⟨-, -, source, hserved, -⟩ | ⟨-, hpoll, -⟩ := m.poll_cases
  · exact .of_registers hserved.registers fun h => nomatch h
  · rw [hpoll]
    exact .of_registers rfl fun h => nomatch h

theorem current_changes (h : m.current? = some i) :
    Changes m.stepFlagWrite m.destinations m.movesSP m (m.fetch.2.execute i) := by
  unfold stepFlagWrite destinations movesSP
  rw [h]
  exact fetch_changes.trans (execute_changes i)

/-- **What a step may change** until it looks at interrupts, or is over. -/
theorem step_changes (m : Machine) : ∃ p, Changes m.stepFlagWrite m.destinations m.movesSP m p ∧
    (m.polled? = some p ∧ m.step.1 = p.poll ∨ m.polled? = none ∧ m.step.1 = p) := by
  cases m.stepKind with
  | waiting _ hnone hpolled hstep =>
    refine ⟨m.waited, ?_, .inl ⟨hpolled, congrArg Prod.fst hstep⟩⟩
    unfold stepFlagWrite destinations movesSP
    rw [hnone]
    exact .of_registers rfl fun _ => rfl
  | failing i fault _ hcurrent _ hpolled hstep =>
    exact ⟨m.fetch.2.execute i, current_changes hcurrent, .inr ⟨hpolled, congrArg Prod.fst hstep⟩⟩
  | executing i _ hcurrent hpolled hstep =>
    have hcounted : Changes .keep [] false (m.fetch.2.execute i) (m.executed i) :=
      .of_registers rfl fun _ => rfl
    exact ⟨m.executed i, (current_changes hcurrent).before hcounted,
      .inl ⟨hpolled, congrArg Prod.fst hstep⟩⟩

theorem step_flags (m : Machine) :
    m.step.1.cpu.registers.flags = m.stepFlagWrite.apply m.cpu.registers.flags := by
  obtain ⟨p, hchanges, ⟨-, hstep⟩ | ⟨-, hstep⟩⟩ := m.step_changes
  · rw [hstep]
    exact poll_changes.flags_eq.trans hchanges.flags_eq
  · rw [hstep]
    exact hchanges.flags_eq

theorem step_byte {r : ByteRegister} (h : r ∉ m.destinations) :
    m.step.1.cpu.registers.byte r = m.cpu.registers.byte r := by
  obtain ⟨p, hchanges, ⟨-, hstep⟩ | ⟨-, hstep⟩⟩ := m.step_changes
  · rw [hstep]
    exact (poll_changes.byte_eq r List.not_mem_nil).trans (hchanges.byte_eq r h)
  · rw [hstep]
    exact hchanges.byte_eq r h

theorem stepFlagWrite_keeps {flag : Flag} (h : m.keeps flag = true) :
    m.stepFlagWrite.keeps flag = true := by
  unfold keeps at h
  unfold stepFlagWrite
  cases hcurrent : m.current? with
  | none => cases flag <;> rfl
  | some i =>
    rw [hcurrent] at h
    exact flagWrite_keeps h

/-! ### Runs -/

/-- The byte in F after a run, if every step does to it what it does to the flags. -/
def flagByte : Nat → Machine → UInt8 → UInt8
  | 0, _, f => f
  | n + 1, m, f => flagByte n m.step.1 (m.stepFlagWrite.onByte f)

/-- **The byte in F is that of the flags**, all along a run. -/
theorem flagByte_eq (n : Nat) (m : Machine) :
    flagByte n m m.cpu.registers.flags.toByte = (run n m).cpu.registers.flags.toByte := by
  induction n generalizing m with
  | zero => rfl
  | succ n ih =>
    -- After a step the byte is again that of the flags, so the rest of the run starts alike.
    rw [flagByte, ← FlagWrite.toByte_apply, ← step_flags]
    exact ih m.step.1

theorem step_sp_of_unserved (h : m.movesSP = false)
    (hunserved : ∀ source, .acknowledge source ∉ m.stepAccesses) :
    m.step.1.cpu.registers.sp = m.cpu.registers.sp := by
  obtain ⟨p, hchanges, ⟨hpolled, -⟩ | ⟨-, hstep⟩⟩ := m.step_changes
  · rw [step_of_unserved hpolled hunserved]
    exact hchanges.sp_eq h
  · rw [hstep]
    exact hchanges.sp_eq h

theorem step_sp_of_served (h : m.movesSP = false) {source : Interrupt}
    (hserved : .acknowledge source ∈ m.stepAccesses) :
    m.step.1.cpu.registers.sp = m.cpu.registers.sp - 2 := by
  obtain ⟨p, hpolled, hdispatched⟩ := dispatched_of_mem hserved
  obtain ⟨p', hchanges, ⟨hpolled', -⟩ | ⟨hnone, -⟩⟩ := m.step_changes
  · obtain rfl := Option.some.inj (hpolled.symm.trans hpolled')
    have hpushed : m.step.1.cpu.registers.sp = p.cpu.registers.sp - 1 - 1 :=
      congrArg Registers.sp hdispatched.registers
    rw [hpushed, hchanges.sp_eq h, sub_one_sub_one]
  · cases hnone.symm.trans hpolled

/-- **Only the destinations change.** Let register F be a byte with a lower half of zero. In a run
of any length, in which every step changes that byte as it changes the flags, it remains the byte of
the flags, so its lower half is zero after every step. In a step, whether an interrupt is served or
not, the instruction leaves alone the flags that it keeps, all of them if it moves data other than
to AF, counts a pair, changes single bits, goes elsewhere or switches interrupts, and the 8-bit
registers that are not its destinations. If it does not move the stack, SP stays as it was, or
serving an interrupt moves it by a word. A step of waiting has no destinations. -/
theorem only_destinations_change (m : Machine) :
    (∀ n (f : UInt8), f &&& 0x0F = 0 → .ofByte f = m.cpu.registers.flags →
      flagByte n m f &&& 0x0F = 0 ∧ flagByte n m f = (run n m).cpu.registers.flags.toByte) ∧
    (∀ flag, m.keeps flag = true →
      m.step.1.cpu.registers.flags.get flag = m.cpu.registers.flags.get flag) ∧
    (∀ r ∉ m.destinations, m.step.1.cpu.registers.byte r = m.cpu.registers.byte r) ∧
    (m.movesSP = false →
      ((∀ source, .acknowledge source ∉ m.stepAccesses) →
        m.step.1.cpu.registers.sp = m.cpu.registers.sp) ∧
      ∀ source, .acknowledge source ∈ m.stepAccesses →
        m.step.1.cpu.registers.sp = m.cpu.registers.sp - 2) := by
  refine ⟨fun n f hf hflags => ?_, fun flag h => ?_, fun r hr => step_byte hr,
    fun h => ⟨step_sp_of_unserved h, fun source => step_sp_of_served h⟩⟩
  · have hbyte : f = m.cpu.registers.flags.toByte := by
      rw [← hflags, Flags.toByte_ofByte_of_low_half hf]
    rw [hbyte, flagByte_eq]
    exact ⟨Flags.toByte_low_half _, rfl⟩
  · rw [step_flags]
    exact FlagWrite.get_apply (stepFlagWrite_keeps h) _

/-- A program with HL in work RAM: `LD (HL+),A`, `INC B`. -/
def storingAndCounting : Machine :=
  ofProgram { Registers.powerOn with h := 0xC0, l := 0x00, sp := 0xFFFE } [0x22, 0x04]

/-- The store keeps all flags and changes HL alone, and then counting B keeps the carry. -/
theorem only_destinations_change_in_program :
    (∀ flag, (run 1 storingAndCounting).cpu.registers.flags.get flag =
      storingAndCounting.cpu.registers.flags.get flag) ∧
    (run 1 storingAndCounting).cpu.registers.byte .b = 0x00 ∧
    (run 2 storingAndCounting).cpu.registers.flags.carry = true ∧
    (run 2 storingAndCounting).cpu.registers.sp = 0xFFFE ∧
    flagByte 2 storingAndCounting 0xB0 &&& 0x0F = 0 := by
  obtain ⟨hbyte, hkeeps, hregisters, -⟩ := only_destinations_change storingAndCounting
  obtain ⟨-, hkeeps', -, hsp⟩ := only_destinations_change (run 1 storingAndCounting)
  have hflags (flag : Flag) : (run 1 storingAndCounting).cpu.registers.flags.get flag =
      storingAndCounting.cpu.registers.flags.get flag := by
    refine hkeeps flag ?_
    cases flag <;> decide +kernel
  refine ⟨hflags, hregisters .b (by decide +kernel), ?_, ?_,
    (hbyte 2 0xB0 rfl (by decide +kernel)).1⟩
  · exact (hkeeps' .carry (by decide +kernel)).trans (hflags .carry)
  · have hquiet : (run 1 storingAndCounting).stepAccesses = [.quiet] := by decide +kernel
    refine ((hsp (by decide +kernel)).1 fun source hmem => ?_).trans (by decide +kernel)
    rw [hquiet] at hmem
    cases List.mem_singleton.1 hmem

end Machine

end DotMatrix
