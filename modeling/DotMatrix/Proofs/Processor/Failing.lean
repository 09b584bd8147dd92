import DotMatrix.Proofs.Bus.Alike
import DotMatrix.Proofs.Bus.Kept
import DotMatrix.Proofs.Processor.Waiting

/-!
# Instructions that cannot be executed

Twelve opcodes end a step with a fault: the one that stops the machine, after its second byte has
been fetched, and the eleven that stand for no instruction. The step is over when these bytes have
been fetched. Nothing is left half done: it comes to machine cycles in a row on a machine whose PC
is past the bytes.

* `Fault.ofOpcode`: the fault of an opcode, which tells the opcode, where it is, and how many bytes
  have been fetched;
* `step_fault_iff`: when a step ends with a fault, and with which;
* `step_of_fault`: such a step as a whole;
* `Faulted`: nothing has happened but that, as every part of the machine sees it.
-/

namespace DotMatrix

/-! ### Faults -/

namespace Fault

/-- The fault of an opcode at an address. -/
def ofOpcode (opcode : UInt8) (pc : UInt16) : Fault :=
  if opcode = 0x10 then .stopped pc else .unusedOpcode opcode pc

/-- The opcode that was fetched. Only one stops the machine, so that fault need not name it. -/
def opcode : Fault → UInt8
  | unusedOpcode opcode _ => opcode
  | stopped _ => 0x10

/-- The address it was fetched from. -/
def pc : Fault → UInt16
  | unusedOpcode _ pc => pc
  | stopped pc => pc

/-- How many bytes are fetched before the fault. -/
def size : Fault → Nat
  | unusedOpcode _ _ => 1
  | stopped _ => 2

/-- A fault tells the opcode and the address. -/
theorem ofOpcode_carries (opcode : UInt8) (pc : UInt16) :
    (ofOpcode opcode pc).opcode = opcode ∧ (ofOpcode opcode pc).pc = pc ∧
      (ofOpcode opcode pc).size = if opcode = 0x10 then 2 else 1 := by
  unfold ofOpcode
  split
  · next h => exact ⟨h.symm, rfl, rfl⟩
  · exact ⟨rfl, rfl, rfl⟩

end Fault

theorem Instruction.fault?_decode_iff (opcode : UInt8) (pc : UInt16) (fault : Fault) :
    (decode opcode).fault? opcode pc = some fault ↔
      (opcode = 0x10 ∨ opcode ∈ unusedOpcodes) ∧ fault = .ofOpcode opcode pc := by
  by_cases hstop : opcode = 0x10
  · subst hstop
    have hdecode : decode 0x10 = .stop := (decode_eq_stop_iff _).2 rfl
    simp [hdecode, fault?, Fault.ofOpcode, eq_comm]
  by_cases hunused : opcode ∈ unusedOpcodes
  · have hdecode : decode opcode = .unused := (decode_eq_unused_iff opcode).2 hunused
    simp [hdecode, fault?, Fault.ofOpcode, hstop, hunused, eq_comm]
  · have hnone := fault?_eq_none (mt (decode_eq_unused_iff opcode).1 hunused)
      (mt (decode_eq_stop_iff opcode).1 hstop) opcode pc
    simp [hnone, hstop, hunused]

/-! ### What machine cycles leave alone -/

/-- A tick leaves the memories, and what the program has written, as they are. -/
theorem Video.tick_sameInputs (v : Video) : SameInputs v v.tick.1 := by
  by_cases hon : v.displayOn = true
  · rw [tick_of_on hon]
    cases v.mode with
    | objectScan =>
      rcases Nat.lt_or_ge v.nextDot.dot scanDots with h | h
      · rw [tickScan_of_lt h]
        dsimp only
        split <;> exact ⟨rfl, rfl, rfl, rfl, rfl⟩
      · rw [tickScan_of_le h]
        exact ⟨rfl, rfl, rfl, rfl, rfl⟩
    | transfer =>
      rcases Nat.lt_or_ge v.nextDot.dot transferEnd with h | h
      · rw [tickTransfer_of_lt h]
        dsimp only
        split
        · obtain ⟨picture, windowLine, hdraw⟩ := v.nextDot.drawLine_eq
          rw [hdraw]
          exact ⟨rfl, rfl, rfl, rfl, rfl⟩
        · exact ⟨rfl, rfl, rfl, rfl, rfl⟩
      · rw [tickTransfer_of_le h]
        exact ⟨rfl, rfl, rfl, rfl, rfl⟩
    | hblank =>
      dsimp only
      unfold tickHBlank
      split
      · dsimp only
        split <;> exact ⟨rfl, rfl, rfl, rfl, rfl⟩
      · exact ⟨rfl, rfl, rfl, rfl, rfl⟩
    | vblank =>
      dsimp only
      unfold tickVBlank
      dsimp only
      split
      · split <;> exact ⟨rfl, rfl, rfl, rfl, rfl⟩
      · exact ⟨rfl, rfl, rfl, rfl, rfl⟩
  · rw [tick_of_off (Bool.eq_false_iff.2 hon)]
    exact ⟨rfl, rfl, rfl, rfl, rfl⟩

theorem Video.run_ticks_sameInputs (v : Video) (n : Nat) :
    SameInputs v (v.run (List.replicate n .tick)) := by
  induction n generalizing v with
  | zero => exact ⟨rfl, rfl, rfl, rfl, rfl⟩
  | succ n ih => exact v.tick_sameInputs.trans (ih v.tick.1)

namespace Bus

/-- What a machine cycle leaves alone, machine cycles in a row do. -/
theorem perform_quiet_eq {α : Type} {f : Bus → α} (h : ∀ b, f b.cycle = f b) (b : Bus) (n : Nat) :
    f (b.perform (List.replicate n .quiet)) = f b := by
  induction n generalizing b with
  | zero => rfl
  | succ n ih =>
    rw [List.replicate_succ]
    exact (ih b.cycle).trans (h b)

theorem cycle_videoRam (b : Bus) : b.cycle.video.ram = b.video.ram := by
  obtain ⟨_, _, _, h, -⟩ := b.cycle_eq
  rw [h]
  exact (b.video.run_ticks_sameInputs ticksPerCycle).ram_eq

theorem cycle_joypad (b : Bus) : b.cycle.joypad = b.joypad := by
  obtain ⟨_, _, _, h, -⟩ := b.cycle_eq
  rw [h]

/-- A machine cycle may save the cartridge's RAM, and does nothing else to the cartridge. -/
theorem cycle_cartridge (b : Bus) : Cartridge.AlikeIn b.cartridge b.cycle.cartridge := by
  have htransfer (b : Bus) : b.stepTransfer.cartridge = b.cartridge := by
    obtain ⟨_, h⟩ := b.stepTransfer_eq
    rw [h]
  have hrun : (runVideo ticksPerCycle (runTimer ticksPerCycle b)).1.cartridge = b.cartridge := by
    obtain ⟨_, hvideo⟩ := (runTimer ticksPerCycle b).runVideo_eq ticksPerCycle
    obtain ⟨_, htimer⟩ := b.runTimer_eq ticksPerCycle
    rw [hvideo, htimer]
  unfold cycle
  dsimp only
  rw [htransfer]
  split
  · have hsave := (vblankBegan_alike (runVideo ticksPerCycle (runTimer ticksPerCycle b)).1).cartridge
    rwa [hrun] at hsave
  · rw [hrun]
    exact .refl _

theorem perform_quiet_cartridge (b : Bus) (n : Nat) :
    Cartridge.AlikeIn b.cartridge (b.perform (List.replicate n .quiet)).cartridge := by
  induction n generalizing b with
  | zero => exact .refl _
  | succ n ih => exact b.cycle_cartridge.trans (ih b.cycle)

end Bus

namespace Machine

/-! ### The step -/

section

variable {m : Machine} {fault : Fault}

/-- **When a step ends with a fault.** -/
theorem step_fault_iff : m.step.2 = some fault ↔
    m.cpu.halted = false ∧
      (m.bus.read m.cpu.registers.pc = 0x10 ∨
        m.bus.read m.cpu.registers.pc ∈ Instruction.unusedOpcodes) ∧
      fault = .ofOpcode (m.bus.read m.cpu.registers.pc) m.cpu.registers.pc := by
  by_cases hrun : m.cpu.halted = true
  · simp [step, hrun]
  · have hstep : m.step = m.runInstruction := if_neg hrun
    have hfault : m.runInstruction.2 =
        (Instruction.decode m.fetch.1).fault? m.fetch.1 m.cpu.registers.pc := by
      unfold runInstruction
      dsimp only
      split
      · rename_i h
        exact h.symm
      · rename_i h
        exact h.symm
    rw [hstep, hfault, Instruction.fault?_decode_iff]
    exact (and_iff_right (Bool.eq_false_iff.2 hrun)).symm

/-- **What the step is then**: so many machine cycles, with PC past the bytes that were fetched. -/
theorem step_of_fault (h : m.step.2 = some fault) :
    m.step =
        (idle fault.size (m.setPC (m.cpu.registers.pc + UInt16.ofNat fault.size)), some fault) ∧
      m.stepAccesses = List.replicate fault.size .quiet := by
  obtain ⟨hrun, hopcode, hfault⟩ := step_fault_iff.1 h
  have hstep : m.step = m.runInstruction := if_neg (ne_true_of_eq_false hrun)
  have haccesses : m.stepAccesses = m.instructionAccesses := if_neg (ne_true_of_eq_false hrun)
  have hdecode : (Instruction.decode m.fetch.1).fault? m.fetch.1 m.cpu.registers.pc = some fault :=
    (Instruction.fault?_decode_iff ..).2 ⟨hopcode, hfault⟩
  rw [hstep, haccesses]
  unfold runInstruction instructionAccesses
  dsimp only
  rw [hdecode]
  dsimp only
  by_cases hstop : m.fetch.1 = 0x10
  · have hkind : fault = .stopped m.cpu.registers.pc := hfault.trans (if_pos hstop)
    have hi : Instruction.decode m.fetch.1 = .stop := (Instruction.decode_eq_stop_iff _).2 hstop
    have hpc : m.cpu.registers.pc + 2 = m.cpu.registers.pc + 1 + 1 := by
      rw [UInt16.add_assoc]
      rfl
    rw [hi, hkind]
    refine ⟨Prod.ext ?_ rfl, rfl⟩
    -- The second byte is fetched and not looked at.
    show m.fetch.2.fetch.2 = idle 2 (m.setPC (m.cpu.registers.pc + 2))
    rw [hpc]
    rfl
  · have hkind : fault = .unusedOpcode m.fetch.1 m.cpu.registers.pc := hfault.trans (if_neg hstop)
    have hi : Instruction.decode m.fetch.1 = .unused :=
      (Instruction.decode_eq_unused_iff _).2 (hopcode.resolve_left hstop)
    rw [hi, hkind]
    exact ⟨rfl, rfl⟩

end

/-! ### What it leaves alone -/

/-- From `m` to `m'` PC has gone past the bytes that are fetched before the fault, and the clock and
the devices have gone on by four ticks for each of them. No other register, no memory that a program
can use, no switch of the cartridge and nothing that concerns interrupts has changed, but that the
devices may have made requests and object memory may have been copied to. -/
structure Faulted (m : Machine) (fault : Fault) (m' : Machine) : Prop where
  registers : m'.cpu.registers =
    { m.cpu.registers with pc := m.cpu.registers.pc + UInt16.ofNat fault.size }
  control : m'.cpu.control = m.cpu.control
  cycles : m'.cpu.cycles = m.cpu.cycles + 4 * fault.size
  timer : m'.bus.timer = m.bus.timer.run (List.replicate (4 * fault.size) .tick)
  video : ∃ es, m'.bus.video = m.bus.video.run es ∧ Video.ticks es = 4 * fault.size ∧
    .acknowledge ∉ es ∧ ∀ r v, .write r v ∉ es
  transfer : m'.bus.transfer = m.bus.transfer.run (List.replicate fault.size .step)
  interrupts : m.bus.interrupts.Raised m'.bus.interrupts
  workRam : m'.bus.workRam = m.bus.workRam
  highRam : m'.bus.highRam = m.bus.highRam
  videoRam : m'.bus.video.ram = m.bus.video.ram
  cartridge : Cartridge.AlikeIn m.bus.cartridge m'.bus.cartridge
  serial : m'.bus.serial = m.bus.serial
  joypad : m'.bus.joypad = m.bus.joypad

variable {m : Machine} {fault : Fault}

/-- **A step that ends with a fault leaves nothing half done.** -/
theorem faulted_step (h : m.step.2 = some fault) : m.Faulted fault m.step.1 := by
  rw [(step_of_fault h).1]
  obtain ⟨hregisters, -, -, hcycles, hbus, htimer, hvideo, hticks, htransfer, hwork, hhigh⟩ :=
    idle_idled (m.setPC (m.cpu.registers.pc + UInt16.ofNat fault.size)) fault.size
  constructor
  · exact hregisters
  · rw [idle_cpu]
    rfl
  · exact hcycles
  · exact htimer
  · refine ⟨_, hvideo, hticks, fun hmem => Video.ne_acknowledge_of_mem_history hmem rfl,
      fun r v hmem => ?_⟩
    cases List.eq_of_mem_replicate (Video.write_mem_of_mem_history hmem)
  · exact htransfer
  · rw [hbus]
    exact Bus.perform_raised (fun v hmem => nomatch List.eq_of_mem_replicate hmem)
      (fun v hmem => nomatch List.eq_of_mem_replicate hmem)
      fun source hmem => nomatch List.eq_of_mem_replicate hmem
  · exact hwork
  · exact hhigh
  · rw [hbus]
    exact Bus.perform_quiet_eq (f := fun b => b.video.ram) Bus.cycle_videoRam _ _
  · rw [hbus]
    exact Bus.perform_quiet_cartridge _ _
  · rw [hbus]
    exact Bus.perform_quiet_eq Bus.cycle_serial _ _
  · rw [hbus]
    exact Bus.perform_quiet_eq Bus.cycle_joypad _ _

end Machine

end DotMatrix
