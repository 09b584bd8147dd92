import DotMatrix.Proofs.Processor.Control

/-!
# Waiting for an interrupt

While the processor waits, each step is a machine cycle: the devices go on, and nothing else in the
machine changes. A machine cycle that ends with a pending source ends the waiting, whether or not
interrupts are on. If they are on, the source is served in the same step; if not, the next step
executes the instruction that the processor stood at.

* `Idled`: nothing has happened but machine cycles;
* `run_of_nothing_pending`: steps of waiting are machine cycles;
* `waiting_ends_with_request`: what every step of waiting does, and when the last one comes.
-/

namespace DotMatrix

/-! ### Machine cycles in a row -/

theorem Timer.history_quiet (b : Bus) (n : Nat) :
    device.history b (List.replicate n .quiet) = List.replicate (4 * n) .tick := by
  induction n generalizing b with
  | zero => rfl
  | succ n ih =>
    rw [List.replicate_succ, Bus.Device.history, ih, Nat.mul_succ, Nat.add_comm,
      ← List.replicate_append_replicate]
    rfl

theorem ObjectTransfer.history_quiet (b : Bus) (n : Nat) :
    device.history b (List.replicate n .quiet) = List.replicate n .step := by
  induction n generalizing b with
  | zero => rfl
  | succ n ih =>
    rw [List.replicate_succ, Bus.Device.history, ih]
    rfl

/-- Machine cycles leave work RAM and high RAM alone. -/
theorem Bus.perform_quiet_ram (b : Bus) (n : Nat) :
    (b.perform (List.replicate n .quiet)).workRam = b.workRam ∧
      (b.perform (List.replicate n .quiet)).highRam = b.highRam := by
  induction n generalizing b with
  | zero => exact ⟨rfl, rfl⟩
  | succ n ih =>
    obtain ⟨hwork, hhigh⟩ := ih b.cycle
    obtain ⟨_, _, _, hcycle, -⟩ := b.cycle_eq
    rw [List.replicate_succ]
    refine ⟨hwork.trans ?_, hhigh.trans ?_⟩
    · rw [hcycle]
    · rw [hcycle]

namespace Machine

variable {m : Machine}

theorem idle_succ (m : Machine) (n : Nat) : idle (n + 1) m = (idle n m).cycle := by
  induction n generalizing m with
  | zero => rfl
  | succ n ih => exact ih m.cycle

theorem idle_cpu (m : Machine) (n : Nat) :
    (idle n m).cpu = { m.cpu with cycles := m.cpu.cycles + 4 * n } := by
  induction n with
  | zero => rfl
  | succ n ih =>
    rw [idle_succ, cycle, ih, Nat.mul_succ, ← Nat.add_assoc]
    rfl

/-- From `m` to `p` nothing has happened but so many machine cycles, in which the timer and the
video unit go on by four ticks each and an object transfer by one step. The processor may have
stopped waiting. -/
structure Idled (m : Machine) (n : Nat) (p : Machine) : Prop where
  registers : p.cpu.registers = m.cpu.registers
  interruptsOn : p.cpu.interruptsOn = m.cpu.interruptsOn
  enableDelay : p.cpu.enableDelay = m.cpu.enableDelay
  cycles : p.cpu.cycles = m.cpu.cycles + 4 * n
  bus : p.bus = m.bus.perform (List.replicate n .quiet)
  timer : p.bus.timer = m.bus.timer.run (List.replicate (4 * n) .tick)
  video : p.bus.video = m.bus.video.run (Video.device.history m.bus (List.replicate n .quiet))
  videoTicks : Video.ticks (Video.device.history m.bus (List.replicate n .quiet)) = 4 * n
  transfer : p.bus.transfer = m.bus.transfer.run (List.replicate n .step)
  workRam : p.bus.workRam = m.bus.workRam
  highRam : p.bus.highRam = m.bus.highRam

theorem idle_idled (m : Machine) (n : Nat) : Idled m n (idle n m) := by
  have hbus : (idle n m).bus = m.bus.perform (List.replicate n .quiet) :=
    (m.idle_performs n).bus_eq
  obtain ⟨hwork, hhigh⟩ := m.bus.perform_quiet_ram n
  have htimer := Timer.device.state_perform m.bus (List.replicate n .quiet)
  have htransfer := ObjectTransfer.device.state_perform m.bus (List.replicate n .quiet)
  have hvideo := Video.device.state_perform m.bus (List.replicate n .quiet)
  have hticks := Video.ticks_history m.bus (List.replicate n .quiet)
  rw [Timer.history_quiet, ← hbus] at htimer
  rw [ObjectTransfer.history_quiet, ← hbus] at htransfer
  rw [← hbus] at hvideo hwork hhigh
  rw [Access.length_replicate_quiet] at hticks
  constructor
  · rw [idle_cpu]
  · rw [idle_cpu]
  · rw [idle_cpu]
  · rw [idle_cpu]
  · exact hbus
  · exact htimer
  · exact hvideo
  · exact hticks
  · exact htransfer
  · exact hwork
  · exact hhigh

/-- The same, when the processor has stopped waiting. -/
theorem Idled.wake {n : Nat} {p : Machine} (h : Idled m n p) (halted : Bool) :
    Idled m n { p with cpu := { p.cpu with halted } } :=
  ⟨h.registers, h.interruptsOn, h.enableDelay, h.cycles, h.bus, h.timer, h.video, h.videoTicks,
    h.transfer, h.workRam, h.highRam⟩

/-! ### Steps of waiting -/

/-- A machine cycle of waiting goes on to wait just if no source is pending at its end. -/
theorem waited_of_halted (h : m.cpu.halted = true) : m.waited =
    { m.cycle with cpu := { m.cycle.cpu with halted := m.cycle.bus.interrupts.pending == 0 } } := by
  have hcycle : m.cycle.cpu.halted = true := h
  rw [waited]
  dsimp only
  rw [hcycle, Bool.true_and]

theorem poll_of_nothing_pending (h : m.bus.interrupts.pending = 0) : m.poll = m := by
  obtain ⟨-, hne, -⟩ | ⟨-, hpoll, -⟩ := m.poll_cases
  · exact absurd h hne
  · exact hpoll

theorem step_of_halted (h : m.cpu.halted = true) :
    m.polled? = some m.waited ∧ m.step = (m.waited.poll, none) := by
  cases m.stepKind with
  | waiting _ _ hpolled hstep => exact ⟨hpolled, hstep⟩
  | failing _ _ hrun => exact absurd (hrun.symm.trans h) Bool.false_ne_true
  | executing _ hrun => exact absurd (hrun.symm.trans h) Bool.false_ne_true

theorem step_of_nothing_pending (h : m.cpu.halted = true)
    (hpending : m.cycle.bus.interrupts.pending = 0) : m.step = (m.cycle, none) := by
  have hwaited : m.waited = m.cycle := by
    have hcycle : m.cycle.cpu.halted = true := h
    rw [waited_of_halted h, hpending, beq_self_eq_true, ← hcycle]
  rw [(step_of_halted h).2, hwaited, poll_of_nothing_pending hpending]

/-- **Steps of waiting are machine cycles**, as long as these end with no source pending. -/
theorem run_of_nothing_pending (h : m.cpu.halted = true) {n : Nat}
    (hquiet : ∀ j, 0 < j → j ≤ n → (idle j m).bus.interrupts.pending = 0) :
    run n m = idle n m := by
  induction n with
  | zero => rfl
  | succ n ih =>
    have hbefore := ih fun j hj hjn => hquiet j hj (Nat.le_succ_of_le hjn)
    have hhalted : (idle n m).cpu.halted = true := by
      rw [idle_cpu]
      exact h
    have hpending := hquiet (n + 1) (Nat.succ_pos n) (Nat.le_refl _)
    rw [idle_succ] at hpending
    rw [run_succ, idle_succ, hbefore, step_of_nothing_pending hhalted hpending]

/-- What a step of waiting looks at, and what it makes of that: the waiting is over just if the
machine cycle has ended with a source pending, and then that source is served or the instruction at
PC comes next. -/
theorem wait_cases (h : m.cpu.halted = true) :
    (m.waited.cpu.halted = false ↔ m.cycle.bus.interrupts.pending ≠ 0) ∧
    (m.waited.poll.cpu.halted = false ↔ m.cycle.bus.interrupts.pending ≠ 0) ∧
    (m.cycle.bus.interrupts.pending = 0 → m.waited.poll = m.waited) ∧
    (m.cycle.bus.interrupts.pending ≠ 0 →
      (m.cpu.interruptsOn = true → ∃ source, Dispatched m.waited source m.waited.poll) ∧
      (m.cpu.interruptsOn = false → m.waited.poll = m.waited ∧
        m.waited.current? = some (.decode (m.waited.bus.read m.cpu.registers.pc)))) := by
  have hwoken : m.waited.cpu.halted = false ↔ m.cycle.bus.interrupts.pending ≠ 0 := by
    rw [waited_of_halted h]
    simp
  have hnone : m.cycle.bus.interrupts.pending = 0 → m.waited.poll = m.waited :=
    fun hpending => poll_of_nothing_pending (m := m.waited) hpending
  refine ⟨hwoken, ?_, hnone, fun hpending => ⟨fun hon => ?_, fun hoff => ?_⟩⟩
  · by_cases hpending : m.cycle.bus.interrupts.pending = 0
    · rw [hnone hpending]
      exact hwoken
    · exact iff_of_true (poll_halted (hwoken.2 hpending)) hpending
  · obtain ⟨-, -, source, hserved, -⟩ | ⟨hnot, -⟩ := m.waited.poll_cases
    · exact ⟨source, hserved⟩
    · exact absurd ⟨hon, hpending⟩ hnot
  · exact ⟨poll_of_off hoff, current?_of_running _ (hwoken.2 hpending)⟩

/-- **Waiting ends with a request.** Take a machine that waits, and any number `n` of machine cycles
that end with no source pending. Its first `n + 1` steps do not fail, the processor waits until the
last of them, and when that looks at interrupts nothing has happened to the machine but `n + 1`
machine cycles. The processor has then stopped waiting just if the last of these has ended with a
source pending, whether interrupts are on or not. If so, with interrupts on the most urgent source
is served in the same step; with interrupts off the step is over with PC where it was, and the next
one executes the instruction there. This is the instruction after the one that has made the
processor wait. -/
theorem waiting_ends_with_request {n : Nat} (h : m.cpu.halted = true)
    (hquiet : ∀ j, 0 < j → j ≤ n → (idle j m).bus.interrupts.pending = 0) :
    (∀ j ≤ n, (run j m).cpu.halted = true ∧ ¬(run j m).Fails) ∧
    (∃ p, (run n m).polled? = some p ∧ (run n m).step = (p.poll, none) ∧ Idled m (n + 1) p ∧
      (p.cpu.halted = false ↔ (idle (n + 1) m).bus.interrupts.pending ≠ 0) ∧
      ((run (n + 1) m).cpu.halted = false ↔ (idle (n + 1) m).bus.interrupts.pending ≠ 0) ∧
      ((idle (n + 1) m).bus.interrupts.pending = 0 → run (n + 1) m = p) ∧
      ((idle (n + 1) m).bus.interrupts.pending ≠ 0 →
        (m.cpu.interruptsOn = true → ∃ source, Dispatched p source (run (n + 1) m)) ∧
        (m.cpu.interruptsOn = false → run (n + 1) m = p ∧ p.current? =
          some (.decode (p.bus.read m.cpu.registers.pc))))) ∧
    ∀ m₀ : Machine, m₀.Executes .halt → m₀.step.1.cpu.halted = true ∧
      m₀.step.1.cpu.registers.pc = m₀.cpu.registers.pc + 1 := by
  have hrun (j : Nat) (hj : j ≤ n) : run j m = idle j m :=
    run_of_nothing_pending h fun i hi hij => hquiet i hi (Nat.le_trans hij hj)
  have hhalted (j : Nat) : (idle j m).cpu.halted = true := by
    rw [idle_cpu]
    exact h
  refine ⟨fun j hj => ?_, ?_, fun m₀ hm₀ => ?_⟩
  · rw [hrun j hj]
    exact ⟨hhalted j, not_fails_of_step (step_of_halted (hhalted j)).2⟩
  · obtain ⟨hpolled, hstep⟩ := step_of_halted (hhalted n)
    obtain ⟨hwoken, hleft, hnone, hserved⟩ := wait_cases (hhalted n)
    have hidled := m.idle_idled (n + 1)
    rw [run_succ, hrun n (Nat.le_refl n), hstep]
    rw [idle_cpu] at hserved
    rw [idle_succ] at hidled ⊢
    refine ⟨_, hpolled, rfl, ?_, hwoken, hleft, hnone, hserved⟩
    rw [waited_of_halted (hhalted n)]
    exact hidled.wake _
  · rw [hm₀.step_eq (by simp) (by simp)]
    exact ⟨rfl, rfl⟩

/-- A machine without a cartridge that waits for the timer, whose counter wraps in the first cycle.
-/
def waitingForTimer : Machine :=
  let bus := Bus.powerOn (.ofVolume .empty)
  { cpu := { Processor.powerOn with halted := true, interruptsOn := true }
    bus :=
      { bus with
        interrupts := ⟨0, Interrupt.timer.mask⟩
        timer := { bus.timer with divider := 0x000C, counter := 0xFF, control := 0x05 } } }

/-- After one cycle it still waits, and in the second the timer is served. -/
theorem waiting_ends_with_timer :
    waitingForTimer.cpu.halted = true ∧ (run 1 waitingForTimer).cpu.halted = true ∧
    (run 2 waitingForTimer).cpu.halted = false ∧
    ∃ p source, Idled waitingForTimer 2 p ∧ Dispatched p source (run 2 waitingForTimer) := by
  have hhalted : waitingForTimer.cpu.halted = true := rfl
  have hquiet : ∀ j, 0 < j → j ≤ 1 → (idle j waitingForTimer).bus.interrupts.pending = 0 := by
    intro j hj hj1
    obtain rfl : j = 1 := Nat.le_antisymm hj1 hj
    decide +kernel
  have hpending : (idle 2 waitingForTimer).bus.interrupts.pending ≠ 0 := by decide +kernel
  obtain ⟨hwaits, ⟨p, -, -, hidled, -, hleft, -, hserved⟩, -⟩ :=
    waiting_ends_with_request hhalted hquiet
  obtain ⟨source, hdispatched⟩ := (hserved hpending).1 rfl
  exact ⟨hhalted, (hwaits 1 (Nat.le_refl 1)).1, hleft.2 hpending, p, source, hidled, hdispatched⟩

end Machine

end DotMatrix
