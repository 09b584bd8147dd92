import DotMatrix.Proofs.Bus.History

/-!
# The clock and the devices

The processor's clock counts the ticks that the devices are given. However long a program runs, and
whatever it does, the timer and the video unit have had as many ticks as the clock shows, and an
object transfer a quarter of them.

* `Timer.run_divider`: the divider counts the ticks of a history that does not clear it;
* `Bus.Beat`: divider and dot stand where whole machine cycles have left them;
* `Machine.start`: the machine that a program starts on;
* `Machine.run_in_step`: clock and devices after any number of steps.
-/

namespace DotMatrix

/-! ### The divider -/

namespace Timer

variable {t : Timer}

theorem TicksTo.divider_eq {u : Timer} (h : TicksTo t u) : u.divider = t.divider + 1 := by
  cases h <;> rfl

/-- A write clears the divider or leaves it alone. -/
theorem write_divider_cases (t : Timer) (r : Register) (v : UInt8) :
    r = .divider ∧ (t.write r v).divider = 0 ∨
      r ≠ .divider ∧ (t.write r v).divider = t.divider := by
  cases r with
  | divider => exact .inl ⟨rfl, rfl⟩
  | counter =>
    refine .inr ⟨by decide, ?_⟩
    unfold write
    dsimp only
    split <;> rfl
  | modulo => exact .inr ⟨by decide, rfl⟩
  | control =>
    refine .inr ⟨by decide, ?_⟩
    unfold write
    dsimp only
    split <;> rfl

/-- The divider counts the ticks of a history that does not write it. -/
theorem run_divider {es : List Event} (h : ∀ v, .write .divider v ∉ es) :
    (run t es).divider.toNat = (t.divider.toNat + ticks es) % 65536 := by
  induction es using List.reverseRecOn with
  | nil => exact (Nat.mod_eq_of_lt t.divider.toNat_lt).symm
  | append_singleton es e ih =>
    have hes : ∀ v, .write .divider v ∉ es := fun v hv => h v (List.mem_append_left _ hv)
    rw [run_concat, ticks_append]
    cases e with
    | tick =>
      rw [Event.apply, (ticksTo_tick _).divider_eq, UInt16.toNat_add, ih hes, UInt16.toNat_one,
        ticks_tick]
      omega
    | write r v =>
      have hr : r ≠ .divider := by
        rintro rfl
        exact h v List.mem_concat_self
      obtain ⟨rfl, -⟩ | ⟨-, hkeep⟩ := (run t es).write_divider_cases r v
      · exact absurd rfl hr
      · rw [Event.apply, hkeep, ih hes, ticks_write, Nat.add_zero]

end Timer

/-! ### Machine cycles -/

namespace Bus

/-- Only whole machine cycles have passed for the divider and the dots of the line. -/
structure OnBeat (b : Bus) : Prop where
  onSchedule : b.video.OnSchedule
  divider : 4 ∣ b.timer.divider.toNat
  dot : 4 ∣ b.video.dot

variable {b : Bus}

theorem OnBeat.cycle (h : b.OnBeat) : b.cycle.OnBeat := by
  obtain ⟨_, _, _, he, -⟩ := b.cycle_eq
  rw [he]
  constructor
  · exact (h.onSchedule.run _).congr rfl rfl rfl rfl rfl
  · have hd := h.divider
    have hnone : ∀ v, .write .divider v ∉ List.replicate ticksPerCycle Timer.Event.tick := by simp
    show 4 ∣ (b.timer.run (List.replicate ticksPerCycle .tick)).divider.toNat
    rw [Timer.run_divider hnone]
    have hticks : Timer.ticks (List.replicate ticksPerCycle .tick) = 4 := rfl
    omega
  · exact Video.run_ticks_dot h.onSchedule (Nat.dvd_refl 4) h.dot

theorem OnBeat.write (h : b.OnBeat) (a : UInt16) (v : UInt8) : (b.write a v).OnBeat := by
  have hvideo : (b.write a v).video = b.video.run (Video.written b a v) := Video.device.write_eq b a v
  have htimer : (b.write a v).timer = b.timer.run (Timer.written a v) := Timer.device.write_eq b a v
  constructor
  · rw [hvideo]
    exact h.onSchedule.run _
  · rw [htimer]
    unfold Timer.written
    split
    · next r _ =>
      obtain ⟨-, hclear⟩ | ⟨-, hkeep⟩ := b.timer.write_divider_cases r v
      · show 4 ∣ (b.timer.write r v).divider.toNat
        rw [hclear]
        exact Nat.dvd_zero 4
      · show 4 ∣ (b.timer.write r v).divider.toNat
        rw [hkeep]
        exact h.divider
    · exact h.divider
  · obtain ⟨e, he, ht⟩ := Video.written_eq_singleton b a v
    rw [hvideo, he]
    show 4 ∣ (e.apply b.video).dot
    obtain hkeep | hzero := Video.Event.dot_cases (v := b.video) ht
    · rw [hkeep]
      exact h.dot
    · rw [hzero]
      exact Nat.dvd_zero 4

theorem OnBeat.access (h : b.OnBeat) (x : Access) : (b.access x).OnBeat := by
  cases x with
  | quiet => exact h.cycle
  | write a v => exact (h.write a v).cycle
  | acknowledge source => exact ⟨h.onSchedule, h.divider, h.dot⟩

theorem OnBeat.perform (h : b.OnBeat) (xs : List Access) : (b.perform xs).OnBeat := by
  induction xs generalizing b with
  | nil => exact h
  | cons x xs ih => exact ih (h.access x)

end Bus

/-! ### Steps -/

namespace Machine

/-- The machine that a program starts on. -/
def start (host : Host) (cartridge : Option Cartridge) (saveAtVBlank : Bool) : Machine :=
  { cpu := .powerOn, bus := { Bus.powerOn host with cartridge, saveAtVBlank } }

theorem start_onBeat (host : Host) (cartridge : Option Cartridge) (saveAtVBlank : Bool) :
    (start host cartridge saveAtVBlank).bus.OnBeat where
  onSchedule := Video.powerOn_onSchedule
  divider := (by decide : 4 ∣ Timer.powerOn.divider.toNat)
  dot := Nat.dvd_zero 4

/-- **The clock and the devices.** Take any number of steps, from power on and with any cartridge,
whether they execute instructions, wait, serve interrupts or fail. What happens on the bus is
their accesses; what happens to the timer, the video unit and the object transfer in these are as
many ticks as the clock shows, as many again, and a quarter of them. So the divider and the dots of
the line are multiples of four. The divider shows the clock, if no access has written it, and the
video unit has gone round the frame by the clock, if none has switched the display off. -/
theorem run_in_step (host : Host) (cartridge : Option Cartridge) (saveAtVBlank : Bool) (n : Nat) :
    let m := start host cartridge saveAtVBlank
    let xs := runAccesses n m
    let m' := run n m
    m'.bus = m.bus.perform xs ∧
    (m'.bus.timer = Timer.run .powerOn (Timer.device.history m.bus xs) ∧
      Timer.ticks (Timer.device.history m.bus xs) = m'.cpu.cycles) ∧
    (m'.bus.video = Video.run .powerOn (Video.device.history m.bus xs) ∧
      Video.ticks (Video.device.history m.bus xs) = m'.cpu.cycles) ∧
    (m'.bus.transfer = ObjectTransfer.run .idle (ObjectTransfer.device.history m.bus xs) ∧
      4 * ObjectTransfer.steps (ObjectTransfer.device.history m.bus xs) = m'.cpu.cycles) ∧
    4 ∣ m'.bus.timer.divider.toNat ∧ 4 ∣ m'.bus.video.dot ∧
    ((∀ v, .write 0xFF04 v ∉ xs) →
      m'.bus.timer.divider.toNat = (0xABCC + m'.cpu.cycles) % 65536) ∧
    ((∀ v, .write 0xFF40 v ∈ xs → Byte.bit v 7 = true) →
      456 * m'.bus.video.line + m'.bus.video.dot = (145 * 456 + m'.cpu.cycles) % 70224) := by
  intro m xs m'
  have hrun : Performs m xs m' := run_performs m n
  have hcycles : m'.cpu.cycles = 4 * Access.length xs := by
    rw [hrun.cycles_eq]
    exact Nat.zero_add _
  have htimer : m'.bus.timer = Timer.run .powerOn (Timer.device.history m.bus xs) := by
    rw [hrun.bus_eq]
    exact Timer.device.state_perform m.bus xs
  have hvideo : m'.bus.video = Video.run .powerOn (Video.device.history m.bus xs) := by
    rw [hrun.bus_eq]
    exact Video.device.state_perform m.bus xs
  have htransfer :
      m'.bus.transfer = ObjectTransfer.run .idle (ObjectTransfer.device.history m.bus xs) := by
    rw [hrun.bus_eq]
    exact ObjectTransfer.device.state_perform m.bus xs
  have htimerTicks : Timer.ticks (Timer.device.history m.bus xs) = m'.cpu.cycles :=
    (Timer.ticks_history m.bus xs).trans hcycles.symm
  have hvideoTicks : Video.ticks (Video.device.history m.bus xs) = m'.cpu.cycles :=
    (Video.ticks_history m.bus xs).trans hcycles.symm
  have hbeat : m'.bus.OnBeat := by
    rw [hrun.bus_eq]
    exact (start_onBeat host cartridge saveAtVBlank).perform xs
  refine ⟨hrun.bus_eq, ⟨htimer, htimerTicks⟩, ⟨hvideo, hvideoTicks⟩, ⟨htransfer, ?_⟩,
    hbeat.divider, hbeat.dot, ?_, ?_⟩
  · rw [ObjectTransfer.steps_history, hcycles]
  · intro hnone
    have hdivider : ∀ v, .write .divider v ∉ Timer.device.history m.bus xs :=
      fun v hv => hnone v (Timer.write_mem_of_mem_history hv)
    rw [htimer, Timer.run_divider hdivider, htimerTicks]
    rfl
  · intro hkeep
    have hon : ∀ e ∈ Video.device.history m.bus xs, e.KeepsOn :=
      fun _ => Video.keepsOn_of_mem_history hkeep
    obtain ⟨-, hphase⟩ := Video.run_phase Video.powerOn_onSchedule rfl hon
    rw [hvideoTicks, ← hvideo] at hphase
    exact hphase

/-- Without a cartridge the processor reads ones, and calls the same address again and again. Two
such steps push two return addresses, and leave divider and display alone. -/
theorem run_open_in_step :
    let m := run 2 (start (.ofVolume .empty) none false)
    m.cpu.cycles = 32 ∧ m.bus.timer.divider.toNat = (0xABCC + 32) % 65536 ∧
      456 * m.bus.video.line + m.bus.video.dot = (145 * 456 + 32) % 70224 := by
  intro m
  have hxs : runAccesses 2 (start (.ofVolume .empty) none false) =
      [.quiet, .quiet, .write 0xFFFD 0x01, .write 0xFFFC 0x01,
        .quiet, .quiet, .write 0xFFFB 0x00, .write 0xFFFA 0x39] := by
    decide +kernel
  obtain ⟨-, -, -, ⟨-, hsteps⟩, -, -, hdivider, hphase⟩ :=
    run_in_step (.ofVolume .empty) none false 2
  have hcycles : m.cpu.cycles = 32 := by
    rw [← hsteps, ObjectTransfer.steps_history, hxs]
    rfl
  rw [hxs] at hdivider hphase
  refine ⟨hcycles, ?_, ?_⟩
  · rw [← hcycles]
    exact hdivider (by simp)
  · rw [← hcycles]
    exact hphase (by simp)

end Machine

end DotMatrix
