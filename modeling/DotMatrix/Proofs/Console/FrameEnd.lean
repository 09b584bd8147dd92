import DotMatrix.Proofs.Bus.Kept
import DotMatrix.Proofs.Checked.Console

/-!
# When a frame ends

Running until a frame is complete comes to an end because of the video unit: while the display is on
vertical blank comes nearer, and while it is off the ticks of a frame run out. A program can keep
both from being seen only by switching the display off and on again within one step.

* `step_video`, `step_cycles`: a step of the console, as the video unit and the clock see it;
* `Restarts`: the next step switches the display off and on again;
* `Pending`: how far a frame that has not ended can have come;
* `Waits`: a processor that waits for ever, never restarts the display, and sees its frames end;
* `runFrame_returns`: unless the display restarts when the ticks of a frame have gone by, the frame
  ends within the ticks of two.
-/

namespace DotMatrix.Console

variable (c : Console)

/-! ### Steps -/

/-- The accesses of the next step. -/
def stepAccesses : List Access := c.traceStep.machine.stepAccesses

/-- What happens to the video unit in the next step. -/
def stepHistory : List Video.Event := Video.device.history c.traceStep.machine.bus c.stepAccesses

/-- Does the next step find the display on, switch it off, and leave it on? -/
def Restarts : Prop :=
  c.machine.bus.video.displayOn = true ∧
    (∃ v, .write 0xFF40 v ∈ c.stepAccesses ∧ Byte.bit v 7 = false) ∧
    c.step.1.machine.bus.video.displayOn = true

theorem traceStep_eq : ∃ trace host, c.traceStep = mapHost { c with trace } fun _ => host := by
  unfold traceStep
  split
  · exact ⟨_, _, rfl⟩
  · split
    · exact ⟨_, _, rfl⟩
    · exact ⟨_, _, rfl⟩

theorem save_eq : ∃ cartridge host,
    c.save = c.mapBus fun b => { b with cartridge, host } := by
  unfold save
  split
  · obtain ⟨cartridge, host, h⟩ := c.machine.bus.saveRam_eq
    exact ⟨cartridge, host, congrArg (fun b => c.mapBus fun _ => b) h⟩
  · exact ⟨_, _, rfl⟩

/-- A step of the console is a step of its machine, but for the cartridge's RAM and the host. -/
theorem step_eq : ∃ cartridge host, c.step.1.machine =
    { c.traceStep.machine.step.1 with
      bus := { c.traceStep.machine.step.1.bus with cartridge, host } } := by
  unfold step
  dsimp only
  split
  · next machine fault h =>
    rw [h]
    exact ⟨_, _, rfl⟩
  · next machine h =>
    rw [h]
    dsimp only
    split
    · obtain ⟨cartridge, host, h⟩ := save_eq { c.traceStep with machine }
      exact ⟨cartridge, host, congrArg Console.machine h⟩
    · exact ⟨_, _, rfl⟩

theorem step_video : c.step.1.machine.bus.video = c.machine.bus.video.run c.stepHistory := by
  obtain ⟨_, _, hstep⟩ := c.step_eq
  obtain ⟨_, _, htrace⟩ := c.traceStep_eq
  have hbus := c.traceStep.machine.step_performs.bus_eq
  have hvideo : c.traceStep.machine.step.1.bus.video =
      c.traceStep.machine.bus.video.run c.stepHistory := by
    rw [hbus]
    exact Video.device.state_perform _ _
  rw [hstep]
  refine hvideo.trans (congrArg (Video.run · c.stepHistory) ?_)
  rw [htrace]
  rfl

theorem step_cycles :
    c.step.1.cycles = c.cycles + Bus.ticksPerCycle * Access.length c.stepAccesses := by
  obtain ⟨_, _, hstep⟩ := c.step_eq
  obtain ⟨_, _, htrace⟩ := c.traceStep_eq
  have hcycles := c.traceStep.machine.step_performs.cycles_eq
  have hbefore : c.traceStep.machine.cpu.cycles = c.cycles := by
    rw [htrace]
    rfl
  rw [hbefore] at hcycles
  rw [cycles, hstep]
  exact hcycles

/-- A step takes from 4 to 44 ticks. -/
theorem step_cycles_bounds : c.cycles + 4 ≤ c.step.1.cycles ∧ c.step.1.cycles ≤ c.cycles + 44 := by
  obtain ⟨hlow, hhigh⟩ : 1 ≤ Access.length c.stepAccesses ∧ Access.length c.stepAccesses ≤ 11 :=
    Machine.stepAccesses_length
  rw [step_cycles]
  unfold Bus.ticksPerCycle
  omega

theorem ne_acknowledge_of_mem_stepHistory {e : Video.Event} (he : e ∈ c.stepHistory) :
    e ≠ .acknowledge :=
  Video.ne_acknowledge_of_mem_history he

variable {c}

/-- A step that keeps the display on completes a frame, or brings vertical blank nearer by its
ticks. -/
theorem step_keepsOn (hs : c.machine.bus.video.OnSchedule)
    (hon : c.machine.bus.video.displayOn = true) (hk : ∀ e ∈ c.stepHistory, e.KeepsOn) :
    c.step.1.frameReady = true ∨
      c.step.1.machine.bus.video.toBlank + c.step.1.cycles =
        c.machine.bus.video.toBlank + c.cycles := by
  have hticks : Video.ticks c.stepHistory = Bus.ticksPerCycle * Access.length c.stepAccesses :=
    Video.ticks_history _ _
  have hcycles := c.step_cycles
  rw [frameReady, step_video]
  obtain ⟨hready, -⟩ | ⟨-, hnear⟩ :=
    Video.run_toBlank hs hon hk fun _ => c.ne_acknowledge_of_mem_stepHistory
  · exact .inl hready
  · right
    omega

/-- A step that switches the display off restarts it or leaves it off. -/
theorem restarts_of_not_keepsOn (hon : c.machine.bus.video.displayOn = true) {e : Video.Event}
    (he : e ∈ c.stepHistory) (hk : ¬e.KeepsOn)
    (hon' : c.step.1.machine.bus.video.displayOn = true) : c.Restarts := by
  cases e with
  | write r v =>
    cases r with
    | control =>
      have hv : Byte.bit v 7 = false := Bool.eq_false_iff.2 hk
      exact ⟨hon, ⟨v, Video.write_mem_of_mem_history he, hv⟩, hon'⟩
    | _ => exact absurd trivial hk
  | _ => exact absurd trivial hk

/-! ### A frame that has not ended -/

/-- What is known of a frame that began at `start` and has not ended: its ticks have not gone by
while the display is off, and vertical blank is not far away while it is on. -/
structure Pending (start : Nat) (c : Console) : Prop where
  onSchedule : c.machine.bus.video.OnSchedule
  off : c.machine.bus.video.displayOn = false → c.cycles < start + Video.frameDots
  on : c.machine.bus.video.displayOn = true →
    c.machine.bus.video.toBlank + c.cycles ≤ start + Video.frameDots + Video.blankPhase + 44

variable {start : Nat}

/-- A frame that begins now. -/
theorem Pending.begin (hs : c.machine.bus.video.OnSchedule) : Pending c.cycles c := by
  have hle := Video.toBlank_le c.machine.bus.video
  refine ⟨hs, fun _ => ?_, fun _ => ?_⟩
  · unfold Video.frameDots
    omega
  · omega

theorem Pending.cycles_lt (h : Pending start c) :
    c.cycles < start + Video.frameDots + Video.blankPhase + 44 := by
  cases hon : c.machine.bus.video.displayOn with
  | true =>
    have hpos := h.onSchedule.toBlank_pos
    have hle := h.on hon
    omega
  | false =>
    have hlt := h.off hon
    omega

theorem not_ended_iff : c.frameEnded start = false ↔
    c.frameReady = false ∧
      (c.machine.bus.video.displayOn = false → c.cycles < start + Video.frameDots) := by
  unfold frameEnded
  cases c.frameReady <;> cases c.machine.bus.video.displayOn <;> simp

/-- A step with which the frame does not end. If it restarts the display, then the ticks of a frame
have not gone by before it. -/
theorem Pending.step (h : Pending start c) (hend : c.step.1.frameEnded start = false)
    (hr : start + Video.frameDots ≤ c.cycles → ¬c.Restarts) : Pending start c.step.1 := by
  obtain ⟨hready, hoff⟩ := not_ended_iff.1 hend
  obtain ⟨-, hlate⟩ := c.step_cycles_bounds
  have hready' : c.step.1.machine.bus.video.frameReady ≠ true := Bool.eq_false_iff.1 hready
  refine ⟨?_, hoff, fun hon' => ?_⟩
  · rw [step_video]
    exact h.onSchedule.run _
  -- The display has been off during the step, so vertical blank is near if the step was not late.
  have hnear (hsoon : c.step.1.machine.bus.video.Soon) (hearly : c.cycles < start + Video.frameDots) :
      c.step.1.machine.bus.video.toBlank + c.step.1.cycles ≤
        start + Video.frameDots + Video.blankPhase + 44 := by
    have hle := (hsoon hon').resolve_left hready'
    omega
  cases hon : c.machine.bus.video.displayOn with
  | false =>
    refine hnear ?_ (h.off hon)
    rw [step_video]
    exact Video.Soon.run (fun hon' => absurd hon' (by simp [hon])) h.onSchedule
      fun _ => c.ne_acknowledge_of_mem_stepHistory
  | true =>
    by_cases hk : ∀ e ∈ c.stepHistory, e.KeepsOn
    · have hsum := (step_keepsOn h.onSchedule hon hk).resolve_left hready'
      have hle := h.on hon
      omega
    · simp only [not_forall] at hk
      obtain ⟨e, he, hk⟩ := hk
      refine hnear ?_ ?_
      · rw [step_video]
        exact Video.run_soon h.onSchedule (fun _ => c.ne_acknowledge_of_mem_stepHistory) he hk
      · have hrestarts := restarts_of_not_keepsOn hon he hk hon'
        by_contra hge
        exact hr (Nat.le_of_not_lt hge) hrestarts

/-- The frame ends with the next step, well or with a fault, or the run goes on after it. -/
theorem runToFrameEnd_cases (start : Nat) (c : Console) :
    (∃ c' ending, c'.cycles = c.step.1.cycles ∧ ending ≠ .unfinished ∧
      ∀ fuel, runToFrameEnd start (fuel + 1) c = (c', ending)) ∨
    c.step.2 = none ∧ c.step.1.frameEnded start = false ∧
      ∀ fuel, runToFrameEnd start (fuel + 1) c = runToFrameEnd start fuel c.step.1 := by
  simp only [runToFrameEnd]
  generalize c.step = x
  obtain ⟨c', fault?⟩ := x
  cases fault? with
  | some fault =>
    left
    exact ⟨c', .faulted fault, rfl, by simp, fun _ => rfl⟩
  | none =>
    by_cases hend : c'.frameEnded start = true
    · left
      exact ⟨c'.frameDone, .reached, rfl, by simp, fun _ => if_pos hend⟩
    · right
      exact ⟨rfl, Bool.eq_false_iff.2 hend, fun _ => if_neg hend⟩

/-- Any number of steps, none of which restarts the display when the ticks of a frame have gone
by. -/
theorem Pending.run (h : Pending start c) (fuel : Nat)
    (hr : ∀ k, (runToFrameEnd start k c).2 = .unfinished →
      start + Video.frameDots ≤ (runToFrameEnd start k c).1.cycles →
      ¬(runToFrameEnd start k c).1.Restarts) :
    (runToFrameEnd start fuel c).1.cycles < start + 2 * Video.frameDots ∧
      ((runToFrameEnd start fuel c).2 = .unfinished →
        c.cycles + 4 * fuel ≤ (runToFrameEnd start fuel c).1.cycles) := by
  have hblank : Video.blankPhase + 88 ≤ Video.frameDots := by decide
  induction fuel generalizing c with
  | zero =>
    have hlt := h.cycles_lt
    exact ⟨by simp only [runToFrameEnd]; omega, fun _ => Nat.le_refl _⟩
  | succ fuel ih =>
    have hlt := h.cycles_lt
    obtain ⟨hmin, hmax⟩ := c.step_cycles_bounds
    obtain ⟨c', ending, hc, hne, hrun⟩ | ⟨-, hend, hrun⟩ := runToFrameEnd_cases start c
    · rw [hrun]
      refine ⟨?_, fun hun => absurd hun hne⟩
      rw [hc]
      omega
    · have hnext : Pending start c.step.1 := h.step hend (hr 0 rfl)
      obtain ⟨hbound, htime⟩ := ih hnext fun k => hrun k ▸ hr (k + 1)
      rw [hrun]
      refine ⟨hbound, fun hun => ?_⟩
      have hle := htime hun
      omega

/-! ### A processor that waits -/

/-- The processor waits, and no interrupt is enabled that could end that. -/
structure Waits (c : Console) : Prop where
  halted_eq : c.machine.cpu.halted = true
  enable_eq : c.machine.bus.interrupts.enable = 0

/-- No instruction is executed, so none is traced. -/
theorem Waits.traceStep_eq (h : Waits c) : c.traceStep = c := by
  unfold traceStep
  exact if_pos h.halted_eq

/-- A step of waiting is a quiet machine cycle, and the processor goes on waiting. -/
theorem Waits.step (h : Waits c) : c.stepAccesses = [.quiet] ∧ Waits c.step.1 := by
  have htrace := h.traceStep_eq
  have henable : c.machine.cycle.bus.interrupts.enable = 0 :=
    c.machine.bus.cycle_raised.enable_eq.trans h.enable_eq
  have hpending : c.machine.cycle.bus.interrupts.pending = 0 := by
    simp [Interrupts.pending, henable]
  have hhighest : c.machine.cycle.bus.interrupts.highest? = none := by
    simp [Interrupts.highest?, hpending]
  have hhalted : c.machine.cycle.cpu.halted = true := h.halted_eq
  have hstill : (c.machine.cycle.cpu.halted && (0 : UInt8) == 0) = c.machine.cycle.cpu.halted :=
    Bool.and_true _
  have hwait : c.machine.step = (c.machine.cycle, none) := by
    rw [Machine.step, if_pos h.halted_eq, Machine.wait, Machine.poll]
    dsimp only
    rw [hhighest, hpending, hstill, ite_self]
  have hwaiting : c.machine.stepAccesses = [.quiet] := by
    rw [Machine.stepAccesses, if_pos h.halted_eq, Machine.waiting, Machine.polling]
    dsimp only
    rw [hhighest, ite_self]
  obtain ⟨_, _, hstep⟩ := c.step_eq
  rw [htrace, hwait] at hstep
  refine ⟨?_, ?_, ?_⟩
  · rw [stepAccesses, htrace]
    exact hwaiting
  · rw [hstep]
    exact hhalted
  · rw [hstep]
    exact henable

theorem waits_invariant : Invariant Waits where
  step h := h.step.2
  frameDone h := ⟨h.halted_eq, h.enable_eq⟩

theorem Waits.runToFrameEnd (h : Waits c) (start fuel : Nat) :
    Waits (Console.runToFrameEnd start fuel c).1 :=
  waits_invariant.runToFrameEnd h start fuel

/-- A processor that waits finds no instruction that it could not execute. -/
theorem Waits.step_fault (h : Waits c) : c.step.2 = none := by
  have hwait : c.machine.step = (c.machine.wait, none) := if_pos h.halted_eq
  rw [Console.step, h.traceStep_eq, hwait]

theorem Waits.runToFrameEnd_ne_faulted (h : Waits c) (start fuel : Nat) (fault : Fault) :
    (Console.runToFrameEnd start fuel c).2 ≠ .faulted fault := by
  induction fuel generalizing c with
  | zero =>
    intro h
    cases h
  | succ fuel ih =>
    have hnext := h.step.2
    have hwell := h.step_fault
    unfold Console.runToFrameEnd
    generalize c.step = x at hnext hwell
    obtain ⟨d, fault?⟩ := x
    obtain rfl : fault? = none := hwell
    dsimp only
    split
    · intro h
      cases h
    · exact ih hnext

theorem Waits.not_restarts (h : Waits c) : ¬c.Restarts := by
  rintro ⟨-, ⟨v, hv, -⟩, -⟩
  rw [h.step.1] at hv
  simp at hv

/-- A processor that waits sees the frame end, and goes on waiting. -/
theorem Waits.reaches (h : Waits c) (hp : Pending start c) :
    ∃ steps d, Console.runToFrameEnd start steps c = (d, .reached) ∧ Waits d := by
  -- Each step takes some ticks, so that many steps are more than the frame can last.
  obtain ⟨hbound, htime⟩ := hp.run (start + 2 * Video.frameDots) fun k _ _ =>
    (h.runToFrameEnd start k).not_restarts
  refine ⟨start + 2 * Video.frameDots, _, Prod.ext rfl ?_, h.runToFrameEnd start _⟩
  cases hending : (Console.runToFrameEnd start (start + 2 * Video.frameDots) c).2 with
  | reached => rfl
  | faulted fault => exact absurd hending (h.runToFrameEnd_ne_faulted _ _ fault)
  | unfinished =>
    have hle := htime hending
    omega

/-! ### The end of a frame -/

theorem Operation.run_ready (os : List Operation) (h : Ready c) : Ready (Operation.run os c) := by
  induction os generalizing c with
  | nil => exact h
  | cons o os ih => exact ih (o.perform_ready h)

/-- **When a frame ends.** From any console in use, running a frame comes to an end, well or with a
fault, before the ticks of two frames have gone by, if no step that begins when the ticks of one
have gone by switches the display off and on again. `2 * Video.frameDots / 4` steps are enough. -/
theorem runFrame_returns (host : Host) (os : List Operation)
    (hc : c = Operation.run os (powerOn host))
    (hr : ∀ k, (c.runFrame k).2 = .unfinished →
      c.cycles + Video.frameDots ≤ (c.runFrame k).1.cycles → ¬(c.runFrame k).1.Restarts)
    (fuel : Nat) (hf : 2 * Video.frameDots / 4 ≤ fuel) :
    (c.runFrame fuel).2 ≠ .unfinished ∧
      (c.runFrame fuel).1.cycles < c.cycles + 2 * Video.frameDots := by
  have hsound : c.machine.bus.Sound := by
    rw [hc]
    exact (Operation.run_ready os (Operation.powerOn_ready host)).sound
  have hpending : Pending c.cycles c := .begin hsound.onSchedule
  obtain ⟨hbound, htime⟩ := hpending.run fuel hr
  refine ⟨fun hun => ?_, hbound⟩
  have hle := htime hun
  unfold runFrame at *
  unfold Video.frameDots at *
  omega

/-- The smallest image whose program is `HALT`. -/
def haltImage : ByteArray :=
  ⟨⟨List.replicate 0x100 0 ++ [0x76] ++ List.replicate 0x4C 0 ++ [0xE7, 0, 0]⟩⟩

/-- A console that waits from its first instruction on completes a frame. -/
theorem runFrame_haltImage_returns :
    let c := Operation.run [.insertImage haltImage, .step] (powerOn (.ofVolume .empty))
    (c.runFrame 35112).2 ≠ .unfinished ∧
      (c.runFrame 35112).1.cycles < c.cycles + 2 * Video.frameDots := by
  have hwaits : Waits (Operation.run [.insertImage haltImage, .step] (powerOn (.ofVolume .empty))) :=
    ⟨by decide +kernel, by decide +kernel⟩
  exact runFrame_returns (.ofVolume .empty) _ rfl
    (fun k _ _ => (hwaits.runToFrameEnd _ k).not_restarts) _ (by decide)

end DotMatrix.Console
