import DotMatrix.Proofs.Console.FrameEnd

/-!
# Frames do not drift

A frame ends with the step in which vertical blank begins, and that step may go on for some ticks
more. They are taken from the next frame, so that they do not add up: as long as the display is not
switched off, every frame ends within one step of its own time, and none is left out or counted
twice.

* `Started`: a console on which nothing has run yet;
* `Paced`: a console between two frames, or within one, with its clock, its place in the frame and
  its two counts of frames in agreement;
* `Paced.step`, `Paced.runToFrameEnd`: a step goes on within the frame or ends it in time;
* `Frames`: frames run in a row, with all their accesses;
* `frames_do_not_drift`: when each of the frames ends.
-/

namespace DotMatrix.Console

variable {c d : Console}

/-! ### A console on which nothing has run -/

/-- A console that has been prepared, and on which nothing has run. -/
inductive Started : Console → Prop
  | powerOn (host : Host) : Started (powerOn host)
  | insert {c : Console} (cartridge : Cartridge) : Started c → Started (c.insert cartridge)
  | insertImage {c d : Console} {image : ByteArray} :
    Started c → c.insertImage image = .ok d → Started d
  | insertFile {c d : Console} {path : String} :
    Started c → c.insertFile path = .ok d → Started d
  | setPolicy {c : Console} (policy : SavePolicy) : Started c → Started (c.setPolicy policy)
  | setTrace {c : Console} (sink : Option Trace.Sink) : Started c → Started (c.setTrace sink)
  | setButton {c : Console} (button : Button) (down : Bool) :
    Started c → Started (c.setButton button down)

/-- What the clock and the frames are before anything has run. -/
structure Fresh (c : Console) : Prop where
  video_eq : c.machine.bus.video = .powerOn
  cycles_eq : c.cycles = 0
  framesDone_eq : c.framesDone = 0

theorem Fresh.insert (h : Fresh c) (f : Host → Host) (cartridge : Cartridge) :
    Fresh ((c.mapHost f).insert cartridge) :=
  ⟨h.video_eq, h.cycles_eq, h.framesDone_eq⟩

theorem Started.fresh (h : Started c) : Fresh c := by
  induction h with
  | powerOn host => exact ⟨rfl, rfl, rfl⟩
  | insert cartridge _ ih => exact ⟨ih.video_eq, ih.cycles_eq, ih.framesDone_eq⟩
  | insertImage _ hd ih =>
    unfold Console.insertImage at hd
    split at hd
    · cases hd
    · cases hd
      exact ih.insert _ _
  | insertFile _ hd ih =>
    unfold Console.insertFile at hd
    split at hd
    · cases hd
    · cases hd
      exact ih.insert _ _
  | setPolicy | setTrace | setButton =>
    rename_i ih
    exact ⟨ih.video_eq, ih.cycles_eq, ih.framesDone_eq⟩

/-! ### Keeping the pace -/

/-- The display is on, no frame is complete, and the clock agrees with the place in the frame and
with both counts of frames. At power on, the first line of vertical blank has gone by. -/
structure Paced (c : Console) : Prop where
  onSchedule : c.machine.bus.video.OnSchedule
  displayOn : c.machine.bus.video.displayOn = true
  frameReady : c.frameReady = false
  place : Video.frameDots * c.machine.bus.video.frames + c.machine.bus.video.phase =
    Video.blankPhase + Video.lineDots + c.cycles
  after : Video.frameDots * c.framesDone ≤ c.cycles + Video.lineDots
  before : c.cycles + Video.lineDots < Video.frameDots * (c.framesDone + 1)

theorem Fresh.paced (h : Fresh c) : Paced c := by
  refine ⟨?_, ?_, ?_, ?_, ?_, ?_⟩
  · rw [h.video_eq]
    exact Video.powerOn_onSchedule
  · rw [h.video_eq]
    decide
  · rw [Console.frameReady, h.video_eq]
    rfl
  · rw [h.video_eq, h.cycles_eq]
    decide
  · rw [h.framesDone_eq]
    exact Nat.zero_le _
  · rw [h.framesDone_eq, h.cycles_eq]
    decide

/-- The time left is the time until vertical blank. -/
theorem Paced.toBlank (h : Paced c) :
    c.cycles + c.machine.bus.video.toBlank + Video.lineDots =
      Video.frameDots * (c.framesDone + 1) := by
  have hlt := h.onSchedule.phase_lt
  obtain ⟨-, -, -, hplace, hafter, hbefore⟩ := h
  unfold Video.toBlank
  unfold Video.blankPhase screenHeight Video.lineDots Video.frameDots at *
  split <;> omega

/-- When a frame that has just ended did so: less than a step after its time. -/
def InTime (c : Console) : Prop :=
  Video.frameDots * c.framesDone ≤ c.cycles + Video.lineDots ∧
    c.cycles + Video.lineDots < Video.frameDots * c.framesDone + 44

/-- In time for the frame, the console has counted as many frames as the video unit. -/
theorem Paced.frames_eq (h : Paced c) (ht : InTime c) :
    c.machine.bus.video.frames = c.framesDone := by
  have hlt := h.onSchedule.phase_lt
  have hplace := h.place
  unfold InTime at ht
  unfold Video.blankPhase screenHeight Video.lineDots Video.frameDots at *
  omega

theorem step_framesDone (c : Console) : c.step.1.framesDone = c.framesDone := by
  obtain ⟨_, hstep⟩ := c.step_withMachine
  obtain ⟨_, _, htrace⟩ := c.traceStep_eq
  rw [hstep, htrace]
  rfl

/-- Every write to the display's control register leaves the display on. -/
def LeavesOn (xs : List Access) : Prop := ∀ v, .write 0xFF40 v ∈ xs → Byte.bit v 7 = true

theorem leavesOn_append {xs ys : List Access} :
    LeavesOn (xs ++ ys) ↔ LeavesOn xs ∧ LeavesOn ys := by
  simp only [LeavesOn, List.mem_append, or_imp, forall_and]

/-- **A step keeps the pace.** It goes on within the frame, or it ends the frame in time. -/
theorem Paced.step (h : Paced c) (hx : LeavesOn c.stepAccesses) (start : Nat) :
    c.step.1.frameEnded start = false ∧ Paced c.step.1 ∨
      c.step.1.frameEnded start = true ∧ Paced c.step.1.frameDone ∧ InTime c.step.1.frameDone := by
  obtain ⟨-, hlate⟩ := c.step_cycles_bounds
  have hleft := h.toBlank
  have hplace := h.place
  have hclock := c.step_cycles
  have hticks : Video.ticks c.stepHistory = Bus.ticksPerCycle * Access.length c.stepAccesses :=
    Video.ticks_history _ _
  have hk : ∀ e ∈ c.stepHistory, e.KeepsOn := fun _ => Video.keepsOn_of_mem_history hx
  have hschedule := h.onSchedule.run c.stepHistory
  obtain ⟨hon, -⟩ := Video.run_phase h.onSchedule h.displayOn hk
  have hframes := Video.run_frames h.onSchedule h.displayOn hk
  have hblank := Video.run_toBlank h.onSchedule h.displayOn hk fun _ =>
    c.ne_acknowledge_of_mem_stepHistory
  rw [← step_video] at hschedule hon hframes hblank
  have hplace' : Video.frameDots * c.step.1.machine.bus.video.frames +
      c.step.1.machine.bus.video.phase =
        Video.blankPhase + Video.lineDots + c.step.1.cycles := by
    omega
  have hpos := h.onSchedule.toBlank_pos
  obtain ⟨hready, hle⟩ | ⟨hready, hnear⟩ := hblank
  · right
    -- Vertical blank was due after the beginning of the step and not after its end.
    have hdone : c.step.1.frameDone.framesDone = c.framesDone + 1 :=
      congrArg Nat.succ c.step_framesDone
    have hintime : InTime c.step.1.frameDone := by
      unfold InTime
      rw [hdone]
      show _ ≤ c.step.1.cycles + _ ∧ c.step.1.cycles + _ < _
      omega
    refine ⟨?_, ⟨?_, hon, rfl, hplace', hintime.1, ?_⟩, hintime⟩
    · unfold frameEnded Console.frameReady
      rw [hready]
      rfl
    · exact hschedule.congr rfl rfl rfl rfl rfl
    · have hlt := hintime.2
      unfold Video.frameDots at *
      omega
  · left
    have hsame := c.step_framesDone
    have hpos' := hschedule.toBlank_pos
    have hready' : c.step.1.frameReady = false := hready.trans h.frameReady
    have hafter := h.after
    refine ⟨not_ended_iff.2 ⟨hready', fun hoff => absurd hon (by simp [hoff])⟩, hschedule, hon,
      hready', hplace', ?_, ?_⟩
    · rw [hsame]
      omega
    · rw [hsame]
      omega

/-! ### Frames in a row -/

/-- The accesses of running until the frame that began at `start` has ended. -/
def frameAccesses (start : Nat) : Nat → Console → List Access
  | 0, _ => []
  | fuel + 1, c =>
    c.stepAccesses ++
      match c.step with
      | (_, some _) => []
      | (d, none) => if d.frameEnded start then [] else frameAccesses start fuel d

theorem Paced.runToFrameEnd {start fuel : Nat} (h : Paced c)
    (hx : LeavesOn (frameAccesses start fuel c))
    (hrun : runToFrameEnd start fuel c = (d, .reached)) :
    Paced d ∧ InTime d ∧ d.framesDone = c.framesDone + 1 := by
  induction fuel generalizing c with
  | zero => cases hrun
  | succ fuel ih =>
    unfold frameAccesses at hx
    obtain ⟨hfirst, hrest⟩ := leavesOn_append.1 hx
    have hstep := h.step hfirst start
    have hsame := c.step_framesDone
    unfold Console.runToFrameEnd at hrun
    generalize c.step = x at hrest hstep hsame hrun
    obtain ⟨e, fault?⟩ := x
    cases fault? with
    | some fault => cases hrun
    | none =>
      dsimp only at hrest hstep hsame hrun
      rcases hstep with ⟨hend, hpaced⟩ | ⟨hend, hpaced, hintime⟩
      · rw [if_neg (Bool.eq_false_iff.1 hend)] at hrest hrun
        rw [← hsame]
        exact ih hpaced hrest hrun
      · rw [if_pos hend] at hrun
        cases hrun
        exact ⟨hpaced, hintime, congrArg Nat.succ hsame⟩

/-- Frames are run in a row, and each of them is completed. The bound on steps may be another one
for every frame. -/
inductive Frames : Nat → Console → List Access → Console → Prop
  | none {c : Console} : Frames 0 c [] c
  | frame {k steps : Nat} {c d e : Console} {xs : List Access} :
    Frames k c xs d → d.runFrame steps = (e, .reached) →
    Frames (k + 1) c (xs ++ frameAccesses d.cycles steps d) e

theorem Frames.paced {k : Nat} {xs : List Access} (h : Frames k c xs d) (hc : Paced c)
    (hx : LeavesOn xs) : Paced d ∧ d.framesDone = c.framesDone + k ∧ (0 < k → InTime d) := by
  induction h with
  | none => exact ⟨hc, rfl, fun hk => absurd hk (Nat.lt_irrefl 0)⟩
  | frame _ hrun ih =>
    obtain ⟨hbefore, hlast⟩ := leavesOn_append.1 hx
    obtain ⟨hpaced, hdone, -⟩ := ih hc hbefore
    obtain ⟨hpaced', hintime, hdone'⟩ := hpaced.runToFrameEnd hlast hrun
    exact ⟨hpaced', by omega, fun _ => hintime⟩

/-! ### A processor that waits -/

theorem Waits.frameAccesses (h : Waits c) (start fuel : Nat) :
    ∀ x ∈ frameAccesses start fuel c, x = .quiet := by
  induction fuel generalizing c with
  | zero => nofun
  | succ fuel ih =>
    obtain ⟨hquiet, hnext⟩ := h.step
    unfold Console.frameAccesses
    rw [hquiet]
    generalize c.step = x at hnext
    obtain ⟨d, fault?⟩ := x
    intro x hmem
    rcases List.mem_append.1 hmem with hmem | hmem
    · exact List.mem_singleton.1 hmem
    · cases fault? with
      | some fault => cases hmem
      | none =>
        dsimp only at hmem
        split at hmem
        · cases hmem
        · exact ih hnext x hmem

theorem leavesOn_of_quiet {xs : List Access} (h : ∀ x ∈ xs, x = .quiet) : LeavesOn xs := by
  intro v hv
  cases h _ hv

/-- The processor begins to wait, and completes the frame. -/
theorem Paced.reaches_of_step (h : Paced c) (hx : LeavesOn c.stepAccesses) (hwell : c.step.2 = none)
    (hend : c.step.1.frameEnded c.cycles = false) (hw : Waits c.step.1) :
    ∃ steps d, c.runFrame steps = (d, .reached) ∧ Waits d ∧
      LeavesOn (Console.frameAccesses c.cycles steps c) := by
  have hstep : c.step = (c.step.1, none) := Prod.ext rfl hwell
  have hpending : Pending c.cycles c.step.1 := by
    refine (Pending.begin h.onSchedule).step hend fun hle => ?_
    have hpos : 0 < Video.frameDots := by decide
    omega
  obtain ⟨steps, d, hrun, hd⟩ := hw.reaches hpending
  refine ⟨steps + 1, d, ?_, hd, ?_⟩
  · unfold runFrame Console.runToFrameEnd
    rw [hstep]
    exact (if_neg (Bool.eq_false_iff.1 hend)).trans hrun
  · unfold Console.frameAccesses
    rw [hstep]
    refine leavesOn_append.2 ⟨hx, ?_⟩
    dsimp only
    rw [if_neg (Bool.eq_false_iff.1 hend)]
    exact leavesOn_of_quiet (hw.frameAccesses _ steps)

/-! ### When the frames end -/

/-- **Frames do not drift.** From power on, with any cartridge and any program, frames are run in a
row and all of them are completed; no write to the display's control register switches the display
off on the way. Then the last of them ends less than 44 ticks after its own time, however long the
others took. Both counts of frames are right, and no frame is left to be acknowledged. -/
theorem frames_do_not_drift {k : Nat} {xs : List Access} (hs : Started c)
    (hr : Frames (k + 1) c xs d) (hx : LeavesOn xs) :
    69768 + k * 70224 ≤ d.cycles ∧ d.cycles < 69768 + k * 70224 + 44 ∧
      d.machine.bus.video.frames = k + 1 ∧ d.frameReady = false ∧ d.framesDone = k + 1 := by
  have hfresh := hs.fresh
  obtain ⟨hpaced, hdone, hintime⟩ := hr.paced hfresh.paced hx
  rw [hfresh.framesDone_eq, Nat.zero_add] at hdone
  have hintime := hintime (Nat.succ_pos k)
  have hframes := hpaced.frames_eq hintime
  rw [hdone] at hframes
  unfold InTime at hintime
  rw [hdone] at hintime
  unfold Video.frameDots Video.lineDots at hintime
  exact ⟨by omega, by omega, hframes, hpaced.frameReady, hdone⟩

/-- The processor waits from its first instruction on, for two frames. -/
theorem waiting_does_not_drift :
    ∃ c xs d, (powerOn (.ofVolume .empty)).insertImage haltImage = .ok c ∧ Frames 2 c xs d ∧
      139992 ≤ d.cycles ∧ d.cycles < 140036 ∧ d.machine.bus.video.frames = 2 := by
  have hfirst : ((powerOn (.ofVolume .empty)).insertImage haltImage).toOption.any (fun c =>
      c.cycles = 0 ∧ c.stepAccesses = [.quiet] ∧ c.step.2 = none ∧ c.step.1.frameEnded 0 = false ∧
        c.step.1.machine.cpu.halted = true ∧ c.step.1.machine.bus.interrupts.enable = 0) = true := by
    decide +kernel
  cases hc : (powerOn (.ofVolume .empty)).insertImage haltImage with
  | error e =>
    rw [hc] at hfirst
    cases hfirst
  | ok c =>
    rw [hc] at hfirst
    obtain ⟨hcycles, hquiet, hwell, hend, hhalted, henable⟩ := of_decide_eq_true hfirst
    have hs : Started c := .insertImage (.powerOn _) hc
    have hpaced := hs.fresh.paced
    have hleaves : LeavesOn c.stepAccesses := by
      rw [hquiet]
      exact leavesOn_of_quiet fun _ => List.mem_singleton.1
    obtain ⟨n, d, hrun, hwaits, hx⟩ :=
      hpaced.reaches_of_step hleaves hwell (hcycles ▸ hend) ⟨hhalted, henable⟩
    have hone : Frames 1 c _ d := .frame .none hrun
    have hmiddle := (hone.paced hpaced hx).1
    obtain ⟨m, e, hrun', -⟩ := hwaits.reaches (.begin hmiddle.onSchedule)
    have hx' := leavesOn_of_quiet (hwaits.frameAccesses d.cycles m)
    have htwo : Frames 2 c _ e := .frame hone hrun'
    obtain ⟨hearly, hlate, hframes, -⟩ := frames_do_not_drift hs htwo (leavesOn_append.2 ⟨hx, hx'⟩)
    exact ⟨c, _, e, rfl, htwo, hearly, hlate, hframes⟩

end DotMatrix.Console
