import DotMatrix.Console.Run
import DotMatrix.Proofs.Checked.Execute
import DotMatrix.Proofs.Console.Invariant

/-!
# A console in use, checked

Whatever is done to a console, in whatever order, every part of the machine finds its indices in
range and its numbers within their width. The only thing that runs out is the clock, after `2 ^ 64`
ticks.

* `Operation`, `run`: what can be done to a console from outside, and a sequence of it;
* `elapsed`: the clock ticks of a sequence, over all its starts;
* `run?_eq`: from a console that is ready, the checked sequence gives the same console as the
  sequence itself.
-/

namespace DotMatrix

namespace Console

/-- The machine is ready for any operation: its bus is sound, and its clock stands between two
machine cycles. -/
structure Ready (c : Console) : Prop where
  sound : c.machine.bus.Sound
  whole : Bus.ticksPerCycle ∣ c.cycles

variable (c : Console)

/-! ### Steps -/

/-- The trace line for the next instruction. -/
def traceLine? : Option String := do
  let r := c.machine.cpu.registers
  let b0 ← c.machine.bus.read? (r.pc + 0)
  let b1 ← c.machine.bus.read? (r.pc + 1)
  let b2 ← c.machine.bus.read? (r.pc + 2)
  let b3 ← c.machine.bus.read? (r.pc + 3)
  some (Trace.line r b0 b1 b2 b3)

/-- Trace the next instruction, if there is a trace and the processor is about to execute one. -/
def traceStep? : Option Console :=
  if c.machine.cpu.halted then some c
  else
    match c.trace with
    | none => some c
    | some sink => do
      let line ← c.traceLine?
      let (sink, volume) := sink.record c.host.volume line
      some (mapHost { c with trace := some sink } fun h => { h with volume })

/-- One step of the processor, and the fault if it cannot go on. -/
def step? : Option (Console × Option Fault) := do
  let c ← c.traceStep?
  match ← c.machine.step? with
  | (machine, some fault) => some ({ c with machine }, some fault)
  | (machine, none) =>
    let c := { c with machine }
    some (if c.policy = .everyInstruction then c.save else c, none)

theorem traceLine?_eq : c.traceLine? = some c.traceLine := by
  simp only [traceLine?, Bus.read?_eq, Option.bind_eq_bind, Option.bind_some]
  rfl

theorem traceStep_tracks : Machine.Tracks machine c.machine c.traceStep? c.traceStep := by
  unfold traceStep? traceStep
  split
  · exact .some (.refl _)
  · cases c.trace with
    | none => exact .some (.refl _)
    | some sink =>
      dsimp only
      rw [traceLine?_eq]
      exact .some (.ofBus fun h => h.congr rfl rfl rfl)

theorem save_leads : Machine.Leads c.machine c.save.machine := by
  unfold save
  split
  · exact .ofBus fun h => h.saveRam
  · exact .refl _

theorem step_tracks : Machine.Tracks (·.1.machine) c.machine c.step? c.step := by
  refine c.traceStep_tracks.bind ?_
  unfold step
  generalize c.traceStep = c
  dsimp only
  refine c.machine.step_tracks.bind ?_
  generalize c.machine.step = x
  obtain ⟨machine, fault?⟩ := x
  cases fault? with
  | some fault => exact .some (.refl _)
  | none =>
    refine .some ?_
    dsimp only
    split
    · exact save_leads { c with machine }
    · exact .refl _

/-! ### Running -/

/-- Has the frame that began at `start` ended? -/
def frameEnded? (start : Nat) : Option Bool :=
  if c.frameReady then some true
  else if c.machine.bus.video.displayOn then some false
  else do
    let elapsed ← Checked.sub c.cycles start
    some (decide (Video.frameDots ≤ elapsed))

/-- Take up to `fuel` steps, until the frame that began at `start` has ended. -/
def runToFrameEnd? (start : Nat) : Nat → Console → Option (Console × Ending)
  | 0, c => some (c, .unfinished)
  | fuel + 1, c => do
    match ← c.step? with
    | (c, some fault) => some (c, .faulted fault)
    | (c, none) =>
      let ended ← c.frameEnded? start
      if ended then some (c.frameDone, .reached) else runToFrameEnd? start fuel c

/-- One step; a frame that it completes is acknowledged. -/
def stepFrames? : Option (Console × Option Fault) := do
  match ← c.step? with
  | (c, some fault) => some (c, some fault)
  | (c, none) => some (if c.frameReady then c.frameDone else c, none)

/-- Take up to `fuel` steps, until the clock has reached `target`. -/
def runToCycle? (target : Nat) : Nat → Console → Option (Console × Ending)
  | 0, c => some (c, if target ≤ c.cycles then .reached else .unfinished)
  | fuel + 1, c =>
    if target ≤ c.cycles then some (c, .reached)
    else do
      match ← c.stepFrames? with
      | (c, some fault) => some (c, .faulted fault)
      | (c, none) => runToCycle? target fuel c

/-- Run for at least the given clock ticks. The target stays within the width of the clock. -/
def runCycles? (ticks : Nat) : Option (Console × Ending) :=
  runToCycle? (Checked.addCapped 64 c.cycles ticks) ticks c

variable {c}

theorem frameEnded?_eq {start : Nat} (h : start ≤ c.cycles) :
    c.frameEnded? start = some (c.frameEnded start) := by
  unfold frameEnded? frameEnded
  cases c.frameReady with
  | true => rfl
  | false =>
    cases c.machine.bus.video.displayOn with
    | true => rfl
    | false =>
      rw [Checked.sub_eq h]
      have hle : Video.frameDots ≤ c.cycles - start ↔ start + Video.frameDots ≤ c.cycles := by omega
      exact congrArg some (decide_eq_decide.2 hle)

theorem frameDone_leads (c : Console) : Machine.Leads c.machine c.frameDone.machine :=
  .ofBus fun h => ⟨h.onSchedule.congr rfl rfl rfl rfl rfl, h.latched.congr rfl rfl rfl id,
    h.windowOpen, h.counting⟩

theorem runToFrameEnd_tracks {start : Nat} (fuel : Nat) (h : start ≤ c.cycles) :
    Machine.Tracks (·.1.machine) c.machine (runToFrameEnd? start fuel c)
      (runToFrameEnd start fuel c) := by
  induction fuel generalizing c with
  | zero => exact .some (.refl _)
  | succ fuel ih =>
    have hstep := c.step_tracks
    have hle : start ≤ c.step.1.cycles := Nat.le_trans h hstep.leads.cycles_le
    refine hstep.bind ?_
    unfold runToFrameEnd
    generalize c.step = x at hle
    obtain ⟨c, fault?⟩ := x
    cases fault? with
    | some fault => exact .some (.refl _)
    | none =>
      dsimp only
      rw [frameEnded?_eq hle]
      simp only [Option.bind_eq_bind, Option.bind_some]
      split
      · exact .some (frameDone_leads c)
      · exact ih hle

theorem stepFrames_tracks (c : Console) :
    Machine.Tracks (·.1.machine) c.machine c.stepFrames? c.stepFrames := by
  refine c.step_tracks.bind ?_
  unfold stepFrames
  generalize c.step = x
  obtain ⟨c, fault?⟩ := x
  cases fault? with
  | some fault => exact .some (.refl _)
  | none =>
    refine .some ?_
    dsimp only
    split
    · exact frameDone_leads c
    · exact .refl _

theorem leads_invariant (m : Machine) : Invariant fun c => Machine.Leads m c.machine where
  step h := h.trans (step_tracks _).leads
  frameDone h := h.trans (frameDone_leads _)

theorem runToCycle_leads (target fuel : Nat) (c : Console) :
    Machine.Leads c.machine (runToCycle target fuel c).1.machine :=
  (leads_invariant c.machine).runToCycle (.refl _) target fuel

theorem Ready.of_leads {c' : Console} (h : Ready c) (hl : Machine.Leads c.machine c'.machine) :
    Ready c' := by
  obtain ⟨n, hn⟩ := hl.clock
  refine ⟨hl.sound h.sound, ?_⟩
  show Bus.ticksPerCycle ∣ c'.machine.cpu.cycles
  rw [hn]
  exact Nat.dvd_add h.whole (Nat.dvd_mul_right _ n)

/-- The clock never shows the greatest number of its width, so the target is reached as soon as it
would be without a bound. -/
theorem Ready.capped_le_iff (h : Ready c) (hc : c.cycles < 2 ^ 64) (target : Nat) :
    min target (2 ^ 64 - 1) ≤ c.cycles ↔ target ≤ c.cycles := by
  have hwhole : 4 ∣ c.cycles := h.whole
  omega

theorem runToCycle?_eq {target : Nat} (fuel : Nat) (h : Ready c)
    (hc : (runToCycle target fuel c).1.cycles < 2 ^ 64) :
    runToCycle? (min target (2 ^ 64 - 1)) fuel c = some (runToCycle target fuel c) := by
  have hnow : c.cycles < 2 ^ 64 :=
    Nat.lt_of_le_of_lt (runToCycle_leads target fuel c).cycles_le hc
  have hcapped := h.capped_le_iff hnow target
  induction fuel generalizing c with
  | zero => simp only [runToCycle?, runToCycle, hcapped]
  | succ fuel ih =>
    unfold runToCycle? runToCycle
    unfold runToCycle at hc
    by_cases hreached : target ≤ c.cycles
    · rw [if_pos hreached, if_pos (hcapped.2 hreached)]
    rw [if_neg hreached] at hc ⊢
    rw [if_neg (mt hcapped.1 hreached)]
    have hstep := stepFrames_tracks c
    have hready : Ready c.stepFrames.1 := h.of_leads hstep.leads
    have hresult := hstep.result h.sound
    generalize c.stepFrames = x at hc hready hresult ⊢
    obtain ⟨c', fault?⟩ := x
    cases fault? with
    | some fault =>
      rw [hresult hc]
      rfl
    | none =>
      -- The clock only goes on, so it is not full before the rest of the run.
      have hlt : c'.cycles < 2 ^ 64 :=
        Nat.lt_of_le_of_lt (runToCycle_leads target fuel c').cycles_le hc
      rw [hresult hlt]
      exact ih hready hc hlt (hready.capped_le_iff hlt target)

/-! ### Cartridges -/

/-- Put in a cartridge with the given image, if the image is accepted. -/
def insertAccepted (c : Console) (image : ByteArray) : Console :=
  match c.insertImage image with
  | .error _ => c
  | .ok c => c

/-- Put in a cartridge with the given image, if the image is accepted. -/
def insertAccepted? (c : Console) (image : ByteArray) : Option Console := do
  match ← Cartridge.ofImage? image with
  | .error _ => some c
  | .ok cartridge => some ((c.mapHost (·.recordAll cartridge.warnings)).insert cartridge)

theorem insertAccepted?_eq (image : ByteArray) :
    c.insertAccepted? image = some (c.insertAccepted image) := by
  rw [insertAccepted?, Cartridge.ofImage?_eq]
  unfold insertAccepted insertImage
  cases Cartridge.ofImage image <;> rfl

theorem insertAccepted_leads (c : Console) (image : ByteArray) :
    Machine.Leads c.machine (c.insertAccepted image).machine := by
  unfold insertAccepted insertImage
  cases Cartridge.ofImage image with
  | error e => exact .refl _
  | ok cartridge => exact .ofBus fun h => h.congr rfl rfl rfl

/-! ### Operations -/

/-- What can be done to a console from outside. -/
inductive Operation
  | step
  | runCycles (ticks : Nat)
  | runFrame (steps : Nat)
  | read (a : UInt16)
  | write (a : UInt16) (v : UInt8)
  | setButton (button : Button) (down : Bool)
  | takeSerial
  | save
  | reset
  /-- Put a cartridge in. -/
  | insert (cartridge : Cartridge)
  /-- Put in a cartridge with the given image, if the image is accepted. -/
  | insertImage (image : ByteArray)
  | setPolicy (policy : SavePolicy)
  | setTrace (sink : Option Trace.Sink)

namespace Operation

/-- The console after an operation. -/
def perform (c : Console) : Operation → Console
  | step => c.step.1
  | runCycles ticks => (c.runCycles ticks).1
  | runFrame steps => (c.runFrame steps).1
  | read _ => c
  | write a v => c.mapBus (·.write a v)
  | setButton button down => c.setButton button down
  | takeSerial => c.takeSerial.2
  | save => c.save
  | reset => c.reset
  | insert cartridge => c.insert cartridge
  | insertImage image => c.insertAccepted image
  | setPolicy policy => c.setPolicy policy
  | setTrace sink => c.setTrace sink

/-- The console after an operation, checked. The operations that are left to the end have nothing in
them that has a bound. -/
def perform? (c : Console) : Operation → Option Console
  | step => do
    let (c, _) ← c.step?
    some c
  | runCycles ticks => do
    let (c, _) ← c.runCycles? ticks
    some c
  | runFrame steps => do
    let (c, _) ← runToFrameEnd? c.cycles steps c
    some c
  | read a => do
    let _ ← c.machine.bus.read? a
    some c
  | write a v => do
    let bus ← c.machine.bus.write? a v
    some (c.mapBus fun _ => bus)
  | insertImage image => c.insertAccepted? image
  | o => some (o.perform c)

theorem perform?_eq (o : Operation) (h : Ready c) (hc : (o.perform c).cycles < 2 ^ 64) :
    o.perform? c = some (o.perform c) := by
  cases o with
  | step =>
    rw [perform?, c.step_tracks.result h.sound hc]
    rfl
  | runCycles ticks =>
    rw [perform?, Console.runCycles?, Checked.addCapped, runToCycle?_eq ticks h hc]
    rfl
  | runFrame steps =>
    rw [perform?, (runToFrameEnd_tracks steps (Nat.le_refl _)).result h.sound hc]
    rfl
  | read a =>
    rw [perform?, Bus.read?_eq]
    rfl
  | write a v =>
    rw [perform?, Bus.write?_eq]
    rfl
  | insertImage image => exact insertAccepted?_eq image
  | _ => rfl

/-- No operation spoils what the machine needs for the next one. -/
theorem perform_ready (o : Operation) (h : Ready c) : Ready (o.perform c) := by
  cases o with
  | step => exact h.of_leads c.step_tracks.leads
  | runCycles ticks => exact h.of_leads (runToCycle_leads _ ticks c)
  | runFrame steps => exact h.of_leads (runToFrameEnd_tracks steps (Nat.le_refl _)).leads
  | read a => exact h
  | write a v => exact h.of_leads (.ofBus fun h => h.write a v)
  | setButton button down => exact h.of_leads (.ofBus fun h => h.congr rfl rfl rfl)
  | takeSerial => exact h.of_leads (.ofBus fun h => h.congr rfl rfl rfl)
  | save => exact h.of_leads (save_leads c)
  | reset => exact ⟨(Bus.powerOn_sound c.host).congr rfl rfl rfl, Nat.dvd_zero _⟩
  | insert cartridge => exact h.of_leads (.ofBus fun h => h.congr rfl rfl rfl)
  | insertImage image => exact h.of_leads (insertAccepted_leads c image)
  | setPolicy policy => exact h.of_leads (.ofBus fun h => h.congr rfl rfl rfl)
  | setTrace sink => exact h.of_leads (.refl _)

/-- The console after operations in a row. -/
def run : List Operation → Console → Console
  | [], c => c
  | o :: os, c => run os (o.perform c)

/-- The console after operations in a row, checked. -/
def run? : List Operation → Console → Option Console
  | [], c => some c
  | o :: os, c => do run? os (← o.perform? c)

/-- The clock ticks that operations take. A reset sets the clock back and takes none. -/
def elapsed : List Operation → Console → Nat
  | [], _ => 0
  | o :: os, c => ((o.perform c).cycles - c.cycles) + elapsed os (o.perform c)

theorem run?_eq (os : List Operation) (h : Ready c) (hc : c.cycles + elapsed os c < 2 ^ 64) :
    run? os c = some (run os c) ∧ Ready (run os c) := by
  induction os generalizing c with
  | nil => exact ⟨rfl, h⟩
  | cons o os ih =>
    unfold elapsed at hc
    -- What the clock shows never exceeds the ticks that went by, as only a reset sets it back.
    have hnext : (o.perform c).cycles + elapsed os (o.perform c) < 2 ^ 64 := by omega
    have ho : o.perform? c = some (o.perform c) := o.perform?_eq h (by omega)
    rw [run?, ho]
    exact ih (o.perform_ready h) hnext

theorem powerOn_ready (host : Host) : Ready (powerOn host) :=
  ⟨Bus.powerOn_sound host, Nat.dvd_zero _⟩

/-- **A console never goes out of range.** Whatever is done to it, for fewer than `2 ^ 64` clock
ticks, the checked operations give a result, and the same result: no index is out of bounds, no sum
or difference leaves its width, and no negative number becomes an index. Among the conditions that
are checked on the way are that a sprite that is drawn covers the line, that what is drawn lies in
video RAM, and that a transfer counts to 160. What the checks rest on holds afterwards too. -/
theorem run_in_range (host : Host) (os : List Operation)
    (h : elapsed os (powerOn host) < 2 ^ 64) :
    run? os (powerOn host) = some (run os (powerOn host)) ∧
      (run os (powerOn host)).machine.bus.Sound := by
  have hstart : (powerOn host).cycles + elapsed os (powerOn host) < 2 ^ 64 := by
    show 0 + _ < _
    omega
  obtain ⟨hrun, hready⟩ := run?_eq os (powerOn_ready host) hstart
  exact ⟨hrun, hready.sound⟩

/-- A start without a cartridge, calls that the open bus makes, a press of a button, an image that
is not accepted and a new start. -/
def shortUse : List Operation :=
  [write 0x8000 0x3C, read 0x8000, step, setButton .a true, runCycles 8, takeSerial, save,
    insertImage .empty, reset, step]

/-- These operations take few ticks, and stay in range. -/
theorem shortUse_in_range :
    elapsed shortUse (powerOn (.ofVolume .empty)) < 2 ^ 64 ∧
      run? shortUse (powerOn (.ofVolume .empty)) =
        some (run shortUse (powerOn (.ofVolume .empty))) ∧
      (run shortUse (powerOn (.ofVolume .empty))).machine.bus.Sound := by
  have helapsed : elapsed shortUse (powerOn (.ofVolume .empty)) < 2 ^ 64 := by decide +kernel
  exact ⟨helapsed, run_in_range _ shortUse helapsed⟩

end Operation

end Console

end DotMatrix
