import DotMatrix.Proofs.Bus.Alike
import DotMatrix.Proofs.Cartridge.Backup
import DotMatrix.Proofs.Console.FrameEnd

/-!
# Collaborators do not influence the emulation

A console has a policy for saves, a trace, a count of frames for its pace, and a host with files
that may refuse a save. Two consoles whose machines are alike run alike, whatever these are.

* `Console.Alike`: the machines are the same, up to saves;
* `step_alike`: a step of the console is a step of its machine, up to saves;
* `Operation.Answer`, `Operation.answers`: what operations in a row tell who performs them;
* `Alike.run`: operations in a row keep consoles alike, and give the same answers.
-/

namespace DotMatrix.Console

variable {c d : Console}

/-! ### What collaborators do to the machine -/

theorem traceStep_alike (c : Console) : c.machine.Alike c.traceStep.machine := by
  obtain ⟨trace, host, h⟩ := c.traceStep_eq
  rw [h]
  exact .intro _ (.of_host c.machine.bus _ host)

theorem save_alike (c : Console) : c.machine.Alike c.save.machine := by
  unfold save
  split
  · exact .intro _ c.machine.bus.saveRam_alike
  · exact .refl _

/-- A step of the console is a step of its machine, up to saves. -/
theorem step_alike (c : Console) :
    c.machine.step.1.Alike c.step.1.machine ∧ c.step.2 = c.machine.step.2 := by
  obtain ⟨hstep, hfault⟩ := c.traceStep_alike.step
  unfold step
  dsimp only
  generalize c.traceStep.machine.step = x at hstep hfault
  obtain ⟨machine, fault?⟩ := x
  cases fault? with
  | some fault => exact ⟨hstep, hfault⟩
  | none =>
    refine ⟨?_, hfault⟩
    dsimp only
    split
    · exact hstep.trans (save_alike { c.traceStep with machine })
    · exact hstep

/-! ### Alike consoles -/

/-- The machines are the same, up to saves: the processor, the memories, the devices, and the
cartridge but for its save file and the mark of changed RAM. Nothing is said about the policies, the
traces, the frames that were counted, and the hosts. -/
def Alike (c d : Console) : Prop := c.machine.Alike d.machine

theorem Alike.cycles_eq (h : c.Alike d) : d.cycles = c.cycles := congrArg Processor.cycles h.cpu_eq

theorem Alike.video_eq (h : c.Alike d) : d.machine.bus.video = c.machine.bus.video := h.bus.video_eq

/-- Other buses, which are alike. -/
theorem Alike.withBus (h : c.Alike d) {b b' : Bus} (hb : b.Alike b') :
    Machine.Alike { c.machine with bus := b } { d.machine with bus := b' } :=
  Machine.Related.withBus h hb

theorem Alike.insert (h : c.Alike d) (cartridge : Cartridge) (host host' : Host) :
    ((c.mapHost fun _ => host).insert cartridge).Alike
      ((d.mapHost fun _ => host').insert cartridge) :=
  h.withBus (h.bus.exchange (.refl (some cartridge)) _ _ _ _)

theorem Alike.step (h : c.Alike d) : c.step.1.Alike d.step.1 ∧ d.step.2 = c.step.2 := by
  obtain ⟨hmachine, hfault⟩ := Machine.Alike.step h
  obtain ⟨hc, hcfault⟩ := c.step_alike
  obtain ⟨hd, hdfault⟩ := d.step_alike
  exact ⟨hc.symm.trans (hmachine.trans hd), by rw [hcfault, hdfault, hfault]⟩

theorem Alike.frameDone (h : c.Alike d) : c.frameDone.Alike d.frameDone :=
  h.withBus h.bus.clearFrameReady

/-! ### Running for a while -/

theorem Alike.runToFrameEnd (h : c.Alike d) (start fuel : Nat) :
    (runToFrameEnd start fuel c).1.Alike (runToFrameEnd start fuel d).1 ∧
      (runToFrameEnd start fuel d).2 = (runToFrameEnd start fuel c).2 := by
  induction fuel generalizing c d with
  | zero => exact ⟨h, rfl⟩
  | succ fuel ih =>
    obtain ⟨hstep, hfault⟩ := h.step
    unfold Console.runToFrameEnd
    generalize c.step = x, d.step = y at hstep hfault ⊢
    obtain ⟨c, _⟩ := x
    obtain ⟨d, fault?⟩ := y
    dsimp only at hstep hfault
    subst hfault
    cases fault? with
    | some fault => exact ⟨hstep, rfl⟩
    | none =>
      have hended : d.frameEnded start = c.frameEnded start := by
        unfold frameEnded frameReady
        rw [hstep.video_eq, hstep.cycles_eq]
      dsimp only
      rw [hended]
      split
      · exact ⟨hstep.frameDone, rfl⟩
      · exact ih hstep

theorem Alike.stepFrames (h : c.Alike d) :
    c.stepFrames.1.Alike d.stepFrames.1 ∧ d.stepFrames.2 = c.stepFrames.2 := by
  obtain ⟨hstep, hfault⟩ := h.step
  unfold Console.stepFrames
  generalize c.step = x, d.step = y at hstep hfault ⊢
  obtain ⟨c, _⟩ := x
  obtain ⟨d, fault?⟩ := y
  dsimp only at hstep hfault
  subst hfault
  cases fault? with
  | some fault => exact ⟨hstep, rfl⟩
  | none =>
    have hready : d.frameReady = c.frameReady := congrArg Video.frameReady hstep.video_eq
    dsimp only
    rw [hready]
    split
    · exact ⟨hstep.frameDone, rfl⟩
    · exact ⟨hstep, rfl⟩

theorem Alike.runToCycle (h : c.Alike d) (target fuel : Nat) :
    (runToCycle target fuel c).1.Alike (runToCycle target fuel d).1 ∧
      (runToCycle target fuel d).2 = (runToCycle target fuel c).2 := by
  induction fuel generalizing c d with
  | zero =>
    unfold Console.runToCycle
    rw [h.cycles_eq]
    exact ⟨h, rfl⟩
  | succ fuel ih =>
    obtain ⟨hstep, hfault⟩ := h.stepFrames
    unfold Console.runToCycle
    rw [h.cycles_eq]
    split
    · exact ⟨h, rfl⟩
    generalize c.stepFrames = x, d.stepFrames = y at hstep hfault ⊢
    obtain ⟨c, _⟩ := x
    obtain ⟨d, fault?⟩ := y
    dsimp only at hstep hfault
    subst hfault
    cases fault? with
    | some fault => exact ⟨hstep, rfl⟩
    | none => exact ih hstep

/-! ### Operations -/

namespace Operation

/-- What an operation tells who performs it. -/
inductive Answer
  | nothing
  | step (fault? : Option Fault)
  | run (ending : Ending)
  | byte (v : UInt8)
  | sent (bytes : Array UInt8)
  deriving DecidableEq

/-- What an operation tells who performs it. -/
def answer (c : Console) : Operation → Answer
  | .step => .step c.step.2
  | .runCycles ticks => .run (c.runCycles ticks).2
  | .runFrame steps => .run (c.runFrame steps).2
  | .read a => .byte (c.machine.bus.read a)
  | .takeSerial => .sent c.takeSerial.1
  | _ => .nothing

/-- The answers of operations in a row. -/
def answers : List Operation → Console → List Answer
  | [], _ => []
  | o :: os, c => o.answer c :: answers os (o.perform c)

end Operation

theorem Alike.perform (h : c.Alike d) (o : Operation) :
    (o.perform c).Alike (o.perform d) ∧ o.answer d = o.answer c := by
  cases o with
  | step =>
    obtain ⟨hstep, hfault⟩ := h.step
    exact ⟨hstep, congrArg Operation.Answer.step hfault⟩
  | runCycles ticks =>
    obtain ⟨hrun, hending⟩ := h.runToCycle (c.cycles + ticks) ticks
    unfold Operation.perform Operation.answer runCycles
    rw [h.cycles_eq]
    exact ⟨hrun, congrArg Operation.Answer.run hending⟩
  | runFrame steps =>
    obtain ⟨hrun, hending⟩ := h.runToFrameEnd c.cycles steps
    unfold Operation.perform Operation.answer runFrame
    rw [h.cycles_eq]
    exact ⟨hrun, congrArg Operation.Answer.run hending⟩
  | read a => exact ⟨h, congrArg Operation.Answer.byte (h.bus.read a)⟩
  | write a v => exact ⟨h.withBus (h.bus.write a v), rfl⟩
  | setButton button down =>
    have hbus := h.bus.map (f := (·.setButton button down)) (fun _ => rfl) fun _ _ _ _ => rfl
    exact ⟨h.withBus hbus, rfl⟩
  | takeSerial =>
    have hanswer := congrArg (fun s : Serial => Operation.Answer.sent s.sent) h.bus.serial_eq
    exact ⟨h.withBus h.bus.drain, hanswer⟩
  | save => exact ⟨(c.save_alike.symm.trans h).trans d.save_alike, rfl⟩
  | reset => exact ⟨.intro _ (.intro _ _ h.bus.cartridge), rfl⟩
  | insert cartridge => exact ⟨h.insert cartridge _ _, rfl⟩
  | insertImage image =>
    refine ⟨?_, rfl⟩
    show (c.insertAccepted image).Alike (d.insertAccepted image)
    unfold insertAccepted insertImage
    cases Cartridge.ofImage image with
    | error e => exact h
    | ok cartridge => exact h.insert cartridge _ _
  | setPolicy policy => exact ⟨h.withBus (h.bus.exchange h.bus.cartridge _ _ _ _), rfl⟩
  | setTrace sink => exact ⟨h, rfl⟩

/-- **Collaborators take no part.** Whatever is done to two consoles whose machines are alike, with
whatever policies, traces and files, and with saves that are refused in any pattern: the machines
stay alike, and every operation gives the same answer, faults included. The processor, the timer,
the picture, what was sent and what can be read are then the same. -/
theorem collaborators_take_no_part (h : c.Alike d) (os : List Operation) :
    let c' := Operation.run os c
    let d' := Operation.run os d
    c'.Alike d' ∧ Operation.answers os d = Operation.answers os c ∧
      d'.machine.cpu = c'.machine.cpu ∧ d'.machine.bus.timer = c'.machine.bus.timer ∧
      d'.picture = c'.picture ∧ d'.machine.bus.serial = c'.machine.bus.serial ∧
      ∀ a, d'.machine.bus.read a = c'.machine.bus.read a := by
  induction os generalizing c d with
  | nil =>
    exact ⟨h, rfl, h.cpu_eq, h.bus.timer_eq, congrArg Video.picture h.video_eq, h.bus.serial_eq,
      h.bus.read⟩
  | cons o os ih =>
    obtain ⟨hperform, hanswer⟩ := h.perform o
    obtain ⟨hrun, hanswers, hsame⟩ := ih hperform
    refine ⟨hrun, ?_, hsame⟩
    unfold Operation.answers
    rw [hanswer, hanswers]

/-- The same console with a save file to which nothing can be written, RAM that is marked, a trace,
and saves when vertical blank begins. -/
def hindered (c : Console) : Console :=
  let mark (cartridge : Cartridge) := { cartridge with savePath := some "game.sav", dirty := true }
  let refusals := [some ⟨.noSpace, none⟩, some ⟨.noSpace, none⟩]
  let bus := c.machine.bus
  let bus :=
    { bus with
      cartridge := bus.cartridge.map mark, saveAtVBlank := true
      host := { bus.host with refusals } }
  { machine := { c.machine with bus }, policy := .vblank, trace := some (.memory #[])
    framesDone := 7 }

theorem hindered_alike (c : Console) : c.Alike c.hindered := by
  refine .intro _ (.intro _ _ ?_)
  cases c.machine.bus.cartridge with
  | none => exact .none
  | some cartridge => exact .some (.intro _ _)

/-- A byte is written to the RAM of two cartridges with a battery. It is saved on one console and
not on the other, and the programs run alike. -/
theorem hindered_takes_no_part :
    let c := (powerOn (.ofVolume .empty)).insertAccepted Cartridge.batteryImage
    let os := [.write 0 0x0A, .write 0xA000 0x5A, .step, .runCycles 8, .save, .read 0xA000]
    c.Alike c.hindered ∧
      Operation.answers os c.hindered = Operation.answers os c ∧
      (Operation.run os c).machine.bus.needsSave = false ∧
      (Operation.run os c.hindered).machine.bus.needsSave = true ∧
      (Operation.run os c.hindered).machine.bus.read 0xA000 = 0x5A := by
  intro c os
  obtain ⟨-, hanswers, -⟩ := collaborators_take_no_part c.hindered_alike os
  exact ⟨c.hindered_alike, hanswers, by decide +kernel, by decide +kernel, by decide +kernel⟩

end DotMatrix.Console
