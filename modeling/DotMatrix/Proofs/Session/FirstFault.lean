import DotMatrix.Proofs.Console.Collaborators
import DotMatrix.Proofs.Processor.Failing
import DotMatrix.Proofs.Session.Chunks
import DotMatrix.Proofs.Session.Collection

/-!
# The first fault

A console runs frames or clock ticks step by step, and a session runs a console chunk by chunk. The
first step that is a fault ends all of these, at once and with that fault. What was done before it
stays, and the frame is not counted.

* `Rounds`: rounds of a loop, one after the other;
* `Console.failed_step`: a step of a console that is a fault;
* `Console.runFrame_iff`, `Console.runCycles_iff`: how running a frame or clock ticks ends;
* `Session.run_faulted_iff`: when a session ends with a fault;
* `first_fault`: all of it, from the processor to the session.
-/

namespace DotMatrix

/-- `n` rounds of a loop, one after the other. -/
inductive Rounds {α : Type} (round : α → α → Prop) : Nat → α → α → Prop
  | none {x : α} : Rounds round 0 x x
  | next {n : Nat} {x y z : α} : round x y → Rounds round n y z → Rounds round (n + 1) x z

namespace Console

variable {c d : Console} {fault : Fault} {ending : Ending}

/-! ### A step -/

theorem eq_of_step_fault (h : c.step = (d, some fault)) :
    d = { c.traceStep with machine := c.traceStep.machine.step.1 } ∧
      c.traceStep.machine.step.2 = some fault := by
  unfold step at h
  dsimp only at h
  split at h
  · next machine fault hstep =>
    cases h
    rw [hstep]
    exact ⟨rfl, rfl⟩
  · cases h

/-- A step that is a fault is a fault of the processor. No frame is counted. -/
theorem failed_step (h : c.step = (d, some fault)) :
    c.machine.Faulted fault d.machine ∧ d.framesDone = c.framesDone := by
  obtain ⟨rfl, hfault⟩ := eq_of_step_fault h
  obtain ⟨trace, host, htrace⟩ := c.traceStep_eq
  have hfaulted := Machine.faulted_step hfault
  refine ⟨?_, ?_⟩
  · dsimp only
    -- The trace has changed the host only, which no part of the conclusion speaks of.
    generalize c.traceStep.machine.step.1 = m at hfaulted
    rw [htrace] at hfaulted
    obtain ⟨hregisters, hcontrol, hcycles, htimer, hvideo, htransfer, hinterrupts, hwork, hhigh,
      hram, hcartridge, hserial, hjoypad⟩ := hfaulted
    exact ⟨hregisters, hcontrol, hcycles, htimer, hvideo, htransfer, hinterrupts, hwork, hhigh,
      hram, hcartridge, hserial, hjoypad⟩
  · rw [htrace]
    rfl

theorem stepFrames_fault_iff : c.stepFrames = (d, some fault) ↔ c.step = (d, some fault) := by
  unfold stepFrames
  generalize c.step = x
  obtain ⟨e, fault?⟩ := x
  cases fault? with
  | some fault' => exact Iff.rfl
  | none => exact ⟨nofun, nofun⟩

/-! ### A frame -/

/-- A step in the middle of the frame that began at `start`. -/
def FrameGoesOn (start : Nat) (c d : Console) : Prop :=
  c.step = (d, none) ∧ d.frameEnded start = false

/-- The last step of the frame: the frame ends with it, and is counted, or it is a fault. -/
def FrameEnds (start : Nat) (c d : Console) : Ending → Prop
  | .reached => ∃ e, c.step = (e, none) ∧ e.frameEnded start = true ∧ d = e.frameDone
  | .faulted fault => c.step = (d, some fault)
  | .unfinished => False

/-- How running to the end of a frame ends, if there are steps enough. -/
theorem runToFrameEnd_iff {start : Nat} (hending : ending ≠ .unfinished) (fuel : Nat) :
    runToFrameEnd start fuel c = (d, ending) ↔
      ∃ n < fuel, ∃ e, Rounds (FrameGoesOn start) n c e ∧ FrameEnds start e d ending := by
  -- The next step is the last one, or it is a round and the run goes on after it.
  induction fuel generalizing c with
  | zero =>
    constructor
    · intro h
      cases h
      exact absurd rfl hending
    · rintro ⟨n, hn, -⟩
      exact absurd hn n.not_lt_zero
  | succ fuel ih =>
    constructor
    · intro h
      unfold runToFrameEnd at h
      split at h
      · next e fault hstep =>
        cases h
        exact ⟨0, fuel.succ_pos, c, .none, hstep⟩
      · next e hstep =>
        split at h
        · next hended =>
          cases h
          exact ⟨0, fuel.succ_pos, c, .none, e, hstep, hended, rfl⟩
        · next hended =>
          obtain ⟨n, hn, e', hrounds, hlast⟩ := ih.1 h
          exact ⟨n + 1, Nat.succ_lt_succ hn, e',
            .next ⟨hstep, Bool.eq_false_iff.2 hended⟩ hrounds, hlast⟩
    · rintro ⟨n, hn, e, hrounds, hlast⟩
      unfold runToFrameEnd
      cases hrounds with
      | none =>
        cases ending with
        | reached =>
          obtain ⟨e, hstep, hended, rfl⟩ := hlast
          rw [hstep]
          exact if_pos hended
        | faulted fault =>
          have hstep : c.step = (d, some fault) := hlast
          rw [hstep]
        | unfinished => exact absurd rfl hending
      | next hround hrounds =>
        obtain ⟨hstep, hended⟩ := hround
        rw [hstep]
        dsimp only
        rw [hended]
        exact ih.2 ⟨_, Nat.lt_of_succ_lt_succ hn, e, hrounds, hlast⟩

/-! ### Clock ticks -/

/-- A step before the clock has reached `target`. A frame that it completes is counted. -/
def TicksGoOn (target : Nat) (c d : Console) : Prop :=
  c.cycles < target ∧ c.stepFrames = (d, none)

/-- The clock has reached `target`, or the step before that is a fault. -/
def TicksEnd (target : Nat) (c d : Console) : Ending → Prop
  | .reached => target ≤ c.cycles ∧ d = c
  | .faulted fault => c.cycles < target ∧ c.step = (d, some fault)
  | .unfinished => False

theorem runsTo_iff {target : Nat} : RunsTo target c d ending ↔
    ∃ n e, Rounds (TicksGoOn target) n c e ∧ TicksEnd target e d ending := by
  constructor
  · intro h
    induction h with
    | reached hle => exact ⟨0, _, .none, hle, rfl⟩
    | faulted hlt hstep => exact ⟨0, _, .none, hlt, stepFrames_fault_iff.1 hstep⟩
    | step hlt hstep _ ih =>
      obtain ⟨n, e, hrounds, hlast⟩ := ih
      exact ⟨n + 1, e, .next ⟨hlt, hstep⟩ hrounds, hlast⟩
  · rintro ⟨n, e, hrounds, hlast⟩
    induction hrounds with
    | none =>
      cases ending with
      | reached =>
        obtain ⟨hle, rfl⟩ := hlast
        exact .reached hle
      | faulted fault =>
        obtain ⟨hlt, hstep⟩ := hlast
        exact .faulted hlt (stepFrames_fault_iff.2 hstep)
      | unfinished => exact hlast.elim
    | next hround _ ih => exact .step hround.1 hround.2 (ih hlast)

/-- How running for clock ticks ends. -/
theorem runCycles_iff (ticks : Nat) : c.runCycles ticks = (d, ending) ↔
    ∃ n e, Rounds (TicksGoOn (c.cycles + ticks)) n c e ∧
      TicksEnd (c.cycles + ticks) e d ending := by
  have hrun := c.runCycles_runsTo ticks
  rw [← runsTo_iff]
  constructor
  · intro h
    rwa [h] at hrun
  · intro h
    obtain ⟨hd, hending⟩ := h.det hrun
    exact Prod.ext hd hending

end Console

/-! ### Sessions -/

namespace Session

variable {σ : Type} {limits : Limits} {clock : Nat → Nat} {look : σ → Console → σ × Console}
  {steps frames : Nat} {s s' : σ} {c d : Console} {fault : Fault}

/-- What is run in a chunk: a frame, or ticks up to the limit. -/
def chunk (limits : Limits) (steps : Nat) (c : Console) : Console × DotMatrix.Ending :=
  match limits.cycles with
  | some limit => c.runCycles (min (limit - c.cycles) Video.frameDots)
  | none => c.runFrame steps

/-- One round of a session: a chunk is completed, somebody looks, and no limit is reached. -/
def GoesOn (limits : Limits) (clock : Nat → Nat) (look : σ → Console → σ × Console) (steps : Nat) :
    Nat × σ × Console → Nat × σ × Console → Prop
  | (frames, s, c), next => ∃ d, chunk limits steps c = (d, .reached) ∧ ¬OutOfTicks limits c ∧
      next = (frames + 1, look s d) ∧ limits.reached (frames + 1) (clock (frames + 1)) = false

theorem runChunk_of_outOfTicks (h : OutOfTicks limits c) :
    runChunk limits steps frames c = (c, some (.finished frames)) :=
  runChunk_finished_iff.2 ⟨rfl, rfl, h⟩

theorem runChunk_of_not_outOfTicks (h : ¬OutOfTicks limits c) :
    runChunk limits steps frames c =
      ((chunk limits steps c).1, Ending.ofChunk? (chunk limits steps c).2) := by
  unfold runChunk chunk
  cases hcycles : limits.cycles with
  | none => rfl
  | some limit =>
    have hleft : limit - c.cycles ≠ 0 := fun hzero => h ⟨limit, hcycles, by omega⟩
    exact if_neg hleft

theorem runChunk_none_iff : runChunk limits steps frames c = (d, none) ↔
    chunk limits steps c = (d, .reached) ∧ ¬OutOfTicks limits c := by
  by_cases hout : OutOfTicks limits c
  · rw [runChunk_of_outOfTicks hout]
    exact ⟨nofun, fun h => absurd hout h.2⟩
  · rw [runChunk_of_not_outOfTicks hout, and_iff_left hout]
    generalize chunk limits steps c = x
    obtain ⟨e, ending⟩ := x
    cases ending <;> simp [Ending.ofChunk?]

/-- If no ticks are left, running for them is not a fault. -/
theorem chunk_of_outOfTicks (h : OutOfTicks limits c) : chunk limits steps c = (c, .reached) := by
  obtain ⟨limit, hlimit, hle⟩ := h
  unfold chunk
  rw [hlimit]
  dsimp only
  rw [Nat.sub_eq_zero_of_le hle, Nat.zero_min, Console.runCycles_zero]

theorem runChunk_faulted_iff : runChunk limits steps frames c = (d, some (.faulted fault)) ↔
    chunk limits steps c = (d, .faulted fault) := by
  by_cases hout : OutOfTicks limits c
  · rw [runChunk_of_outOfTicks hout, chunk_of_outOfTicks hout]
    exact ⟨nofun, nofun⟩
  · rw [runChunk_of_not_outOfTicks hout]
    generalize chunk limits steps c = x
    obtain ⟨e, ending⟩ := x
    cases ending <;> simp [Ending.ofChunk?]

/-- When a session ends with a fault. -/
theorem run_faulted_iff (fuel : Nat) :
    run limits clock look steps fuel frames s c = (s', d, .faulted fault) ↔
      ∃ k < fuel, ∃ frames' e,
        Rounds (GoesOn limits clock look steps) k (frames, s, c) (frames', s', e) ∧
          chunk limits steps e = (d, .faulted fault) := by
  induction fuel generalizing frames s c with
  | zero =>
    constructor
    · intro h
      cases h
    · rintro ⟨k, hk, -⟩
      exact absurd hk k.not_lt_zero
  | succ fuel ih =>
    constructor
    · intro h
      unfold run at h
      split at h
      · next e ending hchunk =>
        cases h
        exact ⟨0, fuel.succ_pos, frames, c, .none, runChunk_faulted_iff.1 hchunk⟩
      · next e hchunk =>
        dsimp only at h
        split at h
        · cases h
        · next hreached =>
          obtain ⟨k, hk, frames', e', hrounds, hlast⟩ := ih.1 h
          obtain ⟨hchunk, hticks⟩ := runChunk_none_iff.1 hchunk
          exact ⟨k + 1, Nat.succ_lt_succ hk, frames', e',
            .next ⟨e, hchunk, hticks, rfl, Bool.eq_false_iff.2 hreached⟩ hrounds, hlast⟩
    · rintro ⟨k, hk, frames', e, hrounds, hlast⟩
      unfold run
      cases hrounds with
      | none => rw [runChunk_faulted_iff.2 hlast]
      | next hround hrounds =>
        obtain ⟨e', hchunk, hticks, rfl, hreached⟩ := hround
        rw [runChunk_none_iff.2 ⟨hchunk, hticks⟩]
        dsimp only
        rw [hreached]
        exact ih.2 ⟨_, Nat.lt_of_succ_lt_succ hk, frames', e, hrounds, hlast⟩

end Session

/-! ### From the processor to the session -/

/-- **The first fault.** A step of the processor is a fault exactly if the processor does not wait
and PC is at the opcode that stops the machine or at one that stands for no instruction; the fault
tells the opcode and PC. The step takes a machine cycle for each byte that is fetched and does
nothing else: it writes nothing, dispatches no interrupt, and changes only PC and what goes by the
clock. A step of the console is the same fault, and counts no frame. Running a frame, clock ticks or
a session ends with a fault exactly if a step that it comes to is that fault, after steps that are
none. It leaves the console as it is then, and nobody looks again. -/
theorem first_fault :
    (∀ (m : Machine) (fault : Fault),
      let pc := m.cpu.registers.pc
      let opcode := m.bus.read pc
      (m.step.2 = some fault ↔
        m.cpu.halted = false ∧ (opcode = 0x10 ∨ opcode ∈ Instruction.unusedOpcodes) ∧
          fault = .ofOpcode opcode pc) ∧
      (m.step.2 = some fault →
        fault.opcode = opcode ∧ fault.pc = pc ∧ fault.size = (if opcode = 0x10 then 2 else 1) ∧
          m.Faulted fault m.step.1 ∧ m.stepAccesses = List.replicate fault.size .quiet)) ∧
    (∀ (c d : Console) (fault : Fault),
      c.step.2 = c.machine.step.2 ∧
      (c.step = (d, some fault) →
        c.machine.Faulted fault d.machine ∧ d.framesDone = c.framesDone)) ∧
    (∀ (c d : Console) (ending : Ending),
      (∀ fuel, ending ≠ .unfinished → (c.runFrame fuel = (d, ending) ↔
        ∃ n < fuel, ∃ e, Rounds (Console.FrameGoesOn c.cycles) n c e ∧
          Console.FrameEnds c.cycles e d ending)) ∧
      ∀ ticks, c.runCycles ticks = (d, ending) ↔
        ∃ n e, Rounds (Console.TicksGoOn (c.cycles + ticks)) n c e ∧
          Console.TicksEnd (c.cycles + ticks) e d ending) ∧
    ∀ (σ : Type) (limits : Limits) (clock : Nat → Nat) (look : σ → Console → σ × Console)
      (steps fuel frames : Nat) (s s' : σ) (c d : Console) (fault : Fault),
      Session.run limits clock look steps fuel frames s c = (s', d, .faulted fault) ↔
        ∃ k < fuel, ∃ frames' e,
          Rounds (Session.GoesOn limits clock look steps) k (frames, s, c) (frames', s', e) ∧
            Session.chunk limits steps e = (d, .faulted fault) := by
  refine ⟨fun m fault => ⟨Machine.step_fault_iff, fun h => ?_⟩,
    fun c d fault => ⟨c.step_alike.2, Console.failed_step⟩,
    fun c d ending => ⟨fun fuel hending => Console.runToFrameEnd_iff hending fuel,
      Console.runCycles_iff⟩,
    fun σ limits clock look steps fuel frames s s' c d fault => Session.run_faulted_iff fuel⟩
  have hfault := (Machine.step_fault_iff.1 h).2.2
  obtain ⟨hopcode, hpc, hsize⟩ :=
    Fault.ofOpcode_carries (m.bus.read m.cpu.registers.pc) m.cpu.registers.pc
  rw [← hfault] at hopcode hpc hsize
  exact ⟨hopcode, hpc, hsize, Machine.faulted_step h, (Machine.step_of_fault h).2⟩

namespace Console

/-- An image whose program is one instruction and an opcode that stands for none. -/
def unusedImage : ByteArray :=
  ⟨⟨List.replicate 0x100 0 ++ [0, 0xD3] ++ List.replicate 0x4B 0 ++ [0xE7, 0, 0]⟩⟩

end Console

/-- The second step of a session is a fault. -/
theorem first_fault_unused :
    let c := (Console.powerOn (.ofVolume .empty)).insertAccepted Console.unusedImage
    ∃ e d, c.step = (e, none) ∧
      Session.run .unlimited (fun _ => 0) (fun s c => (s, c)) 2 1 0 () c =
        ((), d, .faulted (.unusedOpcode 0xD3 0x101)) ∧
      e.machine.Faulted (.unusedOpcode 0xD3 0x101) d.machine ∧ d.framesDone = 0 := by
  intro c
  obtain ⟨-, hconsole, hrun, hsession⟩ := first_fault
  have hwell : c.step.2 = none := by decide +kernel
  have hfault : c.step.1.step.2 = some (.unusedOpcode 0xD3 0x101) := by decide +kernel
  have hgoesOn : c.step.1.frameEnded c.cycles = false := by decide +kernel
  have hcount : c.step.1.framesDone = 0 := by decide +kernel
  clear_value c
  have hfirst : c.step = (c.step.1, none) := hwell ▸ rfl
  have hsecond : c.step.1.step = (c.step.1.step.1, some (.unusedOpcode 0xD3 0x101)) :=
    hfault ▸ rfl
  have hround : Console.FrameGoesOn c.cycles c c.step.1 := ⟨hfirst, hgoesOn⟩
  have hframe : c.runFrame 2 = (c.step.1.step.1, .faulted (.unusedOpcode 0xD3 0x101)) :=
    ((hrun c _ (.faulted _)).1 2 nofun).2 ⟨1, by decide, _, .next hround .none, hsecond⟩
  obtain ⟨-, hfailed⟩ := hconsole c.step.1 c.step.1.step.1 (.unusedOpcode 0xD3 0x101)
  obtain ⟨hfaulted, hkept⟩ := hfailed hsecond
  refine ⟨c.step.1, c.step.1.step.1, hfirst, ?_, hfaulted, hkept.trans hcount⟩
  exact (hsession ..).2 ⟨0, by decide, 0, c, .none, hframe⟩

end DotMatrix
