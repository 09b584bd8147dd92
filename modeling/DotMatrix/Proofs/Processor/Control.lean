import DotMatrix.Proofs.Bus.Transmission
import DotMatrix.Proofs.Processor.Timing

/-!
# Switching interrupts on and off

Besides its registers and its clock the processor has three things to remember: whether interrupts
are on, whether it waits, and how many instructions are left until interrupts are switched on. Few
instructions touch them. Asking for interrupts takes effect when the next instruction is over: a
fault in between puts that off, and only switching them off takes it back.

* `current?`, `Fails`, `StepKind`: what a step executes, and how it ends;
* `Control`: the three things;
* `Instruction.control`, `execute_control`: what each instruction does to them;
* `Control.Settled`: what holds of them between steps;
* `enabling_is_delayed`: when interrupts come on, and when not.
-/

namespace DotMatrix

namespace Machine

variable (m : Machine)

/-! ### What a step executes -/

/-- The instruction that a step executes. A processor that waits executes none. -/
def current? : Option Instruction :=
  if m.cpu.halted then none else some (.decode (m.bus.read m.cpu.registers.pc))

/-- Does the step end with a fault? -/
def Fails : Prop := m.step.2 ≠ none

/-- All that a step can be. -/
inductive StepKind (m : Machine) : Prop
  /-- A machine cycle of waiting. -/
  | waiting (halted : m.cpu.halted = true) (current : m.current? = none)
      (polled : m.polled? = some m.waited) (step : m.step = (m.waited.poll, none))
  /-- An instruction that cannot be executed. -/
  | failing (i : Instruction) (fault : Fault) (running : m.cpu.halted = false)
      (current : m.current? = some i) (kind : i = .unused ∨ i = .stop) (polled : m.polled? = none)
      (step : m.step = (m.fetch.2.execute i, some fault))
  /-- An instruction that is executed. -/
  | executing (i : Instruction) (running : m.cpu.halted = false) (current : m.current? = some i)
      (polled : m.polled? = some (m.executed i)) (step : m.step = ((m.executed i).poll, none))

theorem current?_of_running (h : m.cpu.halted = false) :
    m.current? = some (.decode (m.bus.read m.cpu.registers.pc)) :=
  if_neg (ne_true_of_eq_false h)

theorem stepKind : m.StepKind := by
  cases hrun : m.cpu.halted with
  | true =>
    have hstep : m.step = (m.wait, none) := if_pos hrun
    exact .waiting hrun (if_pos hrun) (if_pos hrun) hstep
  | false =>
    have hstep : m.step = m.runInstruction := if_neg (ne_true_of_eq_false hrun)
    have hcurrent : m.current? = some (.decode m.fetch.1) := m.current?_of_running hrun
    have hpolled := polled?.eq_1 m
    rw [if_neg (ne_true_of_eq_false hrun)] at hpolled
    dsimp only at hpolled
    unfold runInstruction at hstep
    dsimp only at hstep
    -- Whether there is a fault depends on the instruction alone, so it can be any instruction.
    generalize Instruction.decode m.fetch.1 = i at hstep hcurrent hpolled
    cases i with
    | unused => exact .failing _ _ hrun hcurrent (.inl rfl) hpolled hstep
    | stop => exact .failing _ _ hrun hcurrent (.inr rfl) hpolled hstep
    | _ => exact .executing _ hrun hcurrent hpolled hstep

variable {m}

theorem not_fails_of_step {m' : Machine} (h : m.step = (m', none)) : ¬m.Fails := by
  rw [Fails, h]
  exact not_not.2 rfl

theorem fails_of_step {m' : Machine} {fault : Fault} (h : m.step = (m', some fault)) : m.Fails := by
  rw [Fails, h]
  exact Option.some_ne_none fault

end Machine

/-! ### Interrupts, waiting and the delay -/

/-- What the processor remembers besides its registers and its clock. -/
structure Control where
  interruptsOn : Bool
  halted : Bool
  enableDelay : Nat
  deriving DecidableEq, Repr

/-- Whether interrupts are on, whether the processor waits, and the delay. -/
def Processor.control (p : Processor) : Control := ⟨p.interruptsOn, p.halted, p.enableDelay⟩

/-- What an instruction does to interrupts, to waiting and to the delay. -/
def Instruction.control (c : Control) : Instruction → Control
  | .halt => { c with halted := true }
  | .disableInterrupts => { c with interruptsOn := false, enableDelay := 0 }
  | .enableInterrupts => { c with enableDelay := 2 }
  | .returnFromInterrupt => { c with interruptsOn := true, enableDelay := 0 }
  | _ => c

namespace Control

variable (c : Control)

/-- When an instruction has been executed and counted. -/
def after (i : Instruction) : Control :=
  { i.control c with
    interruptsOn :=
      (i.control c).interruptsOn || (c.enableDelay == 1 && (i.control c).enableDelay != 0)
    enableDelay := (i.control c).enableDelay - 1 }

/-- Between steps at most one instruction is left until interrupts are switched on, and none while
the processor waits. -/
structure Settled : Prop where
  delay_le : c.enableDelay ≤ 1
  delay_of_halted : c.halted = true → c.enableDelay = 0

variable {c}

/-- After an instruction interrupts are still to be switched on just if it has asked for them. -/
theorem Settled.enableDelay_after (h : c.Settled) (i : Instruction) :
    (c.after i).enableDelay = if i = .enableInterrupts then 1 else 0 := by
  have hle : c.enableDelay - 1 = 0 := Nat.sub_eq_zero_of_le h.delay_le
  cases i with
  | enableInterrupts | disableInterrupts | returnFromInterrupt => rfl
  | _ => exact hle

theorem Settled.after (h : c.Settled) (hrun : c.halted = false) (i : Instruction) :
    (c.after i).Settled := by
  have hdelay := h.enableDelay_after i
  constructor
  · rw [hdelay]
    split <;> decide
  · intro hhalted
    rw [hdelay]
    cases i with
    | enableInterrupts => exact absurd (hrun.symm.trans hhalted) Bool.false_ne_true
    | _ => rfl

/-- An instruction switches interrupts on if it returns from one, or if it was the last to be waited
for and does not switch them off. -/
theorem interruptsOn_after (hoff : c.interruptsOn = false) {i : Instruction}
    (hon : (c.after i).interruptsOn = true) :
    i = .returnFromInterrupt ∨ c.enableDelay = 1 := by
  by_cases hone : c.enableDelay = 1
  · exact .inr hone
  · have hcount : (c.enableDelay == 1) = false := beq_false_of_ne hone
    change ((i.control c).interruptsOn || (c.enableDelay == 1 && _)) = true at hon
    rw [hcount, Bool.false_and, Bool.or_false] at hon
    cases i with
    | returnFromInterrupt => exact .inl rfl
    | disableInterrupts => exact absurd hon Bool.false_ne_true
    | _ => exact absurd (hoff.symm.trans hon) Bool.false_ne_true

/-- The instruction that was waited for leaves interrupts on, unless it switches them off. -/
theorem interruptsOn_after_of_delay (hone : c.enableDelay = 1) (i : Instruction) :
    (c.after i).interruptsOn = !decide (i = .disableInterrupts) := by
  have hcount : (c.enableDelay == 1) = true := beq_of_eq hone
  change ((i.control c).interruptsOn || (c.enableDelay == 1 && (i.control c).enableDelay != 0)) = _
  rw [hcount, Bool.true_and]
  cases i with
  | disableInterrupts | enableInterrupts | returnFromInterrupt => simp [Instruction.control]
  | _ => simp [Instruction.control, hone]

end Control

namespace Machine

variable {m m' : Machine} {i : Instruction}

/-! ### Instructions -/

theorem control_ite {p : Prop} [Decidable p] {m₁ m₂ : Machine}
    (h₁ : m₁.cpu.control = m.cpu.control) (h₂ : m₂.cpu.control = m.cpu.control) :
    (if p then m₁ else m₂).cpu.control = m.cpu.control := by
  split
  · exact h₁
  · exact h₂

theorem readCell_control (c : Cell) : (m.readCell c).2.cpu.control = m.cpu.control := by
  cases c <;> rfl

theorem writeCell_control (c : Cell) (v : UInt8) :
    (m.writeCell c v).cpu.control = m.cpu.control := by
  cases c <;> rfl

theorem resolve_control (p : Pointer) : (m.resolve p).2.cpu.control = m.cpu.control := by
  cases p <;> rfl

theorem callAddress_control (target : UInt16) :
    (m.callAddress target).cpu.control = m.cpu.control :=
  rfl

theorem count_control (f : UInt8 → Flags → UInt8 × Flags) (c : Cell) :
    (m.count f c).cpu.control = m.cpu.control :=
  (writeCell_control c _).trans (readCell_control c)

theorem executeExtended_control (x : Extended) :
    (m.executeExtended x).cpu.control = m.cpu.control := by
  have hread := readCell_control (m := m) x.target
  unfold executeExtended
  dsimp only
  split
  · exact hread
  · exact (writeCell_control _ _).trans hread

/-- **What each instruction does to interrupts, to waiting and to the delay.** -/
theorem execute_control (i : Instruction) :
    (m.execute i).cpu.control = i.control m.cpu.control := by
  cases i with
  | load dst src =>
    cases src with
    | cell c => exact readCell_control c
    | immediate => rfl
  | loadA src => exact resolve_control src
  | storeA dst => exact resolve_control dst
  | arithmetic op right =>
    cases right with
    | cell c => exact readCell_control c
    | immediate => rfl
  | increment c => exact count_control _ c
  | decrement c => exact count_control _ c
  | jumpRelative way => exact control_ite rfl rfl
  | jump way =>
    have hjump : (m.fetchWord.2.setPC m.fetchWord.1).cycle.cpu.control = m.cpu.control := rfl
    exact control_ite hjump rfl
  | call way =>
    have hcall : (m.fetchWord.2.callAddress m.fetchWord.1).cpu.control = m.cpu.control :=
      callAddress_control _
    exact control_ite hcall rfl
  | ret way =>
    cases way with
    | none => rfl
    | some condition => exact control_ite rfl rfl
  | extended => exact executeExtended_control _
  | _ => rfl

theorem executed_control (m : Machine) (i : Instruction) :
    (m.executed i).cpu.control = m.cpu.control.after i := by
  have hexecute : (m.fetch.2.execute i).cpu.control = i.control m.cpu.control :=
    execute_control i
  unfold Control.after
  rw [← hexecute]
  rfl

/-! ### Steps -/

/-- A look at interrupts leaves them alone, or it serves one and so switches them off. -/
theorem poll_control (m : Machine) :
    m.poll.cpu.control = m.cpu.control ∨
      m.poll.cpu.control = { m.cpu.control with interruptsOn := false, halted := false } := by
  unfold poll
  split
  · split
    · exact .inr rfl
    · exact .inl rfl
  · exact .inl rfl

theorem poll_enableDelay (m : Machine) : m.poll.cpu.enableDelay = m.cpu.enableDelay := by
  obtain hpoll | hpoll := m.poll_control <;> exact congrArg Control.enableDelay hpoll

/-- A fault changes nothing of the three. -/
theorem step_control_of_fails (h : m.Fails) : m.step.1.cpu.control = m.cpu.control := by
  cases m.stepKind with
  | waiting _ _ _ hstep => exact absurd h (not_fails_of_step hstep)
  | failing i fault _ _ hkind _ hstep =>
    rw [hstep]
    obtain rfl | rfl := hkind
    · exact execute_control .unused
    · exact execute_control .stop
  | executing i _ _ _ hstep => exact absurd h (not_fails_of_step hstep)

theorem poll_halted (h : m.cpu.halted = false) : m.poll.cpu.halted = false := by
  obtain hpoll | hpoll := m.poll_control
  · exact (congrArg Control.halted hpoll).trans h
  · exact congrArg Control.halted hpoll

theorem poll_settled (h : m.cpu.control.Settled) : m.poll.cpu.control.Settled := by
  obtain hpoll | hpoll := m.poll_control
  · rwa [hpoll]
  · rw [hpoll]
    exact ⟨h.delay_le, fun hhalted => absurd hhalted Bool.false_ne_true⟩

theorem waited_settled (h : m.cpu.control.Settled) : m.waited.cpu.control.Settled :=
  ⟨h.delay_le, fun hhalted => h.delay_of_halted (Bool.and_eq_true_iff.1 hhalted).1⟩

/-- **What holds between steps.** -/
theorem step_settled (h : m.cpu.control.Settled) : m.step.1.cpu.control.Settled := by
  cases m.stepKind with
  | waiting _ _ _ hstep =>
    rw [hstep]
    exact poll_settled (waited_settled h)
  | failing i fault _ _ _ _ hstep => rwa [step_control_of_fails (fails_of_step hstep)]
  | executing i hrun _ _ hstep =>
    have hafter := h.after hrun i
    rw [← executed_control] at hafter
    rw [hstep]
    exact poll_settled hafter

/-- Are interrupts on when the step looks at them, or after it? -/
def SwitchesOn (m : Machine) : Prop :=
  (∃ p, m.polled? = some p ∧ p.cpu.interruptsOn = true) ∨ m.step.1.cpu.interruptsOn = true

theorem interruptsOn_of_poll (h : m.poll.cpu.interruptsOn = true) : m.cpu.interruptsOn = true := by
  obtain hpoll | hpoll := m.poll_control
  · exact (congrArg Control.interruptsOn hpoll).symm.trans h
  · exact absurd ((congrArg Control.interruptsOn hpoll).symm.trans h) Bool.false_ne_true

theorem switchesOn_iff_of_polled {p : Machine} (hp : m.polled? = some p)
    (hstep : m.step = (p.poll, none)) : m.SwitchesOn ↔ p.cpu.interruptsOn = true := by
  unfold SwitchesOn
  rw [hp, hstep]
  constructor
  · rintro (⟨q, hq, hon⟩ | hon)
    · rwa [Option.some.inj hq]
    · exact interruptsOn_of_poll hon
  · exact fun hon => .inl ⟨p, rfl, hon⟩

/-- A step that switches interrupts on returns from one, or it is the one that was waited for. -/
theorem current?_of_switchesOn (hoff : m.cpu.interruptsOn = false) (h : m.SwitchesOn) :
    ¬m.Fails ∧ (m.current? = some .returnFromInterrupt ∨ m.cpu.enableDelay = 1) := by
  cases m.stepKind with
  | waiting _ _ hpolled hstep =>
    rw [switchesOn_iff_of_polled hpolled hstep] at h
    exact absurd (hoff.symm.trans h) Bool.false_ne_true
  | failing i fault _ _ _ hpolled hstep =>
    have hkeep := step_control_of_fails (fails_of_step hstep)
    obtain ⟨p, hp, -⟩ | hon := h
    · cases hpolled.symm.trans hp
    · exact absurd (hoff.symm.trans ((congrArg Control.interruptsOn hkeep).symm.trans hon))
        Bool.false_ne_true
  | executing i _ hcurrent hpolled hstep =>
    rw [switchesOn_iff_of_polled hpolled hstep] at h
    have hafter : (m.cpu.control.after i).interruptsOn = true := by
      rw [← executed_control]
      exact h
    obtain rfl | hone := Control.interruptsOn_after hoff hafter
    · exact ⟨not_fails_of_step hstep, .inl hcurrent⟩
    · exact ⟨not_fails_of_step hstep, .inr hone⟩

/-- After a step interrupts are still to be switched on if it has asked for that, or if it has ended
with a fault and they were before. -/
theorem current?_of_enableDelay (h : m.cpu.control.Settled) (hone : m.step.1.cpu.enableDelay = 1) :
    m.current? = some .enableInterrupts ∨ m.Fails ∧ m.cpu.enableDelay = 1 := by
  cases m.stepKind with
  | waiting hhalted _ _ hstep =>
    rw [hstep] at hone
    have hkeep : m.waited.poll.cpu.enableDelay = m.cpu.enableDelay := poll_enableDelay m.waited
    cases (h.delay_of_halted hhalted).symm.trans (hkeep.symm.trans hone)
  | failing i fault _ _ _ _ hstep =>
    have hfails := fails_of_step hstep
    have hkeep := congrArg Control.enableDelay (step_control_of_fails hfails)
    exact .inr ⟨hfails, hkeep.symm.trans hone⟩
  | executing i _ hcurrent _ hstep =>
    left
    rw [hstep] at hone
    have hafter := congrArg Control.enableDelay (m.executed_control i)
    rw [h.enableDelay_after i] at hafter
    have hcount := hafter.symm.trans ((poll_enableDelay _).symm.trans hone)
    rw [hcurrent]
    split at hcount
    · next hi => rw [hi]
    · cases hcount

/-- A step that neither waits nor fails executes an instruction. -/
theorem executing_of_not_fails (hrun : m.cpu.halted = false) (h : ¬m.Fails) :
    ∃ i, m.current? = some i ∧ m.polled? = some (m.executed i) ∧
      m.step = ((m.executed i).poll, none) := by
  cases m.stepKind with
  | waiting hhalted => exact absurd (hrun.symm.trans hhalted) Bool.false_ne_true
  | failing i fault _ _ _ _ hstep => exact absurd (fails_of_step hstep) h
  | executing i _ hcurrent hpolled hstep => exact ⟨i, hcurrent, hpolled, hstep⟩

/-! ### Runs -/

/-- In a run, step `n` comes next after step `k`: the steps between them end with faults. -/
def ComesNext (m : Machine) (k n : Nat) : Prop := k < n ∧ ∀ j, k < j → j < n → (run j m).Fails

theorem run_settled (h : m.cpu.control.Settled) (n : Nat) : (run n m).cpu.control.Settled := by
  induction n with
  | zero => exact h
  | succ n ih =>
    rw [run_succ]
    exact step_settled ih

/-- A step that comes next finds the three as the first one has left them. -/
theorem ComesNext.control_eq {k n : Nat} (h : m.ComesNext k n) :
    (run n m).cpu.control = (run (k + 1) m).cpu.control := by
  obtain ⟨hlt, hfails⟩ := h
  induction n with
  | zero => exact absurd hlt (Nat.not_lt_zero k)
  | succ n ih =>
    obtain rfl | hlt := Nat.eq_or_lt_of_le (Nat.le_of_lt_succ hlt)
    · rfl
    · rw [run_succ, step_control_of_fails (hfails n hlt (Nat.lt_succ_self n))]
      exact ih hlt fun j hj hjn => hfails j hj (Nat.lt_succ_of_lt hjn)

theorem ComesNext.succ {k n : Nat} (h : m.ComesNext k n) (hfails : (run n m).Fails) :
    m.ComesNext k (n + 1) := by
  refine ⟨Nat.lt_succ_of_lt h.1, fun j hj hjn => ?_⟩
  obtain rfl | hlt := Nat.eq_or_lt_of_le (Nat.le_of_lt_succ hjn)
  · exact hfails
  · exact h.2 j hj hlt

theorem comesNext_self (m : Machine) (k : Nat) : m.ComesNext k (k + 1) :=
  ⟨Nat.lt_succ_self k, fun _ hj hjk => absurd hjk (Nat.not_lt.2 hj)⟩

/-- If interrupts are still to be switched on, the instruction before has asked for it. -/
theorem exists_comesNext_of_delay (h : m.cpu.control.Settled) (hzero : m.cpu.enableDelay = 0)
    {n : Nat} (hone : (run n m).cpu.enableDelay = 1) :
    ∃ k, m.ComesNext k n ∧ (run k m).current? = some .enableInterrupts := by
  induction n with
  | zero => cases hzero.symm.trans hone
  | succ n ih =>
    rw [run_succ] at hone
    -- Either the step before has asked, or it has failed and found things as they are now.
    obtain hasked | ⟨hfails, hbefore⟩ := current?_of_enableDelay (run_settled h n) hone
    · exact ⟨n, m.comesNext_self n, hasked⟩
    · obtain ⟨k, hnext, hasked⟩ := ih hbefore
      exact ⟨k, hnext.succ hfails, hasked⟩

/-- Asking for interrupts, when they are off and have not been asked for. -/
theorem step_of_asking (hoff : m.cpu.interruptsOn = false) (hzero : m.cpu.enableDelay = 0)
    (h : m.current? = some .enableInterrupts) :
    m.step.1.cpu.control = ⟨false, false, 1⟩ ∧ ∀ source, .acknowledge source ∉ m.stepAccesses := by
  cases m.stepKind with
  | waiting _ hnone => cases hnone.symm.trans h
  | failing i fault _ hcurrent hkind =>
    obtain rfl := Option.some.inj (hcurrent.symm.trans h)
    obtain hkind | hkind := hkind <;> cases hkind
  | executing i hrun hcurrent hpolled hstep =>
    obtain rfl := Option.some.inj (hcurrent.symm.trans h)
    have hbefore : m.cpu.control = ⟨false, false, 0⟩ := by
      rw [Processor.control, hoff, hrun, hzero]
    have hafter := m.executed_control .enableInterrupts
    rw [hbefore] at hafter
    have hstay : (m.executed .enableInterrupts).cpu.interruptsOn = false :=
      congrArg Control.interruptsOn hafter
    constructor
    · rw [hstep, poll_of_off hstay]
      exact hafter
    · refine not_exists.1 (mt m.serves_iff.1 ?_)
      rintro ⟨p, hp, hon, -⟩
      rw [Option.some.inj (hpolled.symm.trans hp), hon] at hstay
      cases hstay

/-- **Interrupts come on one instruction after they are asked for.** Take a run from any machine
that has not asked for them. Between steps at most one instruction is left until they come on, and
none while the processor waits; a fault changes none of this. A step that finds interrupts off and
switches them on returns from an interrupt, or it comes next after one that has asked for them. A
step that asks for them while they are off and have not been asked for serves no interrupt. Until
the next step that does not fail they stay off, with that step to be waited for. If it switches them
off, they stay so and nothing is waited for; whatever else it executes, they are on when it looks at
them, so a source that is pending then is served. -/
theorem enabling_is_delayed (h : m.cpu.enableDelay = 0) :
    (∀ n, (run n m).cpu.enableDelay ≤ 1 ∧
      ((run n m).cpu.halted = true → (run n m).cpu.enableDelay = 0)) ∧
    (∀ n, (run n m).Fails → (run (n + 1) m).cpu.control = (run n m).cpu.control) ∧
    (∀ n, (run n m).cpu.interruptsOn = false → (run n m).SwitchesOn →
      ¬(run n m).Fails ∧ ((run n m).current? = some .returnFromInterrupt ∨
        ∃ k, m.ComesNext k n ∧ (run k m).current? = some .enableInterrupts)) ∧
    ∀ k, (run k m).cpu.interruptsOn = false → (run k m).cpu.enableDelay = 0 →
      (run k m).current? = some .enableInterrupts →
      (∀ source, .acknowledge source ∉ (run k m).stepAccesses) ∧
      ∀ n, m.ComesNext k n →
        (run n m).cpu.interruptsOn = false ∧ (run n m).cpu.enableDelay = 1 ∧
        (¬(run n m).Fails → ∃ i p, (run n m).current? = some i ∧ (run n m).polled? = some p ∧
          (run n m).step = (p.poll, none) ∧
          (i = .disableInterrupts → p.cpu.interruptsOn = false ∧
            (run (n + 1) m).cpu.interruptsOn = false ∧ (run (n + 1) m).cpu.enableDelay = 0) ∧
          (i ≠ .disableInterrupts → p.cpu.interruptsOn = true ∧
            (p.bus.interrupts.pending ≠ 0 → ∃ source, Dispatched p source (run (n + 1) m)))) := by
  have hsettled : m.cpu.control.Settled :=
    ⟨Nat.le_trans (Nat.le_of_eq h) (Nat.zero_le 1), fun _ => h⟩
  refine ⟨fun n => ⟨(run_settled hsettled n).delay_le, (run_settled hsettled n).delay_of_halted⟩,
    fun n hfails => ?_, fun n hoff hon => ?_, fun k hoff hzero hasked => ?_⟩
  · rw [run_succ]
    exact step_control_of_fails hfails
  · obtain ⟨hfine, hreturn | hone⟩ := current?_of_switchesOn hoff hon
    · exact ⟨hfine, .inl hreturn⟩
    · exact ⟨hfine, .inr (exists_comesNext_of_delay hsettled h hone)⟩
  · obtain ⟨hcontrol, hunserved⟩ := step_of_asking hoff hzero hasked
    refine ⟨hunserved, fun n hnext => ?_⟩
    have hbefore := hnext.control_eq
    rw [run_succ, hcontrol] at hbefore
    have hone : (run n m).cpu.enableDelay = 1 := congrArg Control.enableDelay hbefore
    have hrun : (run n m).cpu.halted = false := congrArg Control.halted hbefore
    refine ⟨congrArg Control.interruptsOn hbefore, hone, fun hfine => ?_⟩
    obtain ⟨i, hcurrent, hpolled, hstep⟩ := executing_of_not_fails hrun hfine
    refine ⟨i, _, hcurrent, hpolled, hstep, fun hi => ?_, fun hi => ?_⟩
    · subst hi
      have hafter := (run n m).executed_control .disableInterrupts
      rw [hbefore] at hafter
      have hstay := congrArg Control.interruptsOn hafter
      rw [run_succ, hstep, poll_of_off hstay]
      exact ⟨hstay, hstay, congrArg Control.enableDelay hafter⟩
    · have hon : ((run n m).executed i).cpu.interruptsOn = true := by
        have hafter := congrArg Control.interruptsOn ((run n m).executed_control i)
        rw [Control.interruptsOn_after_of_delay hone, decide_eq_false hi] at hafter
        exact hafter
      refine ⟨hon, fun hpending => ?_⟩
      rw [run_succ, hstep]
      obtain ⟨-, -, source, hserved, -⟩ | ⟨hnot, -⟩ := ((run n m).executed i).poll_cases
      · exact ⟨source, hserved⟩
      · exact absurd ⟨hon, hpending⟩ hnot

/-- A program that asks for interrupts and goes on, `EI`, `NOP`, with the timer's request pending.
-/
def askingWhilePending : Machine :=
  let m := ofProgram { Registers.zeroed with sp := 0xFFFE } [0xFB, 0x00]
  { m with bus := { m.bus with interrupts := ⟨0x04, 0x04⟩ } }

/-- The timer is not served with the first instruction, but with the second. -/
theorem enabling_is_delayed_by_one :
    askingWhilePending.cpu.enableDelay = 0 ∧
    (∀ source, .acknowledge source ∉ askingWhilePending.stepAccesses) ∧
    ∃ p source, (run 1 askingWhilePending).polled? = some p ∧
      Dispatched p source (run 2 askingWhilePending) := by
  have hzero : askingWhilePending.cpu.enableDelay = 0 := rfl
  have hasked : (run 0 askingWhilePending).current? = some .enableInterrupts := by decide +kernel
  have hnext : (run 1 askingWhilePending).current? = some .nop := by decide +kernel
  obtain ⟨-, -, -, hasking⟩ := enabling_is_delayed hzero
  obtain ⟨hunserved, hlater⟩ := hasking 0 rfl rfl hasked
  obtain ⟨-, -, hserved⟩ := hlater 1 (comesNext_self _ 0)
  have hfine : ¬(run 1 askingWhilePending).Fails := not_not.2 (by decide +kernel)
  obtain ⟨i, p, hi, hp, -, -, hon⟩ := hserved hfine
  obtain rfl := Option.some.inj (hnext.symm.trans hi)
  have hpending : p.bus.interrupts.pending ≠ 0 := by
    have hsome : (run 1 askingWhilePending).polled? =
        some ((run 1 askingWhilePending).executed .nop) := by
      obtain ⟨j, hj, hsome, -⟩ := executing_of_not_fails (by decide +kernel) hfine
      rwa [Option.some.inj (hj.symm.trans hi)] at hsome
    obtain rfl := Option.some.inj (hsome.symm.trans hp)
    decide +kernel
  obtain ⟨source, hdispatched⟩ := (hon (by decide)).2 hpending
  exact ⟨hzero, hunserved, p, source, hp, hdispatched⟩

end Machine

end DotMatrix
