import DotMatrix.Proofs.Bus.Requests
import DotMatrix.Proofs.Processor.Time

/-!
# Serving interrupts

A step of the processor ends with a look at the interrupt registers, unless it ends with a fault. If
interrupts are on and a source is pending, the most urgent one is served: its request is taken back,
PC is pushed and the source's handler comes next. No other request is touched, so none is lost, and
none is served that was not made.

* `polled?`: the machine on which a step looks at interrupts;
* `step_cases`: a step is what comes before that look, and then the look;
* `Dispatched`: what serving a source does;
* `Turn`, `play`: a run, in which buttons are pressed and the host looks after its own affairs
  between steps;
* `interrupts_conserved`: requests are kept until they are served, and served at most once.
-/

namespace DotMatrix

namespace Machine

variable (m : Machine)

/-! ### Up to the look at interrupts -/

/-- The machine when the instruction at PC has been executed, before interrupts are looked at. -/
def executed (i : Instruction) : Machine :=
  let m' := m.fetch.2.execute i
  { m' with cpu := m'.cpu.countDelay m.cpu.enableDelay }

/-- The machine after a machine cycle of waiting, before interrupts are looked at. -/
def waited : Machine :=
  let m := m.cycle
  let halted := m.cpu.halted && m.bus.interrupts.pending == 0
  { m with cpu := { m.cpu with halted } }

/-- The machine on which a step looks at interrupts. A step that ends with a fault does not. -/
def polled? : Option Machine :=
  if m.cpu.halted then some m.waited
  else
    let opcode := m.fetch.1
    let instruction := Instruction.decode opcode
    match instruction.fault? opcode m.cpu.registers.pc with
    | some _ => none
    | none => some (m.executed instruction)

/-- The accesses of a step before it looks at interrupts. -/
def opening : List Access :=
  if m.cpu.halted then [.quiet] else .quiet :: m.fetch.2.accesses (.decode m.fetch.1)

theorem executed_performs (i : Instruction) :
    Performs m (.quiet :: m.fetch.2.accesses i) (m.executed i) :=
  (m.fetch_performs.trans (execute_performs _ i)).before rfl

theorem waited_performs : Performs m [.quiet] m.waited :=
  m.cycle_performs.before rfl

/-- A step looks at interrupts when its other accesses are over, or it ends with a fault. -/
theorem step_cases :
    (∃ p, m.polled? = some p ∧ m.step = (p.poll, none) ∧ Performs m m.opening p ∧
      m.stepAccesses = m.opening ++ p.polling) ∨
    ∃ fault, m.polled? = none ∧ m.step.2 = some fault ∧ m.stepAccesses = m.opening := by
  by_cases hh : m.cpu.halted = true
  · left
    refine ⟨m.waited, if_pos hh, ?_, ?_, ?_⟩
    · unfold step
      rw [if_pos hh]
      rfl
    · rw [opening, if_pos hh]
      exact m.waited_performs
    · rw [stepAccesses, opening, if_pos hh, if_pos hh]
      rfl
  · have hopening : m.opening = .quiet :: m.fetch.2.accesses (.decode m.fetch.1) := if_neg hh
    have hstep : m.step = m.runInstruction := if_neg hh
    have haccesses : m.stepAccesses = m.instructionAccesses := if_neg hh
    rw [hstep, haccesses, hopening]
    unfold polled? runInstruction instructionAccesses
    rw [if_neg hh]
    dsimp only
    cases (Instruction.decode m.fetch.1).fault? m.fetch.1 m.cpu.registers.pc with
    | none => exact .inl ⟨_, rfl, rfl, m.executed_performs _, rfl⟩
    | some fault => exact .inr ⟨fault, rfl, rfl, List.append_nil _⟩

/-! ### Only the look at interrupts takes a request back -/

section

variable {m} {s : Interrupt}

theorem acknowledge_not_mem_reading (c : Cell) : .acknowledge s ∉ c.reading := by
  cases c <;> simp [Cell.reading]

theorem acknowledge_not_mem_resolving (p : Pointer) : .acknowledge s ∉ p.resolving := by
  cases p <;> simp [Pointer.resolving]

theorem acknowledge_not_mem_writing (c : Cell) (v : UInt8) : .acknowledge s ∉ m.writing c v := by
  cases c <;> simp [writing]

theorem acknowledge_not_mem_pushing (w : UInt16) : .acknowledge s ∉ m.pushing w := by
  simp [pushing]

theorem acknowledge_not_mem_going {way : Option Condition} {as : List Access}
    (h : .acknowledge s ∉ as) : .acknowledge s ∉ m.going way as := by
  unfold going
  split
  · exact h
  · exact List.not_mem_nil

theorem acknowledge_not_mem_counting (f : UInt8 → Flags → UInt8 × Flags) (c : Cell) :
    .acknowledge s ∉ m.counting f c := by
  rw [counting, List.mem_append, not_or]
  exact ⟨acknowledge_not_mem_reading c, acknowledge_not_mem_writing c _⟩

theorem acknowledge_not_mem_extended (x : Extended) : .acknowledge s ∉ m.extendedAccesses x := by
  rw [extendedAccesses, List.mem_append, not_or]
  refine ⟨acknowledge_not_mem_reading _, ?_⟩
  split
  · exact List.not_mem_nil
  · exact acknowledge_not_mem_writing _ _

/-- No instruction takes a request back. -/
theorem acknowledge_not_mem_accesses (i : Instruction) : .acknowledge s ∉ m.accesses i := by
  have hcalling (m : Machine) : .acknowledge s ∉ m.calling := by
    simp [calling, acknowledge_not_mem_pushing]
  have hreturning : .acknowledge s ∉ returning := by simp [returning]
  cases i with
  | load dst src =>
    cases src with
    | cell c => exact acknowledge_not_mem_reading c
    | immediate => simp [accesses, Operand.reading]
  | loadA src => simp [accesses, acknowledge_not_mem_resolving]
  | storeA dst => simp [accesses, acknowledge_not_mem_resolving]
  | push src => simp [accesses, acknowledge_not_mem_pushing]
  | arithmetic op right =>
    cases right with
    | cell c => exact acknowledge_not_mem_reading c
    | immediate => simp [accesses, Operand.reading]
  | increment c => exact acknowledge_not_mem_counting _ c
  | decrement c => exact acknowledge_not_mem_counting _ c
  | jumpRelative c => simp [accesses, acknowledge_not_mem_going]
  | jump c => simp [accesses, acknowledge_not_mem_going]
  | call c => simp [accesses, acknowledge_not_mem_going, hcalling]
  | ret c =>
    cases c with
    | none => exact hreturning
    | some condition => simp [accesses, acknowledge_not_mem_going, hreturning]
  | returnFromInterrupt => exact hreturning
  | restart v => exact hcalling m
  | extended => simp [accesses, acknowledge_not_mem_extended]
  -- Quiet cycles and writes in a fixed number.
  | _ => simp [accesses]

theorem acknowledge_not_mem_opening : .acknowledge s ∉ m.opening := by
  unfold opening
  split
  · simp
  · simp [acknowledge_not_mem_accesses]

end

/-! ### The look at interrupts -/

/-- From `p` to `m'` a source has been served. -/
structure Dispatched (p : Machine) (source : Interrupt) (m' : Machine) : Prop where
  /-- Of the sources that are requested and enabled it has the lowest bit. -/
  lowest : p.bus.interrupts.Lowest source
  registers : m'.cpu.registers =
    { p.cpu.registers with pc := source.vector, sp := p.cpu.registers.sp - 1 - 1 }
  interruptsOn : m'.cpu.interruptsOn = false
  halted : m'.cpu.halted = false
  /-- The request is taken back, PC is pushed, and three machine cycles pass. -/
  bus : m'.bus = p.bus.perform
    [.acknowledge source,
      .write (p.cpu.registers.sp - 1) (Word.high p.cpu.registers.pc),
      .write (p.cpu.registers.sp - 1 - 1) (Word.low p.cpu.registers.pc), .quiet, .quiet, .quiet]
  cycles : m'.cpu.cycles = p.cpu.cycles + Bus.ticksPerCycle * 5

variable {m}

theorem serve_cpu (source : Interrupt) : (m.serve source).cpu =
    { m.cpu with
      registers :=
        { m.cpu.registers with pc := source.vector, sp := m.cpu.registers.sp - 1 - 1 }
      cycles :=
        m.cpu.cycles + Bus.ticksPerCycle + Bus.ticksPerCycle + Bus.ticksPerCycle +
          Bus.ticksPerCycle + Bus.ticksPerCycle
      interruptsOn := false
      halted := false } :=
  rfl

theorem serve_dispatched {source : Interrupt} (h : m.bus.interrupts.Lowest source) :
    Dispatched m source (m.serve source) where
  lowest := h
  registers := by rw [serve_cpu]
  interruptsOn := by rw [serve_cpu]
  halted := by rw [serve_cpu]
  bus := (m.serve_performs source).bus_eq
  cycles := (m.serve_performs source).cycles_eq

theorem poll_of_off (h : m.cpu.interruptsOn = false) : m.poll = m := by
  unfold poll
  exact if_neg (by simp [h])

theorem poll_of_highest (h : m.cpu.interruptsOn = true) {source : Interrupt}
    (hs : m.bus.interrupts.highest? = some source) : m.poll = m.serve source := by
  unfold poll
  rw [if_pos h, hs]

/-- The look at interrupts serves the pending source with the lowest bit, or finds nothing to do. -/
theorem poll_cases (m : Machine) :
    (m.cpu.interruptsOn = true ∧ m.bus.interrupts.pending ≠ 0 ∧
      ∃ source, Dispatched m source m.poll ∧ m.polling = m.serving source) ∨
    ¬(m.cpu.interruptsOn = true ∧ m.bus.interrupts.pending ≠ 0) ∧ m.poll = m ∧ m.polling = [] := by
  cases hon : m.cpu.interruptsOn with
  | false =>
    right
    refine ⟨by simp, poll_of_off hon, ?_⟩
    rw [polling, hon]
    rfl
  | true =>
    unfold polling
    rw [hon, if_pos rfl]
    obtain ⟨hzero, hnone⟩ | ⟨hne, s, hs, hlowest⟩ := m.bus.interrupts.highest?_cases
    · right
      refine ⟨by simp [hzero], ?_, by rw [hnone]⟩
      unfold poll
      rw [hnone, ite_self]
    · left
      rw [poll_of_highest hon hs, hs]
      exact ⟨rfl, hne, s, serve_dispatched hlowest, rfl⟩

theorem acknowledge_mem_serving {s source : Interrupt} :
    .acknowledge s ∈ m.serving source ↔ s = source := by
  simp [serving, pushing]

/-! ### Steps -/

/-- A step serves a source if it looks at interrupts while they are on and a source is pending. -/
theorem serves_iff (m : Machine) : (∃ source, .acknowledge source ∈ m.stepAccesses) ↔
    ∃ p, m.polled? = some p ∧ p.cpu.interruptsOn = true ∧ p.bus.interrupts.pending ≠ 0 := by
  obtain ⟨p, hp, -, -, haccesses⟩ | ⟨fault, hp, -, haccesses⟩ := m.step_cases
  · simp only [hp, haccesses, Option.some.injEq, exists_eq_left', List.mem_append,
      acknowledge_not_mem_opening, false_or]
    obtain ⟨hon, hne, s, -, hpolling⟩ | ⟨hnot, -, hpolling⟩ := p.poll_cases
    · rw [hpolling]
      exact iff_of_true ⟨s, acknowledge_mem_serving.2 rfl⟩ ⟨hon, hne⟩
    · rw [hpolling]
      exact iff_of_false (fun ⟨s, hs⟩ => List.not_mem_nil hs) hnot
  · simp only [hp, haccesses, acknowledge_not_mem_opening, reduceCtorEq, false_and, exists_false]

/-- A step serves a source once. -/
theorem count_acknowledge_step_le (m : Machine) (s : Interrupt) :
    m.stepAccesses.count (.acknowledge s) ≤ 1 := by
  have hopening : m.opening.count (.acknowledge s) = 0 :=
    List.count_eq_zero_of_not_mem acknowledge_not_mem_opening
  obtain ⟨p, -, -, -, haccesses⟩ | ⟨fault, -, -, haccesses⟩ := m.step_cases
  · rw [haccesses, List.count_append, hopening, Nat.zero_add]
    obtain ⟨-, -, source, -, hpolling⟩ | ⟨-, -, hpolling⟩ := p.poll_cases
    · have hrest : .acknowledge s ∉ p.pushing p.cpu.registers.pc ++ [.quiet, .quiet, .quiet] := by
        simp [pushing]
      rw [hpolling, serving, List.count_cons, List.count_eq_zero_of_not_mem hrest, Nat.zero_add]
      split <;> decide
    · rw [hpolling]
      exact Nat.zero_le 1
  · rw [haccesses, hopening]
    exact Nat.zero_le 1

/-- The source that a step serves. -/
theorem dispatched_of_mem {source : Interrupt} (h : .acknowledge source ∈ m.stepAccesses) :
    ∃ p, m.polled? = some p ∧ Dispatched p source m.step.1 := by
  obtain ⟨p, hp, hstep, -, haccesses⟩ | ⟨fault, -, -, haccesses⟩ := m.step_cases
  · rw [haccesses, List.mem_append] at h
    have hmem := h.resolve_left acknowledge_not_mem_opening
    obtain ⟨-, -, s, hdispatched, hpolling⟩ | ⟨-, -, hpolling⟩ := p.poll_cases
    · rw [hpolling, acknowledge_mem_serving] at hmem
      rw [hstep, hmem]
      exact ⟨p, hp, hdispatched⟩
    · rw [hpolling] at hmem
      cases hmem
  · rw [haccesses] at h
    exact absurd h acknowledge_not_mem_opening

/-- A step only serves a source whose request is up. -/
theorem step_answered (m : Machine) :
    m.bus.interrupts.Answered (m.bus.interruptHistory m.stepAccesses) := by
  have hopening : m.bus.interrupts.Answered (m.bus.interruptHistory m.opening) :=
    Interrupts.answered_of_not_mem _ fun s hs =>
      acknowledge_not_mem_opening (Bus.acknowledge_mem_history.1 hs)
  obtain ⟨p, -, -, hperforms, haccesses⟩ | ⟨fault, -, -, haccesses⟩ := m.step_cases
  · rw [haccesses, Bus.interruptHistory_append, Interrupts.answered_append,
      ← Bus.perform_interrupts, ← hperforms.bus_eq]
    refine ⟨hopening, ?_⟩
    obtain ⟨-, -, s, hdispatched, hpolling⟩ | ⟨-, -, hpolling⟩ := p.poll_cases
    · -- The request that is taken back was up, and no other is taken back after it.
      rw [hpolling, serving, Bus.interruptHistory_acknowledge, Interrupts.answered_cons]
      refine ⟨fun t ht => ?_, Interrupts.answered_of_not_mem _ fun t ht => ?_⟩
      · obtain rfl := Interrupts.Event.acknowledge.inj ht
        exact hdispatched.lowest.requested
      · have hmem := Bus.acknowledge_mem_history.1 ht
        simp [pushing] at hmem
    · rw [hpolling]
      trivial
  · rw [haccesses]
    exact hopening

/-- The registers after a step. -/
theorem step_interrupts (m : Machine) :
    m.step.1.bus.interrupts = m.bus.interrupts.run (m.bus.interruptHistory m.stepAccesses) := by
  rw [m.step_performs.bus_eq, Bus.perform_interrupts]

/-- The request of the source that a step serves is up afterwards just if it is made again after it
was taken back. -/
theorem step_requested_iff (hw : ∀ v, .write 0xFF0F v ∉ m.stepAccesses) {source : Interrupt}
    {before after : List Access} (h : m.stepAccesses = before ++ .acknowledge source :: after) :
    m.step.1.bus.interrupts.requested source = true ↔
      .request source ∈
        (m.bus.perform (before ++ [.acknowledge source])).interruptHistory after := by
  have hsplit : m.stepAccesses = (before ++ [.acknowledge source]) ++ after := by
    rw [h, List.append_assoc, List.singleton_append]
  have hw' (v : UInt8) : .write 0xFF0F v ∉ after := by
    intro hv
    refine hw v ?_
    rw [hsplit]
    exact List.mem_append_right _ hv
  have hafter : .acknowledge source ∉ after := by
    have hcount := m.count_acknowledge_step_le source
    rw [h, List.count_append, List.count_cons_self] at hcount
    rw [← List.count_eq_zero]
    omega
  have hdown : (m.bus.perform (before ++ [.acknowledge source])).interrupts.requested source =
      false := by
    rw [Bus.perform_append]
    show ((m.bus.perform before).interrupts.acknowledge source).requested source = false
    simp
  rw [m.step_performs.bus_eq, hsplit, Bus.perform_append, Bus.perform_interrupts,
    Interrupts.run_requested_iff _ (fun v hv => hw' v (Bus.writeFlags_mem_history hv))
      (mt Bus.acknowledge_mem_history.1 hafter), hdown]
  simp

/-! ### Runs -/

/-- What can happen to a machine in a run. -/
inductive Turn
  | step
  | setButton (button : Button) (down : Bool)
  /-- The host does something that leaves the interrupt registers alone. -/
  | host (change : Machine → Machine) (keeps : ∀ m, (change m).bus.interrupts = m.bus.interrupts)

namespace Turn

/-- The machine after a turn. -/
def perform (m : Machine) : Turn → Machine
  | step => m.step.1
  | setButton button down => { m with bus := m.bus.setButton button down }
  | host change _ => change m

/-- What the processor does on the bus in a turn. -/
def accesses (m : Machine) : Turn → List Access
  | step => m.stepAccesses
  | setButton _ _ => []
  | host _ _ => []

/-- What a turn means for the interrupt registers. -/
def events (m : Machine) : Turn → List Interrupts.Event
  | step => m.bus.interruptHistory m.stepAccesses
  | setButton button down => Interrupts.requesting (m.bus.joypad.isNewPress button down) .joypad
  | host _ _ => []

theorem perform_interrupts (m : Machine) (t : Turn) :
    (t.perform m).bus.interrupts = m.bus.interrupts.run (t.events m) := by
  cases t with
  | step => exact m.step_interrupts
  | setButton button down => exact (Interrupts.run_requesting _ _ _).symm
  | host change keeps => exact keeps m

theorem answered (m : Machine) (t : Turn) : m.bus.interrupts.Answered (t.events m) := by
  cases t with
  | step => exact m.step_answered
  | setButton button down =>
    refine Interrupts.answered_of_not_mem _ fun s hs => ?_
    cases Interrupts.eq_request_of_mem hs
  | host change keeps => trivial

theorem count_events (m : Machine) (t : Turn) (s : Interrupt) :
    (t.events m).count (.acknowledge s) = (t.accesses m).count (.acknowledge s) := by
  cases t with
  | step => exact Bus.count_acknowledge_history _ _ s
  | setButton button down =>
    refine List.count_eq_zero_of_not_mem fun hs => ?_
    cases Interrupts.eq_request_of_mem hs
  | host change keeps => rfl

theorem writeFlags_mem_events {m : Machine} {t : Turn} {v : UInt8}
    (h : .writeFlags v ∈ t.events m) : .write 0xFF0F v ∈ t.accesses m := by
  cases t with
  | step => exact Bus.writeFlags_mem_history h
  | setButton button down => cases Interrupts.eq_request_of_mem h
  | host change keeps => cases h

end Turn

/-- The machine after a run. -/
def play (m : Machine) (ts : List Turn) : Machine := ts.foldl Turn.perform m

/-- What the processor does on the bus in a run. -/
def playAccesses : Machine → List Turn → List Access
  | _, [] => []
  | m, t :: ts => t.accesses m ++ playAccesses (t.perform m) ts

/-- What a run means for the interrupt registers. -/
def playEvents : Machine → List Turn → List Interrupts.Event
  | _, [] => []
  | m, t :: ts => t.events m ++ playEvents (t.perform m) ts

theorem play_interrupts (m : Machine) (ts : List Turn) :
    (m.play ts).bus.interrupts = m.bus.interrupts.run (m.playEvents ts) := by
  induction ts generalizing m with
  | nil => rfl
  | cons t ts ih =>
    rw [playEvents, Interrupts.run_append, ← t.perform_interrupts]
    exact ih (t.perform m)

theorem play_answered (m : Machine) (ts : List Turn) :
    m.bus.interrupts.Answered (m.playEvents ts) := by
  induction ts generalizing m with
  | nil => trivial
  | cons t ts ih =>
    rw [playEvents, Interrupts.answered_append, ← t.perform_interrupts]
    exact ⟨t.answered m, ih (t.perform m)⟩

theorem count_playEvents (m : Machine) (ts : List Turn) (s : Interrupt) :
    (m.playEvents ts).count (.acknowledge s) = (m.playAccesses ts).count (.acknowledge s) := by
  induction ts generalizing m with
  | nil => rfl
  | cons t ts ih => rw [playEvents, playAccesses, List.count_append, List.count_append, ih,
      t.count_events]

theorem writeFlags_mem_playEvents {ts : List Turn} {v : UInt8} (h : .writeFlags v ∈ m.playEvents ts) :
    .write 0xFF0F v ∈ m.playAccesses ts := by
  induction ts generalizing m with
  | nil => cases h
  | cons t ts ih =>
    rw [playAccesses, List.mem_append]
    rcases List.mem_append.1 h with h | h
    · exact .inl (Turn.writeFlags_mem_events h)
    · exact .inr (ih h)

/-- **Interrupt requests are conserved.** Take a step of any machine. As long as it does not write
the requests itself, each of the five that is up stays up, unless its source is served; the request
of the source that is served is up after the step just if a device makes it again after it was taken
back. A step serves a source just if it looks at interrupts while they are on and a source is
pending, and then it serves the one with the lowest bit, as `Dispatched` says. In a run, whatever
the buttons and the host do between steps, a source is served at most as often as its request goes
up, and once more if it was up at the start; and if the program never writes the requests, then
each time that a request has gone up has been served, but for one that is still up. -/
theorem interrupts_conserved (m : Machine) :
    ((∀ v, .write 0xFF0F v ∉ m.stepAccesses) →
      (∀ n < 5, Byte.bit m.bus.interrupts.flags n = true →
        Byte.bit m.step.1.bus.interrupts.flags n = true ∨
          ∃ source, source.number = n ∧ .acknowledge source ∈ m.stepAccesses) ∧
      ∀ source before after, m.stepAccesses = before ++ .acknowledge source :: after →
        (Byte.bit m.step.1.bus.interrupts.flags source.number = true ↔
          .request source ∈
            (m.bus.perform (before ++ [.acknowledge source])).interruptHistory after)) ∧
    (match m.polled? with
      | some p => m.step = (p.poll, none)
      | none => ∃ fault, m.step.2 = some fault) ∧
    ((∃ source, .acknowledge source ∈ m.stepAccesses) ↔
      ∃ p, m.polled? = some p ∧ p.cpu.interruptsOn = true ∧ p.bus.interrupts.pending ≠ 0) ∧
    (∀ source, .acknowledge source ∈ m.stepAccesses →
      ∃ p, m.polled? = some p ∧ Dispatched p source m.step.1) ∧
    ∀ (ts : List Turn) (source : Interrupt),
      let served := (m.playAccesses ts).count (.acknowledge source)
      let rises := Interrupts.rises source m.bus.interrupts (m.playEvents ts)
      (m.play ts).bus.interrupts = m.bus.interrupts.run (m.playEvents ts) ∧
      served ≤ rises + (m.bus.interrupts.requested source).toNat ∧
      ((∀ v, .write 0xFF0F v ∉ m.playAccesses ts) →
        served + ((m.play ts).bus.interrupts.requested source).toNat =
          rises + (m.bus.interrupts.requested source).toNat) := by
  refine ⟨fun hw => ⟨fun n hn hbit => ?_, fun source before after haccesses => ?_⟩, ?_,
    m.serves_iff, fun source => dispatched_of_mem, fun ts source => ?_⟩
  · obtain ⟨source, rfl⟩ := Interrupt.exists_number hn
    by_cases hmem : .acknowledge source ∈ m.stepAccesses
    · exact .inr ⟨source, rfl, hmem⟩
    · left
      rw [step_interrupts]
      exact (Interrupts.run_requested_iff _ (fun v hv => hw v (Bus.writeFlags_mem_history hv))
        (mt Bus.acknowledge_mem_history.1 hmem)).2 (.inl hbit)
  · exact step_requested_iff hw haccesses
  · obtain ⟨p, hp, hstep, -⟩ | ⟨fault, hp, hfault, -⟩ := m.step_cases
    · rw [hp]
      exact hstep
    · rw [hp]
      exact ⟨fault, hfault⟩
  · have hanswered := m.play_answered ts
    have hle := Interrupts.count_acknowledge_le hanswered source
    rw [count_playEvents] at hle
    refine ⟨m.play_interrupts ts, Nat.le_trans (Nat.le_add_right _ _) hle, fun hw => ?_⟩
    have heq := Interrupts.count_acknowledge_eq hanswered
      (fun v hv => hw v (writeFlags_mem_playEvents hv)) source
    rwa [count_playEvents, ← play_interrupts] at heq

/-- A machine without a cartridge, on which vertical blank and the timer ask for service at once. -/
def bothPending : Machine :=
  let m := start (.ofVolume .empty) none false
  { cpu := { m.cpu with interruptsOn := true }
    bus := { m.bus with interrupts := ⟨0x05, 0x05⟩ } }

/-- Its step calls the address that it reads from open lines, and then serves vertical blank; the
timer's request stays up. -/
theorem bothPending_serves_vblank :
    (∀ v, .write 0xFF0F v ∉ bothPending.stepAccesses) ∧
    Byte.bit bothPending.step.1.bus.interrupts.flags 2 = true ∧
    (∃ p, bothPending.polled? = some p ∧ Dispatched p .vblank bothPending.step.1) ∧
    (bothPending.play [.step]).bus.interrupts.requested .vblank = false := by
  have haccesses : bothPending.stepAccesses =
      [.quiet, .quiet, .write 0xFFFD 0x01, .write 0xFFFC 0x01, .acknowledge .vblank,
        .write 0xFFFB 0x00, .write 0xFFFA 0x38, .quiet, .quiet, .quiet] := by
    decide +kernel
  have hw : ∀ v, .write 0xFF0F v ∉ bothPending.stepAccesses := by
    rw [haccesses]
    simp
  have hmem : .acknowledge .vblank ∈ bothPending.stepAccesses := by
    rw [haccesses]
    simp
  obtain ⟨hstep, -, -, hserved, hruns⟩ := interrupts_conserved bothPending
  refine ⟨hw, ?_, hserved _ hmem, ?_⟩
  · obtain hup | ⟨source, hnumber, hsource⟩ := (hstep hw).1 2 (by decide) (by decide)
    · exact hup
    · obtain rfl : source = .timer := Interrupt.number_inj.1 hnumber
      rw [haccesses] at hsource
      simp at hsource
  · have hplayed : bothPending.playAccesses [.step] = bothPending.stepAccesses := List.append_nil _
    have hevents : bothPending.playEvents [.step] = [.acknowledge .vblank] := by decide +kernel
    have hone : bothPending.stepAccesses.count (.acknowledge .vblank) = 1 := by
      rw [haccesses]
      decide
    have hup : Interrupts.rises .vblank bothPending.bus.interrupts [.acknowledge .vblank] +
        (bothPending.bus.interrupts.requested .vblank).toNat = 1 := by decide +kernel
    have hcount := (hruns [.step] .vblank).2.2 (hplayed ▸ hw)
    rw [hplayed, hone, hevents, hup] at hcount
    exact Bool.toNat_eq_zero.1 (by omega)

end Machine

end DotMatrix
