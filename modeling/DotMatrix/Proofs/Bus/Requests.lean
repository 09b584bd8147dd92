import DotMatrix.Proofs.Bus.History
import DotMatrix.Proofs.Interrupts.Ledger

/-!
# What accesses make of the interrupt registers

Every change of the interrupt registers has its cause: a device that requests service in a machine
cycle or on a write, the processor that serves a source, or a program that writes to one of the two
registers. This file lists the causes in the order in which they take effect.

* `Timer.requests`, `Video.requests`, `Bus.cycleRequests`: what the devices request as time passes;
* `Interrupts.written`: what a write means for the registers;
* `Bus.interruptHistory`, `perform_interrupts`: all that happens in accesses, and where it leads.
-/

namespace DotMatrix

/-- A request that is made if a condition holds. -/
def Interrupts.requesting (on : Bool) (source : Interrupt) : List Interrupts.Event :=
  if on then [.request source] else []

/-- What the timer requests in clock ticks. -/
def Timer.requests : Nat → Timer → List Interrupts.Event
  | 0, _ => []
  | n + 1, t => Interrupts.requesting t.tick.reloading .timer ++ requests n t.tick

/-- What the video unit requests on a dot. -/
def Video.Signals.requests (s : Video.Signals) : List Interrupts.Event :=
  Interrupts.requesting s.vblank .vblank ++ Interrupts.requesting s.status .lcdStatus

/-- What the video unit requests in clock ticks. -/
def Video.requests : Nat → Video → List Interrupts.Event
  | 0, _ => []
  | n + 1, v => v.tick.2.requests ++ requests n v.tick.1

/-- What a write means for the registers: the serial link may be started, or one of the two is
written. -/
def Interrupts.written (a : UInt16) (v : UInt8) : List Interrupts.Event :=
  match Location.ofAddress a with
  | .device (.serial r) => requesting (Serial.starts r v) .serial
  | .device .interruptFlags => [.writeFlags v]
  | .interruptEnable => [.writeEnable v]
  | _ => []

namespace Bus

variable (b : Bus)

/-- What the devices request in a machine cycle. -/
def cycleRequests : List Interrupts.Event :=
  b.timer.requests ticksPerCycle ++ b.video.requests ticksPerCycle

/-- What an access means for the registers. -/
def interruptEvents : Access → List Interrupts.Event
  | .quiet => b.cycleRequests
  | .write a v => Interrupts.written a v ++ (b.write a v).cycleRequests
  | .acknowledge source => [.acknowledge source]

/-- What accesses in a row mean for the registers. -/
def interruptHistory (b : Bus) : List Access → List Interrupts.Event
  | [] => []
  | x :: xs => b.interruptEvents x ++ interruptHistory (b.access x) xs

end Bus

/-! ### Where the events lead -/

namespace Interrupts

@[simp] theorem run_requesting (i : Interrupts) (on : Bool) (s : Interrupt) :
    i.run (requesting on s) = i.requestIf on s := by
  cases on <;> rfl

/-- Only requests come of a request that is made if a condition holds. -/
theorem eq_request_of_mem {e : Event} {on : Bool} {s : Interrupt}
    (h : e ∈ requesting on s) : e = .request s := by
  cases on with
  | false => cases h
  | true => exact List.mem_singleton.1 h

end Interrupts

namespace Bus

variable (b : Bus)

theorem runTimer_interrupts (n : Nat) :
    (runTimer n b).interrupts = b.interrupts.run (b.timer.requests n) := by
  induction n generalizing b with
  | zero => rfl
  | succ n ih =>
    rw [runTimer, ih b.tickTimer, Timer.requests, Interrupts.run_append, Interrupts.run_requesting]
    rfl

theorem runVideo_interrupts (n : Nat) :
    (runVideo n b).1.interrupts = b.interrupts.run (b.video.requests n) := by
  induction n generalizing b with
  | zero => rfl
  | succ n ih =>
    have hstep : (runVideo (n + 1) b).1 = (runVideo n b.tickVideo.1).1 := rfl
    rw [hstep, ih b.tickVideo.1, Video.requests, Interrupts.run_append, Video.Signals.requests,
      Interrupts.run_append, Interrupts.run_requesting, Interrupts.run_requesting]
    rfl

/-- A machine cycle makes the requests of the devices and no others. -/
theorem cycle_interrupts : b.cycle.interrupts = b.interrupts.run b.cycleRequests := by
  obtain ⟨_, _, _, hcycle, -⟩ := b.cycle_eq
  obtain ⟨_, htimer⟩ := b.runTimer_eq ticksPerCycle
  have hvideo : (runTimer ticksPerCycle b).video = b.video := by rw [htimer]
  rw [hcycle, cycleRequests, Interrupts.run_append, ← runTimer_interrupts, ← hvideo]
  exact runVideo_interrupts _ _

theorem write_interrupts (a : UInt16) (v : UInt8) :
    (b.write a v).interrupts = b.interrupts.run (Interrupts.written a v) := by
  unfold Bus.write Interrupts.written
  cases Location.ofAddress a with
  | device r =>
    cases r with
    | serial r => exact (Interrupts.run_requesting _ _ _).symm
    | joypad | timer | interruptFlags | video => rfl
  | _ => rfl

theorem access_interrupts (x : Access) :
    (b.access x).interrupts = b.interrupts.run (b.interruptEvents x) := by
  cases x with
  | quiet => exact b.cycle_interrupts
  | write a v =>
    rw [interruptEvents, Interrupts.run_append, ← write_interrupts]
    exact cycle_interrupts _
  | acknowledge source => rfl

/-- **After accesses the registers are where the events lead.** -/
theorem perform_interrupts (xs : List Access) :
    (b.perform xs).interrupts = b.interrupts.run (b.interruptHistory xs) := by
  induction xs generalizing b with
  | nil => rfl
  | cons x xs ih =>
    rw [perform_cons, ih, interruptHistory, Interrupts.run_append, access_interrupts]

theorem interruptHistory_append (xs ys : List Access) :
    b.interruptHistory (xs ++ ys) = b.interruptHistory xs ++ (b.perform xs).interruptHistory ys := by
  induction xs generalizing b with
  | nil => rfl
  | cons x xs ih =>
    rw [List.cons_append, interruptHistory, interruptHistory, ih, List.append_assoc, perform_cons]

theorem interruptHistory_acknowledge (s : Interrupt) (xs : List Access) :
    b.interruptHistory (.acknowledge s :: xs) =
      .acknowledge s :: (b.access (.acknowledge s)).interruptHistory xs := rfl

/-! ### Where the events come from -/

theorem request_of_mem_timer {e : Interrupts.Event} {n : Nat} {t : Timer} (h : e ∈ t.requests n) :
    ∃ s, e = .request s := by
  induction n generalizing t with
  | zero => cases h
  | succ n ih =>
    rcases List.mem_append.1 h with h | h
    · exact ⟨_, Interrupts.eq_request_of_mem h⟩
    · exact ih h

theorem request_of_mem_video {e : Interrupts.Event} {n : Nat} {v : Video} (h : e ∈ v.requests n) :
    ∃ s, e = .request s := by
  induction n generalizing v with
  | zero => cases h
  | succ n ih =>
    rcases List.mem_append.1 h with h | h
    · rcases List.mem_append.1 h with h | h
      · exact ⟨_, Interrupts.eq_request_of_mem h⟩
      · exact ⟨_, Interrupts.eq_request_of_mem h⟩
    · exact ih h

/-- Time only brings requests. -/
theorem request_of_mem_cycle {b : Bus} {e : Interrupts.Event} (h : e ∈ b.cycleRequests) :
    ∃ s, e = .request s := by
  rcases List.mem_append.1 h with h | h
  · exact request_of_mem_timer h
  · exact request_of_mem_video h

variable {b}

/-- A source is served by the processor alone. -/
theorem count_acknowledge_written (a : UInt16) (v : UInt8) (s : Interrupt) :
    (Interrupts.written a v).count (.acknowledge s) = 0 := by
  unfold Interrupts.written
  split
  · refine List.count_eq_zero_of_not_mem fun h => ?_
    cases Interrupts.eq_request_of_mem h
  all_goals rfl

theorem count_acknowledge_history (b : Bus) (xs : List Access) (s : Interrupt) :
    (b.interruptHistory xs).count (.acknowledge s) = xs.count (.acknowledge s) := by
  have hcycle (b : Bus) : b.cycleRequests.count (.acknowledge s) = 0 := by
    refine List.count_eq_zero_of_not_mem fun h => ?_
    obtain ⟨_, he⟩ := request_of_mem_cycle h
    cases he
  induction xs generalizing b with
  | nil => rfl
  | cons x xs ih =>
    rw [interruptHistory, List.count_append, ih, List.count_cons, Nat.add_comm]
    congr 1
    cases x with
    | quiet => exact hcycle b
    | write a v =>
      rw [interruptEvents, List.count_append, count_acknowledge_written, hcycle]
      rfl
    | acknowledge t =>
      rw [interruptEvents, List.count_singleton]
      by_cases hst : t = s
      · simp [hst]
      · simp [hst]

theorem acknowledge_mem_history {xs : List Access} {s : Interrupt} :
    .acknowledge s ∈ b.interruptHistory xs ↔ .acknowledge s ∈ xs := by
  rw [← List.count_pos_iff, count_acknowledge_history, List.count_pos_iff]

/-- The requests are written by writes to their address alone. -/
theorem writeFlags_mem_history {xs : List Access} {v : UInt8}
    (h : .writeFlags v ∈ b.interruptHistory xs) : .write 0xFF0F v ∈ xs := by
  have hcycle (b : Bus) : .writeFlags v ∉ b.cycleRequests := by
    intro h
    obtain ⟨_, he⟩ := request_of_mem_cycle h
    cases he
  induction xs generalizing b with
  | nil => cases h
  | cons x xs ih =>
    rcases List.mem_append.1 h with h | h
    · cases x with
      | quiet => exact absurd h (hcycle b)
      | write a w =>
        rcases List.mem_append.1 h with h | h
        · unfold Interrupts.written at h
          split at h
          · cases Interrupts.eq_request_of_mem h
          · next ha =>
            obtain rfl := Interrupts.Event.writeFlags.inj (List.mem_singleton.1 h)
            obtain rfl := Location.ofAddress_eq_device_iff.1 ha
            exact List.mem_cons_self
          · cases List.mem_singleton.1 h
          · cases h
        · exact absurd h (hcycle _)
      | acknowledge s => cases List.mem_singleton.1 h
    · exact List.mem_cons_of_mem x (ih h)

end Bus

end DotMatrix
