import DotMatrix.Proofs.Console.FrameEnd
import DotMatrix.Proofs.Console.Invariant
import DotMatrix.Proofs.Trace.Reading
import Mathlib.Logic.Function.Iterate

/-!
# What a trace records

Before every step a line is recorded that describes the machine, unless the processor waits. Whether
the step is a fault is not known by then. So the lines of steps in a row tell, one after the other,
the states in which an instruction was begun.

* `after`: a console after steps in a row;
* `nextLine?`: the line that there should be before a step;
* `records`: the lines of steps in a row, each with the files at that time;
* `step_trace`: what a step records;
* `after_trace`: what steps in a row record;
* `trace_is_faithful`: all of it, with the lines read back.
-/

namespace DotMatrix

/-- A sink after lines in a row, each recorded on the volume of its time. -/
def Trace.Sink.receive (s : Sink) (records : List (Volume × String)) : Sink :=
  records.foldl (fun s x => (s.record x.1 x.2).1) s

/-- Memory keeps the lines in order. -/
theorem Trace.Sink.receive_memory (before : Array String) (records : List (Volume × String)) :
    (memory before).receive records = .memory (before ++ (records.map Prod.snd).toArray) := by
  induction records generalizing before with
  | nil => exact congrArg memory Array.append_empty.symm
  | cons x records ih =>
    refine (ih (before.push x.2)).trans (congrArg memory ?_)
    rw [List.map_cons, List.toArray_cons, Array.push_eq_append, Array.append_assoc]

namespace Console

variable {c : Console} {sink : Trace.Sink}

/-- The console after steps in a row, faults or not. -/
def after (n : Nat) (c : Console) : Console := (fun c => c.step.1)^[n] c

theorem after_succ (n : Nat) (c : Console) : c.after (n + 1) = (c.after n).step.1 :=
  Function.iterate_succ_apply' _ n c

/-- The line that describes the machine, if it is about to execute an instruction. -/
def nextLine? (c : Console) : Option String :=
  let r := c.machine.cpu.registers
  let b := c.machine.bus
  if c.machine.cpu.halted then none
  else some (Trace.line r (b.read r.pc) (b.read (r.pc + 1)) (b.read (r.pc + 2)) (b.read (r.pc + 3)))

/-- The lines of steps in a row, each with the files at that time. -/
def records (n : Nat) (c : Console) : List (Volume × String) :=
  (List.range n).filterMap fun i =>
    (c.after i).nextLine?.map fun line => ((c.after i).host.volume, line)

theorem records_succ (n : Nat) (c : Console) : c.records (n + 1) =
    c.records n ++ ((c.after n).nextLine?.map fun line => ((c.after n).host.volume, line)).toList := by
  unfold records
  rw [List.range_succ, List.filterMap_append]
  rfl

/-- What a step records. -/
theorem step_trace (h : c.trace = some sink) : c.step.1.trace =
    some (sink.receive (c.nextLine?.map fun line => (c.host.volume, line)).toList) := by
  obtain ⟨machine, hstep⟩ := c.step_withMachine
  rw [hstep]
  dsimp only
  unfold traceStep nextLine?
  by_cases hhalted : c.machine.cpu.halted = true
  · rw [if_pos hhalted, if_pos hhalted]
    exact h
  · -- The line counts the four bytes from zero on.
    have hzero : c.machine.cpu.registers.pc + 0 = c.machine.cpu.registers.pc := UInt16.add_zero _
    rw [if_neg hhalted, if_neg hhalted, h]
    dsimp only
    unfold traceLine
    dsimp only
    rw [hzero]
    rfl

/-- What steps in a row record. -/
theorem after_trace (h : c.trace = some sink) (n : Nat) :
    (c.after n).trace = some (sink.receive (c.records n)) := by
  induction n with
  | zero => exact h
  | succ n ih =>
    rw [after_succ, step_trace ih, records_succ]
    unfold Trace.Sink.receive
    rw [List.foldl_append]

theorem records_lines (n : Nat) (c : Console) :
    (c.records n).map Prod.snd = (List.range n).filterMap fun i => (c.after i).nextLine? := by
  unfold records
  rw [List.map_filterMap]
  congr 1
  funext i
  cases (c.after i).nextLine? <;> rfl

/-- **A trace is faithful.** With a sink that receives the trace, it has received after any number of
steps, in order and nothing else, a line for each of them that did not begin with the processor
waiting, faults included: the trace line of the registers and of the four bytes from PC on, as they
were before the step. A trace line can be read back, so two lines are equal just if they describe
the same registers and bytes. -/
theorem trace_is_faithful {c : Console} {sink : Trace.Sink} (h : c.trace = some sink) (n : Nat) :
    let lines := (List.range n).filterMap fun i => (c.after i).nextLine?
    (c.after n).trace = some (sink.receive (c.records n)) ∧
      (c.records n).map Prod.snd = lines ∧
      (∀ before, sink = .memory before →
        (c.after n).trace = some (.memory (before ++ lines.toArray))) ∧
      (∀ (r : Registers) (b0 b1 b2 b3 : UInt8),
        Trace.read? (Trace.line r b0 b1 b2 b3) = some (r, b0, b1, b2, b3)) ∧
      ∀ (r r' : Registers) (b0 b1 b2 b3 b0' b1' b2' b3' : UInt8),
        Trace.line r b0 b1 b2 b3 = Trace.line r' b0' b1' b2' b3' ↔
          r = r' ∧ b0 = b0' ∧ b1 = b1' ∧ b2 = b2' ∧ b3 = b3' := by
  intro lines
  have htrace := after_trace h n
  have hlines : (c.records n).map Prod.snd = lines := records_lines n c
  refine ⟨htrace, hlines, ?_, Trace.read?_line, fun _ _ _ _ _ _ _ _ _ _ => Trace.line_eq_iff⟩
  rintro before rfl
  rw [htrace, Trace.Sink.receive_memory, hlines]

/-- The first step is traced, and makes the processor wait; the other two are not traced. -/
theorem trace_is_faithful_waiting :
    let start := (powerOn (.ofVolume .empty)).insertAccepted haltImage
    let c := start.setTrace (some (.memory #[]))
    (c.after 3).trace = some (.memory #[Trace.line .powerOn 0x76 0 0 0]) := by
  intro start c
  have h : c.trace = some (.memory #[]) := rfl
  obtain ⟨-, -, hmemory, -⟩ := trace_is_faithful h 3
  have hlines : ((List.range 3).filterMap fun i => (c.after i).nextLine?) =
      [Trace.line .powerOn 0x76 0 0 0] := by
    decide +kernel
  rw [hmemory #[] rfl, hlines]
  rfl

end Console

end DotMatrix
