import DotMatrix.Console.Run

/-!
# What a console keeps while it runs

Running for a while is made of steps and of ends of frames. What both keep, every run keeps.
-/

namespace DotMatrix.Console

/-- When the instruction has been traced, a step changes the machine and nothing else. -/
theorem step_withMachine (c : Console) : ∃ machine, c.step.1 = { c.traceStep with machine } := by
  unfold step
  dsimp only
  split
  · exact ⟨_, rfl⟩
  · dsimp only
    split
    · unfold save
      split <;> exact ⟨_, rfl⟩
    · exact ⟨_, rfl⟩

/-- A property that steps and ends of frames keep. -/
structure Invariant (P : Console → Prop) : Prop where
  step {c : Console} : P c → P c.step.1
  frameDone {c : Console} : P c → P c.frameDone

namespace Invariant

variable {P : Console → Prop} {c : Console} (hP : Invariant P)
include hP

theorem runToFrameEnd (h : P c) (start fuel : Nat) : P (runToFrameEnd start fuel c).1 := by
  induction fuel generalizing c with
  | zero => exact h
  | succ fuel ih =>
    have hstep := hP.step h
    unfold Console.runToFrameEnd
    generalize c.step = x at hstep
    obtain ⟨c, fault?⟩ := x
    cases fault? with
    | some fault => exact hstep
    | none =>
      dsimp only
      split
      · exact hP.frameDone hstep
      · exact ih hstep

theorem stepFrames (h : P c) : P c.stepFrames.1 := by
  have hstep := hP.step h
  unfold Console.stepFrames
  generalize c.step = x at hstep
  obtain ⟨c, fault?⟩ := x
  cases fault? with
  | some fault => exact hstep
  | none =>
    dsimp only
    split
    · exact hP.frameDone hstep
    · exact hstep

theorem runToCycle (h : P c) (target fuel : Nat) : P (runToCycle target fuel c).1 := by
  induction fuel generalizing c with
  | zero => exact h
  | succ fuel ih =>
    have hstep := hP.stepFrames h
    unfold Console.runToCycle
    split
    · exact h
    generalize c.stepFrames = x at hstep
    obtain ⟨c, fault?⟩ := x
    cases fault? with
    | some fault => exact hstep
    | none => exact ih hstep

end Invariant

end DotMatrix.Console
