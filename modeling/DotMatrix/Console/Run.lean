import DotMatrix.Console.Basic

/-!
# Running for a while

`Console.runFrame` runs until the video unit has completed a frame. While the display is off there
are no frames, and the ticks of a frame count as one. Whether a frame is ever completed is up to
the program, so the number of steps is bounded by the caller, and the answer tells an exhausted
bound from a completed frame.

`Console.runCycles` runs for a number of clock ticks and stops between two instructions. A step
takes at least one tick, so that many steps are enough.
-/

namespace DotMatrix

/-- How a run ended. -/
inductive Ending
  /-- Where it was meant to. -/
  | reached
  /-- The processor could not go on. -/
  | faulted (fault : Fault)
  /-- The bound on steps was reached first. -/
  | unfinished
  deriving DecidableEq, Repr

namespace Console

variable (c : Console)

/-- Acknowledge a frame. -/
def clearFrameReady : Console := c.mapBus fun b => { b with video := b.video.clearFrameReady }

/-- A frame has gone by. -/
def frameDone : Console := { c.clearFrameReady with framesDone := c.framesDone + 1 }

/-- Has the frame that began at `start` ended? -/
def frameEnded (start : Nat) : Bool :=
  c.frameReady ||
    (!c.machine.bus.video.displayOn && decide (start + Video.frameDots ≤ c.cycles))

/-- Take up to `fuel` steps, until the frame that began at `start` has ended. -/
def runToFrameEnd (start : Nat) : Nat → Console → Console × Ending
  | 0, c => (c, .unfinished)
  | fuel + 1, c =>
    match c.step with
    | (c, some fault) => (c, .faulted fault)
    | (c, none) => if c.frameEnded start then (c.frameDone, .reached) else runToFrameEnd start fuel c

/-- Run until a frame is complete, for up to `fuel` steps. -/
def runFrame (fuel : Nat) : Console × Ending := runToFrameEnd c.cycles fuel c

/-- One step; a frame that it completes is acknowledged. -/
def stepFrames : Console × Option Fault :=
  match c.step with
  | (c, some fault) => (c, some fault)
  | (c, none) => (if c.frameReady then c.frameDone else c, none)

/-- Take up to `fuel` steps, until the clock has reached `target`. -/
def runToCycle (target : Nat) : Nat → Console → Console × Ending
  | 0, c => (c, if target ≤ c.cycles then .reached else .unfinished)
  | fuel + 1, c =>
    if target ≤ c.cycles then (c, .reached)
    else
      match c.stepFrames with
      | (c, some fault) => (c, .faulted fault)
      | (c, none) => runToCycle target fuel c

/-- Run for at least the given clock ticks. -/
def runCycles (ticks : Nat) : Console × Ending := runToCycle (c.cycles + ticks) ticks c

end Console

end DotMatrix
