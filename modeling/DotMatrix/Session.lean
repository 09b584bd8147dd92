import DotMatrix.Console.Run

/-!
# Sessions

A session runs a console chunk by chunk until a limit is reached. A chunk is a frame; with a limit
on clock ticks it is a frame's worth of ticks, or what is left of them. After every chunk somebody
may look at the console and change it.

The time that has passed is told by a clock, a function of the number of chunks run.
-/

namespace DotMatrix

/-- When a session ends, whichever comes first. -/
structure Limits where
  frames : Option Nat
  cycles : Option Nat
  /-- Nanoseconds. -/
  time : Option Nat
  deriving DecidableEq, Repr

namespace Limits

/-- No limit. -/
def unlimited : Limits := ⟨none, none, none⟩

/-- Is a limit on frames or time reached? -/
def reached (l : Limits) (frames elapsed : Nat) : Bool :=
  l.frames.any (· ≤ frames) || l.time.any (· ≤ elapsed)

end Limits

namespace Session

/-- How a session ended. -/
inductive Ending
  /-- At a limit, after that many chunks. -/
  | finished (frames : Nat)
  | faulted (fault : Fault)
  /-- The bound on steps or chunks was reached first. -/
  | unfinished
  deriving DecidableEq, Repr

/-- How a session ends whose chunk has ended, unless the chunk is complete. -/
def Ending.ofChunk? : DotMatrix.Ending → Option Ending
  | .reached => none
  | .faulted fault => some (.faulted fault)
  | .unfinished => some .unfinished

/-- Run the next chunk of a session that has run `frames` chunks. If the limit on clock ticks is
reached, or the chunk is not completed, the session ends. -/
def runChunk (limits : Limits) (steps frames : Nat) (c : Console) : Console × Option Ending :=
  match limits.cycles with
  | some limit =>
    let left := limit - c.cycles
    if left = 0 then (c, some (.finished frames))
    else
      let (c, ending) := c.runCycles (min left Video.frameDots)
      (c, Ending.ofChunk? ending)
  | none =>
    let (c, ending) := c.runFrame steps
    (c, Ending.ofChunk? ending)

/-- Run up to `fuel` chunks, each of up to `steps` steps. `look` is called after every chunk. -/
def run {σ : Type} (limits : Limits) (clock : Nat → Nat) (look : σ → Console → σ × Console)
    (steps : Nat) : (fuel frames : Nat) → σ → Console → σ × Console × Ending
  | 0, _, s, c => (s, c, .unfinished)
  | fuel + 1, frames, s, c =>
    match runChunk limits steps frames c with
    | (c, some ending) => (s, c, ending)
    | (c, none) =>
      let frames := frames + 1
      let (s, c) := look s c
      if limits.reached frames (clock frames) then (s, c, .finished frames)
      else run limits clock look steps fuel frames s c

end Session

end DotMatrix
