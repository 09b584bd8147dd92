/-!
# The pace of the real machine

The real machine completes 59.7275 frames in a second. A session that keeps this pace waits after
every frame until the next one is due. If it is late, the next frame is due a frame's time from
now; the time that was lost is not made up for.
-/

namespace DotMatrix.Pacing

/-- Frames in ten thousand seconds. -/
def frameRate : Nat := 597275

/-- Nanoseconds in a second. -/
def nanosPerSecond : Nat := 1000000000

/-- Nanoseconds that a frame takes, rounded down. -/
def frameNanos : Nat := nanosPerSecond * 10000 / frameRate

/-- How long to wait at the end of a frame, and when the next frame is due. Times are in
nanoseconds; the first frame is due a frame's time after its end. -/
def frameDone (due? : Option Nat) (now : Nat) : Nat × Nat :=
  let due := due?.getD (now + frameNanos)
  if now < due then (due - now, due + frameNanos) else (0, now + frameNanos)

end DotMatrix.Pacing
