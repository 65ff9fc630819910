/-!
Frame pacing. A pacer holds the time at which the next frame is due; `wait` moves it on by one
period and tells how long to sleep. After falling behind, missed frames are dropped.
-/

namespace Chip8

structure Pacer where
  period : Float
  deadline : Option Float
  deriving Repr

namespace Pacer

def ofCadence? (cadence : Float) : Option Pacer :=
  if cadence == 0 then none else some ⟨1.0 / cadence, none⟩

/-- Waits for the next frame at a clock reading. The second part is the time to sleep, if any. -/
def wait (pacer : Pacer) (now : Float) : Pacer × Option Float :=
  let deadline := pacer.deadline.getD now + pacer.period
  let remaining := deadline - now
  if remaining > 0 then ({ pacer with deadline := some deadline }, some remaining)
  else ({ pacer with deadline := some now }, none)

end Pacer

end Chip8
