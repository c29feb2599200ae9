import OmniDrive.Drive.BodyVelocity

/-! Gradual change of the wheel speeds. The wheel with the farthest way to go moves by one unit a
tick, the others in proportion, and the last tick sets every wheel exactly to its target. -/
namespace OmniDrive

/-- The speed nearest to the given one within the limit. -/
def clampSpeed (speed : Int8) : Int8 :=
  if speed < -100 then -100 else if 100 < speed then 100 else speed

namespace Ramp

/-- The setpoint of one wheel. -/
structure Wheel where
  /-- The speed sent to the motor controller. -/
  current : Int8
  target : Int8
  /-- The current speed with sixteen fraction bits. -/
  position : Int
  /-- The change of the position in one tick. -/
  increment : Int
  deriving DecidableEq, Repr

namespace Wheel

open Word (int32)

def atRest : Wheel := ⟨0, 0, 0, 0⟩

/-- Aim at a target that shall be reached in the given number of ticks. -/
def aim (w : Wheel) (ticks : Nat) (target : Int8) : Except Fault Wheel := do
  let way ← int32.hold (target.toInt - w.current.toInt)
  let position ← int32.hold (w.current.toInt * 65536)
  let scaled ← int32.hold (way * 65536)
  pure { w with target, position, increment := if ticks = 0 then 0 else scaled.tdiv ticks }

/-- Be at a speed at once. -/
def jump (speed : Int8) : Except Fault Wheel := do
  let speed := clampSpeed speed
  let position ← int32.hold (speed.toInt * 65536)
  pure ⟨speed, speed, position, 0⟩

/-- Move by one increment; the speed is the position rounded down. -/
def advance (w : Wheel) : Except Fault Wheel := do
  let position ← int32.hold (w.position + w.increment)
  pure { w with position, current := Int8.ofInt (position / 65536) }

/-- Be at the target. -/
def arrive (w : Wheel) : Wheel := { w with current := w.target }

end Wheel

end Ramp

/-- The setpoints of the three wheels on their way to common targets. -/
structure Ramp where
  wheels : Wheels Ramp.Wheel
  /-- Ticks from the start to the targets. -/
  total : Nat
  /-- Ticks done since the start. -/
  elapsed : Nat
  deriving DecidableEq, Repr

namespace Ramp

def atRest : Ramp := ⟨Wheels.fill Wheel.atRest, 0, 0⟩

/-- The speeds sent to the motor controllers. -/
def speeds (r : Ramp) : Wheels Int8 := r.wheels.map Wheel.current

def targets (r : Ramp) : Wheels Int8 := r.wheels.map Wheel.target

def isMoving (r : Ramp) : Bool := r.elapsed < r.total

/-- The farthest way that a wheel has to go. -/
def distance (r : Ramp) (targets : Wheels Int8) : Nat :=
  let way (w : Wheel) (target : Int8) : Nat := (target.toInt - w.current.toInt).natAbs
  (Wheels.zipWith way r.wheels targets).greatest

/-- Start toward new targets, held within the limit; it takes `total` ticks. -/
def aim (r : Ramp) (targets : Wheels Int8) : Except Fault Ramp := do
  let targets := targets.map clampSpeed
  let total := r.distance targets
  let wheels ← (Wheels.zipWith (fun w t => w.aim total t) r.wheels targets).mapM id
  pure ⟨wheels, total, 0⟩

/-- Be at the given speeds at once, held within the limit. -/
def jump (speeds : Wheels Int8) : Except Fault Ramp := do
  let wheels ← speeds.mapM Wheel.jump
  pure ⟨wheels, 0, 0⟩

/-- Go on by one tick. -/
def tick (r : Ramp) : Except Fault Ramp :=
  if r.total ≤ r.elapsed then pure r
  else if r.elapsed + 1 = r.total then
    pure { r with wheels := r.wheels.map Wheel.arrive, elapsed := r.elapsed + 1 }
  else do
    let wheels ← r.wheels.mapM Wheel.advance
    pure { r with wheels, elapsed := r.elapsed + 1 }

end Ramp

end OmniDrive
