import OmniDrive.Act
import OmniDrive.Notice

/-! What protects a motor from its own duty. The current limiter pulls the setpoint toward zero, but
never past it, while too much current flows. The power limiter estimates the power and switches the
output off for a while; there is nothing between on and off. -/
namespace OmniDrive

/-- The correction built up so far, in units of a 32nd of a setpoint step. -/
structure CurrentLimiter where
  correction : Int
  deriving DecidableEq, Repr

/-- A limited setpoint and the signed amount that was folded into it. -/
structure Limited where
  setpoint : Int8
  folded : Int
  deriving DecidableEq, Repr

namespace CurrentLimiter

open Word (int8 int16)

/-- The current that is regulated to. -/
def limit : Int := 25

/-- Correction units in one step of the setpoint. -/
def scale : Int := 32

def initial : CurrentLimiter := ⟨0⟩

/-- The correction after a measurement. It saturates; above the limit it is held to the size of the
setpoint, otherwise to zero. -/
def correct (l : CurrentLimiter) (setpoint : Int8) (current : UInt8) : Except Fault Int := do
  let error ← int16.hold (limit - current.toNat)
  let summed := int16.clamp (l.correction + error)
  if error < 0 then
    let floor ← int16.hold (-(setpoint.toInt.natAbs : Int) * scale)
    pure (max summed floor)
  else pure (min summed 0)

/-- Limit a setpoint under the measured current. -/
def pass (l : CurrentLimiter) (setpoint : Int8) (current : UInt8) :
    Except Fault (CurrentLimiter × Limited) := do
  let correction ← l.correct setpoint current
  let sign : Int := if 0 ≤ setpoint then 1 else -1
  let folded ← int16.hold (correction.tdiv scale * sign)
  let sum ← int16.hold (setpoint.toInt + folded)
  pure (⟨correction⟩, ⟨Int8.ofInt (int8.clamp sum), folded⟩)

end CurrentLimiter

/-- The last hundred currents in a ring, and the ticks for which the output stays off. -/
structure PowerLimiter where
  history : Vector UInt8 100
  /-- Where the next current goes. -/
  next : Fin 100
  decay : UInt8
  power : Nat
  deriving DecidableEq, Repr

namespace PowerLimiter

open Word (uint32)

/-- The power above which the output is switched off. -/
def tripPower : Nat := 2000

/-- The ticks for which it then stays off. -/
def hold : UInt8 := 255

def initial : PowerLimiter := ⟨Vector.replicate 100 0, 0, 0, 0⟩

def isTripped (p : PowerLimiter) : Bool := 0 < p.decay

/-- Keep a current in place of the oldest one. -/
def record (p : PowerLimiter) (current : UInt8) : PowerLimiter :=
  { p with history := p.history.set p.next current, next := p.next + 1 }

def total (p : PowerLimiter) : Nat :=
  p.history.toList.foldl (fun sum current => sum + current.toNat) 0

/-- Pass a setpoint on, or zero while the output is off. The power is the average of the currents
kept times the supply voltage. -/
def pass (p : PowerLimiter) (setpoint : Int8) (current bus : UInt8) :
    Act Notice (PowerLimiter × Int8) := do
  let p := p.record current
  let sum ← uint32.count p.total
  let average := sum / 100
  let power ← uint32.count (average * bus.toNat)
  let p := { p with power }
  if tripPower < power then
    unless p.isTripped do Act.emit (.powerTripped power average bus)
    return ({ p with decay := hold }, 0)
  else if p.isTripped then
    return ({ p with decay := p.decay - 1 }, 0)
  else return (p, setpoint)

end PowerLimiter

end OmniDrive
