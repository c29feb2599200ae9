import OmniDrive.Word

/-! Velocity regulation of one motor. Four clicks a tick are one unit of speed; a duty is the high
part of an output that is kept with six more bits and within fixed bounds. -/
namespace OmniDrive

/-- How the output follows the error. -/
inductive Regulator.Law
  /-- The output is changed by proportional and differential terms. -/
  | pd
  /-- The output is set from proportional, differential and leaky integral terms. -/
  | pid
  deriving DecidableEq, Repr

/-- The memory of a velocity regulator. -/
structure Regulator where
  law : Regulator.Law
  error : Int
  integral : Int
  /-- The output with six fraction bits. -/
  output : Int
  deriving DecidableEq, Repr

namespace Regulator

open Word (int32)

def initial (law : Regulator.Law) : Regulator := ⟨law, 0, 0, 0⟩

def bound : Int := 8128

/-- The setpoint asks for no regulation: it is zero or beyond the speed limit. -/
def isNeutral (setpoint : Int8) : Bool := setpoint == 0 || 100 < setpoint.toInt.natAbs

/-- Fold a correction of the current limiter into the integral, which saturates. -/
def fold (r : Regulator) (correction : Int) : Regulator :=
  { r with integral := int32.clamp (r.integral + correction) }

/-- The changed output for an error and its change. -/
def incremental (r : Regulator) (error change : Int) : Except Fault Int := do
  let proportional ← int32.hold (error * 3)
  let sum ← int32.hold (r.output + proportional)
  let differential ← int32.hold (change * 4)
  int32.hold (sum + differential)

/-- The integral after a sixty-fourth of it has leaked and the error has come in. -/
def leak (r : Regulator) (error : Int) : Except Fault Int := do
  let scaled ← int32.hold (r.integral * 63)
  int32.hold (scaled.tdiv 64 + error)

/-- The new output for an error, its change and the integral. -/
def positional (integral error change : Int) : Except Fault Int := do
  let proportional ← int32.hold (error * 8)
  let integrated ← int32.hold (integral * 8)
  let sum ← int32.hold (proportional + integrated)
  let differential ← int32.hold (change * 16)
  int32.hold (sum + differential)

/-- The regulator after a measurement that is not neutral. -/
def update (r : Regulator) (setpoint clicks : Int8) : Except Fault Regulator := do
  let error ← int32.hold (setpoint.toInt * 4 - clicks.toInt)
  let change ← int32.hold (error - r.error)
  let (integral, output) ← match r.law with
    | .pd => do pure (r.integral, ← r.incremental error change)
    | .pid => do
      let integral ← r.leak error
      pure (integral, ← positional integral error change)
  pure { r with error, integral, output := max (-bound) (min bound output) }

/-- The duty that the output stands for, rounded down. -/
def duty (r : Regulator) : Int8 := Int8.ofInt (r.output / 64)

/-- The duty for this tick; a neutral setpoint gives zero and leaves the memory alone. -/
def tick (r : Regulator) (setpoint clicks : Int8) : Except Fault (Regulator × Int8) :=
  if isNeutral setpoint then pure (r, 0)
  else do
    let r ← r.update setpoint clicks
    pure (r, r.duty)

end Regulator

end OmniDrive
