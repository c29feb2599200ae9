import OmniDrive.Wheels
import OmniDrive.Word

/-! Wheel speeds of the three-wheeled omnidirectional base, in fixed point.
Where a wheel would be too fast, all three are slowed down by the same ratio. -/
namespace OmniDrive

/-- The greatest speed of a wheel, in either direction. -/
def speedLimit : Nat := 100

/-- What one wheel contributes to a unit of each body velocity, in 1024ths. -/
structure Gains where
  /-- Cosine of the rolling direction. -/
  x : Int
  /-- Negated sine of the rolling direction; the y axis points left. -/
  y : Int
  /-- Rotation drives all wheels alike. -/
  theta : Int
  deriving DecidableEq, Repr

namespace Gains

/-- Where the wheels are mounted, in degrees from the reference axis. -/
def angles : Wheels Nat := ⟨100, 220, 340⟩

/-- The gains of wheels mounted at `angles`. -/
def mounted : Wheels Gains := ⟨⟨-1008, 178, 1096⟩, ⟨658, 784, 1096⟩, ⟨350, -962, 1096⟩⟩

/-- The unit of the gains. -/
def scale : Int := 1024

end Gains

/-- A velocity of the base: forward, to the left and turning. -/
structure BodyVelocity where
  x : Int8
  y : Int8
  theta : Int8
  deriving DecidableEq, Repr

namespace BodyVelocity

open Word (int32)

/-- The speed of a wheel with the given gains, rounded toward zero. -/
def alongWheel (v : BodyVelocity) (g : Gains) : Except Fault Int := do
  let x ← int32.hold (v.x.toInt * g.x)
  let y ← int32.hold (v.y.toInt * g.y)
  let plane ← int32.hold (x + y)
  let turn ← int32.hold (v.theta.toInt * g.theta)
  let sum ← int32.hold (plane + turn)
  pure (sum.tdiv Gains.scale)

/-- The speeds that the velocity asks of the wheels, however fast. -/
def demand (v : BodyVelocity) : Except Fault (Wheels Int) :=
  Gains.mounted.mapM v.alongWheel

/-- The speeds with the fastest wheel at the limit, all in the same ratio; speeds within the limit
are left alone. -/
def saturate (speeds : Wheels Int) : Except Fault (Wheels Int) :=
  let fastest := (speeds.map Int.natAbs).greatest
  if speedLimit < fastest then
    speeds.mapM fun speed => do
      let scaled ← int32.hold (speed * speedLimit)
      pure (scaled.tdiv fastest)
  else pure speeds

/-- The wheel speeds that move the base with this velocity, or as fast as the wheels allow in the
same direction. -/
def wheelSpeeds (v : BodyVelocity) : Except Fault (Wheels Int8) := do
  let speeds ← saturate (← v.demand)
  pure (speeds.map Int8.ofInt)

end BodyVelocity

end OmniDrive
