import OmniDrive.Wheels

/-! What the robot reports once per control period. -/
namespace OmniDrive

/-- Supply readings; voltages in tenths of a volt. -/
structure PowerReport where
  voltage : UInt8
  chargeState : UInt8
  bat40 : UInt8
  bat160 : UInt8
  bat280 : UInt8
  deriving DecidableEq, Repr, Inhabited

structure MotorReport where
  /-- Duty that is being driven. -/
  voltage : Int8
  /-- Encoder clicks in the last period. -/
  clicks : Int8
  current : UInt8
  /-- Falls as the housing gets warmer. -/
  temperature : UInt8
  deriving DecidableEq, Repr, Inhabited

/-- Raw readings of the sensors. Accelerometer readings are nominally twelve bits wide,
thermal readings sixteen, all others ten. -/
structure SensorReport where
  accel : Vector UInt16 3
  mag : Vector UInt16 3
  gyro : UInt16
  irDistance : Vector UInt16 10
  light : Vector UInt16 4
  thermal : Vector UInt16 8
  irLight : Vector UInt16 8
  deriving DecidableEq, Repr

namespace SensorReport

def zero : SensorReport where
  accel := Vector.replicate 3 0
  mag := Vector.replicate 3 0
  gyro := 0
  irDistance := Vector.replicate 10 0
  light := Vector.replicate 4 0
  thermal := Vector.replicate 8 0
  irLight := Vector.replicate 8 0

end SensorReport

/-- What the robot is allowed to do, and whether its supply monitor is content. -/
structure StatusBits where
  chargingEnabled : Bool
  driveEnabled : Bool
  monitorOk : Bool
  deriving DecidableEq, Repr, Inhabited

structure Report where
  power : PowerReport
  motors : Wheels MotorReport
  sensors : SensorReport
  /-- Faults since the last report; only the low 24 bits travel. -/
  errorFlags : UInt32
  /-- A command was decoded in this period. -/
  commandRead : Bool
  status : StatusBits
  deriving DecidableEq, Repr

namespace Report

def zero : Report where
  power := ⟨0, 0, 0, 0, 0⟩
  motors := Wheels.fill ⟨0, 0, 0, 0⟩
  sensors := SensorReport.zero
  errorFlags := 0
  commandRead := false
  status := ⟨false, false, false⟩

end Report

end OmniDrive
