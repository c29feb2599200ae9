/-! The two mode bytes of a command. Every byte is a mode; those without a meaning of their own are
kept as they are. -/
namespace OmniDrive

/-- How the three motion bytes are read, or which subsystem is switched. -/
inductive MotorMode
  /-- A velocity for each wheel, reached gradually. -/
  | wheelSpace
  /-- Body velocities x, y and theta, reached gradually. -/
  | xyThetaSpace
  /-- A raw duty for each wheel, applied at once. -/
  | wheelVoltage
  | exit
  | enableCharging
  | disableCharging
  | enableVref
  | disableVref
  | enableAmp
  | disableAmp
  /-- A byte without a meaning of its own. -/
  | unknown (byte : UInt8)
  deriving DecidableEq, Repr

namespace MotorMode

def toByte : MotorMode → UInt8
  | wheelSpace => 0x00
  | xyThetaSpace => 0x01
  | wheelVoltage => 0x02
  | exit => 0x68
  | enableCharging => 0x69
  | disableCharging => 0x6A
  | enableVref => 0x6B
  | disableVref => 0x6C
  | enableAmp => 0x6D
  | disableAmp => 0x6E
  | unknown byte => byte

def ofByte (byte : UInt8) : MotorMode :=
  if byte = 0x00 then wheelSpace
  else if byte = 0x01 then xyThetaSpace
  else if byte = 0x02 then wheelVoltage
  else if byte = 0x68 then exit
  else if byte = 0x69 then enableCharging
  else if byte = 0x6A then disableCharging
  else if byte = 0x6B then enableVref
  else if byte = 0x6C then disableVref
  else if byte = 0x6D then enableAmp
  else if byte = 0x6E then disableAmp
  else unknown byte

private theorem toByte_ite {byte known : UInt8} {m rest : MotorMode} (hm : m.toByte = known)
    (hr : rest.toByte = byte) : (if byte = known then m else rest).toByte = byte := by
  split
  · rw [hm]
    exact (by assumption : byte = known).symm
  · exact hr

/-- Every byte survives being read as a mode. -/
theorem toByte_ofByte (byte : UInt8) : (ofByte byte).toByte = byte := by
  unfold ofByte
  iterate 10 refine toByte_ite rfl ?_
  rfl

end MotorMode

/-- What the lights shall show; read independently of the motor mode. -/
inductive LightMode
  /-- Leave the lights as they are. -/
  | none
  | clear
  | battery
  | ball
  | error
  | emergency
  | busy
  /-- Sixteen colours follow in the frame. -/
  | custom
  /-- Confirms an exit command. -/
  | exit
  /-- A byte without a meaning of its own. -/
  | unknown (byte : UInt8)
  deriving DecidableEq, Repr

namespace LightMode

def toByte : LightMode → UInt8
  | none => 0x00
  | clear => 0x01
  | battery => 0x02
  | ball => 0x03
  | error => 0x04
  | emergency => 0x05
  | busy => 0x06
  | custom => 0x07
  | exit => 0x2C
  | unknown byte => byte

def ofByte (byte : UInt8) : LightMode :=
  if byte = 0x00 then none
  else if byte = 0x01 then clear
  else if byte = 0x02 then battery
  else if byte = 0x03 then ball
  else if byte = 0x04 then error
  else if byte = 0x05 then emergency
  else if byte = 0x06 then busy
  else if byte = 0x07 then custom
  else if byte = 0x2C then exit
  else unknown byte

private theorem toByte_ite {byte known : UInt8} {m rest : LightMode} (hm : m.toByte = known)
    (hr : rest.toByte = byte) : (if byte = known then m else rest).toByte = byte := by
  split
  · rw [hm]
    exact (by assumption : byte = known).symm
  · exact hr

/-- Every byte survives being read as a mode. -/
theorem toByte_ofByte (byte : UInt8) : (ofByte byte).toByte = byte := by
  unfold ofByte
  iterate 9 refine toByte_ite rfl ?_
  rfl

end LightMode

end OmniDrive
