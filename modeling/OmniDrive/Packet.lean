import OmniDrive.Hex
import OmniDrive.Telemetry.Report

/-! Packets to the motor and power controllers, and their replies.
A controller clocks its reply out while the packet goes in, so a reply never depends on the packet
it is exchanged for. -/
namespace OmniDrive

/-- What a wheel setpoint means to a motor controller. -/
inductive DriveMode
  /-- A velocity to regulate to. -/
  | velocity
  /-- A raw duty. -/
  | voltage
  deriving DecidableEq, Repr

def DriveMode.opening : DriveMode → UInt8
  | velocity => 0x7A
  | voltage => 0x7B

abbrev MotorBytes := Vector UInt8 5

abbrev PowerBytes := Vector UInt8 6

/-- Setpoint and supply voltage for a motor controller. -/
def motorPacket (mode : DriveMode) (speed : Int8) (bus : UInt8) : MotorBytes := #v[
  mode.opening, speed.toUInt8, bus, 0, 0]

namespace MotorBytes

/-- The byte that says what the setpoint means. -/
def opening (packet : MotorBytes) : UInt8 := packet[0]

def setpoint (packet : MotorBytes) : Int8 := packet[1].toInt8

def busVoltage (packet : MotorBytes) : UInt8 := packet[2]

end MotorBytes

/-- Whether the power controller may charge. -/
def powerPacket (charging : Bool) : PowerBytes := #v[
  0x7A, if charging then 0 else 1, 0, 0, 0, 0]

/-- A reply of the power controller that does not open with the padding byte. -/
structure Misalignment where
  got : UInt8
  deriving DecidableEq, Repr

namespace Misalignment

/-- The byte that opens every aligned reply. -/
def padding : UInt8 := 0x7D

/-- The bit under which the controller keeps it. -/
def flag : UInt32 := 1

def message (m : Misalignment) : String :=
  "Power controller reply misaligned: expected padding 0x" ++ Hex.byte padding ++ ", got 0x"
    ++ Hex.byte m.got

end Misalignment

/-- A reply of the power controller: padding, voltage, charge state and three battery voltages. -/
structure PowerReply where
  bytes : PowerBytes
  deriving DecidableEq, Repr

namespace PowerReply

def initial : PowerReply := ⟨#v[Misalignment.padding, 0, 0, 0, 0, 0]⟩

/-- The byte that is the padding when the reply is aligned. -/
def opening (r : PowerReply) : UInt8 := r.bytes[0]

/-- The supply voltage as it was read. -/
def reading (r : PowerReply) : UInt8 := r.bytes[1]

/-- Supply voltage in tenths of a volt. Zero is no valid reading and counts as the highest one,
which keeps the scaling of the motors on the safe side. -/
def voltage (r : PowerReply) : UInt8 := if r.reading = 0 then 255 else r.reading

def chargeState (r : PowerReply) : UInt8 := r.bytes[2]

/-- Plugged in, and neither idle nor finished. -/
def isCharging (r : PowerReply) : Bool := r.chargeState != 0 && r.chargeState != 5

/-- The reply does not open with the padding byte. -/
def misalignment? (r : PowerReply) : Option Misalignment :=
  if r.opening = Misalignment.padding then none else some ⟨r.opening⟩

def report (r : PowerReply) : PowerReport :=
  ⟨r.voltage, r.chargeState, r.bytes[3], r.bytes[4], r.bytes[5]⟩

end PowerReply

/-- A reply of a motor controller: padding, clicks, current, temperature and duty. -/
structure MotorReply where
  bytes : MotorBytes
  deriving DecidableEq, Repr

namespace MotorReply

def initial : MotorReply := ⟨#v[Misalignment.padding, 0, 0, 0, 0]⟩

def ofReport (m : MotorReport) : MotorReply :=
  ⟨#v[Misalignment.padding, m.clicks.toUInt8, m.current, m.temperature, m.voltage.toUInt8]⟩

def report (r : MotorReply) : MotorReport :=
  ⟨r.bytes[4].toInt8, r.bytes[1].toInt8, r.bytes[2], r.bytes[3]⟩

end MotorReply

/-- All packets of one tick, in the order in which they are sent. -/
structure Round where
  power : PowerBytes
  motors : Wheels MotorBytes
  deriving DecidableEq, Repr

structure Replies where
  power : PowerReply
  motors : Wheels MotorReply
  deriving DecidableEq, Repr

def Replies.initial : Replies := ⟨.initial, Wheels.fill .initial⟩

end OmniDrive
