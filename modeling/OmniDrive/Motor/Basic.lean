import OmniDrive.Packet
import OmniDrive.Motor.Bridge
import OmniDrive.Motor.Protection
import OmniDrive.Motor.Regulator

/-! The control loop of one motor: velocity law or raw duty, then current limit, power limit and
bridge. Packets latch mode, setpoint and supply voltage and are answered with what was measured
last. -/
namespace OmniDrive

/-- What is sampled at a motor once per tick. -/
structure Measurement where
  clicks : Int8
  current : UInt8
  temperature : UInt8
  deriving DecidableEq, Repr

/-- One motor controller. -/
structure Motor where
  driver : BridgeDriver
  currentLimiter : CurrentLimiter
  powerLimiter : PowerLimiter
  regulator : Regulator
  mode : DriveMode
  setpoint : Int8
  busVoltage : UInt8
  /-- The duty driven in the last tick. -/
  duty : Int8
  measured : Measurement
  deriving DecidableEq, Repr

namespace Motor

/-- The setpoint before the first packet: out of range, so that the motor idles. -/
def neutralSetpoint : Int8 := 101

def initial (law : Regulator.Law) : Motor where
  driver := BridgeDriver.initial
  currentLimiter := CurrentLimiter.initial
  powerLimiter := PowerLimiter.initial
  regulator := Regulator.initial law
  mode := .velocity
  setpoint := neutralSetpoint
  busVoltage := 255
  duty := 0
  measured := ⟨0, 0, 0⟩

/-- The duty that the latched setpoint asks for. -/
def request (m : Motor) (clicks : Int8) : Except Fault (Regulator × Int8) :=
  match m.mode with
  | .velocity => m.regulator.tick m.setpoint clicks
  | .voltage => pure (m.regulator, BridgeDriver.symmetric m.setpoint)

/-- One tick; its result is the controller afterwards and the writes to the bridge. -/
def tick (m : Motor) (measured : Measurement) :
    Act Notice (Motor × List BridgeWrite) := do
  let (regulator, wanted) ← m.request measured.clicks
  let (currentLimiter, limited) ← m.currentLimiter.pass wanted measured.current
  let (powerLimiter, speed) ←
    m.powerLimiter.pass limited.setpoint measured.current m.busVoltage
  let (driver, duty, writes) := m.driver.drive speed
  let regulator := regulator.fold limited.folded
  return ({ m with driver, currentLimiter, powerLimiter, regulator, duty, measured }, writes)

/-- The reply that the next exchange clocks out. -/
def reply (m : Motor) : MotorReply :=
  .ofReport ⟨m.duty, m.measured.clicks, m.measured.current, m.measured.temperature⟩

/-- The controller after a packet. One that opens with neither mode's byte is ignored. -/
def latch (m : Motor) (packet : MotorBytes) : Act Notice Motor :=
  let latched (mode : DriveMode) : Motor :=
    { m with mode, setpoint := packet.setpoint, busVoltage := packet.busVoltage }
  if packet.opening = DriveMode.velocity.opening then return latched .velocity
  else if packet.opening = DriveMode.voltage.opening then return latched .voltage
  else do
    Act.emit (.packetIgnored packet.opening)
    return m

/-- Exchange a packet for the reply that was ready before it. -/
def exchange (m : Motor) (packet : MotorBytes) : Act Notice (Motor × MotorReply) := do
  let latched ← m.latch packet
  return (latched, m.reply)

end Motor

end OmniDrive
