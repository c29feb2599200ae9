import OmniDrive.Motor.Basic
import OmniDrive.Rig

/-! A bus on the bench: three motor controllers, each turning a simple wheel, and a power controller
whose pack is always healthy. -/
namespace OmniDrive

namespace Bench

/-- A wheel whose speed follows the duty with a lag. -/
structure Wheel where
  clicks : Int
  deriving DecidableEq, Repr

namespace Wheel

open Word (int8 int16 uint8)

/-- Move a quarter of the way to half the duty. -/
def step (w : Wheel) (netDuty : Int) : Except Fault Wheel := do
  let way ← int16.hold (netDuty.tdiv 2 - w.clicks)
  let clicks ← int16.hold (w.clicks + way.tdiv 4)
  pure ⟨clicks⟩

def measure (w : Wheel) (netDuty : Int) : Except Fault Measurement := do
  let current ← uint8.count ((netDuty.natAbs / 20).toUInt8.toNat + 2)
  pure ⟨Int8.ofInt (int8.clamp w.clicks), current.toUInt8, 200⟩

end Wheel

/-- A motor controller and the wheel it turns. -/
structure Axle where
  motor : Motor
  wheel : Wheel
  deriving DecidableEq, Repr

namespace Axle

def initial (law : Regulator.Law) : Axle := ⟨.initial law, ⟨0⟩⟩

def netDuty (a : Axle) : Int := a.motor.driver.bridge.netDuty

def run (a : Axle) : Act Notice Axle := do
  let measured ← a.wheel.measure a.netDuty
  let (motor, _) ← a.motor.tick measured
  let wheel ← a.wheel.step motor.driver.bridge.netDuty
  return ⟨motor, wheel⟩

/-- Exchange a packet, then run for one period. -/
def exchange (a : Axle) (packet : MotorBytes) : Act Notice (Axle × MotorReply) := do
  let (motor, reply) ← a.motor.exchange packet
  let a ← { a with motor }.run
  return (a, reply)

end Axle

/-- A device that can be addressed on the bus. -/
inductive Device
  | power
  | motor (index : Nat)
  deriving DecidableEq, Repr

end Bench

structure Bench where
  axles : Wheels Bench.Axle
  /-- The last power packet asked the charger to stay off. -/
  chargingDisabled : Bool
  deriving DecidableEq, Repr

namespace Bench

def initial (law : Regulator.Law) : Bench := ⟨Wheels.fill (.initial law), true⟩

/-- What the power controller always answers. -/
def powerReply : PowerReply := ⟨#v[Misalignment.padding, 120, 0, 40, 40, 40]⟩

/-- The charger's order in the bytes of a power packet; a packet without one allows charging. -/
def orderIn (packet : List UInt8) : Bool :=
  match packet[1]? with
  | some order => order &&& 1 != 0
  | none => false

def exchangeMotor (b : Bench) (i : Fin 3) (packet : MotorBytes) :
    Act Notice (Bench × MotorReply) := do
  let (axle, reply) ← (b.axles.get i).exchange packet
  return ({ b with axles := b.axles.set axle i }, reply)

def exchange (b : Bench) (round : Round) : Act Notice (Bench × Replies) := do
  let b := { b with chargingDisabled := orderIn round.power.toList }
  let (b, first) ← b.exchangeMotor 0 round.motors.first
  let (b, second) ← b.exchangeMotor 1 round.motors.second
  let (b, third) ← b.exchangeMotor 2 round.motors.third
  return (b, ⟨powerReply, ⟨first, second, third⟩⟩)

instance : Bus Bench := ⟨exchange⟩

/-- A receive buffer after a reply was clocked into its front. -/
def clockIn (buffer reply : List UInt8) : List UInt8 :=
  reply.take buffer.length ++ buffer.drop reply.length

/-- Exchange any bytes with any device, as the wires would. The second result is the receive buffer
afterwards; it is blanked where nobody answers. -/
def transfer (b : Bench) (device : Device) (packet buffer : List UInt8) :
    Act Notice (Bench × List UInt8) :=
  let blank : List UInt8 := List.replicate buffer.length 0
  match device with
  | .power => return ({ b with chargingDisabled := orderIn packet },
      clockIn buffer powerReply.bytes.toList)
  | .motor index =>
    if known : index < 3 then
      if whole : packet.length = 5 then do
        let (b, reply) ← b.exchangeMotor ⟨index, known⟩ ⟨packet.toArray, whole⟩
        return (b, clockIn buffer reply.bytes.toList)
      else do
        Act.emit (.packetDropped packet.length index)
        return (b, blank)
    else do
      Act.emit (.noMotor index)
      return (b, blank)

def motorAt (b : Bench) (index : Nat) : Except Fault Motor :=
  if h : index < 3 then .ok (b.axles.get ⟨index, h⟩).motor else .error .noSuchMotor

end Bench

end OmniDrive
