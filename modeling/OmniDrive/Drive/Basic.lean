import OmniDrive.Act
import OmniDrive.Drive.Ramp
import OmniDrive.Notice

/-! The drive of the base: setpoints, command watchdog and the traffic of one control tick.
A tick first makes its round of packets, which depends on earlier replies only, and is finished
with the replies that the round brings. -/
namespace OmniDrive

structure Drive where
  ramp : Ramp
  mode : DriveMode
  /-- Ticks since the last command, counted anew each time the watchdog bites. -/
  idleTicks : Nat
  /-- The watchdog has stopped the wheels and no command has come since. -/
  stale : Bool
  driveEnabled : Bool
  chargingEnabled : Bool
  replies : Replies
  deriving DecidableEq, Repr

namespace Drive

/-- Ticks without a command after which the watchdog bites. -/
def patience : Nat := 50

/-- At rest; charging stays off until it is asked for. -/
def initial : Drive where
  ramp := Ramp.atRest
  mode := .velocity
  idleTicks := 0
  stale := false
  driveEnabled := true
  chargingEnabled := false
  replies := Replies.initial

def heard (d : Drive) : Drive := { d with idleTicks := 0, stale := false }

/-- Move the wheels gradually to new velocities. Repeating the targets in velocity mode leaves the
ramp alone. -/
def setVelocities (d : Drive) (targets : Wheels Int8) : Act Notice Drive := do
  let d := d.heard
  let targets := targets.map clampSpeed
  if d.mode = .velocity ∧ targets = d.ramp.targets then return d
  let ramp ← d.ramp.aim targets
  Act.emit (.slewing targets ramp.total)
  return { d with mode := .velocity, ramp }

def setBodyVelocity (d : Drive) (v : BodyVelocity) : Act Notice Drive := do
  d.setVelocities (← v.wheelSpeeds)

def setDuties (d : Drive) (duties : Wheels Int8) : Act Notice Drive := do
  let ramp ← Ramp.jump duties
  return { d.heard with mode := .voltage, ramp }

/-- Zero the wheels at once. The watchdog does not count this as a command. -/
def halt (d : Drive) : Act Notice Drive := do
  let ramp ← Ramp.jump (Wheels.fill 0)
  return { d with mode := .voltage, ramp }

def stopInMode (d : Drive) : Act Notice Drive :=
  match d.mode with
  | .velocity => d.setVelocities (Wheels.fill 0)
  | .voltage => d.setDuties (Wheels.fill 0)

/-- Count a tick; once the patience is over, stop the wheels. -/
def watch (d : Drive) : Act Notice Drive := do
  let ticks ← Word.uint32.count (d.idleTicks + 1)
  let d := { d with idleTicks := ticks }
  if ticks < patience then return d
  unless d.stale do Act.emit (.commandTimeout ticks)
  let stopped ← d.stopInMode
  return { stopped with stale := true }

/-- Allow or forbid driving; the second result is what held before. -/
def switchDrive (d : Drive) (on : Bool) : Drive × Bool :=
  ({ d with driveEnabled := on }, d.driveEnabled)

/-- Allow or forbid charging; the second result is what held before. -/
def switchCharging (d : Drive) (on : Bool) : Drive × Bool :=
  ({ d with chargingEnabled := on }, d.chargingEnabled)

/-- The last power reply says that the charger is active. -/
def isCharging (d : Drive) : Bool := d.replies.power.isCharging

/-- The wheels are held still. -/
def isHeld (d : Drive) : Bool := !d.driveEnabled || d.isCharging

/-- The packets for the present setpoints. -/
def round (d : Drive) : Round where
  power := powerPacket d.chargingEnabled
  motors := d.ramp.speeds.map fun speed =>
    motorPacket d.mode (if d.isHeld then 0 else speed) d.replies.power.voltage

/-- The first half of a tick: watchdog, ramp and the packets to send. -/
def beginTick (d : Drive) : Act Notice (Drive × Round) := do
  let d ← d.watch
  let ramp ← d.ramp.tick
  let d := { d with ramp }
  return (d, d.round)

/-- The second half of a tick: keep the replies and check the power controller's alignment. -/
def finishTick (d : Drive) (replies : Replies) : Drive × Option Misalignment :=
  ({ d with replies }, replies.power.misalignment?)

/-- What a motor last reported; a motor that does not exist reports zeros. -/
def motorReport (d : Drive) (motor : Nat) : MotorReport :=
  (d.replies.motors.toList[motor]?.map MotorReply.report).getD ⟨0, 0, 0, 0⟩

end Drive

end OmniDrive
