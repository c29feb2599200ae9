import OmniDrive.Command.Decoder
import OmniDrive.Controller.ErrorLatch
import OmniDrive.Controller.Event
import OmniDrive.Drive.Basic

/-! The controller that obeys the host: it decodes commands, applies them to drive, charger and
board, and reports. It has no bus and no board of its own: packets and board calls are results. -/
namespace OmniDrive

structure Controller where
  decoder : Decoder
  drive : Drive
  errors : ErrorLatch
  /-- Motion and the order to stop charging are ignored. -/
  commandsDisabled : Bool
  /-- The last input completed a command. -/
  commandRead : Bool
  /-- The host is in charge. -/
  running : Bool
  deriving DecidableEq, Repr

namespace Controller

def initial : Controller where
  decoder := Decoder.fresh
  drive := Drive.initial
  errors := ErrorLatch.empty
  commandsDisabled := false
  commandRead := false
  running := false

/-- Show a pattern, switch the reference or switch the amplifier. -/
def call (c : BoardCall) : Act Event Unit := Act.emit (.board c)

def withDrive (c : Controller) (step : Drive → Act Notice Drive) : Act Event Controller := do
  let drive ← (step c.drive).mapEvents .notice
  return { c with drive }

/-- Take over from the local user interface. -/
def start (c : Controller) : Act Event Controller := do
  call (.lights .machineInterface)
  return { c with
    errors := c.errors.reset
    drive := (c.drive.switchDrive true).1
    running := true }

/-- Hand back to the local user interface; the wheels stay still until the next start. -/
def stop (c : Controller) : Act Event Controller := do
  let c ← c.withDrive Drive.halt
  call (.lights .userInterface)
  return { c with drive := (c.drive.switchDrive false).1, running := false }

/-- Leave the controller alone while commands are disabled. -/
def unlessDisabled (c : Controller) (step : Act Event Controller) : Act Event Controller :=
  if c.commandsDisabled then pure c else step

def applyMotor (c : Controller) (command : Command) : Act Event Controller :=
  match command.motorMode with
  | .wheelSpace => c.unlessDisabled (c.withDrive (·.setVelocities command.motion))
  | .xyThetaSpace =>
    c.unlessDisabled (c.withDrive (·.setBodyVelocity ⟨command.m1, command.m2, command.m3⟩))
  | .wheelVoltage => c.unlessDisabled (c.withDrive (·.setDuties command.motion))
  | .exit =>
    if command.lightMode = .exit then do
      Act.emit (.notice .exitRequested)
      c.stop
    else pure c
  | .enableCharging => pure { c with drive := (c.drive.switchCharging true).1 }
  | .disableCharging =>
    c.unlessDisabled (pure { c with drive := (c.drive.switchCharging false).1 })
  | .enableVref => do call (.vref true); pure c
  | .disableVref => do call (.vref false); pure c
  | .enableAmp => do call (.amplifier true); pure c
  | .disableAmp => do call (.amplifier false); pure c
  | .unknown byte => c.unlessDisabled do
      Act.emit (.notice (.unknownMode byte))
      c.withDrive Drive.halt

def applyLights (command : Command) : Act Event Unit :=
  match LightPattern.ofCommand? command.lightMode command.colours with
  | some pattern => call (.lights pattern)
  | none => pure ()

/-- Apply a command; a stopped controller ignores it. -/
def apply (c : Controller) (command : Command) : Act Event Controller :=
  if c.running then do
    let after ← c.applyMotor command
    unless c.commandsDisabled do applyLights command
    return after
  else pure c

/-- Decode input and apply the newest complete command. The second result is the number of bytes
to drop from the front of the input. -/
def takeInput (c : Controller) (input : List UInt8) : Act Event (Controller × Nat) := do
  let (decoder, decoded) ← (c.decoder.decode input).mapEvents .notice
  let c := { c with decoder, commandRead := decoded.command.isSome }
  match decoded.command with
  | none => return (c, decoded.consumed)
  | some command => return (← c.apply command, decoded.consumed)

/-- The first half of a control tick; its second result is what to send on the bus. -/
def beginTick (c : Controller) : Act Event (Controller × Round) := do
  let (drive, round) ← c.drive.beginTick.mapEvents .notice
  return ({ c with drive }, round)

/-- The second half of a control tick, with what the bus answered. -/
def finishTick (c : Controller) (replies : Replies) : Act Event Controller := do
  let (drive, misalignment) := c.drive.finishTick replies
  let errors ← match misalignment with
    | none => pure c.errors
    | some m => do
      Act.emit (.notice (.misaligned m))
      pure (c.errors.set Misalignment.flag)
  if drive.isCharging then call (.lights .chargeStatus)
  return { c with drive, errors }

/-- The report of this period, after which the error latch is empty. -/
def report (c : Controller) (sensors : SensorReport) (monitorOk : Bool) : Controller × Report :=
  ({ c with errors := c.errors.reset },
    { power := c.drive.replies.power.report
      motors := ⟨c.drive.motorReport 0, c.drive.motorReport 1, c.drive.motorReport 2⟩
      sensors
      errorFlags := c.errors.bits
      commandRead := c.commandRead
      status := ⟨c.drive.chargingEnabled, c.drive.driveEnabled, monitorOk⟩ })

/-- Keep a fault that was found elsewhere. -/
def noteError (c : Controller) (flags : UInt32) : Controller :=
  { c with errors := c.errors.set flags }

end Controller

end OmniDrive
