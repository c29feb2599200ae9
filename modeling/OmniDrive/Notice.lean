import OmniDrive.Command.Basic
import OmniDrive.Packet
import OmniDrive.Telemetry.Frame

/-! What the robot writes to its log: each notice as a value, with its severity and its text. -/
namespace OmniDrive

inductive Notice
  /-- A partly matched header was given up at this position of the input. -/
  | headerDesync (offset : Nat)
  | commandDecoded (command : Command)
  | slewing (targets : Wheels Int8) (steps : Nat)
  | commandTimeout (ticks : Nat)
  | exitRequested
  | unknownMode (byte : UInt8)
  | misaligned (fault : Misalignment)
  | receiveOverflow (dropped : Nat)
  | powerTripped (power average : Nat) (bus : UInt8)
  | packetIgnored (opening : UInt8)
  | packetDropped (length motor : Nat)
  | noMotor (motor : Nat)
  | lightsShown (pattern : LightPattern)
  | vrefSwitched (on : Bool)
  | amplifierSwitched (on : Bool)
  | telemetryDropped (reason : Telemetry.Error)
  deriving DecidableEq, Repr

inductive Severity
  | warn
  | info
  | debug
  | trace
  deriving DecidableEq, Repr

namespace Severity

/-- The most severe has the lowest rank. -/
def rank : Severity → Nat
  | warn => 0
  | info => 1
  | debug => 2
  | trace => 3

def label : Severity → String
  | warn => "WARN"
  | info => "INFO"
  | debug => "DEBUG"
  | trace => "TRACE"

end Severity

namespace Notice

/-- Items between brackets. -/
def bracketed (items : List String) : String := "[" ++ ", ".intercalate items ++ "]"

/-- Signed numbers between brackets. -/
def numbers (values : List Int) : String :=
  bracketed (values.map fun (value : Int) => toString value)

/-- Named fields between braces behind the name of their record. -/
def record (name : String) (fields : List (String × String)) : String :=
  name ++ " \x7b " ++ ", ".intercalate (fields.map fun f => f.1 ++ ": " ++ f.2) ++ " \x7d"

/-- A value in parentheses behind the name of its case. -/
def applied (name value : String) : String := name ++ "(" ++ value ++ ")"

def motorModeText : MotorMode → String
  | .wheelSpace => "WheelSpace"
  | .xyThetaSpace => "XyThetaSpace"
  | .wheelVoltage => "WheelVoltage"
  | .exit => "Exit"
  | .enableCharging => "EnableCharging"
  | .disableCharging => "DisableCharging"
  | .enableVref => "EnableVref"
  | .disableVref => "DisableVref"
  | .enableAmp => "EnableAmp"
  | .disableAmp => "DisableAmp"
  | .unknown byte => applied "Unknown" (toString byte.toNat)

def lightModeText : LightMode → String
  | .none => "None"
  | .clear => "Clear"
  | .battery => "Battery"
  | .ball => "Ball"
  | .error => "Error"
  | .emergency => "Emergency"
  | .busy => "Busy"
  | .custom => "Custom"
  | .exit => "Exit"
  | .unknown byte => applied "Unknown" (toString byte.toNat)

def paletteText (colours : Palette) : String :=
  bracketed (colours.toList.map fun c =>
    record "Rgb" [("r", toString c.r.toNat), ("g", toString c.g.toNat), ("b", toString c.b.toNat)])

def commandText (c : Command) : String :=
  record "CommandFrame" [("motor_mode", motorModeText c.motorMode),
    ("led_mode", lightModeText c.lightMode), ("m1", toString c.m1.toInt),
    ("m2", toString c.m2.toInt), ("m3", toString c.m3.toInt),
    ("leds", match c.colours with
      | none => "None"
      | some colours => applied "Some" (paletteText colours))]

def patternText : LightPattern → String
  | .clear => "Clear"
  | .battery => "Battery"
  | .ball => "Ball"
  | .error => "Error"
  | .emergency => "Emergency"
  | .busy => "Busy"
  | .custom colours => applied "Custom" (paletteText colours)
  | .chargeStatus => "ChargeStatus"
  | .machineInterface => "MachineInterface"
  | .userInterface => "UserInterface"

def switchText (on : Bool) : String := if on then "enabled" else "disabled"

def severity : Notice → Severity
  | headerDesync .. | packetIgnored .. | packetDropped .. | noMotor .. => .trace
  | commandDecoded .. | slewing .. | powerTripped .. | lightsShown .. => .debug
  | exitRequested | vrefSwitched .. | amplifierSwitched .. => .info
  | commandTimeout .. | unknownMode .. | misaligned .. | receiveOverflow ..
  | telemetryDropped .. => .warn

def text : Notice → String
  | headerDesync offset => "Header desync at offset " ++ toString offset
  | commandDecoded command => "Decoded command frame: " ++ commandText command
  | slewing targets steps =>
    "Slewing to " ++ numbers (targets.toList.map Int8.toInt) ++ " over " ++ toString steps
      ++ " ticks"
  | commandTimeout ticks => "No command for " ++ toString ticks ++ " ticks, stopping wheels"
  | exitRequested => "Exit requested by host"
  | unknownMode byte => "Unknown motor mode 0x" ++ Hex.byte byte ++ ", stopping wheels"
  | misaligned fault => fault.message
  | receiveOverflow dropped => "Receive buffer full, dropping " ++ toString dropped ++ " bytes"
  | powerTripped power average bus =>
    "Power limit tripped: " ++ toString power ++ " (avg current " ++ toString average ++ ", bus "
      ++ toString bus.toNat ++ ")"
  | packetIgnored opening => "Ignoring motor packet with header 0x" ++ Hex.byte opening
  | packetDropped length motor =>
    "Dropping " ++ toString length ++ "-byte packet for motor " ++ toString motor
  | noMotor motor => "No motor " ++ toString motor ++ " on the bench bus"
  | lightsShown pattern => "LEDs: " ++ patternText pattern
  | vrefSwitched on => "Analog reference " ++ switchText on
  | amplifierSwitched on => "Amplifier " ++ switchText on
  | telemetryDropped reason => "Dropping telemetry: " ++ reason.message

end Notice

end OmniDrive
