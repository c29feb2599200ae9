import OmniDrive.Command.Basic
import OmniDrive.Link
import OmniDrive.Notice
import OmniDrive.Telemetry.Stream

/-! Driving by keyboard. Every turn takes at most one key, sends one velocity command and looks at
the telemetry that has come in; without a fresh movement key the velocities fall back to zero. -/
namespace OmniDrive

namespace Keyboard

/-- How fast the movement keys are. -/
inductive Gear
  | low
  | med
  | high
  deriving DecidableEq, Repr

namespace Gear

def label : Gear → String
  | low => "LOW"
  | med => "MED"
  | high => "HIGH"

/-- Speed along x and y. -/
def speed : Gear → Int8
  | low => 15
  | med => 40
  | high => 80

/-- Speed of turning. -/
def turn : Gear → Int8
  | low => 10
  | med => 25
  | high => 50

def up : Gear → Gear
  | low => med
  | med | high => high

def down : Gear → Gear
  | low | med => low
  | high => med

end Gear

/-- A key of the keyboard. -/
inductive Key
  | char (c : Char)
  | escape
  | other
  deriving DecidableEq, Repr

/-- What happened to a key. -/
inductive KeyAction
  | pressed
  | repeated
  | released
  deriving DecidableEq, Repr

/-- A key event and the time at which it is taken, in nanoseconds. -/
structure KeyEvent where
  key : Key
  action : KeyAction
  time : Nat
  deriving DecidableEq, Repr

/-- What a key asks for. -/
inductive Order
  | x (forward : Bool)
  | y (left : Bool)
  | theta (positive : Bool)
  | faster
  | slower
  | quit
  deriving DecidableEq, Repr

/-- The order of a key. -/
def Key.order? : Key → Option Order
  | .char 'w' => some (.x true)
  | .char 's' => some (.x false)
  | .char 'a' => some (.y true)
  | .char 'd' => some (.y false)
  | .char 'z' => some (.theta true)
  | .char 'x' => some (.theta false)
  | .char 'r' => some .faster
  | .char 'f' => some .slower
  | .char 'q' | .escape => some .quit
  | .char _ | .other => none

/-- The order of an event; releasing a key asks for nothing. -/
def KeyEvent.order? (e : KeyEvent) : Option Order :=
  if e.action = .released then none else e.key.order?

inductive Notice
  | gear (gear : Gear)
  | report (report : Report)
  | dropped (reason : Telemetry.Error)
  deriving DecidableEq, Repr

namespace Notice

def severity : Notice → Severity
  | gear _ | report _ => .info
  | dropped _ => .warn

/-- Tenths with one decimal. -/
def tenths (value : Nat) : String := toString (value / 10) ++ "." ++ toString (value % 10)

def text : Notice → String
  | gear g => "Speed: " ++ g.label
  | report r =>
    "Battery " ++ tenths r.power.voltage.toNat ++ "V, clicks "
      ++ OmniDrive.Notice.numbers (r.motors.toList.map fun m => m.clicks.toInt) ++ ", current "
      ++ OmniDrive.Notice.numbers (r.motors.toList.map fun m => (m.current.toNat : Int))
      ++ ", errors 0x" ++ Hex.flags r.errorFlags
  | dropped reason => (OmniDrive.Notice.telemetryDropped reason).text

end Notice

/-- The operator's side between two turns. -/
structure State where
  gear : Gear
  x : Int8
  y : Int8
  theta : Int8
  /-- When the last movement key was taken. -/
  lastMove : Nat
  reader : Telemetry.Stream
  /-- Reports received so far. -/
  received : Nat
  deriving DecidableEq, Repr

namespace State

/-- Standing still in the lowest gear. -/
def initial (time : Nat) : State := ⟨.low, 0, 0, 0, time, Telemetry.Stream.initial, 0⟩

/-- A speed in one of its two directions. -/
def directed (speed : Int8) (positive : Bool) : Int8 := if positive then speed else -speed

/-- Obey an order other than quitting, given at a time. -/
def obey (s : State) (time : Nat) : Order → State
  | .x forward => { s with x := directed s.gear.speed forward, lastMove := time }
  | .y left => { s with y := directed s.gear.speed left, lastMove := time }
  | .theta positive => { s with theta := directed s.gear.turn positive, lastMove := time }
  | .faster => { s with gear := s.gear.up }
  | .slower => { s with gear := s.gear.down }
  | .quit => s

/-- What obeying an order reports: the gear, whenever it was asked to change. -/
def announce (s : State) : Order → List Notice
  | .faster | .slower => [.gear s.gear]
  | _ => []

/-- Without a movement key for more than this many nanoseconds the velocities are reset. -/
def patience : Nat := 100000000

/-- The velocities at a time. -/
def settle (s : State) (time : Nat) : State :=
  if patience < time - s.lastMove then { s with x := 0, y := 0, theta := 0 } else s

/-- The command for the present velocities. -/
def command (s : State) : Command := ⟨.xyThetaSpace, .none, s.x, s.y, s.theta, none⟩

/-- Of the reports received, every fiftieth is shown. -/
def shown (before : Nat) : List Report → List Report
  | [] => []
  | report :: rest =>
    if (before + 1) % 50 = 0 then report :: shown (before + 1) rest else shown (before + 1) rest

/-- Take in telemetry. -/
def listen (s : State) (bytes : List UInt8) : State × List Notice :=
  let (reader, split) := s.reader.push bytes
  ({ s with reader, received := s.received + split.reports.length },
    split.refused.map .dropped ++ (shown s.received split.reports).map .report)

end State

/-- What a turn meets. -/
structure Turn where
  event : Option KeyEvent
  /-- When it is checked whether the last movement key is still fresh. -/
  checked : Nat
  /-- The cause, where the command cannot be written. -/
  writeFault : Option String
  /-- What the port offers after the command was written. -/
  port : Except LinkError Offer

/-- Why the operator's side ended. -/
inductive End
  | quit
  | failed (e : LinkError)
  deriving DecidableEq, Repr

/-- What a turn did. -/
structure Outcome where
  state : State
  /-- The command bytes that were written. -/
  written : Option (List UInt8)
  notices : List Notice
  ended : Option End
  deriving DecidableEq, Repr

/-- Write the command and look at the port. -/
def exchange (s : State) (before : List Notice) (t : Turn) : Outcome :=
  match t.writeFault with
  | some cause => ⟨s, none, before, some (.failed (.io cause))⟩
  | none =>
    let written := some s.command.encode
    match t.port.bind Offer.read with
    | .error e => ⟨s, written, before, some (.failed e)⟩
    | .ok bytes =>
      let (s, notices) := if bytes = [] then (s, []) else s.listen bytes
      ⟨s, written, before ++ notices, none⟩

/-- One turn. Quitting writes nothing. -/
def turn (s : State) (t : Turn) : Outcome :=
  match t.event.bind fun e => e.order?.map (e.time, ·) with
  | none => exchange (s.settle t.checked) [] t
  | some (_, .quit) => ⟨s, none, [], some .quit⟩
  | some (time, order) =>
    let s := s.obey time order
    exchange (s.settle t.checked) (s.announce order) t

/-- The commands written and the notices of a run, and why it ended, if it did. -/
structure Log where
  frames : List (List UInt8)
  notices : List Notice
  ended : Option End
  deriving DecidableEq, Repr

/-- Turn after turn until the end. -/
def run (s : State) : List Turn → Log
  | [] => ⟨[], [], none⟩
  | t :: later =>
    let o := turn s t
    match o.ended with
    | some e => ⟨o.written.toList, o.notices, some e⟩
    | none =>
      let log := run o.state later
      ⟨o.written.toList ++ log.frames, o.notices ++ log.notices, log.ended⟩

end Keyboard

end OmniDrive
