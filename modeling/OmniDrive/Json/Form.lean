import OmniDrive.Json.Parser
import OmniDrive.Json.Printer
import OmniDrive.Session.Basic

/-! JSON forms of the domain types. A record is written as an object in field order and read from an
object in any order or from an array of all its fields; a case without contents is written as its
name. -/
namespace OmniDrive

/-- A type with a JSON form. -/
class JsonForm (α : Type) where
  toJson : α → Json
  ofJson : Json → Option α

export JsonForm (toJson ofJson)

namespace Json

/-- A record as an object. -/
def record (fields : List (String × Json)) : Json :=
  .object (fields.map fun f => (Text.ofString f.1, f.2))

/-- The members with their names read; none may be unreadable. -/
def named (members : List (Text × Json)) : Option (List (String × Json)) :=
  members.mapM fun m => do return (← m.1.string?, m.2)

/-- The values of a record's fields. Members with other names are passed over; a field given twice
is refused; a field left out has no value. -/
def fields? (names : List String) : Json → Option (List (Option Json))
  | .array items => if items.length = names.length then some (items.map some) else none
  | .object members => do
    let members ← named members
    if names.all fun name => (members.filter (·.1 = name)).length ≤ 1 then
      some (names.map fun name => (members.find? (·.1 = name)).map (·.2))
    else none
  | _ => none

/-- A case without contents. -/
def case (name : String) : Json := .string (Text.ofString name)

/-- A case with contents. -/
def caseOf (name : String) (contents : Json) : Json := .object [(Text.ofString name, contents)]

/-- The name of a case, and its contents where there are some. -/
def case? : Json → Option (String × Option Json)
  | .string name => do return (← name.string?, none)
  | .object [(name, contents)] => do return (← name.string?, some contents)
  | _ => none

/-- A case without contents may come with a null. -/
def bare (contents : Option Json) : Bool :=
  match contents with
  | none | some .null => true
  | _ => false

/-- A case looked up by its name among those without contents. -/
def bareCase? {α : Type} (cases : List (String × α)) (name : String) (contents : Option Json) :
    Option α :=
  if bare contents then (cases.find? (·.1 = name)).map (·.2) else none

/-- An integer that a word holds. -/
def integer? (w : Word) : Json → Option Int
  | .integer z => if w.Holds z then some z else none
  | _ => none

/-- The items of an array. -/
def items? : Json → Option (List Json)
  | .array items => some items
  | _ => none

end Json

open Json

instance : JsonForm Bool where
  toJson := .bool
  ofJson
    | .bool b => some b
    | _ => none

instance : JsonForm UInt8 where
  toJson n := .integer n.toNat
  ofJson j := do return UInt8.ofNat (← integer? .uint8 j).toNat

instance : JsonForm UInt16 where
  toJson n := .integer n.toNat
  ofJson j := do return UInt16.ofNat (← integer? .uint16 j).toNat

instance : JsonForm UInt32 where
  toJson n := .integer n.toNat
  ofJson j := do return UInt32.ofNat (← integer? .uint32 j).toNat

instance : JsonForm Int8 where
  toJson z := .integer z.toInt
  ofJson j := do return Int8.ofInt (← integer? .int8 j)

/-- An array of exactly `n` items. -/
instance {α : Type} [JsonForm α] {n : Nat} : JsonForm (Vector α n) where
  toJson v := .array (v.toList.map toJson)
  ofJson j := do
    let items ← (← items? j).mapM (ofJson (α := α))
    if h : items.length = n then some ⟨items.toArray, by simpa using h⟩ else none

/-- An array of exactly three items. -/
instance {α : Type} [JsonForm α] : JsonForm (Wheels α) where
  toJson w := .array (w.toList.map toJson)
  ofJson
    | .array [a, b, c] => do return ⟨← ofJson a, ← ofJson b, ← ofJson c⟩
    | _ => none

instance {α : Type} [JsonForm α] : JsonForm (Option α) where
  toJson
    | none => .null
    | some a => toJson a
  ofJson
    | .null => some none
    | j => do return some (← ofJson j)

namespace MotorMode

/-- The cases without contents. -/
def cases : List (String × MotorMode) :=
  [("wheel_space", wheelSpace), ("xy_theta_space", xyThetaSpace), ("wheel_voltage", wheelVoltage),
    ("exit", exit), ("enable_charging", enableCharging), ("disable_charging", disableCharging),
    ("enable_vref", enableVref), ("disable_vref", disableVref), ("enable_amp", enableAmp),
    ("disable_amp", disableAmp)]

instance : JsonForm MotorMode where
  toJson
    | wheelSpace => case "wheel_space"
    | xyThetaSpace => case "xy_theta_space"
    | wheelVoltage => case "wheel_voltage"
    | exit => case "exit"
    | enableCharging => case "enable_charging"
    | disableCharging => case "disable_charging"
    | enableVref => case "enable_vref"
    | disableVref => case "disable_vref"
    | enableAmp => case "enable_amp"
    | disableAmp => case "disable_amp"
    | unknown byte => caseOf "unknown" (toJson byte)
  ofJson j := do
    let (name, contents) ← case? j
    if name = "unknown" then return unknown (← ofJson (← contents))
    else bareCase? cases name contents

end MotorMode

namespace LightMode

/-- The cases without contents. -/
def cases : List (String × LightMode) :=
  [("none", none), ("clear", clear), ("battery", battery), ("ball", ball), ("error", error),
    ("emergency", emergency), ("busy", busy), ("custom", custom), ("exit", exit)]

instance : JsonForm LightMode where
  toJson
    | none => case "none"
    | clear => case "clear"
    | battery => case "battery"
    | ball => case "ball"
    | error => case "error"
    | emergency => case "emergency"
    | busy => case "busy"
    | custom => case "custom"
    | exit => case "exit"
    | unknown byte => caseOf "unknown" (toJson byte)
  ofJson j := do
    let (name, contents) ← case? j
    if name = "unknown" then return unknown (← ofJson (← contents))
    else bareCase? cases name contents

end LightMode

instance : JsonForm Colour where
  toJson c := record [("r", toJson c.r), ("g", toJson c.g), ("b", toJson c.b)]
  ofJson j := do
    match ← fields? ["r", "g", "b"] j with
    | [r, g, b] => return ⟨← ofJson (← r), ← ofJson (← g), ← ofJson (← b)⟩
    | _ => none

instance : JsonForm Command where
  toJson c := record [("motor_mode", toJson c.motorMode), ("led_mode", toJson c.lightMode),
    ("m1", toJson c.m1), ("m2", toJson c.m2), ("m3", toJson c.m3), ("leds", toJson c.colours)]
  ofJson j := do
    match ← fields? ["motor_mode", "led_mode", "m1", "m2", "m3", "leds"] j with
    | [motorMode, lightMode, m1, m2, m3, colours] =>
      return ⟨← ofJson (← motorMode), ← ofJson (← lightMode), ← ofJson (← m1), ← ofJson (← m2),
        ← ofJson (← m3), ← ofJson (colours.getD .null)⟩
    | _ => none

namespace LightPattern

/-- The cases without contents. -/
def cases : List (String × LightPattern) :=
  [("clear", clear), ("battery", battery), ("ball", ball), ("error", error),
    ("emergency", emergency), ("busy", busy), ("charge_status", chargeStatus),
    ("machine_interface", machineInterface), ("user_interface", userInterface)]

instance : JsonForm LightPattern where
  toJson
    | clear => case "clear"
    | battery => case "battery"
    | ball => case "ball"
    | error => case "error"
    | emergency => case "emergency"
    | busy => case "busy"
    | custom colours => caseOf "custom" (toJson colours)
    | chargeStatus => case "charge_status"
    | machineInterface => case "machine_interface"
    | userInterface => case "user_interface"
  ofJson j := do
    let (name, contents) ← case? j
    if name = "custom" then return custom (← ofJson (← contents))
    else bareCase? cases name contents

end LightPattern

instance : JsonForm PowerReport where
  toJson p := record [("voltage", toJson p.voltage), ("charge_state", toJson p.chargeState),
    ("bat40", toJson p.bat40), ("bat160", toJson p.bat160), ("bat280", toJson p.bat280)]
  ofJson j := do
    match ← fields? ["voltage", "charge_state", "bat40", "bat160", "bat280"] j with
    | [voltage, chargeState, bat40, bat160, bat280] =>
      return ⟨← ofJson (← voltage), ← ofJson (← chargeState), ← ofJson (← bat40),
        ← ofJson (← bat160), ← ofJson (← bat280)⟩
    | _ => none

instance : JsonForm MotorReport where
  toJson m := record [("voltage", toJson m.voltage), ("clicks", toJson m.clicks),
    ("current", toJson m.current), ("temperature", toJson m.temperature)]
  ofJson j := do
    match ← fields? ["voltage", "clicks", "current", "temperature"] j with
    | [voltage, clicks, current, temperature] =>
      return ⟨← ofJson (← voltage), ← ofJson (← clicks), ← ofJson (← current),
        ← ofJson (← temperature)⟩
    | _ => none

instance : JsonForm SensorReport where
  toJson s := record [("accel", toJson s.accel), ("mag", toJson s.mag), ("gyro", toJson s.gyro),
    ("ir_distance", toJson s.irDistance), ("light", toJson s.light), ("thermal", toJson s.thermal),
    ("ir_light", toJson s.irLight)]
  ofJson j := do
    match ← fields? ["accel", "mag", "gyro", "ir_distance", "light", "thermal", "ir_light"] j with
    | [accel, mag, gyro, irDistance, light, thermal, irLight] =>
      return ⟨← ofJson (← accel), ← ofJson (← mag), ← ofJson (← gyro), ← ofJson (← irDistance),
        ← ofJson (← light), ← ofJson (← thermal), ← ofJson (← irLight)⟩
    | _ => none

instance : JsonForm StatusBits where
  toJson s := record [("charging_enabled", toJson s.chargingEnabled),
    ("drive_enabled", toJson s.driveEnabled), ("monitor_ok", toJson s.monitorOk)]
  ofJson j := do
    match ← fields? ["charging_enabled", "drive_enabled", "monitor_ok"] j with
    | [charging, drive, monitor] =>
      return ⟨← ofJson (← charging), ← ofJson (← drive), ← ofJson (← monitor)⟩
    | _ => none

instance : JsonForm Report where
  toJson r := record [("power", toJson r.power), ("motors", toJson r.motors),
    ("sensors", toJson r.sensors), ("error_flags", toJson r.errorFlags),
    ("command_read", toJson r.commandRead), ("status", toJson r.status)]
  ofJson j := do
    match ← fields? ["power", "motors", "sensors", "error_flags", "command_read", "status"] j with
    | [power, motors, sensors, errorFlags, commandRead, status] =>
      return ⟨← ofJson (← power), ← ofJson (← motors), ← ofJson (← sensors),
        ← ofJson (← errorFlags), ← ofJson (← commandRead), ← ofJson (← status)⟩
    | _ => none

instance : JsonForm Health where
  toJson
    | .ok => case "ok"
    | .cmdStale => case "cmd_stale"
  ofJson j := do
    let (name, contents) ← case? j
    bareCase? [("ok", .ok), ("cmd_stale", .cmdStale)] name contents

namespace JsonForm

variable {α : Type} [JsonForm α]

/-- The compact JSON text of a value. -/
def text (a : α) : String := (toJson a).render

/-- The value that a JSON text spells. -/
def ofText? (s : String) : Option α := do ofJson (← parse s)

end JsonForm

end OmniDrive
