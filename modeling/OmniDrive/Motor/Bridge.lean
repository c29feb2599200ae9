/-! Signed duty on one H-bridge. Forward duty drives channel A, reverse duty channel B; a change of
direction costs one tick with everything off, so the two halves never conduct together. -/
namespace OmniDrive

/-- The lines of an H-bridge. -/
structure Bridge where
  /-- Compare value of the forward channel. -/
  dutyA : UInt8
  /-- Compare value of the reverse channel. -/
  dutyB : UInt8
  /-- Low-side switch of the forward half. -/
  lowA : Bool
  /-- Low-side switch of the reverse half. -/
  lowB : Bool
  enabled : Bool
  deriving DecidableEq, Repr

/-- One write to an H-bridge. -/
inductive BridgeWrite
  | duty (a b : UInt8)
  | lowSide (a b : Bool)
  | enable (on : Bool)
  deriving DecidableEq, Repr

namespace Bridge

def off : Bridge := ⟨0, 0, false, false, false⟩

def write (b : Bridge) : BridgeWrite → Bridge
  | .duty dutyA dutyB => { b with dutyA, dutyB }
  | .lowSide lowA lowB => { b with lowA, lowB }
  | .enable enabled => { b with enabled }

/-- All writes in order. -/
def writeAll (b : Bridge) (writes : List BridgeWrite) : Bridge := writes.foldl write b

/-- The duty that reaches the motor in compare units, forward positive. -/
def netDuty (b : Bridge) : Int := if b.enabled then b.dutyA.toNat - b.dutyB.toNat else 0

end Bridge

/-- Drives an H-bridge and remembers which direction was asked for last. -/
structure BridgeDriver where
  bridge : Bridge
  lastSpeed : Int8
  deriving DecidableEq, Repr

namespace BridgeDriver

/-- What taking over a bridge writes: everything off, then the driver on. -/
def takeover : List BridgeWrite := [.duty 0 0, .lowSide false false, .enable true]

def initial : BridgeDriver := ⟨Bridge.off.writeAll takeover, 0⟩

/-- The compare value of a duty's magnitude; the full duty is the full scale. -/
def compareValue (magnitude : Nat) : UInt8 :=
  if 127 ≤ magnitude then 255 else (2 * magnitude).toUInt8

/-- Standing still counts as forward. -/
def isForward (speed : Int8) : Bool := 0 ≤ speed

/-- The duty nearest to the given one that the bridge can drive both ways. -/
def symmetric (speed : Int8) : Int8 := if speed < -127 then -127 else speed

/-- The writes that switch everything off. -/
def release : List BridgeWrite := [.duty 0 0, .lowSide false false]

/-- The writes that drive a duty. -/
def conduct (speed : Int8) : List BridgeWrite :=
  let magnitude := compareValue speed.toInt.natAbs
  if 0 < speed then [.duty magnitude 0, .lowSide false true]
  else if speed < 0 then [.duty 0 magnitude, .lowSide true false]
  else release

/-- The duty driven for a request, and the writes for it: nothing in the tick that turns around. -/
def response (d : BridgeDriver) (speed : Int8) : Int8 × List BridgeWrite :=
  let speed := symmetric speed
  if isForward speed = isForward d.lastSpeed then (speed, conduct speed) else (0, release)

/-- Ask for a duty. The result is the driver afterwards, the duty that is driven and the writes. -/
def drive (d : BridgeDriver) (speed : Int8) : BridgeDriver × Int8 × List BridgeWrite :=
  let (driven, writes) := d.response speed
  (⟨d.bridge.writeAll writes, symmetric speed⟩, driven, writes)

end BridgeDriver

end OmniDrive
