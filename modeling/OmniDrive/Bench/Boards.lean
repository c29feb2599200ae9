import OmniDrive.Rig

/-! Stand-ins for board and bus: a board that only writes to the log, a board that records its calls
and a bus with set replies. -/
namespace OmniDrive

/-- A board that logs every change. -/
structure LogBoard where
  pattern : Option LightPattern
  vref : Bool
  amplifier : Bool
  deriving DecidableEq, Repr

namespace LogBoard

def initial : LogBoard := ⟨none, false, false⟩

def perform (b : LogBoard) : BoardCall → LogBoard × List Notice
  | .lights pattern =>
    if b.pattern = some pattern then (b, [])
    else ({ b with pattern := some pattern }, [.lightsShown pattern])
  | .vref on => ({ b with vref := on }, if b.vref = on then [] else [.vrefSwitched on])
  | .amplifier on =>
    ({ b with amplifier := on }, if b.amplifier = on then [] else [.amplifierSwitched on])

instance : Board LogBoard where
  perform := perform
  sensors _ := SensorReport.zero
  monitorOk _ := true

end LogBoard

/-- A board that keeps its calls and measures what it is told to. -/
structure TapeBoard where
  /-- The calls since the tape was last taken out, in order. -/
  calls : List BoardCall
  sensors : SensorReport
  monitorOk : Bool
  deriving DecidableEq, Repr

namespace TapeBoard

def initial : TapeBoard := ⟨[], SensorReport.zero, false⟩

instance : Board TapeBoard where
  perform b call := ({ b with calls := b.calls ++ [call] }, [])
  sensors := TapeBoard.sensors
  monitorOk := TapeBoard.monitorOk

end TapeBoard

/-- A bus that gives set replies and keeps the last packets. -/
structure TapeBus where
  replies : Replies
  sent : Option Round
  deriving DecidableEq, Repr

namespace TapeBus

/-- A healthy pack and motors at rest. -/
def initial : TapeBus :=
  ⟨⟨⟨#v[Misalignment.padding, 0x78, 0x00, 0x79, 0x7A, 0x7B]⟩, Wheels.fill .initial⟩, none⟩

instance : Bus TapeBus where
  exchange b round := pure ({ b with sent := some round }, b.replies)

end TapeBus

end OmniDrive
