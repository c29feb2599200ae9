import OmniDrive.Bench.Boards
import OmniDrive.Bench.Bus
import OmniDrive.Link
import OmniDrive.Session.Basic

/-! Sessions driven from the link: polling the port, and the loop that ends with the host's exit. -/
namespace OmniDrive

namespace Session

variable {β δ : Type}

/-- Stage what the port offers. After a fault of the link nothing is staged. -/
def pollOn [Board δ] (r : Rig Session β δ) (port : Except LinkError Offer) :
    Act Notice (Rig Session β δ × Except LinkError Unit) := do
  match port.bind Offer.read with
  | .error e => return (r, .error e)
  | .ok bytes => return (← stageOn r bytes, .ok ())

structure Run (β δ : Type) where
  rig : Rig Session β δ
  /-- The telemetry frames sent, one for each period. -/
  frames : List (List UInt8)
  /-- The host's exit ended the loop. -/
  exited : Bool

/-- Run through a schedule of arrivals, one for each period, until the controller has stopped. -/
def runOn [Bus β] [Board δ] (r : Rig Session β δ) : List (List UInt8) → Act Notice (Run β δ)
  | [] => return ⟨r, [], false⟩
  | arrived :: later => do
    let r ← stageOn r arrived
    let (r, _, cycle) ← cycleOn r
    if r.core.isRunning then
      let run ← runOn r later
      return { run with frames := cycle.frame :: run.frames }
    else return ⟨r, [cycle.frame], true⟩

def onBench (law : Regulator.Law) : Act Notice (Rig Session Bench LogBoard) :=
  startOn (.initial law) LogBoard.initial

def benchRun (law : Regulator.Law) (schedule : List (List UInt8)) :
    Act Notice (Run Bench LogBoard) := do
  runOn (← onBench law) schedule

end Session

end OmniDrive
