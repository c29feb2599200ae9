import OmniDrive.Rig

/-! A session with the host: received bytes are staged, and once per period the newest command is
applied, the wheels get their tick and a telemetry frame is made. -/
namespace OmniDrive

/-- Whether the host's commands are fresh. -/
inductive Health
  | ok
  | cmdStale
  deriving DecidableEq, Repr

structure Session where
  controller : Controller
  /-- Bytes received and not yet consumed by the decoder. -/
  staged : List UInt8
  /-- A command has been read at some time. -/
  commanded : Bool
  health : Health
  deriving DecidableEq, Repr

structure Cycle where
  report : Report
  frame : List UInt8
  deriving DecidableEq, Repr

namespace Session

/-- Room for staged bytes. -/
def capacity : Nat := 1024

/-- Start the controller. Health is stale until the first command. -/
def start (c : Controller) : Act Event Session := do
  return ⟨← c.start, [], false, .cmdStale⟩

def isRunning (s : Session) : Bool := s.controller.running

/-- Stage received bytes. What does not fit is dropped and recorded as an error. -/
def stage (s : Session) (bytes : List UInt8) : Act Event Session := do
  let free ← Word.uint64.hold (capacity - s.staged.length)
  let s := { s with staged := s.staged ++ bytes.take free.toNat }
  if bytes.length ≤ free.toNat then return s
  Act.emit (.notice (.receiveOverflow (bytes.length - free.toNat)))
  return { s with controller := s.controller.noteError ErrorLatch.receiveOverflow }

/-- The first half of a period: apply the newest command and start the control tick. -/
def beginCycle (s : Session) : Act Event (Session × Round) := do
  let (controller, consumed) ← s.controller.takeInput s.staged
  Act.require (consumed ≤ s.staged.length) .range
  let (controller, round) ← controller.beginTick
  return ({ s with controller, staged := s.staged.drop consumed }, round)

/-- The second half of a period: finish the control tick with what the bus answered. -/
def takeReplies (s : Session) (replies : Replies) : Act Event Session := do
  return { s with controller := ← s.controller.finishTick replies }

/-- The end of a period: report, and judge the host's health. -/
def report (s : Session) (sensors : SensorReport) (monitorOk : Bool) : Session × Cycle :=
  let (controller, report) := s.controller.report sensors monitorOk
  let commanded := s.commanded || report.commandRead
  let health := if commanded && !controller.drive.stale then .ok else .cmdStale
  ({ s with controller, commanded, health }, ⟨report, Telemetry.encode report⟩)

variable {β δ : Type}

def startOn [Board δ] (bus : β) (board : δ) : Act Notice (Rig Session β δ) := do
  let (rig, session) ← Rig.perform ⟨Controller.initial, bus, board⟩ fun c => do
    return (c, ← start c)
  return ⟨session, rig.bus, rig.board⟩

def cycleOn [Bus β] [Board δ] (r : Rig Session β δ) :
    Act Notice (Rig Session β δ × Round × Cycle) := do
  let (r, round) ← r.exchange beginCycle takeReplies
  let (core, cycle) := r.core.report (Board.sensors r.board) (Board.monitorOk r.board)
  return ({ r with core }, round, cycle)

def stageOn [Board δ] (r : Rig Session β δ) (bytes : List UInt8) : Act Notice (Rig Session β δ) :=
  r.step (·.stage bytes)

end Session

end OmniDrive
