import OmniDrive.Controller.Basic

/-! A control core wired to a bus and a board. The core's packets go over the bus, its board calls
to the board, and what both have to say joins the core's own notices in the order of the steps. -/
namespace OmniDrive

/-- A bus, by what it answers to the packets of a tick. -/
class Bus (β : Type) where
  exchange : β → Round → Act Notice (β × Replies)

/-- A board, by what it does when called and by what it measures. -/
class Board (δ : Type) where
  perform : δ → BoardCall → δ × List Notice
  sensors : δ → SensorReport
  monitorOk : δ → Bool

structure Rig (σ β δ : Type) where
  core : σ
  bus : β
  board : δ
  deriving DecidableEq, Repr

namespace Rig

variable {σ β δ α : Type}

/-- Carry out the board calls among the events; what remains is notices. -/
def settle [Board δ] (board : δ) : List Event → δ × List Notice
  | [] => (board, [])
  | .notice n :: rest =>
    let (after, notices) := settle board rest
    (after, n :: notices)
  | .board call :: rest =>
    let (performed, first) := Board.perform board call
    let (after, notices) := settle performed rest
    (after, first ++ notices)

/-- A step of the core on the rig. -/
def perform [Board δ] (r : Rig σ β δ) (step : σ → Act Event (σ × α)) :
    Act Notice (Rig σ β δ × α) := do
  let (events, core, a) ← (step r.core).outcome
  let (board, notices) := settle r.board events
  Act.done notices ()
  return ({ r with core, board }, a)

/-- A step of the core that has no result of its own. -/
def step [Board δ] (r : Rig σ β δ) (step : σ → Act Event σ) : Act Notice (Rig σ β δ) := do
  let (r, ()) ← r.perform fun core => do return (← step core, ())
  return r

/-- A step of the core that sends a round of packets, and the step that takes the replies. -/
def exchange [Bus β] [Board δ] (r : Rig σ β δ) (send : σ → Act Event (σ × Round))
    (take : σ → Replies → Act Event σ) : Act Notice (Rig σ β δ × Round) := do
  let (r, round) ← r.perform send
  let (bus, replies) ← Bus.exchange r.bus round
  let r ← { r with bus }.step fun core => take core replies
  return (r, round)

end Rig

namespace Controller

variable {β δ : Type}

def tickOn [Bus β] [Board δ] (r : Rig Controller β δ) :
    Act Notice (Rig Controller β δ × Round) :=
  r.exchange beginTick finishTick

def reportOn [Board δ] (r : Rig Controller β δ) : Rig Controller β δ × Report :=
  let (core, report) := r.core.report (Board.sensors r.board) (Board.monitorOk r.board)
  ({ r with core }, report)

end Controller

def Drive.tickOn {β : Type} [Bus β] (d : Drive) (bus : β) :
    Act Notice (Drive × β × Round × Option Misalignment) := do
  let (d, round) ← d.beginTick
  let (bus, replies) ← Bus.exchange bus round
  let (d, misalignment) := d.finishTick replies
  return (d, bus, round, misalignment)

end OmniDrive
