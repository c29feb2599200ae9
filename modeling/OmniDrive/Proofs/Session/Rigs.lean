import OmniDrive.Proofs.Session.Runs
import OmniDrive.Proofs.Telemetry.RoundTrip

/-! A session on a rig. What the core can do, the rig can do as well: receiving never needs the bus,
and a cycle completes once the bus answers the round that the cycle sends. -/
namespace OmniDrive

namespace Rig

variable {σ β δ α : Type} [Board δ] {r r' : Rig σ β δ} {notices : List Notice}
  {events : List Event} {core : σ}

theorem settle_notices (board : δ) (notices : List Notice) :
    settle board (notices.map .notice) = (board, notices) := by
  induction notices with
  | nil => rfl
  | cons notice notices ih =>
    rw [List.map_cons, settle, ih]

/-- A board carries out whatever it is called for. -/
theorem perform_done {step : σ → Act Event (σ × α)} {a : α}
    (h : step r.core = Act.done events (core, a)) :
    r.perform step = Act.done (settle r.board events).2
      (⟨core, r.bus, (settle r.board events).1⟩, a) := by
  unfold perform
  rw [h]
  exact Act.bind_pure_eq_done rfl _

theorem step_done {step : σ → Act Event σ} (h : step r.core = Act.done events core) :
    r.step step = Act.done (settle r.board events).2
      ⟨core, r.bus, (settle r.board events).1⟩ :=
  Act.bind_pure_eq_done (perform_done (Act.bind_pure_eq_done h _)) _

end Rig

namespace Session

open Decoder (Call)

/-- What a session on a rig is told to do. -/
inductive Turn
  | receive (bytes : List UInt8)
  | cycle

variable {β δ : Type} [Board δ]

/-- Take a turn; the second result is what a cycle sent on the bus and to the host. -/
def turnOn [Bus β] (r : Rig Session β δ) :
    Turn → Act Notice (Rig Session β δ × Option (Round × Cycle))
  | .receive bytes => do return (← stageOn r bytes, none)
  | .cycle => do
    let (r, round, cycle) ← cycleOn r
    return (r, some (round, cycle))

/-- The drive whose round a cycle sends. -/
def sending (s : Session) (decoder : Decoder) (call : Call) (ramp : Ramp) : Drive :=
  (s.caught decoder call).controller.drive.ticked ramp

/-- What a cycle makes of the core of a rig, by what the bus answered in it. -/
structure Cycled (r after : Rig Session β δ) (replies : Replies) (round : Round) (cycle : Cycle)
    (call : Call) (decoder : Decoder) (ramp : Ramp) : Prop where
  decode : r.core.controller.decoder.decode r.core.staged =
    Act.done call.notices (decoder, call.decoded)
  tick : (r.core.caught decoder call).controller.drive.watched.ramp.tick = .ok ramp
  round : round = (r.core.sending decoder call ramp).round
  core : (after.core, cycle) = ((r.core.caught decoder call).ticked ramp replies).report
    (Board.sensors after.board) (Board.monitorOk after.board)

variable {r after : Rig Session β δ} {replies : Replies} {round : Round} {cycle : Cycle}
  {call : Call} {decoder : Decoder} {ramp : Ramp}

theorem startOn_done (bus : β) (board : δ) : ∃ notices board',
    startOn bus board = Act.done notices ⟨opened Controller.initial, bus, board'⟩ := by
  have started : Act.bind (start Controller.initial) (fun core => pure (Controller.initial, core)) =
      Act.done _ (Controller.initial, opened Controller.initial) :=
    Act.bind_pure_eq_done (start_eq Controller.initial) _
  exact ⟨_, _, Act.bind_pure_eq_done
    (Rig.perform_done (r := ⟨Controller.initial, bus, board⟩) started) _⟩

theorem stageOn_done (h : r.core.staged.length ≤ capacity) (bytes : List UInt8) :
    ∃ notices events core board, stageOn r bytes = Act.done notices ⟨core, r.bus, board⟩ ∧
      r.core.Moves (.receive bytes) events none core := by
  obtain ⟨events, core, he, hm⟩ := stage_done h bytes
  exact ⟨_, events, core, _, Rig.step_done he, hm⟩

theorem takeReplies_done (s : Session) (replies : Replies) : ∃ events,
    s.takeReplies replies =
      Act.done events { s with controller := s.controller.answered replies } := by
  obtain ⟨events, hf, -⟩ := s.controller.finishTick_done replies
  exact ⟨events, Act.bind_pure_eq_done hf _⟩

/-- A cycle sends the round of a drive that kept the replies of the cycle before. -/
theorem cycleOn_done [Bus β] (h : r.core.controller.drive.Sound) : ∃ call decoder ramp,
    ∀ notices bus replies,
      Bus.exchange r.bus (r.core.sending decoder call ramp).round =
          Act.done notices (bus, replies) →
        ∃ notices core board round cycle,
          cycleOn r = Act.done notices (⟨core, bus, board⟩, round, cycle) ∧
            Cycled r ⟨core, bus, board⟩ replies round cycle call decoder ramp := by
  obtain ⟨events, call, decoder, ramp, hd, hr, hb⟩ := beginCycle_done h
  refine ⟨call, decoder, ramp, fun notices bus replies answers => ?_⟩
  obtain ⟨more, took⟩ := takeReplies_done
    { r.core.caught decoder call with
      controller := { (r.core.caught decoder call).controller with
        drive := (r.core.caught decoder call).controller.drive.ticked ramp } } replies
  have begun := Rig.perform_done hb
  have taken : Rig.step (⟨_, bus, (Rig.settle r.board events).1⟩ : Rig Session β δ)
      (fun core => takeReplies core replies) = Act.done _ _ := Rig.step_done took
  have exchanged : r.exchange beginCycle takeReplies = Act.done _ _ :=
    Act.bind_eq_done begun (Act.bind_eq_done answers (Act.bind_pure_eq_done taken _))
  exact ⟨_, _, _, _, _, Act.bind_eq_done exchanged rfl, hd, hr, rfl, rfl⟩

section Cycled

variable (h : Cycled r after replies round cycle call decoder ramp)
include h

theorem Cycled.core_eq : after.core = (((r.core.caught decoder call).ticked ramp replies).report
    (Board.sensors after.board) (Board.monitorOk after.board)).1 := (Prod.mk.inj h.core).1

theorem Cycled.cycle_eq : cycle = (((r.core.caught decoder call).ticked ramp replies).report
    (Board.sensors after.board) (Board.monitorOk after.board)).2 := (Prod.mk.inj h.core).2

/-- The core of a cycle on a rig makes the cycle with what the bus answered. -/
theorem Cycled.moves (events : List Event) :
    r.core.Moves (.cycle replies (Board.sensors after.board) (Board.monitorOk after.board)) events
      (some (round, cycle)) after.core := by
  rw [h.round, h.core_eq, h.cycle_eq]
  exact .cycle call decoder ramp h.decode h.tick

/-- What the bus answered is kept for the next round. -/
theorem Cycled.replies_eq : after.core.controller.drive.replies = replies := by
  rw [h.core_eq]
  rfl

theorem Cycled.decoder_eq : after.core.controller.decoder = decoder := by
  rw [h.core_eq]
  exact Controller.decoder_received ..

theorem Cycled.staged_eq : after.core.staged = r.core.staged.drop call.decoded.consumed := by
  rw [h.core_eq]
  rfl

theorem Cycled.isRunning_eq : after.core.isRunning =
    (r.core.controller.received decoder call.decoded.command).running := by
  unfold isRunning
  rw [h.core_eq]
  rfl

theorem Cycled.driveEnabled_eq : after.core.controller.drive.driveEnabled =
    (r.core.controller.received decoder call.decoded.command).drive.driveEnabled := by
  rw [h.core_eq]
  exact Drive.driveEnabled_watched _

theorem Cycled.length_frame : cycle.frame.length = Telemetry.frameLength := by
  rw [h.cycle_eq]
  exact Telemetry.length_encode _

/-- The frame of a cycle carries the report of the cycle. -/
theorem Cycled.decode_frame : ∃ report, Telemetry.decode cycle.frame = .ok report ∧
    report.status.driveEnabled = after.core.controller.drive.driveEnabled ∧
    report.commandRead = call.decoded.command.isSome := by
  rw [h.cycle_eq, h.core_eq]
  exact ⟨_, Telemetry.decode_encode_eq _, rfl, Controller.commandRead_received ..⟩

end Cycled

end Session

end OmniDrive
