import OmniDrive.Proofs.Controller.Input
import OmniDrive.Proofs.Run
import OmniDrive.Session.Basic

/-! Runs of a session: bytes are received and cycles made in any order, with any replies of the bus
and any readings of the board. Every operation completes as long as no more is staged than there is
room for. -/
namespace OmniDrive

namespace Session

open Decoder (Call Feed completed)

/-- What can be done with a session; a cycle comes with what the bus answers and what the board
measures in it. -/
inductive Operation
  | receive (bytes : List UInt8)
  | cycle (replies : Replies) (sensors : SensorReport) (monitorOk : Bool)

namespace Operation

def isCycle : Operation → Bool
  | receive _ => false
  | cycle .. => true

/-- The bytes that arrive. -/
def bytes : Operation → List UInt8
  | receive bytes => bytes
  | cycle .. => []

end Operation

/-- Carry out an operation; the second result is what a cycle sent on the bus and to the host. -/
def perform (s : Session) : Operation → Act Event (Session × Option (Round × Cycle))
  | .receive bytes => do return (← s.stage bytes, none)
  | .cycle replies sensors monitorOk => do
    let (s, round) ← s.beginCycle
    let s ← s.takeReplies replies
    let (s, cycle) := s.report sensors monitorOk
    return (s, some (round, cycle))

abbrev Moment := Act.Moment Session Operation Event (Option (Round × Cycle))

/-- A session that has just been started. -/
def opened (c : Controller) : Session where
  controller := { c with
    errors := c.errors.reset
    drive := { c.drive with driveEnabled := true }
    running := true }
  staged := []
  commanded := false
  health := .cmdStale

theorem start_eq (c : Controller) :
    start c = Act.done [.board (.lights .machineInterface)] (opened c) :=
  Act.bind_pure_eq_done (Controller.start_eq c) _

/-- How many bytes still fit. -/
def room (s : Session) : Nat := capacity - s.staged.length

/-- The session after a call of the decoder on all that is staged. -/
def caught (s : Session) (decoder : Decoder) (call : Call) : Session :=
  { s with
    controller := s.controller.received decoder call.decoded.command
    staged := s.staged.drop call.decoded.consumed }

/-- The session after a tick of the wheels. -/
def ticked (s : Session) (ramp : Ramp) (replies : Replies) : Session :=
  { s with
    controller := Controller.answered
      { s.controller with drive := s.controller.drive.ticked ramp } replies }

/-- A cycle in its steps, by the newest command: the decoder reads what is staged, the command is
applied if there is one, the wheels get their tick, and what the bus answered is taken and
reported. -/
inductive Serves (s : Session) (replies : Replies) (sensors : SensorReport) (monitorOk : Bool)
    (newest : Option Command) : List Event → Round → Cycle → Session → Prop
  | intro {notices : List Notice} {decoder : Decoder} {consumed : Nat}
    {ordered begun answered : List Event} {ticked told : Controller} {round : Round}
    (decode : s.controller.decoder.decode s.staged = Act.done notices (decoder, ⟨newest, consumed⟩))
    (obey : (s.controller.heard decoder newest).obey newest =
      Act.done ordered (s.controller.received decoder newest))
    (tick : (s.controller.received decoder newest).beginTick = Act.done begun (ticked, round))
    (answer : ticked.finishTick replies = Act.done answered told) :
    Serves s replies sensors monitorOk newest
      (notices.map .notice ++ ordered ++ begun ++ answered) round
      (report { s with controller := told, staged := s.staged.drop consumed } sensors monitorOk).2
      (report { s with controller := told, staged := s.staged.drop consumed } sensors monitorOk).1

/-- What an operation makes of a session, and what a cycle sends. -/
inductive Moves (s : Session) : Operation → List Event → Option (Round × Cycle) → Session → Prop
  | receive {bytes : List UInt8} (fits : bytes.length ≤ s.room) :
    Moves s (.receive bytes) [] none { s with staged := s.staged ++ bytes }
  | overflow {bytes : List UInt8} (dropped : s.room < bytes.length) :
    Moves s (.receive bytes) [.notice (.receiveOverflow (bytes.length - s.room))] none
      { s with
        controller := s.controller.noteError ErrorLatch.receiveOverflow
        staged := s.staged ++ bytes.take s.room }
  | cycle {replies : Replies} {sensors : SensorReport} {monitorOk : Bool} {events : List Event}
    (call : Call) (decoder : Decoder) (ramp : Ramp)
    (decode : s.controller.decoder.decode s.staged = Act.done call.notices (decoder, call.decoded))
    (tick : (s.caught decoder call).controller.drive.watched.ramp.tick = .ok ramp) :
    Moves s (.cycle replies sensors monitorOk) events
      (some (((s.caught decoder call).controller.drive.ticked ramp).round,
        (((s.caught decoder call).ticked ramp replies).report sensors monitorOk).2))
      (((s.caught decoder call).ticked ramp replies).report sensors monitorOk).1

variable {s : Session}

theorem stage_done (h : s.staged.length ≤ capacity) (bytes : List UInt8) :
    ∃ events after, s.stage bytes = Act.done events after ∧
      s.Moves (.receive bytes) events none after := by
  have hf : Word.uint64.hold (capacity - s.staged.length) =
      .ok ((capacity : Int) - s.staged.length) := by
    refine Word.hold_eq_ok ⟨?_, ?_⟩
    · change (0 : Int) ≤ _
      omega
    · change _ ≤ (18446744073709551615 : Int)
      unfold capacity
      omega
  have hr : ((capacity : Int) - s.staged.length).toNat = s.room := by
    unfold room
    omega
  unfold stage
  rw [hf]
  simp only [Act.lift_ok, Act.silent_bind, hr]
  by_cases hl : bytes.length ≤ s.room
  · refine ⟨_, _, ?_, .receive hl⟩
    rw [if_pos hl, List.take_of_length_le hl]
    rfl
  · refine ⟨_, _, ?_, .overflow (Nat.lt_of_not_le hl)⟩
    rw [if_neg hl]
    rfl

/-- The first half of a cycle is decoding, obeying and beginning a tick. -/
theorem beginCycle_eq (call : Call) {decoder : Decoder} {ordered begun : List Event}
    {obeyed ticked : Controller} {round : Round}
    (hd : s.controller.decoder.decode s.staged = Act.done call.notices (decoder, call.decoded))
    (ho : (s.controller.heard decoder call.decoded.command).obey call.decoded.command =
      Act.done ordered obeyed)
    (hb : obeyed.beginTick = Act.done begun (ticked, round)) :
    s.beginCycle = Act.done (call.notices.map .notice ++ ordered ++ begun)
      ({ s with controller := ticked, staged := s.staged.drop call.decoded.consumed }, round) := by
  obtain ⟨-, hle, -⟩ := Feed.took_of_decode hd
  have hq : (Act.require (call.decoded.consumed ≤ s.staged.length) .range : Act Event Unit) =
      Act.done [] () := if_pos hle
  exact Act.bind_eq_done (Controller.takeInput_eq hd ho)
    (Act.bind_eq_done hq (Act.bind_pure_eq_done hb _))

/-- The steps of the first half of a cycle complete. -/
theorem beginSteps_done (h : s.controller.drive.Sound) : ∃ call decoder ordered ramp,
    s.controller.decoder.decode s.staged = Act.done call.notices (decoder, call.decoded) ∧
      (s.controller.heard decoder call.decoded.command).obey call.decoded.command =
        Act.done ordered (s.caught decoder call).controller ∧
      (s.caught decoder call).controller.drive.watched.ramp.tick = .ok ramp ∧
      (s.caught decoder call).controller.beginTick =
        Act.done ((s.caught decoder call).controller.drive.watchNotices.map .notice)
          ({ (s.caught decoder call).controller with
              drive := (s.caught decoder call).controller.drive.ticked ramp },
            ((s.caught decoder call).controller.drive.ticked ramp).round) := by
  obtain ⟨notices, decoder, taken, hd, -⟩ := s.controller.decoder.decode_done s.staged
  obtain ⟨ordered, ho, -⟩ := Controller.obey_done h decoder (completed notices).getLast?
  obtain ⟨ramp, hr, hb⟩ := Controller.beginTick_done
    (Controller.sound_received h decoder (completed notices).getLast?)
  exact ⟨⟨notices, ⟨_, taken⟩⟩, decoder, ordered, ramp, hd, ho, hr, hb⟩

theorem beginCycle_done (h : s.controller.drive.Sound) : ∃ events call decoder ramp,
    s.controller.decoder.decode s.staged = Act.done call.notices (decoder, call.decoded) ∧
      (s.caught decoder call).controller.drive.watched.ramp.tick = .ok ramp ∧
      s.beginCycle = Act.done events
        ({ s.caught decoder call with
            controller := { (s.caught decoder call).controller with
              drive := (s.caught decoder call).controller.drive.ticked ramp } },
          ((s.caught decoder call).controller.drive.ticked ramp).round) := by
  obtain ⟨call, decoder, ordered, ramp, hd, ho, hr, hb⟩ := beginSteps_done h
  exact ⟨_, call, decoder, ramp, hd, hr, beginCycle_eq call hd ho hb⟩

section Serves

variable {replies : Replies} {sensors : SensorReport} {monitorOk : Bool} {newest : Option Command}
  {events : List Event} {round : Round} {cycle : Cycle} {after : Session}

/-- A cycle is made of its steps. -/
theorem Serves.perform_eq (h : s.Serves replies sensors monitorOk newest events round cycle after) :
    s.perform (.cycle replies sensors monitorOk) =
      Act.done events (after, some (round, cycle)) := by
  cases h with
  | @intro notices _ consumed _ _ _ _ _ _ decode obey tick answer =>
    have begun := beginCycle_eq ⟨notices, ⟨newest, consumed⟩⟩ decode obey tick
    refine Eq.trans (Act.bind_eq_done begun
      (Act.bind_eq_done (Act.bind_pure_eq_done answer _) rfl)) ?_
    rw [List.append_nil]
    rfl

/-- Every cycle completes, step by step. -/
theorem cycle_serves (h : s.controller.drive.Sound) (replies : Replies) (sensors : SensorReport)
    (monitorOk : Bool) : ∃ newest events round cycle after,
      s.Serves replies sensors monitorOk newest events round cycle after := by
  obtain ⟨call, decoder, ordered, ramp, hd, ho, -, hb⟩ := beginSteps_done h
  obtain ⟨answered, hf, -⟩ := Controller.finishTick_done
    { (s.caught decoder call).controller with
      drive := (s.caught decoder call).controller.drive.ticked ramp } replies
  exact ⟨_, _, _, _, _, .intro hd ho hb hf⟩

/-- What the steps of a cycle come to, together. -/
theorem Serves.outcome (h : s.Serves replies sensors monitorOk newest events round cycle after)
    (hs : s.controller.drive.Sound) : ∃ (call : Call) (decoder : Decoder) (ramp : Ramp),
      s.controller.decoder.decode s.staged = Act.done call.notices (decoder, call.decoded) ∧
      call.decoded.command = newest ∧
      (s.caught decoder call).controller.drive.watched.ramp.tick = .ok ramp ∧
      round = ((s.caught decoder call).controller.drive.ticked ramp).round ∧
      (after, cycle) = ((s.caught decoder call).ticked ramp replies).report sensors monitorOk ∧
      Controller.calls events =
        newest.elim [] s.controller.asked ++ Controller.shown replies := by
  cases h with
  | @intro notices decoder consumed _ _ _ ticked _ _ decode obey tick answer =>
    obtain ⟨_, ho, ordered⟩ := Controller.obey_done hs decoder newest
    cases obey.symm.trans ho
    obtain ⟨_, hf, answered⟩ := ticked.finishTick_done replies
    cases answer.symm.trans hf
    obtain ⟨ramp, hr, hb⟩ := Controller.beginTick_done (Controller.sound_received hs decoder newest)
    cases tick.symm.trans hb
    refine ⟨⟨notices, ⟨newest, consumed⟩⟩, decoder, ramp, decode, rfl, hr, rfl, rfl, ?_⟩
    rw [Controller.calls_append, Controller.calls_append, Controller.calls_append,
      Controller.calls_notices, Controller.calls_notices, ordered, answered, List.nil_append,
      List.append_nil]

theorem Serves.moves (h : s.Serves replies sensors monitorOk newest events round cycle after)
    (hs : s.controller.drive.Sound) :
    s.Moves (.cycle replies sensors monitorOk) events (some (round, cycle)) after := by
  obtain ⟨call, decoder, ramp, hd, -, hr, rfl, hc, -⟩ := h.outcome hs
  cases hc
  exact .cycle call decoder ramp hd hr

/-- What a cycle read of the staged bytes, and what it leaves of them. -/
theorem Serves.reads (h : s.Serves replies sensors monitorOk newest events round cycle after)
    (hs : s.controller.drive.Sound) : ∃ call : Call,
      s.controller.decoder.decode s.staged =
        Act.done call.notices (after.controller.decoder, call.decoded) ∧
      call.decoded.command = newest ∧ after.staged = s.staged.drop call.decoded.consumed ∧
      cycle.report.commandRead = newest.isSome := by
  obtain ⟨call, decoder, ramp, hd, rfl, -, -, hc, -⟩ := h.outcome hs
  cases hc
  rw [← Controller.decoder_received (c := s.controller) decoder call.decoded.command] at hd
  exact ⟨call, hd, rfl, rfl, Controller.commandRead_received ..⟩

/-- The board is called for what the newest command asks and for what the charger shows. -/
theorem Serves.calls_eq (h : s.Serves replies sensors monitorOk newest events round cycle after)
    (hs : s.controller.drive.Sound) : Controller.calls events =
      newest.elim [] s.controller.asked ++ Controller.shown replies := by
  obtain ⟨_, _, _, -, -, -, -, -, calls⟩ := h.outcome hs
  exact calls

end Serves

/-- Every operation completes. -/
theorem perform_moves (hs : s.controller.drive.Sound) (hl : s.staged.length ≤ capacity)
    (operation : Operation) : ∃ events result after,
      s.perform operation = Act.done events (after, result) ∧
        s.Moves operation events result after := by
  cases operation with
  | receive bytes =>
    obtain ⟨events, after, he, hm⟩ := stage_done hl bytes
    exact ⟨events, none, after, Act.bind_pure_eq_done he _, hm⟩
  | cycle replies sensors monitorOk =>
    obtain ⟨newest, events, round, cycle, after, serves⟩ :=
      cycle_serves hs replies sensors monitorOk
    exact ⟨events, some (round, cycle), after, serves.perform_eq, serves.moves hs⟩

theorem moves_of_happens {m : Moment} (hs : m.before.controller.drive.Sound)
    (hl : m.before.staged.length ≤ capacity) (hm : m.Happens perform) :
    m.before.Moves m.operation m.events m.result m.after := by
  obtain ⟨events, result, after, hp, hd⟩ := perform_moves hs hl m.operation
  rw [hm.eq hp]
  exact hd

/-- A cycle that happens goes through its steps. -/
theorem serves_of_happens {m : Moment} (hs : m.before.controller.drive.Sound)
    (hm : m.Happens perform) {replies : Replies} {sensors : SensorReport} {monitorOk : Bool}
    (ho : m.operation = .cycle replies sensors monitorOk) : ∃ newest round cycle,
      m.result = some (round, cycle) ∧
        m.before.Serves replies sensors monitorOk newest m.events round cycle m.after := by
  obtain ⟨newest, events, round, cycle, after, serves⟩ := cycle_serves hs replies sensors monitorOk
  have same := hm.eq (ho ▸ serves.perform_eq)
  rw [same]
  exact ⟨newest, round, cycle, rfl, serves⟩

variable {operation : Operation} {bytes : List UInt8} {events : List Event}
  {result : Option (Round × Cycle)} {after : Session}

/-- No operation spoils the drive. -/
theorem Moves.sound (hm : s.Moves operation events result after) (h : s.controller.drive.Sound) :
    after.controller.drive.Sound := by
  cases hm with
  | receive | overflow => exact h
  | cycle call decoder ramp decode tick =>
    have ticked :=
      Drive.sound_ticked (Controller.sound_received h decoder call.decoded.command) tick
    exact ⟨ticked.onCourse, ticked.inTime⟩

/-- No operation stages more than there is room for. -/
theorem Moves.roomy (hm : s.Moves operation events result after) (h : s.staged.length ≤ capacity) :
    after.staged.length ≤ capacity := by
  cases hm with
  | receive fits =>
    rw [List.length_append]
    unfold room at fits
    omega
  | overflow =>
    rw [List.length_append, List.length_take, room]
    omega
  | cycle call =>
    refine Nat.le_trans ?_ h
    change (s.staged.drop call.decoded.consumed).length ≤ _
    rw [List.length_drop]
    exact Nat.sub_le ..

/-- No header that was given up is forgotten. -/
theorem Moves.desyncs_le (hm : s.Moves operation events result after) :
    s.controller.decoder.desyncs ≤ after.controller.decoder.desyncs := by
  cases hm with
  | receive | overflow => exact Nat.le_refl _
  | cycle call decoder ramp decode =>
    change _ ≤ (s.controller.received decoder call.decoded.command).decoder.desyncs
    rw [Controller.decoder_received]
    exact (Feed.took_of_decode decode).1.desyncs

/-- Receiving stages what fits and may latch an error; it touches nothing else. -/
theorem exists_of_receive (hm : s.Moves (.receive bytes) events result after) :
    ∃ errors, after = { s with
      controller := { s.controller with errors }, staged := s.staged ++ bytes.take s.room } := by
  cases hm with
  | receive fits => exact ⟨s.controller.errors, by rw [List.take_of_length_le fits]⟩
  | overflow => exact ⟨_, rfl⟩

end Session

end OmniDrive
