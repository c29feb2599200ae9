import OmniDrive.Proofs.Bench.Axles
import OmniDrive.Proofs.Controller.Answers
import OmniDrive.Proofs.Session.Rigs
import OmniDrive.Session.Run

/-! Sessions on the bench. The controller's packets drive the wheels and what is measured at the
wheels feeds the regulators; round that loop the motors stay calm, so every turn of every run
completes. -/
namespace OmniDrive.Session

open Bench (Axle)

variable {δ : Type} [Board δ] {r : Rig Session Bench δ}

/-- What a rig keeps on the bench: session and axles are sound, and the supply voltage that the next
round will carry is low for the currents that its motors remember. -/
structure Benched (r : Rig Session Bench δ) : Prop where
  sound : r.core.controller.drive.Sound
  roomy : r.core.staged.length ≤ capacity
  unharmed : ∀ i, (r.bus.axles.get i).Unharmed
  calm : ∃ peak, peak ≤ Axle.fullCurrent ∧
    peak * r.core.controller.drive.replies.power.voltage.toNat ≤ 2000 ∧
    ∀ i, (r.bus.axles.get i).Calm peak

theorem Benched.start (law : Regulator.Law) (board : δ) : ∃ notices board',
    startOn (Bench.initial law) board =
        Act.done notices ⟨opened Controller.initial, Bench.initial law, board'⟩ ∧
      Benched (⟨opened Controller.initial, Bench.initial law, board'⟩ : Rig Session Bench δ) := by
  obtain ⟨notices, board', hr⟩ := startOn_done (Bench.initial law) board
  refine ⟨notices, board', hr, ⟨Drive.sound_initial.onCourse, Drive.sound_initial.inTime⟩,
    Nat.zero_le _, fun i => ?_, Bench.bears_initial law⟩
  rw [Bench.initial, Wheels.get_fill]
  exact Axle.unharmed_initial law

theorem Benched.cycle (h : Benched r) : ∃ notices after replies round cycle call decoder ramp,
    cycleOn r = Act.done notices (after, round, cycle) ∧
      Cycled r after replies round cycle call decoder ramp ∧ Benched after ∧
      ∀ i, (r.bus.axles.get i).Exchanged (after.bus.axles.get i)
        (r.core.sending decoder call ramp).mode ((r.core.sending decoder call ramp).asks i) := by
  obtain ⟨call, decoder, ramp, cycled⟩ := cycleOn_done h.sound
  -- the packets carry the voltage of the replies that were kept before this cycle
  have kept : (r.core.sending decoder call ramp).replies = r.core.controller.drive.replies :=
    (Drive.replies_watched _).trans (Controller.replies_received ..)
  have bears := h.calm
  rw [← kept] at bears
  obtain ⟨first, bus, motors, hb, exchanged⟩ := Bench.exchange_round bears
  obtain ⟨notices, core, board, round, cycle, hc, after⟩ := cycled _ _ _ hb
  refine ⟨notices, _, _, round, cycle, call, decoder, ramp, hc, after, ?_, exchanged⟩
  have moves := after.moves []
  refine ⟨moves.sound h.sound, moves.roomy h.roomy, fun i => (exchanged i).unharmed, ?_⟩
  rw [after.replies_eq]
  exact Bench.bears_of_calm fun i => (exchanged i).calm

theorem Benched.receive (h : Benched r) (bytes : List UInt8) : ∃ notices events core board,
    stageOn r bytes = Act.done notices ⟨core, r.bus, board⟩ ∧
      r.core.Moves (.receive bytes) events none core ∧
      Benched (⟨core, r.bus, board⟩ : Rig Session Bench δ) := by
  obtain ⟨notices, events, core, board, hs, moves⟩ := stageOn_done h.roomy bytes
  refine ⟨notices, events, core, board, hs, moves, moves.sound h.sound, moves.roomy h.roomy,
    h.unharmed, ?_⟩
  obtain ⟨errors, rfl⟩ := exists_of_receive moves
  exact h.calm

abbrev TurnMoment := Act.Moment (Rig Session Bench LogBoard) Turn Notice (Option (Round × Cycle))

/-- What shows of a turn on the bench. -/
structure Harmless (m : TurnMoment) : Prop where
  unharmed : ∀ i, (m.after.bus.axles.get i).Unharmed
  /-- A cycle makes a whole frame, and measures the clicks of each wheel as they are. -/
  cycle : ∀ round cycle, m.result = some (round, cycle) →
    cycle.frame.length = Telemetry.frameLength ∧
      ∀ i, (m.after.bus.axles.get i).motor.measured.clicks.toInt =
        (m.before.bus.axles.get i).wheel.clicks

/-- What is known of a rig on the bench after some turns. -/
structure Withstood (past : List TurnMoment) (r : Rig Session Bench LogBoard) : Prop where
  benched : Benched r
  harmless : ∀ m ∈ past, Harmless m
  counted : ∀ m ∈ past,
    m.after.core.controller.decoder.desyncs ≤ r.core.controller.decoder.desyncs

theorem Withstood.start {r : Rig Session Bench LogBoard} (h : Benched r) : Withstood [] r where
  benched := h
  harmless := fun _ hm => absurd hm List.not_mem_nil
  counted := fun _ hm => absurd hm List.not_mem_nil

theorem Withstood.append {past : List TurnMoment} {m : TurnMoment} (h : Withstood past m.before)
    (benched : Benched m.after) (harmless : Harmless m) {operation : Operation}
    {events : List Event} {result : Option (Round × Cycle)}
    (moves : m.before.core.Moves operation events result m.after.core) :
    Withstood (past ++ [m]) m.after where
  benched := benched
  harmless := List.forall_mem_append.2 ⟨h.harmless, List.forall_mem_singleton.2 harmless⟩
  counted := List.forall_mem_append.2
    ⟨fun n hn => Nat.le_trans (h.counted n hn) moves.desyncs_le,
      List.forall_mem_singleton.2 (Nat.le_refl _)⟩

theorem Withstood.step (past : List TurnMoment) (r : Rig Session Bench LogBoard) (turn : Turn)
    (h : Withstood past r) : ∃ events result after,
      turnOn r turn = Act.done events (after, result) ∧
        Withstood (past ++ [⟨r, turn, events, result, after⟩]) after := by
  cases turn with
  | receive bytes =>
    obtain ⟨notices, events, core, board, hs, moves, benched⟩ := h.benched.receive bytes
    refine ⟨notices, none, _, Act.bind_pure_eq_done hs _, ?_⟩
    exact Withstood.append (m := ⟨r, _, _, _, _⟩) h benched ⟨benched.unharmed, nofun⟩ moves
  | cycle =>
    obtain ⟨notices, after, replies, round, cycle, call, decoder, ramp, hc, cycled, benched,
      exchanged⟩ := h.benched.cycle
    refine ⟨notices, some (round, cycle), after, Act.bind_pure_eq_done hc _, ?_⟩
    refine Withstood.append (m := ⟨r, _, _, _, _⟩) h benched ⟨benched.unharmed, ?_⟩
      (cycled.moves [])
    rintro _ _ ⟨⟩
    exact ⟨cycled.length_frame, fun i => (exchanged i).clicks⟩

/-- Whatever is received and whenever cycles are made, with either law, the whole program completes
every turn on the bench. The wheels stay as slow as the full duty makes them and are measured as
they are, no current is above that of the full duty, and neither limiter of any motor ever acts. The
count of given-up headers, which alone has no bound of its own, fits its word all along if it does
so in the end. -/
theorem bench_never_faults (law : Regulator.Law) (turns : List Turn) :
    ∃ notices r moments last, onBench law = Act.done notices r ∧
      Act.run turnOn r turns = .ok (moments, last) ∧
      moments.map Act.Moment.operation = turns ∧
      (∀ i, (r.bus.axles.get i).Unharmed) ∧ (∀ m ∈ moments, Harmless m) ∧
      (last.core.controller.decoder.desyncs < 2 ^ 64 → ∀ m ∈ moments,
        Word.uint64.Holds m.after.core.controller.decoder.desyncs) := by
  obtain ⟨notices, board, hr, h⟩ := Benched.start law LogBoard.initial
  obtain ⟨moments, last, run, ho, ended, -⟩ :=
    Act.run_keeps Withstood.step turns [] _ (.start h)
  refine ⟨notices, _, moments, last, hr, run, ho, h.unharmed, ended.harmless, fun few m hm => ?_⟩
  have fits := Nat.lt_of_le_of_lt (ended.counted m hm) few
  constructor <;> simp only [Word.uint64] <;> omega

end OmniDrive.Session
