import OmniDrive.Bench.Boards
import OmniDrive.Proofs.Bench.Latching
import OmniDrive.Proofs.Controller.RecentMotion
import OmniDrive.Proofs.Session.Rigs

/-! A controller on the bench. Every tick the motors latch what the drive has decided in that very
tick and run on it, while the drive hears what they measured and drove in the tick before. -/
namespace OmniDrive

open Bench (Axle)

variable {β δ : Type}

theorem Drive.aligned_watchNotices (d : Drive) : Aligned d.watchNotices := by
  have stop : Aligned d.stopNotices := by
    unfold stopNotices aimNotices
    split
    · split
      · exact aligned_nil
      · exact aligned_singleton nofun
    · exact aligned_nil
  unfold watchNotices
  split
  · exact aligned_nil
  · refine .append ?_ stop
    split
    · exact aligned_nil
    · exact aligned_singleton nofun

/-- A drive whose charger is not active asks for its own speeds. -/
theorem Drive.asks_of_not_charging {d : Drive} (h : d.isCharging = false) (i : Fin 3) :
    d.asks i = if d.driveEnabled then d.ramp.speeds.get i else 0 := by
  unfold asks isHeld
  rw [h]
  cases d.driveEnabled with
  | false | true => rfl

theorem Drive.motorReport_eq (d : Drive) (i : Fin 3) :
    d.motorReport i = (d.replies.motors.get i).report := by
  match i with
  | 0 | 1 | 2 => rfl

namespace Controller

/-- What a controller on a rig is told to do. -/
inductive Turn
  | start
  | stop
  | disableCommands
  | enableCommands
  | takeInput (bytes : List UInt8)
  | apply (command : Command)
  | tick
  | report
  | noteError (flags : UInt32)

/-- The operation of the core that a turn is; a tick is none, for it needs the bus. -/
def Turn.operation? [Board δ] (board : δ) : Turn → Option Operation
  | .start => some .start
  | .stop => some .stop
  | .disableCommands => some .disableCommands
  | .enableCommands => some .enableCommands
  | .takeInput bytes => some (.takeInput bytes)
  | .apply command => some (.apply command)
  | .tick => none
  | .report => some (.report (Board.sensors board) (Board.monitorOk board))
  | .noteError flags => some (.noteError flags)

def Turn.isTick : Turn → Bool
  | .tick => true
  | _ => false

/-- Take a turn; the second result is what a tick sent on the bus. -/
def turnOn [Bus β] [Board δ] (r : Rig Controller β δ) (turn : Turn) :
    Act Notice (Rig Controller β δ × Option Round) :=
  match turn.operation? r.board with
  | some operation => r.perform (·.perform operation)
  | none => do
    let (r, round) ← tickOn r
    return (r, some round)

/-- Only a tick changes what is known of the bus. -/
theorem Moment.Moves.replies_eq {m : Moment} (h : m.Moves)
    (hq : ∀ replies, m.operation ≠ .tick replies) :
    m.after.drive.replies = m.before.drive.replies := by
  cases h with
  | tick replies _ ho => exact absurd ho (hq replies)
  | stop _ _ hd | start _ _ hd | other _ _ _ _ hd => exact (congrArg Drive.replies hd :)
  | command f _ _ hd => rw [hd, replies_applied]

/-- What one tick does to a controller on the bench. -/
structure Ticked (r after : Rig Controller Bench δ) (notices : List Notice) : Prop where
  sound : after.core.drive.Sound
  calm : ∀ i, (after.bus.axles.get i).Calm Axle.fullCurrent
  power : after.core.drive.replies.power = Bench.powerReply
  latched : ∀ i, (r.bus.axles.get i).Latched (after.bus.axles.get i)
    (after.core.drive.replies.motors.get i) after.core.drive.mode
    (if after.core.drive.driveEnabled then after.core.drive.ramp.speeds.get i else 0)
    r.core.drive.replies.power.voltage
  charging : after.bus.chargingDisabled = !after.core.drive.chargingEnabled
  aligned : Aligned notices
  errors : after.core.errors = r.core.errors

abbrev TurnMoment (δ : Type) := Act.Moment (Rig Controller Bench δ) Turn Notice (Option Round)

/-- The ticks among some turns. -/
def ticks (past : List (TurnMoment δ)) : List (TurnMoment δ) := past.filter (·.operation.isTick)

/-- In this turn the axle of a wheel has run for one period; `told` is what its motor was given as
measured and the duty that it drove. -/
def Runs (m : TurnMoment δ) (i : Fin 3) (told : MotorReport) : Prop :=
  (m.before.bus.axles.get i).Ran (m.after.bus.axles.get i) told

/-- How controller and bench stand to each other after a tick, given the ticks before it. -/
structure Agrees (ticks : List (TurnMoment δ)) (m : TurnMoment δ) : Prop where
  mode : ∀ i, (m.after.bus.axles.get i).motor.mode = m.after.core.drive.mode
  setpoint : ∀ i, (m.after.bus.axles.get i).motor.setpoint =
    if m.after.core.drive.driveEnabled then m.after.core.drive.ramp.speeds.get i else 0
  /-- The first packets carry the voltage that counts as unknown. -/
  busVoltage : ∀ i, (m.after.bus.axles.get i).motor.busVoltage = if ticks.isEmpty then 255 else 120
  charging : m.after.bus.chargingDisabled = !m.after.core.drive.chargingEnabled
  /-- Every motor runs in this tick, and nothing has moved since the tick before. -/
  ran : ∀ i, ∃ told, Runs m i told
  still : ∀ latest ∈ ticks.getLast?, m.before.bus = latest.after.bus
  /-- What is known of a motor after the first tick is nothing. -/
  first : ticks = [] → ∀ i : Fin 3, m.after.core.drive.motorReport i = ⟨0, 0, 0, 0⟩
  /-- After any later tick it is what the motor measured and drove in the tick before. -/
  later : ∀ latest ∈ ticks.getLast?, ∀ i : Fin 3,
    Runs latest i (m.after.core.drive.motorReport i)
  aligned : Aligned m.events
  errors : m.after.core.errors = m.before.core.errors

/-- What holds of a controller and its bench after some turns. -/
structure Coupled (past : List (TurnMoment δ)) (r : Rig Controller Bench δ) : Prop where
  sound : r.core.drive.Sound
  bears : r.bus.Bears r.core.drive.replies.power.voltage
  power : r.core.drive.replies.power =
    if (ticks past).isEmpty then .initial else Bench.powerReply
  unmoved : ticks past = [] → ∀ i, (r.bus.axles.get i).motor.shown = ⟨0, 0, 0, 0⟩
  still : ∀ latest ∈ (ticks past).getLast?, r.bus = latest.after.bus
  ran : ∀ latest ∈ (ticks past).getLast?, ∀ i, Runs latest i (r.bus.axles.get i).motor.shown

variable {past : List (TurnMoment δ)} {r after : Rig Controller Bench δ} {m : TurnMoment δ}
  {notices : List Notice} {round : Option Round}

theorem ticks_concat_tick (h : m.operation.isTick = true) :
    ticks (past ++ [m]) = ticks past ++ [m] := by
  rw [ticks, List.filter_append, List.filter_singleton, h]
  rfl

theorem ticks_concat_quiet (h : m.operation.isTick = false) :
    ticks (past ++ [m]) = ticks past := by
  rw [ticks, List.filter_append, List.filter_singleton, h]
  exact List.append_nil _

theorem Coupled.start (law : Regulator.Law) (board : δ) :
    Coupled [] ⟨initial, Bench.initial law, board⟩ where
  sound := Drive.sound_initial
  bears := Bench.bears_initial law
  power := rfl
  unmoved := fun _ i => by
    rw [Bench.initial, Wheels.get_fill]
    rfl
  still := fun latest hl => (Option.not_mem_none latest hl).elim
  ran := fun latest hl => (Option.not_mem_none latest hl).elim

theorem Coupled.voltage_eq (h : Coupled past r) :
    r.core.drive.replies.power.voltage = if (ticks past).isEmpty then 255 else 120 := by
  rw [h.power]
  split
  · rfl
  · rfl

/-- The pack on the bench never charges. -/
theorem Coupled.not_charging (h : Coupled past r) : r.core.drive.isCharging = false := by
  unfold Drive.isCharging
  rw [h.power]
  split
  · rfl
  · rfl

/-- The drive hears of a motor what it showed before the tick. -/
theorem Ticked.motorReport_eq (h : Ticked r after notices) (i : Fin 3) :
    after.core.drive.motorReport i = (r.bus.axles.get i).motor.shown :=
  (Drive.motorReport_eq _ i).trans (h.latched i).report

/-- A tick shows what was known before it. -/
theorem Coupled.agrees (h : Coupled past r) (ht : Ticked r after notices) :
    Agrees (ticks past) ⟨r, .tick, notices, round, after⟩ where
  mode := fun i => (ht.latched i).mode
  setpoint := fun i => (ht.latched i).setpoint
  busVoltage := fun i => (ht.latched i).busVoltage.trans h.voltage_eq
  charging := ht.charging
  ran := fun i => ⟨_, (ht.latched i).ran⟩
  still := h.still
  first := fun none i => (ht.motorReport_eq i).trans (h.unmoved none i)
  later := fun latest hl i => by
    rw [ht.motorReport_eq]
    exact h.ran latest hl i
  aligned := ht.aligned
  errors := ht.errors

theorem Coupled.of_ticked (h : Ticked r after notices) :
    Coupled (past ++ [⟨r, .tick, notices, round, after⟩]) after where
  sound := h.sound
  bears := by
    rw [h.power]
    exact Bench.bears_of_calm h.calm
  power := by
    rw [ticks_concat_tick rfl, List.isEmpty_eq_false_iff.2 (List.concat_ne_nil _ _)]
    exact h.power
  unmoved := fun none => by
    rw [ticks_concat_tick rfl] at none
    exact absurd none (List.concat_ne_nil _ _)
  still := fun latest hl => by
    rw [ticks_concat_tick rfl, List.getLast?_concat] at hl
    cases hl
    rfl
  ran := fun latest hl i => by
    rw [ticks_concat_tick rfl, List.getLast?_concat] at hl
    cases hl
    exact (h.latched i).ran

section Turns

variable [Board δ]

/-- The replies of the bench need neither a report of a fault nor a call of the board. -/
theorem finishTick_powerReply (c : Controller) (motors : Wheels MotorReply) :
    c.finishTick ⟨Bench.powerReply, motors⟩ = Act.done []
      { c with drive := { c.drive with replies := ⟨Bench.powerReply, motors⟩ } } := rfl

/-- A tick completes once the bench answers the round of the drive. -/
theorem tickOn_done (h : r.core.drive.Sound) : ∃ ramp,
    r.core.drive.watched.ramp.tick = .ok ramp ∧ ∀ said bus motors,
      r.bus.exchange (r.core.drive.ticked ramp).round =
          Act.done said (bus, ⟨Bench.powerReply, motors⟩) →
        tickOn r = Act.done (r.core.drive.watchNotices ++ said)
          (⟨{ r.core with
              drive := { r.core.drive.ticked ramp with replies := ⟨Bench.powerReply, motors⟩ } },
            bus, r.board⟩, (r.core.drive.ticked ramp).round) := by
  obtain ⟨ramp, hr, hb⟩ := beginTick_done h
  refine ⟨ramp, hr, fun said bus motors answers => ?_⟩
  have begun := Rig.perform_done hb
  rw [Rig.settle_notices] at begun
  have taken : Rig.step (⟨{ r.core with drive := r.core.drive.ticked ramp }, bus, r.board⟩ :
      Rig Controller Bench δ) (fun core => core.finishTick ⟨Bench.powerReply, motors⟩) =
      Act.done _ _ := Rig.step_done (finishTick_powerReply _ motors)
  rw [← List.append_nil said]
  exact Act.bind_eq_done begun (Act.bind_eq_done answers (Act.bind_pure_eq_done taken _))

theorem Coupled.ticked (h : Coupled past r) : ∃ notices round after,
    turnOn r .tick = Act.done notices (after, round) ∧ Ticked r after notices := by
  obtain ⟨ramp, hr, done⟩ := tickOn_done h.sound
  -- the packets carry the voltage of the replies that were kept before this tick
  have kept : (r.core.drive.ticked ramp).replies = r.core.drive.replies := Drive.replies_watched _
  have idle : (r.core.drive.ticked ramp).isCharging = false := by
    rw [Drive.isCharging, kept]
    exact h.not_charging
  have bears := h.bears
  rw [← kept] at bears
  obtain ⟨said, bus, motors, hb, exchanged⟩ := Bench.exchange_round bears
  obtain ⟨charging, aligned, latched⟩ := Bench.latched_of_round hb
  have sound := Drive.sound_ticked h.sound hr
  refine ⟨_, _, _, Act.bind_pure_eq_done (done said bus motors hb) _, ⟨sound.onCourse, sound.inTime⟩,
    fun i => (exchanged i).calm, rfl, fun i => ?_, charging,
    (Drive.aligned_watchNotices _).append aligned, rfl⟩
  have latched := latched i
  rw [Drive.asks_of_not_charging idle, kept] at latched
  exact latched

/-- A turn that is no tick moves neither the bench nor what is known of it. -/
theorem Coupled.quiet (h : Coupled past r) {turn : Turn} {operation : Operation}
    (ho : turn.operation? r.board = some operation) : ∃ notices round after,
      turnOn r turn = Act.done notices (after, round) ∧
        Coupled (past ++ [⟨r, turn, notices, round, after⟩]) after := by
  obtain ⟨events, round, core, hp, steps⟩ := perform_steps h.sound operation
  have quiet : turn.isTick = false ∧ ∀ replies, operation ≠ .tick replies := by
    cases turn with
    | tick => cases ho
    | _ =>
      cases ho
      exact ⟨rfl, nofun⟩
  have moves := steps.moves
  have replies : core.drive.replies = r.core.drive.replies := moves.replies_eq quiet.2
  have turned : turnOn r turn = Act.done (Rig.settle r.board events).2
      (⟨core, r.bus, (Rig.settle r.board events).1⟩, round) := by
    unfold turnOn
    rw [ho]
    exact Rig.perform_done hp
  refine ⟨_, _, _, turned, moves.sound h.sound, ?bears, ?power, ?unmoved, ?still, ?ran⟩
  case bears =>
    rw [replies]
    exact h.bears
  case power =>
    rw [ticks_concat_quiet quiet.1, replies]
    exact h.power
  case unmoved =>
    rw [ticks_concat_quiet quiet.1]
    exact h.unmoved
  case still =>
    rw [ticks_concat_quiet quiet.1]
    exact h.still
  case ran =>
    rw [ticks_concat_quiet quiet.1]
    exact h.ran

theorem Coupled.turn (past : List (TurnMoment δ)) (r : Rig Controller Bench δ) (turn : Turn)
    (h : Coupled past r) : ∃ notices round after, turnOn r turn = Act.done notices (after, round) ∧
      Coupled (past ++ [⟨r, turn, notices, round, after⟩]) after := by
  cases ho : turn.operation? r.board with
  | some operation => exact h.quiet ho
  | none =>
    cases turn with
    | tick =>
      obtain ⟨notices, round, after, ht, ticked⟩ := h.ticked
      exact ⟨notices, round, after, ht, .of_ticked ticked⟩
    | _ => cases ho

/-- Whatever a controller on the bench is told, with either law and any board, every turn completes,
and after every tick each motor has latched the mode of the drive and the speed of its wheel, or
zero while driving is forbidden, and has run on them. Supply voltage and reports are those of the
tick before: the duty that each motor drove in it and what it was given there as measured. The
charger is held off where the drive forbids charging, and no reply is ever found misaligned. -/
theorem bench_agrees (law : Regulator.Law) (board : δ) (turns : List Turn) :
    ∃ moments last, Act.run turnOn ⟨initial, Bench.initial law, board⟩ turns = .ok (moments, last) ∧
      moments.map Act.Moment.operation = turns ∧
      ∀ earlier m later, moments = earlier ++ m :: later → m.operation = .tick →
        Agrees (ticks earlier) m := by
  obtain ⟨moments, last, hr, ho, -, kept⟩ :=
    Act.run_keeps Coupled.turn turns [] _ (Coupled.start law board)
  refine ⟨moments, last, hr, ho, fun earlier m later split tick => ?_⟩
  obtain ⟨coupled, happens, -⟩ := kept earlier m later split
  obtain ⟨notices, round, after, ht, ticked⟩ := coupled.ticked
  rw [← tick] at ht
  rw [happens.eq ht, tick]
  exact coupled.agrees ticked

end Turns

/-- A motor drives the duty 60 from the first tick on. What is known of it is a tick old: nothing at
first, then the wheel at rest, then the wheel after its first quarter of the way. -/
example : (Act.run turnOn (⟨initial, Bench.initial .pid, LogBoard.initial⟩ : Rig Controller _ _)
    [.start, .apply ⟨.wheelVoltage, .none, 60, 0, -60, none⟩, .tick, .tick, .tick]).map
      (fun run => (run.1.drop 2).map fun m => m.after.core.drive.motorReport 0) =
    .ok [⟨0, 0, 0, 0⟩, ⟨60, 0, 2, 200⟩, ⟨60, 15, 8, 200⟩] := by
  decide +kernel

end Controller

end OmniDrive
