import Mathlib.Data.List.DropRight
import OmniDrive.Proofs.Session.Runs
import OmniDrive.Proofs.Telemetry.RoundTrip

/-! Which faults a cycle reports: bytes dropped since the cycle before it, and a misaligned reply in
its own tick. Its report clears the latch, so no fault is lost and none is reported again. -/
namespace OmniDrive.Session

/-- Some of the bytes that arrive are not staged. -/
def drops (m : Moment) : Bool :=
  m.after.staged.length < m.before.staged.length + m.operation.bytes.length

/-- Bytes have been dropped since the latest cycle. -/
def droppedSince (past : List Moment) : Bool :=
  (past.rtakeWhile fun m => !m.operation.isCycle).any drops

/-- The error word for bytes dropped and a reply misaligned. -/
def faults (dropped misaligned : Bool) : UInt32 :=
  (if dropped then 2 else 0) ||| (if misaligned then 1 else 0)

theorem droppedSince_cycle (past : List Moment) {m : Moment} (h : m.operation.isCycle = true) :
    droppedSince (past ++ [m]) = false := by
  simp [droppedSince, h]

theorem droppedSince_receive (past : List Moment) {m : Moment} (h : m.operation.isCycle = false) :
    droppedSince (past ++ [m]) = (droppedSince past || drops m) := by
  simp [droppedSince, h]

theorem set_overflow (dropped : Bool) :
    ErrorLatch.set ⟨faults dropped false⟩ ErrorLatch.receiveOverflow = ⟨faults true false⟩ := by
  cases dropped <;> rfl

theorem answered_errors {c : Controller} {dropped : Bool} (h : c.errors = ⟨faults dropped false⟩)
    (replies : Replies) :
    (c.answered replies).errors = ⟨faults dropped (replies.power.opening != 0x7D)⟩ := by
  unfold Controller.answered PowerReply.misalignment?
  dsimp only
  by_cases hp : replies.power.opening = Misalignment.padding
  · rw [if_pos hp, h, hp]
    rfl
  · have hm : (replies.power.opening != 0x7D) = true := bne_iff_ne.2 hp
    rw [if_neg hp, h, hm]
    cases dropped <;> rfl

theorem faults_lt (dropped misaligned : Bool) : (faults dropped misaligned).toNat < 2 ^ 24 := by
  cases dropped <;> cases misaligned <;> decide

/-- What a session keeps: between two cycles nothing but dropped bytes is latched. -/
structure Latching (past : List Moment) (s : Session) : Prop where
  sound : s.controller.drive.Sound
  roomy : s.staged.length ≤ capacity
  errors : s.controller.errors = ⟨faults (droppedSince past) false⟩

variable {past : List Moment} {s : Session} {events : List Event}
  {result : Option (Round × Cycle)} {after : Session}

theorem Latching.start {c : Controller} (hs : c.drive.Sound) :
    ∃ events s, Session.start c = Act.done events s ∧ Latching [] s := by
  refine ⟨_, _, start_eq c, ?_⟩
  exact ⟨⟨hs.onCourse, hs.inTime⟩, Nat.zero_le _, ErrorLatch.reset_eq_empty _⟩

/-- Receiving latches an overflow exactly if it drops bytes. -/
theorem errors_of_receive {bytes : List UInt8} (hm : s.Moves (.receive bytes) events result after) :
    after.controller.errors = if drops ⟨s, .receive bytes, events, result, after⟩ then
      s.controller.errors.set ErrorLatch.receiveOverflow else s.controller.errors := by
  cases hm with
  | receive fits =>
    have whole : ¬ (s.staged ++ bytes).length < s.staged.length + bytes.length := by
      rw [List.length_append]
      exact Nat.lt_irrefl _
    exact (if_neg fun h => whole (of_decide_eq_true h)).symm
  | overflow dropped =>
    have short : (s.staged ++ bytes.take s.room).length < s.staged.length + bytes.length := by
      rw [List.length_append, List.length_take, Nat.min_eq_left (Nat.le_of_lt dropped)]
      exact Nat.add_lt_add_left dropped _
    exact (if_pos (decide_eq_true short)).symm

theorem Latching.receive (h : Latching past s) {bytes : List UInt8}
    (hm : s.Moves (.receive bytes) events result after) :
    Latching (past ++ [⟨s, .receive bytes, events, result, after⟩]) after := by
  refine ⟨hm.sound h.sound, hm.roomy h.roomy, ?_⟩
  rw [droppedSince_receive past rfl, errors_of_receive hm, h.errors]
  cases drops ⟨s, .receive bytes, events, result, after⟩ with
  | true => rw [Bool.or_true, if_pos rfl, set_overflow]
  | false => rw [Bool.or_false, if_neg Bool.false_ne_true]

/-- What shows of a cycle that reports these faults. -/
structure Reports (m : Moment) (replies : Replies) (dropped : Bool) : Prop where
  reported : ∃ round cycle report, m.result = some (round, cycle) ∧
    cycle.report.errorFlags = faults dropped (replies.power.opening != 0x7D) ∧
    Telemetry.decode cycle.frame = .ok report ∧
    report.errorFlags = cycle.report.errorFlags
  cleared : m.after.controller.errors = .empty

theorem Latching.cycle (h : Latching past s) {replies : Replies} {sensors : SensorReport}
    {monitorOk : Bool} (hm : s.Moves (.cycle replies sensors monitorOk) events result after) :
    Latching (past ++ [⟨s, .cycle replies sensors monitorOk, events, result, after⟩]) after ∧
      Reports ⟨s, .cycle replies sensors monitorOk, events, result, after⟩ replies
        (droppedSince past) := by
  have sound := hm.sound h.sound
  have roomy := hm.roomy h.roomy
  cases hm with
  | cycle call decoder ramp =>
    have latched : ((s.caught decoder call).ticked ramp replies).controller.errors =
        ⟨faults (droppedSince past) (replies.power.opening != 0x7D)⟩ :=
      answered_errors ((Controller.errors_received ..).trans h.errors) replies
    have word : ((s.caught decoder call).ticked ramp replies).controller.errors.bits =
        faults (droppedSince past) (replies.power.opening != 0x7D) := congrArg _ latched
    have cleared := ErrorLatch.reset_eq_empty
      ((s.caught decoder call).ticked ramp replies).controller.errors
    refine ⟨⟨sound, roomy, ?_⟩, ?_, cleared⟩
    · rw [droppedSince_cycle past rfl]
      exact cleared
    · refine ⟨_, _, _, rfl, word, Telemetry.decode_encode_eq _, ?_⟩
      exact (Telemetry.and_flags_eq_self_iff _).2 (word ▸ faults_lt ..)

/-- The packets of a cycle are made before its replies are known. -/
theorem round_of_cycle (hs : s.controller.drive.Sound) {replies : Replies}
    {sensors : SensorReport} {monitorOk : Bool} {round : Round} {cycle : Cycle}
    (h : s.perform (.cycle replies sensors monitorOk) =
      Act.done events (after, some (round, cycle))) (others : Replies) :
    ∃ events after cycle, s.perform (.cycle others sensors monitorOk) =
      Act.done events (after, some (round, cycle)) := by
  obtain ⟨first, call, decoder, ramp, -, -, hb⟩ := beginCycle_done hs
  have sent (replies : Replies) : ∃ events after cycle,
      s.perform (.cycle replies sensors monitorOk) = Act.done events
        (after, some (((s.caught decoder call).controller.drive.ticked ramp).round, cycle)) := by
    obtain ⟨more, hf, -⟩ := Controller.finishTick_done
      { (s.caught decoder call).controller with
        drive := (s.caught decoder call).controller.drive.ticked ramp } replies
    exact ⟨_, _, _, Act.bind_eq_done hb (Act.bind_eq_done (Act.bind_pure_eq_done hf _) rfl)⟩
  obtain ⟨_, _, _, he⟩ := sent replies
  cases Except.ok.inj (h.symm.trans he)
  exact sent others

theorem Latching.step (past : List Moment) (s : Session) (operation : Operation)
    (h : Latching past s) : ∃ events result after,
      s.perform operation = Act.done events (after, result) ∧
        Latching (past ++ [⟨s, operation, events, result, after⟩]) after := by
  obtain ⟨events, result, after, he, hm⟩ := perform_moves h.sound h.roomy operation
  refine ⟨events, result, after, he, ?_⟩
  cases operation with
  | receive bytes => exact h.receive hm
  | cycle replies sensors monitorOk => exact (h.cycle hm).1

/-- Whatever is received and whenever cycles are made, each reports exactly the faults since the
cycle before it, its frame carries the same error word, and nothing stays latched behind it. What
the bus answers has no part in the packets that a cycle sends to the motors. -/
theorem faults_reported_once (operations : List Operation) :
    ∃ events s moments last, start Controller.initial = Act.done events s ∧
      Act.run perform s operations = .ok (moments, last) ∧
      moments.map Act.Moment.operation = operations ∧
      ∀ earlier m later, moments = earlier ++ m :: later →
        ∀ replies sensors monitorOk, m.operation = .cycle replies sensors monitorOk →
          Reports m replies (droppedSince earlier) ∧
          ∃ round cycle, m.result = some (round, cycle) ∧
            ∀ others, ∃ events after cycle, m.before.perform (.cycle others sensors monitorOk) =
              Act.done events (after, some (round, cycle)) := by
  obtain ⟨events, s, hstart, h⟩ := Latching.start (c := Controller.initial) Drive.sound_initial
  obtain ⟨moments, last, run, ho, -, hm⟩ := Act.run_keeps Latching.step operations [] s h
  refine ⟨events, s, moments, last, hstart, run, ho, ?_⟩
  intro earlier m later split replies sensors monitorOk hc
  obtain ⟨before, happens, -⟩ := hm earlier m later split
  have moves := moves_of_happens before.sound before.roomy happens
  obtain ⟨held, operation, shown, result, next⟩ := m
  cases hc
  have reports := (before.cycle moves).2
  obtain ⟨round, cycle, -, hr, -⟩ := reports.reported
  cases hr
  exact ⟨reports, round, cycle, rfl, round_of_cycle before.sound happens⟩

end OmniDrive.Session
