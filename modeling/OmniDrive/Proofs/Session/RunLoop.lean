import OmniDrive.Proofs.Controller.Gradual
import OmniDrive.Proofs.Motor.ZeroCommand
import OmniDrive.Proofs.Session.OnBench
import OmniDrive.Proofs.Session.Staging

/-! The loop over the periods of a session. It ends behind the first cycle whose newest command is a
confirmed exit: the exit is obeyed before the tick of its own cycle, so that cycle still stops the
motors and still reports. -/
namespace OmniDrive

namespace Controller

variable {c : Controller}

theorem received_exit (hr : c.running = true) (decoder : Decoder) {f : Command}
    (hf : f.IsConfirmedExit) :
    c.received decoder (some f) = stopped { c with decoder, commandRead := true } := by
  change (if c.running = true then _ else _) = _
  rw [if_pos hr, if_pos hf]

/-- No command but a confirmed exit forbids driving. -/
theorem driveEnabled_received (decoder : Decoder) {command : Option Command}
    (h : ∀ f ∈ command, ¬ f.IsConfirmedExit) :
    (c.received decoder command).drive.driveEnabled = c.drive.driveEnabled := by
  cases command with
  | none => rfl
  | some f =>
    rw [drive_received, drive_applied, if_neg (h f rfl)]
    split
    · split
      · rfl
      · exact driveEnabled_driven c.drive f
    · rfl

end Controller

theorem BridgeDriver.IsOff.netDuty_eq_zero {d : BridgeDriver} (h : d.IsOff) :
    d.bridge.netDuty = 0 := by
  unfold Bridge.netDuty
  rw [h.1, h.2]
  split
  · rfl
  · rfl

/-- A duty of zero leaves an axle without any. -/
theorem Bench.Axle.Exchanged.netDuty_eq_zero {a after : Bench.Axle}
    (h : a.Exchanged after .voltage 0) : after.netDuty = 0 := by
  obtain ⟨regulator, wanted, request, driver⟩ := h.driven
  obtain rfl : wanted = 0 := (Prod.mk.inj (Except.ok.inj request)).2.symm
  unfold Bench.Axle.netDuty
  rw [driver]
  exact (BridgeDriver.drive_zero _).2.netDuty_eq_zero

namespace Session

open Decoder (Call Feed completed)

/-- The bytes kept when more arrive: those that fit behind the ones that no command has used up. -/
def keep (heard arrived : List UInt8) : List UInt8 :=
  heard ++ arrived.take (capacity - (Decoder.fresh.phase.pass heard).rest.length)

/-- The bytes kept before an iteration of the loop. -/
def heardBefore (schedule : Nat → List UInt8) : Nat → List UInt8
  | 0 => []
  | n + 1 => keep (heardBefore schedule n) (schedule n)

/-- The newest of the commands that an iteration completes. -/
def newestAt (schedule : Nat → List UInt8) (n : Nat) : Option Command :=
  ((Command.allIn (heardBefore schedule (n + 1))).drop
    (Command.allIn (heardBefore schedule n)).length).getLast?

def ExitsAt (schedule : Nat → List UInt8) (n : Nat) : Prop :=
  ∃ f ∈ newestAt schedule n, f.IsConfirmedExit

/-- The decoder has gone through the bytes heard, up to the staged ones, and completed these
commands. -/
structure Hearing (heard : List UInt8) (commands : List Command) (s : Session) : Prop where
  limit : s.controller.decoder.limit = Decoder.usualLimit
  took : ∃ calls, Feed.Took ⟨Decoder.fresh, []⟩ heard calls ⟨s.controller.decoder, s.staged⟩ ∧
    (calls.flatMap fun call => completed call.notices) = commands

/-- The decoder has used up all it could of the bytes heard. -/
structure Attending (heard : List UInt8) (s : Session) : Prop
    extends Hearing heard (Command.allIn heard) s where
  drained : Feed.Drained ⟨s.controller.decoder, s.staged⟩

section Hearing

variable {heard bytes : List UInt8} {commands : List Command} {s after : Session} {call : Call}

theorem attending_opened : Attending [] (opened Controller.initial) where
  limit := rfl
  took := ⟨[], .nothing _, Command.allIn_nil.symm⟩
  drained := Nat.zero_lt_one

theorem Attending.rest_eq (h : Attending heard s) :
    (Decoder.fresh.phase.pass heard).rest = s.staged := by
  obtain ⟨calls, took, -⟩ := h.took
  have pass := took.pass []
  rw [List.append_nil, List.append_nil, Decoder.Phase.pass_of_short h.drained] at pass
  exact congrArg Decoder.Pass.rest pass

theorem Attending.receive (h : Attending heard s) {events : List Event}
    {result : Option (Round × Cycle)} (hm : s.Moves (.receive bytes) events result after) :
    Hearing (keep heard bytes) (Command.allIn heard) after := by
  obtain ⟨errors, rfl⟩ := exists_of_receive hm
  obtain ⟨calls, took, hc⟩ := h.took
  refine ⟨h.limit, calls, ?_, hc⟩
  have all := took.trans (.append _ (bytes.take s.room))
  rw [List.append_nil] at all
  rw [keep, h.rest_eq]
  exact all

/-- A cycle catches up with the bytes heard, and its newest command is the newest that they hold
beyond those completed before. -/
theorem Hearing.cycle (h : Hearing heard commands s) (roomy : s.staged.length ≤ capacity)
    (hd : s.controller.decoder.decode s.staged =
      Act.done call.notices (after.controller.decoder, call.decoded))
    (hst : after.staged = s.staged.drop call.decoded.consumed) :
    Attending heard after ∧
      call.decoded.command = ((Command.allIn heard).drop commands.length).getLast? := by
  obtain ⟨calls, before, hc⟩ := h.took
  obtain ⟨took, -, -⟩ := Feed.took_of_decode hd
  have drained := drained_of_decode h.limit roomy hd
  obtain ⟨all, found⟩ := before.catchUp rfl took drained
  have whole := all.completed_eq rfl drained
  rw [hc] at found
  rw [← hst] at all drained
  refine ⟨⟨⟨took.limit.trans h.limit, _, all, whole⟩, drained⟩, ?_⟩
  rw [took.returned call List.mem_cons_self, ← found, List.drop_left]

end Hearing

section Cycled

variable {δ : Type} [Board δ] {r after : Rig Session Bench δ} {replies : Replies} {round : Round}
  {cycle : Cycle} {call : Call} {decoder : Decoder} {ramp : Ramp}
  (h : Cycled r after replies round cycle call decoder ramp)
include h

/-- A confirmed exit is obeyed before the packets of its cycle are made. -/
theorem Cycled.obeys {f : Command} (hr : r.core.controller.running = true)
    (hc : call.decoded.command = some f) (hf : f.IsConfirmedExit) :
    after.core.isRunning = false ∧ after.core.controller.drive.driveEnabled = false ∧
      (r.core.sending decoder call ramp).mode = .voltage ∧
      ∀ i, (r.core.sending decoder call ramp).asks i = 0 := by
  have stopped := Controller.received_exit hr decoder hf
  rw [← hc] at stopped
  have still : (r.core.sending decoder call ramp).driveEnabled = false :=
    (Drive.driveEnabled_watched _).trans (congrArg (·.drive.driveEnabled) stopped)
  refine ⟨?_, ?_, ?_, Drive.asks_eq_zero still⟩
  · rw [h.isRunning_eq, stopped]
    rfl
  · rw [h.driveEnabled_eq, stopped]
    rfl
  · exact (Drive.mode_watched _).trans (congrArg (·.drive.mode) stopped)

/-- Without a confirmed exit the host stays in charge and driving stays allowed. -/
theorem Cycled.goes_on (hf : ∀ f ∈ call.decoded.command, ¬ f.IsConfirmedExit) :
    after.core.isRunning = r.core.controller.running ∧
      after.core.controller.drive.driveEnabled = r.core.controller.drive.driveEnabled :=
  ⟨h.isRunning_eq.trans (Controller.running_received decoder hf),
    h.driveEnabled_eq.trans (Controller.driveEnabled_received decoder hf)⟩

end Cycled

/-- What a frame tells about the iteration that sent it. -/
def Tells (schedule : Nat → List UInt8) (n : Nat) (frame : List UInt8) : Prop :=
  ∃ report, Telemetry.decode frame = .ok report ∧
    (ExitsAt schedule n → report.status.driveEnabled = false ∧ report.commandRead = true) ∧
    (¬ ExitsAt schedule n → report.status.driveEnabled = true)

/-- What is known of the rig before an iteration of the loop. -/
structure Looping (schedule : Nat → List UInt8) (n : Nat) (r : Rig Session Bench LogBoard) :
    Prop where
  benched : Benched r
  attending : Attending (heardBefore schedule n) r.core
  running : r.core.controller.running = true
  enabled : r.core.controller.drive.driveEnabled = true

variable {schedule : Nat → List UInt8} {n : Nat} {r : Rig Session Bench LogBoard}

theorem Looping.start (law : Regulator.Law) (schedule : Nat → List UInt8) : ∃ notices r,
    onBench law = Act.done notices r ∧ Looping schedule 0 r := by
  obtain ⟨notices, board, hr, benched⟩ := Benched.start law LogBoard.initial
  exact ⟨notices, _, hr, benched, attending_opened, rfl, rfl⟩

/-- What an iteration does: it obeys an exit before its tick and goes on otherwise. -/
theorem Looping.iterate (h : Looping schedule n r) : ∃ first staged later after round cycle,
    stageOn r (schedule n) = Act.done first staged ∧
      cycleOn staged = Act.done later (after, round, cycle) ∧ Tells schedule n cycle.frame ∧
      (ExitsAt schedule n →
        after.core.isRunning = false ∧ ∀ i, (after.bus.axles.get i).netDuty = 0) ∧
      (¬ ExitsAt schedule n →
        after.core.isRunning = true ∧ Looping schedule (n + 1) after) := by
  obtain ⟨first, events, core, board, hs, moves, benched⟩ := h.benched.receive (schedule n)
  have hearing := h.attending.receive moves
  obtain ⟨later, after, replies, round, cycle, call, decoder, ramp, hc, cycled, kept, exchanged⟩ :=
    benched.cycle
  obtain ⟨attending, newest⟩ := hearing.cycle benched.roomy
    (cycled.decoder_eq ▸ cycled.decode) cycled.staged_eq
  change call.decoded.command = newestAt schedule n at newest
  obtain ⟨report, decoded, enabled, read⟩ := cycled.decode_frame
  -- staging changes neither who is in charge nor whether driving is allowed
  have running : core.controller.running = true ∧ core.controller.drive.driveEnabled = true := by
    obtain ⟨errors, rfl⟩ := exists_of_receive moves
    exact ⟨h.running, h.enabled⟩
  refine ⟨first, _, later, after, round, cycle, hs, hc, ?_⟩
  by_cases hx : ExitsAt schedule n
  · obtain ⟨f, hf, confirmed⟩ := id hx
    have command : call.decoded.command = some f := newest.trans hf
    obtain ⟨stopped, still, mode, zero⟩ := cycled.obeys running.1 command confirmed
    rw [command] at read
    refine ⟨⟨report, decoded, fun _ => ⟨enabled.trans still, read⟩, fun no => absurd hx no⟩,
      fun _ => ⟨stopped, fun i => ?_⟩, fun no => absurd hx no⟩
    have off := exchanged i
    rw [mode, zero] at off
    exact off.netDuty_eq_zero
  · have harmless : ∀ f ∈ call.decoded.command, ¬ f.IsConfirmedExit := by
      intro f hf confirmed
      rw [newest] at hf
      exact hx ⟨f, hf, confirmed⟩
    obtain ⟨on, driving⟩ := cycled.goes_on harmless
    rw [running.1] at on
    rw [running.2] at driving
    exact ⟨⟨report, decoded, fun yes => absurd yes hx, fun _ => enabled.trans driving⟩,
      fun yes => absurd yes hx, fun _ => ⟨on, kept, attending, on, driving⟩⟩

/-- How a run of so many iterations, the first of them numbered `first`, ends. -/
structure Ends (schedule : Nat → List UInt8) (first count : Nat) (run : Run Bench LogBoard) :
    Prop where
  atExit : ∀ k < count, ExitsAt schedule (first + k) →
    (∀ j < k, ¬ ExitsAt schedule (first + j)) →
      run.exited = true ∧ run.frames.length = k + 1 ∧
        ∀ i, (run.rig.bus.axles.get i).netDuty = 0
  without : (∀ k < count, ¬ ExitsAt schedule (first + k)) →
    run.exited = false ∧ run.frames.length = count
  frames : ∀ k frame, run.frames[k]? = some frame → Tells schedule (first + k) frame

section Ends

variable {first count : Nat} {frame : List UInt8} {run : Run Bench LogBoard}

theorem Ends.over (schedule : Nat → List UInt8) (first : Nat) (r : Rig Session Bench LogBoard) :
    Ends schedule first 0 ⟨r, [], false⟩ where
  atExit := fun k hk => absurd hk (Nat.not_lt_zero k)
  without := fun _ => ⟨rfl, rfl⟩
  frames := nofun

theorem Ends.exit (hx : ExitsAt schedule first) (ht : Tells schedule first frame)
    (off : ∀ i, (r.bus.axles.get i).netDuty = 0) (count : Nat) :
    Ends schedule first (count + 1) ⟨r, [frame], true⟩ where
  atExit := by
    intro k _ _ before
    cases k with
    | zero => exact ⟨rfl, rfl, off⟩
    | succ k => exact absurd hx (before 0 (Nat.succ_pos k))
  without := fun none => absurd hx (none 0 (Nat.succ_pos count))
  frames := by
    intro k told h
    cases k with
    | zero =>
      obtain rfl : frame = told := Option.some.inj h
      exact ht
    | succ k => cases h

theorem Ends.goOn (hx : ¬ ExitsAt schedule first) (ht : Tells schedule first frame)
    (h : Ends schedule (first + 1) count run) :
    Ends schedule first (count + 1) { run with frames := frame :: run.frames } := by
  have later (k : Nat) : first + (k + 1) = first + 1 + k := Nat.add_right_comm first k 1
  refine ⟨?atExit, ?without, ?frames⟩
  case atExit =>
    intro k hk hexit before
    cases k with
    | zero => exact absurd hexit hx
    | succ k =>
      rw [later] at hexit
      obtain ⟨exited, length, off⟩ := h.atExit k (Nat.lt_of_succ_lt_succ hk) hexit fun j hj =>
        later j ▸ before (j + 1) (Nat.succ_lt_succ hj)
      exact ⟨exited, congrArg Nat.succ length, off⟩
  case without =>
    intro none
    obtain ⟨exited, length⟩ := h.without fun k hk => later k ▸ none (k + 1) (Nat.succ_lt_succ hk)
    exact ⟨exited, congrArg Nat.succ length⟩
  case frames =>
    intro k told hk
    cases k with
    | zero =>
      obtain rfl : frame = told := Option.some.inj hk
      exact ht
    | succ k =>
      rw [later]
      exact h.frames k told hk

end Ends

section Unfold

variable {arrived : List UInt8} {later : List (List UInt8)}
  {staged after : Rig Session Bench LogBoard} {first second third : List Notice} {round : Round}
  {cycle : Cycle} {run : Run Bench LogBoard}

theorem runOn_of_stopped (hs : stageOn r arrived = Act.done first staged)
    (hc : cycleOn staged = Act.done second (after, round, cycle))
    (stopped : after.core.isRunning = false) :
    runOn r (arrived :: later) =
      Act.done (first ++ (second ++ [])) ⟨after, [cycle.frame], true⟩ := by
  rw [runOn]
  exact Act.bind_eq_done hs (Act.bind_eq_done hc (if_neg (Bool.eq_false_iff.1 stopped)))

theorem runOn_of_running (hs : stageOn r arrived = Act.done first staged)
    (hc : cycleOn staged = Act.done second (after, round, cycle))
    (on : after.core.isRunning = true) (hr : runOn after later = Act.done third run) :
    runOn r (arrived :: later) = Act.done (first ++ (second ++ third))
      { run with frames := cycle.frame :: run.frames } := by
  rw [runOn]
  exact Act.bind_eq_done hs
    (Act.bind_eq_done hc ((if_pos on).trans (Act.bind_pure_eq_done hr _)))

end Unfold

/-- Every run of the loop completes and ends as it should. -/
theorem Looping.run (count : Nat) (h : Looping schedule n r) : ∃ notices run,
    runOn r ((List.range' n count).map schedule) = Act.done notices run ∧
      Ends schedule n count run := by
  induction count generalizing n r with
  | zero => exact ⟨[], _, rfl, .over schedule n r⟩
  | succ count ih =>
    obtain ⟨first, staged, later, after, round, cycle, hs, hc, tells, exits, goes⟩ := h.iterate
    rw [List.range'_succ, List.map_cons]
    by_cases hx : ExitsAt schedule n
    · obtain ⟨stopped, off⟩ := exits hx
      exact ⟨_, _, runOn_of_stopped hs hc stopped, .exit hx tells off count⟩
    · obtain ⟨on, next⟩ := goes hx
      obtain ⟨notices, run, hr, ends⟩ := ih next
      exact ⟨_, _, runOn_of_running hs hc on hr, .goOn hx tells ends⟩

/-- Whatever arrives in the periods of a run on the bench, with either law: the run ends with the
first iteration whose newest command is a confirmed exit, with all motors off, and goes through all
of its iterations if there is none. It sends one frame for each iteration, and each tells whether
the exit was obeyed in it. -/
theorem run_ends_with_exit (law : Regulator.Law) (schedule : Nat → List UInt8) (count : Nat) :
    ∃ notices run, benchRun law ((List.range count).map schedule) = Act.done notices run ∧
      (∀ n < count, ExitsAt schedule n → (∀ k < n, ¬ ExitsAt schedule k) →
        run.exited = true ∧ run.frames.length = n + 1 ∧
          ∀ i, (run.rig.bus.axles.get i).netDuty = 0) ∧
      ((∀ n < count, ¬ ExitsAt schedule n) → run.exited = false ∧ run.frames.length = count) ∧
      ∀ n frame, run.frames[n]? = some frame → ∃ report, Telemetry.decode frame = .ok report ∧
        (ExitsAt schedule n → report.status.driveEnabled = false ∧ report.commandRead = true) ∧
        (¬ ExitsAt schedule n → report.status.driveEnabled = true) := by
  obtain ⟨notices, r, hr, looping⟩ := Looping.start law schedule
  obtain ⟨more, run, hrun, ends⟩ := looping.run count
  rw [← List.range_eq_range'] at hrun
  refine ⟨_, run, Act.bind_eq_done hr hrun, ?_, ?_, ?_⟩
  · simpa only [Nat.zero_add] using ends.atExit
  · simpa only [Nat.zero_add] using ends.without
  · intro n frame sent
    have tells := ends.frames n frame sent
    rwa [Nat.zero_add] at tells

/-- An exit that comes split, behind noise, ends the run with the iteration that completes it. -/
example : ExitsAt
    (fun n => if n = 0 then [0x11, 0xDE, 0xAD, 0xBE] else [0xEF, 0x68, 0, 0, 0, 0x2C]) 1 :=
  ⟨⟨.exit, .exit, 0, 0, 0, none⟩, by cbv, rfl, rfl⟩

end Session

end OmniDrive
