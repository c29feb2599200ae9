import OmniDrive.Proofs.Controller.Gating
import OmniDrive.Proofs.Drive.Watchdog
import OmniDrive.Proofs.Session.Staging

/-! What the health of a session says. It is good once any command has been decoded, as long as the
latest motion command that the controller heeded is less than fifty ticks old. -/
namespace OmniDrive

namespace Drive

variable {d : Drive} {ticks : Nat}

/-- A motion command that takes effect ends the silence, and no other command does. -/
theorem Waited.driven (h : d.Waited ticks) (f : Command) :
    (Controller.driven d f).Waited (if f.motorMode.IsMotion then 0 else ticks) := by
  have sound := Controller.sound_driven h.sound f
  obtain ⟨mode, light, m1, m2, m3, colours⟩ := f
  cases mode with
  | wheelSpace | xyThetaSpace => exact waited_zero sound rfl rfl nofun
  | wheelVoltage => exact waited_zero sound rfl rfl fun _ => ⟨_, rfl⟩
  | unknown => exact h.moves .halt
  | enableCharging =>
    have on : d.Moves (.switchCharging true) [] { d with chargingEnabled := true } :=
      .switch _ _ rfl rfl
    exact h.moves on
  | disableCharging =>
    have off : d.Moves (.switchCharging false) [] { d with chargingEnabled := false } :=
      .switch _ _ rfl rfl
    exact h.moves off
  | exit | enableVref | disableVref | enableAmp | disableAmp => exact h

theorem Waited.applied {c : Controller} (h : c.drive.Waited ticks)
    (open' : c.commandsDisabled = false) (f : Command) :
    (c.applied f).drive.Waited (if c.running && f.motorMode.IsMotion then 0 else ticks) := by
  rw [Controller.drive_applied, open']
  cases c.running with
  | false => exact h
  | true =>
    simp only [if_true, Bool.false_eq_true, false_and, if_false, Bool.true_and, decide_eq_true_eq]
    split
    · rename_i hx
      have still : ¬ f.motorMode.IsMotion := by
        rw [hx.1]
        exact id
      have off (d : Drive) : d.Moves (.switchDrive false) [] { d with driveEnabled := false } :=
        .switch _ _ rfl rfl
      rw [if_neg still]
      exact (h.moves .halt).moves (off _)
    · exact h.driven f

end Drive

namespace Session

open Decoder (Call completed)

/-- The command that a cycle applies. -/
def newest? (m : Moment) : Option Command := (decoded m).getLast?

/-- A cycle that applies a motion command while the controller is in charge. -/
def givesMotion (m : Moment) : Bool :=
  m.before.controller.running && (newest? m).any fun f => f.motorMode.IsMotion

/-- The ticks since the latest cycle that gave a motion command, its own tick included; all ticks if
there was no such cycle. -/
def ticksUnmoved (past : List Moment) : Nat :=
  past.foldl
    (fun ticks m => if givesMotion m then 1 else ticks + m.operation.isCycle.toNat) 0

theorem ticksUnmoved_append (past : List Moment) (m : Moment) :
    ticksUnmoved (past ++ [m]) =
      if givesMotion m then 1 else ticksUnmoved past + m.operation.isCycle.toNat := by
  simp only [ticksUnmoved, List.foldl_append, List.foldl_cons, List.foldl_nil]

/-- Some command has been decoded. -/
def commandedIn (past : List Moment) : Bool := past.any fun m => !(decoded m).isEmpty

/-- Some cycle has applied a confirmed exit. -/
def exitedIn (past : List Moment) : Bool :=
  past.any fun m => (newest? m).any fun f => f.IsConfirmedExit

theorem commandedIn_append (past : List Moment) (m : Moment) :
    commandedIn (past ++ [m]) = (commandedIn past || !(decoded m).isEmpty) := by
  simp [commandedIn]

theorem exitedIn_append (past : List Moment) (m : Moment) :
    exitedIn (past ++ [m]) = (exitedIn past || (newest? m).any fun f => f.IsConfirmedExit) := by
  simp [exitedIn]

/-- The health after a past: good while the host commands and its motion commands are young. -/
def verdict (past : List Moment) : Health :=
  if commandedIn past ∧ ticksUnmoved past < 50 then .ok else .cmdStale

theorem verdict_eq_ok_iff {past : List Moment} : verdict past = .ok ↔
    (∃ m ∈ past, decoded m ≠ []) ∧ ticksUnmoved past < 50 := by
  have hc : commandedIn past = true ↔ ∃ m ∈ past, decoded m ≠ [] := by
    simp [commandedIn]
  rw [← hc, verdict]
  split
  · rename_i good
    exact iff_of_true rfl good
  · rename_i bad
    exact iff_of_false nofun bad

theorem exitedIn_eq_false_iff {past : List Moment} : exitedIn past = false ↔
    ∀ m ∈ past, ∀ f ∈ newest? m, ¬ f.IsConfirmedExit := by
  simp [exitedIn, Option.any_eq_false]

/-- What a session knows of its past when it judges the host's health. -/
structure Judged (past : List Moment) (s : Session) : Prop where
  roomy : s.staged.length ≤ capacity
  free : s.controller.commandsDisabled = false
  running : s.controller.running = !exitedIn past
  commanded : s.commanded = commandedIn past
  waited : s.controller.drive.Waited (ticksUnmoved past)
  health : s.health = verdict past

variable {past : List Moment} {s : Session} {events : List Event}
  {result : Option (Round × Cycle)} {after : Session}

theorem Judged.start {c : Controller} (hd : c.drive.Waited 0) (hf : c.commandsDisabled = false) :
    ∃ events s, Session.start c = Act.done events s ∧ Judged [] s := by
  have on : c.drive.Moves (.switchDrive true) [] { c.drive with driveEnabled := true } :=
    .switch _ _ rfl rfl
  exact ⟨_, _, start_eq c,
    Nat.zero_le _, hf, rfl, rfl, hd.moves on, rfl⟩

/-- A moment that decodes nothing and ticks nothing leaves the verdict as it was. -/
theorem Judged.quiet (h : Judged past s) {m : Moment} (hm : m.operation.isCycle = false)
    {errors : ErrorLatch} {staged : List UInt8} (roomy : staged.length ≤ capacity) :
    Judged (past ++ [m]) { s with controller := { s.controller with errors }, staged } := by
  have none_decoded : decoded m = [] := by
    rw [decoded, hm]
    rfl
  have none_newest : newest? m = none := by
    rw [newest?, none_decoded]
    rfl
  have still : givesMotion m = false := by
    rw [givesMotion, none_newest]
    exact Bool.and_false _
  have ticks : ticksUnmoved (past ++ [m]) = ticksUnmoved past := by
    rw [ticksUnmoved_append, still, hm]
    rfl
  have command : commandedIn (past ++ [m]) = commandedIn past := by
    rw [commandedIn_append, none_decoded]
    exact Bool.or_false _
  have exit : exitedIn (past ++ [m]) = exitedIn past := by
    rw [exitedIn_append, none_newest]
    exact Bool.or_false _
  refine ⟨roomy, h.free, ?_, ?_, ?_, ?_⟩
  · rw [exit]
    exact h.running
  · rw [command]
    exact h.commanded
  · rw [ticks]
    exact h.waited
  · rw [verdict, command, ticks]
    exact h.health

theorem Judged.receive (h : Judged past s) {bytes : List UInt8}
    (hm : s.Moves (.receive bytes) events result after) :
    Judged (past ++ [⟨s, .receive bytes, events, result, after⟩]) after := by
  have roomy := hm.roomy h.roomy
  obtain ⟨errors, rfl⟩ := exists_of_receive hm
  exact h.quiet rfl roomy

section Cycle

variable {m : Moment} {call : Call} {decoder : Decoder} {command : Option Command}

/-- The command that a cycle applies is the one that its call of the decoder returns. -/
theorem newest?_cycle (hc : m.operation.isCycle = true)
    (hd : m.before.controller.decoder.decode m.before.staged =
      Act.done call.notices (decoder, call.decoded)) : newest? m = call.decoded.command := by
  obtain ⟨took, -, -⟩ := Decoder.Feed.took_of_decode hd
  obtain ⟨before, operation, events, result, after⟩ := m
  cases operation with
  | receive bytes => cases hc
  | cycle replies sensors monitorOk =>
    rw [newest?, decoded_cycle hd]
    exact (took.returned call List.mem_cons_self).symm

theorem isSome_newest? (m : Moment) : (newest? m).isSome = !(decoded m).isEmpty := by
  rw [newest?]
  cases decoded m with
  | nil => rfl
  | cons f more => exact List.getLast?_isSome.2 (List.cons_ne_nil f more)

theorem running_received_eq (c : Controller) (decoder : Decoder) (command : Option Command) :
    (c.received decoder command).running =
      (c.running && !command.any fun f => f.IsConfirmedExit) := by
  cases command with
  | none => exact (Bool.and_true _).symm
  | some f => exact Controller.running_applied_eq { c with decoder, commandRead := true } f

theorem commandsDisabled_received (c : Controller) (decoder : Decoder) (command : Option Command) :
    (c.received decoder command).commandsDisabled = c.commandsDisabled := by
  cases command with
  | none => rfl
  | some f => exact Controller.commandsDisabled_applied { c with decoder, commandRead := true } f

/-- The silence of the drive ends where a cycle gives a motion command. -/
theorem waited_received (decoder : Decoder) {ticks : Nat}
    (hw : m.before.controller.drive.Waited ticks)
    (hf : m.before.controller.commandsDisabled = false) (hn : newest? m = command) :
    (m.before.controller.received decoder command).drive.Waited
      (if givesMotion m then 0 else ticks) := by
  rw [givesMotion, hn]
  cases command with
  | none =>
    rw [Option.any_none, Bool.and_false]
    exact hw
  | some f =>
    rw [Controller.drive_received]
    exact hw.applied hf f

theorem Judged.cycle (h : Judged past s) {replies : Replies} {sensors : SensorReport}
    {monitorOk : Bool} (hm : s.Moves (.cycle replies sensors monitorOk) events result after) :
    Judged (past ++ [⟨s, .cycle replies sensors monitorOk, events, result, after⟩]) after := by
  have roomy := hm.roomy h.roomy
  cases hm with
  | cycle call decoder ramp decode tick =>
    generalize hm : (⟨s, .cycle replies sensors monitorOk, events, _, _⟩ : Moment) = m
    have hb : m.before = s := by rw [← hm]
    have hc : m.operation.isCycle = true := by rw [← hm]; rfl
    have hn : newest? m = call.decoded.command := newest?_cycle hc (hb ▸ decode)
    have hread : (s.controller.received decoder call.decoded.command).commandRead =
        !(decoded m).isEmpty := by
      rw [Controller.commandRead_received, ← hn, isSome_newest?]
    have waited := waited_received decoder (hb ▸ h.waited) (hb ▸ h.free) hn
    rw [hb] at waited
    have ticked := waited.ticked tick replies
    have ticks : (if givesMotion m then 0 else ticksUnmoved past) + 1 =
        ticksUnmoved (past ++ [m]) := by
      rw [ticksUnmoved_append, hc]
      split <;> rfl
    rw [ticks] at ticked
    refine ⟨roomy, ?free, ?running, ?commanded, ticked, ?health⟩
    case free => exact (commandsDisabled_received ..).trans h.free
    case running =>
      change (s.controller.received decoder call.decoded.command).running = _
      rw [running_received_eq, h.running, exitedIn_append, hn, Bool.not_or]
    case commanded =>
      change (s.commanded || (s.controller.received decoder call.decoded.command).commandRead) = _
      rw [hread, h.commanded, commandedIn_append]
    case health =>
      have young : (!((s.caught decoder call).controller.drive.ticked ramp).stale) =
          decide (ticksUnmoved (past ++ [m]) < 50) := by
        rw [Bool.eq_iff_iff, Bool.not_eq_true', ← Bool.not_eq_true, decide_eq_true_iff,
          ← Nat.not_le]
        exact not_congr ticked.stale
      change (if (s.commanded ||
          (s.controller.received decoder call.decoded.command).commandRead) &&
          !((s.caught decoder call).controller.drive.ticked ramp).stale then .ok
        else .cmdStale) = verdict (past ++ [m])
      rw [hread, h.commanded, ← commandedIn_append, young, verdict]
      simp only [Bool.and_eq_true, decide_eq_true_eq]

end Cycle

theorem Judged.step (past : List Moment) (s : Session) (operation : Operation)
    (h : Judged past s) : ∃ events result after,
      s.perform operation = Act.done events (after, result) ∧
        Judged (past ++ [⟨s, operation, events, result, after⟩]) after := by
  obtain ⟨events, result, after, he, hm⟩ := perform_moves h.waited.sound h.roomy operation
  refine ⟨events, result, after, he, ?_⟩
  cases operation with
  | receive bytes => exact h.receive hm
  | cycle replies sensors monitorOk => exact h.cycle hm

/-- Whatever is received, whenever cycles are made and whatever the bus answers: health is good
exactly if some command has been decoded and fewer than fifty ticks have run since the latest cycle
whose newest command was a motion command, on a controller that no cycle before has told to exit. -/
theorem health_ok_iff (operations : List Operation) :
    ∃ events s moments last, start Controller.initial = Act.done events s ∧
      Act.run perform s operations = .ok (moments, last) ∧
      moments.map Act.Moment.operation = operations ∧
      ∀ earlier m later, moments = earlier ++ m :: later →
        (m.after.health = .ok ↔
          (∃ n ∈ earlier ++ [m], decoded n ≠ []) ∧ ticksUnmoved (earlier ++ [m]) < 50) ∧
        (m.before.controller.running = true ↔
          ∀ n ∈ earlier, ∀ f ∈ newest? n, ¬ f.IsConfirmedExit) := by
  obtain ⟨events, s, hstart, h⟩ := Judged.start
    (c := Controller.initial) Drive.waited_initial rfl
  obtain ⟨moments, last, run, ho, -, hm⟩ := Act.run_keeps Judged.step operations [] s h
  refine ⟨events, s, moments, last, hstart, run, ho, fun earlier m later split => ?_⟩
  obtain ⟨before, -, after⟩ := hm earlier m later split
  rw [List.nil_append] at before after
  constructor
  · rw [after.health, verdict_eq_ok_iff]
  · rw [before.running, Bool.not_eq_true', exitedIn_eq_false_iff]

end Session

end OmniDrive
