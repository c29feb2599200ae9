import OmniDrive.Controller.Basic
import OmniDrive.Proofs.Command.Feeding
import OmniDrive.Proofs.Drive.Operations
import OmniDrive.Proofs.Run

/-! Runs of a controller: any operations in any order, with any replies of the bus. Every operation
on a sound controller completes and leaves it sound, so every run completes. -/
namespace OmniDrive

namespace Controller

/-- What can be done with a controller; a tick comes with what the bus answers in it. -/
inductive Operation
  | start
  | stop
  | disableCommands
  | enableCommands
  | takeInput (bytes : List UInt8)
  | apply (command : Command)
  | tick (replies : Replies)
  | report (sensors : SensorReport) (monitorOk : Bool)
  | noteError (flags : UInt32)

/-- Carry out an operation; the second result is what was sent on the bus. -/
def perform (c : Controller) : Operation → Act Event (Controller × Option Round)
  | .start => do return (← c.start, none)
  | .stop => do return (← c.stop, none)
  | .disableCommands => return ({ c with commandsDisabled := true }, none)
  | .enableCommands => return ({ c with commandsDisabled := false }, none)
  | .takeInput bytes => do return ((← c.takeInput bytes).1, none)
  | .apply command => do return (← c.apply command, none)
  | .tick replies => do
    let (c, round) ← c.beginTick
    return (← c.finishTick replies, some round)
  | .report sensors monitorOk => return ((c.report sensors monitorOk).1, none)
  | .noteError flags => return (c.noteError flags, none)

/-- One operation of a run; its result is the packets that were sent. -/
abbrev Moment := Act.Moment Controller Operation Event (Option Round)

abbrev run (c : Controller) (operations : List Operation) :
    Except Fault (List Moment × Controller) := Act.run perform c operations

/-- The command that an operation applies, if it applies one. -/
def Moment.command? (m : Moment) : Option Command :=
  match m.operation with
  | .apply command => some command
  | .takeInput bytes =>
    match (m.before.decoder.decode bytes).outcome with
    | .ok (_, _, decoded) => decoded.command
    | .error _ => none
  | _ => none

/-- The drive after the motor mode of a command that is not ignored. -/
def driven (d : Drive) (command : Command) : Drive :=
  match command.motorMode with
  | .wheelSpace => { d.heard with mode := .velocity, ramp := d.aimed command.motion }
  | .xyThetaSpace =>
    let speeds := BodyVelocity.slowed
      (Gains.mounted.map (BodyVelocity.rawSpeed ⟨command.m1, command.m2, command.m3⟩))
    { d.heard with mode := .velocity, ramp := d.aimed (speeds.map Int8.ofInt) }
  | .wheelVoltage =>
    { d.heard with mode := .voltage, ramp := .steady (command.motion.map clampSpeed) }
  | .enableCharging => { d with chargingEnabled := true }
  | .disableCharging => { d with chargingEnabled := false }
  | .unknown _ => { d with mode := .voltage, ramp := .steady (Wheels.fill 0) }
  | _ => d

/-- The controller after the motor mode of a command that it does not ignore. -/
def obeyed (c : Controller) (command : Command) : Controller :=
  { c with drive := driven c.drive command }

def stopped (c : Controller) : Controller :=
  { c with
    drive := { c.drive with
      mode := .voltage, ramp := .steady (Wheels.fill 0), driveEnabled := false }
    running := false }

/-- The modes that are ignored while commands are disabled. -/
def Gated : MotorMode → Prop
  | .wheelSpace | .xyThetaSpace | .wheelVoltage | .disableCharging | .unknown _ => True
  | _ => False

instance : DecidablePred Gated := fun mode => by
  cases mode <;> first | exact .isTrue trivial | exact .isFalse id

def applied (c : Controller) (command : Command) : Controller :=
  if c.running then
    if command.IsConfirmedExit then c.stopped
    else if c.commandsDisabled ∧ Gated command.motorMode then c
    else c.obeyed command
  else c

/-- The calls on the board among events. -/
def calls (events : List Event) : List BoardCall :=
  events.filterMap fun
    | .board call => some call
    | .notice _ => none

theorem calls_append (first later : List Event) :
    calls (first ++ later) = calls first ++ calls later := List.filterMap_append ..

theorem calls_notices (notices : List Notice) : calls (notices.map .notice) = [] := by
  refine List.filterMap_eq_nil_iff.2 fun event h => ?_
  obtain ⟨notice, -, rfl⟩ := List.mem_map.1 h
  rfl

/-- What the motor mode of a command asks of the board. -/
def switches (command : Command) : List BoardCall :=
  match command.motorMode with
  | .exit => if command.IsConfirmedExit then [.lights .userInterface] else []
  | .enableVref => [.vref true]
  | .disableVref => [.vref false]
  | .enableAmp => [.amplifier true]
  | .disableAmp => [.amplifier false]
  | _ => []

/-- The lighting of a command. -/
def lighting (command : Command) : List BoardCall :=
  (LightPattern.ofCommand? command.lightMode command.colours).toList.map .lights

/-- What the board is asked to do when a command is applied. -/
def asked (c : Controller) (command : Command) : List BoardCall :=
  if c.running then switches command ++ if c.commandsDisabled then [] else lighting command
  else []

theorem withDrive_eq {c : Controller} {step : Drive → Act Notice Drive} {notices : List Notice}
    {drive : Drive} (h : step c.drive = Act.done notices drive) :
    c.withDrive step = Act.done (notices.map .notice) { c with drive } := by
  unfold withDrive
  rw [h]
  exact Act.bind_pure_eq_done (Act.mapEvents_done ..) _

theorem stop_eq (c : Controller) : c.stop = Act.done [.board (.lights .userInterface)] c.stopped := by
  unfold stop
  rw [withDrive_eq (Drive.halt_eq c.drive)]
  exact Act.bind_eq_done rfl (Act.bind_eq_done rfl rfl)

theorem start_eq (c : Controller) : c.start = Act.done [.board (.lights .machineInterface)]
    { c with
      errors := c.errors.reset
      drive := { c.drive with driveEnabled := true }
      running := true } :=
  Act.bind_eq_done rfl rfl

theorem unlessDisabled_done {c : Controller} {step : Act Event Controller} {events : List Event}
    {after : Controller} (h : step = Act.done events after) (hc : calls events = []) : ∃ events',
      c.unlessDisabled step = Act.done events' (if c.commandsDisabled then c else after) ∧
        calls events' = [] := by
  unfold unlessDisabled
  cases c.commandsDisabled
  · exact ⟨events, h, hc⟩
  · exact ⟨[], rfl, rfl⟩

theorem applyLights_done (command : Command) :
    ∃ events, applyLights command = Act.done events () ∧ calls events = lighting command := by
  unfold applyLights lighting
  cases LightPattern.ofCommand? command.lightMode command.colours with
  | some pattern => exact ⟨_, rfl, rfl⟩
  | none => exact ⟨_, rfl, rfl⟩

/-- A command in a gated mode is obeyed unless commands are disabled. -/
theorem applyMotor_gated {c : Controller} (h : c.drive.Sound) {command : Command}
    (hg : Gated command.motorMode) : ∃ events, c.applyMotor command =
      Act.done events (if c.commandsDisabled then c else c.obeyed command) ∧
        calls events = switches command := by
  obtain ⟨mode, light, m1, m2, m3, colours⟩ := command
  cases mode with
  | wheelSpace =>
    exact unlessDisabled_done (withDrive_eq (Drive.setVelocities_eq h.onCourse _))
      (calls_notices _)
  | xyThetaSpace =>
    have hd := (Drive.setBodyVelocity_eq c.drive ⟨m1, m2, m3⟩).trans
      (Drive.setVelocities_eq h.onCourse _)
    exact unlessDisabled_done (withDrive_eq hd) (calls_notices _)
  | wheelVoltage => exact unlessDisabled_done (withDrive_eq (Drive.setDuties_eq ..)) rfl
  | disableCharging => exact unlessDisabled_done rfl rfl
  | unknown byte =>
    exact unlessDisabled_done (Act.emit_bind _ _ (withDrive_eq (Drive.halt_eq c.drive))) rfl
  | exit | enableCharging | enableVref | disableVref | enableAmp | disableAmp => exact hg.elim

theorem applyMotor_free (c : Controller) {command : Command} (hg : ¬ Gated command.motorMode) :
    ∃ events, c.applyMotor command =
      Act.done events (if command.IsConfirmedExit then c.stopped else c.obeyed command) ∧
        calls events = switches command := by
  obtain ⟨mode, light, m1, m2, m3, colours⟩ := command
  cases mode with
  | exit =>
    by_cases hl : light = .exit
    · subst hl
      exact ⟨_, Act.emit_bind _ _ (stop_eq c), rfl⟩
    · have hx : ¬ Command.IsConfirmedExit ⟨.exit, light, m1, m2, m3, colours⟩ := fun hx => hl hx.2
      refine ⟨[], ?_, (if_neg hx).symm⟩
      rw [if_neg hx]
      exact if_neg hl
  | enableCharging | enableVref | disableVref | enableAmp | disableAmp =>
    rw [if_neg fun hx => nomatch hx.1]
    exact ⟨_, rfl, rfl⟩
  | wheelSpace | xyThetaSpace | wheelVoltage | disableCharging | unknown => exact (hg trivial).elim

theorem applyMotor_done {c : Controller} (h : c.drive.Sound) (command : Command) :
    ∃ events, c.applyMotor command = Act.done events
      (if command.IsConfirmedExit then c.stopped
        else if c.commandsDisabled ∧ Gated command.motorMode then c else c.obeyed command) ∧
      calls events = switches command := by
  by_cases hg : Gated command.motorMode
  · obtain ⟨events, he, hs⟩ := applyMotor_gated h hg
    refine ⟨events, ?_, hs⟩
    have hx : ¬ command.IsConfirmedExit := fun hx => by
      rw [hx.1] at hg
      exact hg
    rw [if_neg hx, he]
    cases c.commandsDisabled with
    | true => exact congrArg _ (if_pos ⟨rfl, hg⟩).symm
    | false => exact congrArg _ (if_neg (nofun)).symm
  · obtain ⟨events, he, hs⟩ := applyMotor_free c hg
    refine ⟨events, ?_, hs⟩
    rw [if_neg (c := c.commandsDisabled = true ∧ Gated command.motorMode) fun hx => hg hx.2, he]

theorem apply_done {c : Controller} (h : c.drive.Sound) (command : Command) :
    ∃ events, c.apply command = Act.done events (c.applied command) ∧
      calls events = c.asked command := by
  unfold apply applied asked
  cases c.running with
  | false => exact ⟨[], rfl, rfl⟩
  | true =>
    obtain ⟨motor, hm, hs⟩ := applyMotor_done h command
    obtain ⟨lights, hl, hp⟩ := applyLights_done command
    rw [if_pos rfl, if_pos rfl, if_pos rfl]
    cases hd : c.commandsDisabled with
    | false =>
      rw [hd] at hm
      refine ⟨_, Act.bind_eq_done hm (Act.bind_eq_done hl rfl), ?_⟩
      rw [calls_append, calls_append, hs, hp]
      exact congrArg (switches command ++ ·) (List.append_nil _)
    | true =>
      rw [hd] at hm
      refine ⟨_, Act.bind_eq_done hm rfl, ?_⟩
      rw [calls_append, hs]
      rfl

def answered (c : Controller) (replies : Replies) : Controller :=
  { c with
    drive := { c.drive with replies }
    errors := match replies.power.misalignment? with
      | none => c.errors
      | some _ => c.errors.set Misalignment.flag }

/-- What a tick asks of the board. -/
def shown (replies : Replies) : List BoardCall :=
  if replies.power.isCharging then [.lights .chargeStatus] else []

theorem chargeStatus_done (charging : Bool) (after : Controller) : ∃ events,
    (do if charging then call (.lights .chargeStatus)
        return after) = Act.done events after ∧
      calls events = if charging then [.lights .chargeStatus] else [] := by
  cases charging with
  | false => exact ⟨_, rfl, rfl⟩
  | true => exact ⟨_, Act.emit_bind _ _ rfl, rfl⟩

theorem finishTick_done (c : Controller) (replies : Replies) :
    ∃ events, c.finishTick replies = Act.done events (c.answered replies) ∧
      calls events = shown replies := by
  unfold finishTick answered Drive.finishTick
  dsimp only
  cases replies.power.misalignment? with
  | none =>
    obtain ⟨events, h, hc⟩ := chargeStatus_done _ _
    exact ⟨events, (Act.silent_bind ..).trans h, hc⟩
  | some m =>
    obtain ⟨events, h, hc⟩ := chargeStatus_done _ _
    exact ⟨_, Act.emit_bind _ _ ((Act.silent_bind ..).trans h), hc⟩

/-- Whether and how a command moves the drive depends on no other part of the controller. -/
theorem drive_applied (c : Controller) (command : Command) :
    (c.applied command).drive =
      if c.running then
        if command.IsConfirmedExit then c.stopped.drive
        else if c.commandsDisabled ∧ Gated command.motorMode then c.drive
        else driven c.drive command
      else c.drive := by
  unfold applied
  split
  · split
    · rfl
    · split
      · rfl
      · rfl
  · rfl

theorem sound_driven {d : Drive} (h : d.Sound) (command : Command) : (driven d command).Sound := by
  obtain ⟨mode, light, m1, m2, m3, colours⟩ := command
  cases mode with
  | wheelSpace | xyThetaSpace =>
    exact ⟨Drive.onCourse_aimed h.onCourse _, Nat.zero_lt_succ _⟩
  | wheelVoltage =>
    exact ⟨.steady (inLimit_map_clampSpeed _), Nat.zero_lt_succ _⟩
  | unknown => exact ⟨Drive.onCourse_still, h.inTime⟩
  | exit | enableVref | disableVref | enableAmp | disableAmp => exact h
  | enableCharging | disableCharging => exact ⟨h.onCourse, h.inTime⟩

theorem sound_applied {c : Controller} (h : c.drive.Sound) (command : Command) :
    (c.applied command).drive.Sound := by
  rw [drive_applied]
  split
  · split
    · exact ⟨Drive.onCourse_still, h.inTime⟩
    · split
      · exact h
      · exact sound_driven h command
  · exact h

/-- The first half of a tick moves the drive and nothing else. -/
theorem beginTick_done {c : Controller} (h : c.drive.Sound) : ∃ ramp,
    c.drive.watched.ramp.tick = .ok ramp ∧
      c.beginTick = Act.done (c.drive.watchNotices.map .notice)
        ({ c with drive := c.drive.ticked ramp }, (c.drive.ticked ramp).round) := by
  obtain ⟨ramp, hr, hb⟩ := Drive.beginTick_eq h
  refine ⟨ramp, hr, ?_⟩
  unfold beginTick
  rw [hb]
  exact Act.bind_pure_eq_done (Act.mapEvents_done ..) _

/-- What an operation does to the drive and to the bus. -/
inductive Moment.Moves (m : Moment) : Prop
  | tick (replies : Replies) (ramp : Ramp) : m.operation = .tick replies →
    m.before.drive.watched.ramp.tick = .ok ramp →
    m.result = some (m.before.drive.ticked ramp).round →
    m.after.drive = { m.before.drive.ticked ramp with replies } → Moves m
  | stop : m.operation = .stop → m.result = none → m.after.drive = m.before.stopped.drive → Moves m
  | start : m.operation = .start → m.result = none →
    m.after.drive = { m.before.drive with driveEnabled := true } → Moves m
  | command (f : Command) : m.command? = some f → m.result = none →
    m.after.drive = (m.before.applied f).drive → Moves m
  | other : m.operation ≠ .stop → (∀ replies, m.operation ≠ .tick replies) →
    m.command? = none → m.result = none → m.after.drive = m.before.drive → Moves m

/-- The controller after the newest command of some input, if it held one. -/
def received (c : Controller) (decoder : Decoder) : Option Command → Controller
  | none => { c with decoder, commandRead := false }
  | some command => { c with decoder, commandRead := true }.applied command

/-- The controller that has decoded some input and not applied anything yet. -/
def heard (c : Controller) (decoder : Decoder) (newest : Option Command) : Controller :=
  { c with decoder, commandRead := newest.isSome }

/-- Apply the newest command of some input, if it held one. -/
def obey (c : Controller) (newest : Option Command) : Act Event Controller :=
  newest.elim (pure c) c.apply

theorem obey_done {c : Controller} (h : c.drive.Sound) (decoder : Decoder)
    (newest : Option Command) : ∃ events,
      (c.heard decoder newest).obey newest = Act.done events (c.received decoder newest) ∧
      calls events = newest.elim [] c.asked := by
  cases newest with
  | none => exact ⟨[], rfl, rfl⟩
  | some command =>
    have sound : (c.heard decoder (some command)).drive.Sound := h
    exact apply_done sound command

/-- Taking input is decoding it and obeying its newest command. -/
theorem takeInput_eq {c after : Controller} {bytes : List UInt8} {notices : List Notice}
    {decoder : Decoder} {newest : Option Command} {taken : Nat} {events : List Event}
    (hd : c.decoder.decode bytes = Act.done notices (decoder, ⟨newest, taken⟩))
    (ho : (c.heard decoder newest).obey newest = Act.done events after) :
    c.takeInput bytes = Act.done (notices.map .notice ++ events) (after, taken) := by
  unfold takeInput
  rw [hd]
  cases newest with
  | none =>
    cases ho
    exact Act.bind_eq_done rfl rfl
  | some command => exact Act.bind_eq_done rfl (Act.bind_pure_eq_done ho _)

theorem takeInput_done {c : Controller} (h : c.drive.Sound) (bytes : List UInt8) :
    ∃ notices decoder command taken events,
      c.decoder.decode bytes = Act.done notices (decoder, ⟨command, taken⟩) ∧
      c.takeInput bytes = Act.done events (c.received decoder command, taken) ∧
      calls events = command.elim [] c.asked := by
  obtain ⟨notices, decoder, taken, hd, -⟩ := c.decoder.decode_done bytes
  obtain ⟨events, ho, hc⟩ := obey_done h decoder (Decoder.completed notices).getLast?
  refine ⟨notices, decoder, _, taken, _, hd, takeInput_eq hd ho, ?_⟩
  rw [calls_append, calls_notices, hc]
  rfl

theorem drive_received (c : Controller) (decoder : Decoder) (command : Command) :
    (c.received decoder (some command)).drive = (c.applied command).drive := by
  rw [drive_applied c]
  exact drive_applied { c with decoder, commandRead := true } command

theorem tick_done {c : Controller} (h : c.drive.Sound) (replies : Replies) :
    ∃ ramp events, c.drive.watched.ramp.tick = .ok ramp ∧
      c.perform (.tick replies) = Act.done events
        (answered { c with drive := c.drive.ticked ramp } replies,
          some (c.drive.ticked ramp).round) ∧
      calls events = shown replies := by
  obtain ⟨ramp, hr, ht⟩ := beginTick_done h
  obtain ⟨events, hf, hc⟩ := finishTick_done { c with drive := c.drive.ticked ramp } replies
  refine ⟨ramp, _, hr, Act.bind_eq_done ht (Act.bind_pure_eq_done hf _), ?_⟩
  rw [calls_append, calls_notices, hc]
  rfl

/-- Hands in a command or bytes that may hold some. -/
def Operation.IsInput : Operation → Prop
  | .takeInput _ | .apply _ => True
  | _ => False

/-- Touches the latched errors and nothing else. -/
def Operation.IsLatching : Operation → Prop
  | .report .. | .noteError _ => True
  | _ => False

/-- What an operation does to the controller, to the bus and to the board. -/
inductive Moment.Steps (m : Moment) : Prop
  | start : m.operation = .start → m.result = none →
    calls m.events = [.lights .machineInterface] →
    m.after = { m.before with
      errors := m.before.errors.reset
      drive := { m.before.drive with driveEnabled := true }
      running := true } → Steps m
  | stop : m.operation = .stop → m.result = none → calls m.events = [.lights .userInterface] →
    m.after = m.before.stopped → Steps m
  | gate (disabled : Bool) :
    m.operation = (if disabled then .disableCommands else .enableCommands) → m.result = none →
    calls m.events = [] → m.after = { m.before with commandsDisabled := disabled } → Steps m
  | input (decoder : Decoder) (commandRead : Bool) : m.operation.IsInput → m.result = none →
    calls m.events = m.command?.elim [] m.before.asked →
    m.after = m.command?.elim { m.before with decoder, commandRead }
      (applied { m.before with decoder, commandRead }) → Steps m
  | tick (replies : Replies) (ramp : Ramp) : m.operation = .tick replies →
    m.before.drive.watched.ramp.tick = .ok ramp →
    m.result = some (m.before.drive.ticked ramp).round → calls m.events = shown replies →
    m.after = answered { m.before with drive := m.before.drive.ticked ramp } replies → Steps m
  | latch (errors : ErrorLatch) : m.operation.IsLatching → m.result = none →
    calls m.events = [] → m.after = { m.before with errors } → Steps m

/-- Every operation on a controller with a sound drive completes. -/
theorem perform_steps {c : Controller} (h : c.drive.Sound) (operation : Operation) :
    ∃ events round after, c.perform operation = Act.done events (after, round) ∧
      Moment.Steps ⟨c, operation, events, round, after⟩ := by
  cases operation with
  | start => exact ⟨_, _, _, Act.bind_pure_eq_done (start_eq c) _, .start rfl rfl rfl rfl⟩
  | stop => exact ⟨_, _, _, Act.bind_pure_eq_done (stop_eq c) _, .stop rfl rfl rfl rfl⟩
  | disableCommands => exact ⟨_, _, _, rfl, .gate true rfl rfl rfl rfl⟩
  | enableCommands => exact ⟨_, _, _, rfl, .gate false rfl rfl rfl rfl⟩
  | report => exact ⟨_, _, _, rfl, .latch _ trivial rfl rfl rfl⟩
  | noteError => exact ⟨_, _, _, rfl, .latch _ trivial rfl rfl rfl⟩
  | apply command =>
    obtain ⟨events, ha, hc⟩ := apply_done h command
    exact ⟨_, _, _, Act.bind_pure_eq_done ha _, .input c.decoder c.commandRead trivial rfl hc rfl⟩
  | takeInput bytes =>
    obtain ⟨notices, decoder, command, taken, events, hd, ht, hc⟩ := takeInput_done h bytes
    have he : Moment.command? ⟨c, .takeInput bytes, events, none, c.received decoder command⟩ =
        command := by
      unfold Moment.command?
      dsimp only
      rw [hd]
      rfl
    refine ⟨_, _, _, Act.bind_pure_eq_done ht _, .input decoder command.isSome trivial rfl ?_ ?_⟩
    · exact hc.trans (congrArg (·.elim [] c.asked) he.symm)
    · rw [he]
      cases command with
      | none | some => rfl
  | tick replies =>
    obtain ⟨ramp, events, hr, ht, hc⟩ := tick_done h replies
    exact ⟨_, _, _, ht, .tick replies ramp rfl hr rfl hc rfl⟩

theorem Moment.Steps.moves {m : Moment} (h : m.Steps) : m.Moves := by
  obtain ⟨c, operation, events, round, after⟩ := m
  cases h with
  | start ho hr _ ha => exact .start ho hr (congrArg drive ha)
  | stop ho hr _ ha => exact .stop ho hr (congrArg drive ha)
  | tick replies ramp ho ht hr _ ha => exact .tick replies ramp ho ht hr (congrArg drive ha)
  | gate disabled ho hr _ ha =>
    have hd : after.drive = c.drive := (congrArg drive ha :)
    cases disabled with
    | true | false =>
      cases ho
      exact .other nofun nofun rfl hr hd
  | latch errors ho hr _ ha =>
    have hd : after.drive = c.drive := (congrArg drive ha :)
    cases operation with
    | report | noteError => exact .other nofun nofun rfl hr hd
    | _ => exact ho.elim
  | input decoder commandRead ho hr _ ha =>
    cases hc : command? ⟨c, operation, events, round, after⟩ with
    | none =>
      rw [hc] at ha
      have hd : after.drive = c.drive := (congrArg drive ha :)
      cases operation with
      | takeInput | apply => exact .other nofun nofun hc hr hd
      | _ => exact ho.elim
    | some f =>
      rw [hc] at ha
      have hd : after.drive = (applied { c with decoder, commandRead } f).drive :=
        (congrArg drive ha :)
      exact .command f hc hr (hd.trans ((drive_applied ..).trans (drive_applied c f).symm))

/-- No operation spoils the drive. -/
theorem Moment.Moves.sound {m : Moment} (h : m.before.drive.Sound) (hm : m.Moves) :
    m.after.drive.Sound := by
  cases hm with
  | tick replies ramp _ hr _ hd =>
    have ht := Drive.sound_ticked h hr
    rw [hd]
    exact ⟨ht.onCourse, ht.inTime⟩
  | stop _ _ hd =>
    rw [hd]
    exact ⟨Drive.onCourse_still, h.inTime⟩
  | start _ _ hd =>
    rw [hd]
    exact ⟨h.onCourse, h.inTime⟩
  | command f _ _ hd =>
    rw [hd]
    exact sound_applied h f
  | other _ _ _ _ hd =>
    rw [hd]
    exact h

theorem steps_of_happens {m : Moment} (h : m.before.drive.Sound) (hm : m.Happens perform) :
    m.Steps := by
  obtain ⟨events, round, after, hp, steps⟩ := perform_steps h m.operation
  rw [hm.eq hp]
  exact steps

/-- What every step keeps, every operation keeps, if that includes a sound drive. -/
theorem perform_keeps (Kept : List Moment → Controller → Prop)
    (sound : ∀ past c, Kept past c → c.drive.Sound)
    (step : ∀ past (m : Moment), Kept past m.before → m.Steps → Kept (past ++ [m]) m.after)
    (past : List Moment) (c : Controller) (operation : Operation) (h : Kept past c) :
    ∃ events round after, c.perform operation = Act.done events (after, round) ∧
      Kept (past ++ [⟨c, operation, events, round, after⟩]) after := by
  obtain ⟨events, round, after, hp, steps⟩ := perform_steps (sound past c h) operation
  exact ⟨events, round, after, hp, step past ⟨c, operation, events, round, after⟩ h steps⟩

/-- Two runs complete and match moment by moment, if any two operations that are alike keep the
controllers related. -/
theorem run_pairs {R : Controller → Controller → Prop} {Alike : Operation → Operation → Prop}
    {Matched : Moment → Moment → Prop}
    (step : ∀ m n : Moment, m.before.drive.Sound → n.before.drive.Sound → m.Happens perform →
      n.Happens perform → R m.before n.before → Alike m.operation n.operation →
        R m.after n.after ∧ Matched m n)
    {operations others : List Operation} (ha : List.Forall₂ Alike operations others)
    {c o : Controller} (hc : c.drive.Sound) (ho : o.drive.Sound) (h : R c o) :
    ∃ moments last moments' last', c.run operations = .ok (moments, last) ∧
      o.run others = .ok (moments', last') ∧ moments.map Act.Moment.operation = operations ∧
      moments'.map Act.Moment.operation = others ∧ List.Forall₂ Matched moments moments' := by
  refine Act.run_pairs (R := fun c o => (c.drive.Sound ∧ o.drive.Sound) ∧ R c o) ?_ ha
    ⟨⟨hc, ho⟩, h⟩
  rintro c o operation other ⟨⟨hc, ho⟩, h⟩ alike
  obtain ⟨events, round, after, hp, steps⟩ := perform_steps hc operation
  obtain ⟨events', round', after', hp', steps'⟩ := perform_steps ho other
  obtain ⟨related, matched⟩ := step ⟨c, operation, events, round, after⟩
    ⟨o, other, events', round', after'⟩ hc ho hp hp' h alike
  exact ⟨_, _, _, _, _, _, hp, hp',
    ⟨⟨steps.moves.sound hc, steps'.moves.sound ho⟩, related⟩, matched⟩

end Controller

end OmniDrive
