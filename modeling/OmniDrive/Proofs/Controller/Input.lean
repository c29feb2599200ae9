import OmniDrive.Proofs.Command.Damage
import OmniDrive.Proofs.Controller.Runs
import OmniDrive.Proofs.Run

/-! A controller that takes its input in pieces and gets ticks in between. It applies commands of
the stream only, so nothing but a confirmed exit among those can stop it. -/
namespace OmniDrive.Controller

open Decoder (Call Feed completed)

theorem running_applied (c : Controller) {command : Command} (h : ¬ command.IsConfirmedExit) :
    (c.applied command).running = c.running := by
  unfold applied
  split
  · split
    · rfl
    · rfl
  · rfl

/-- Only a confirmed exit hands back. -/
theorem running_applied_eq (c : Controller) (command : Command) :
    (c.applied command).running = (c.running && !decide command.IsConfirmedExit) := by
  by_cases hx : command.IsConfirmedExit
  · unfold applied
    cases hr : c.running with
    | false => simp [hr]
    | true => simp [hx, stopped]
  · simp [running_applied c hx, hx]

/-- A command touches the drive and who is in charge, nothing else. -/
theorem exists_applied_eq (c : Controller) (command : Command) :
    ∃ drive running, c.applied command = { c with drive, running } := by
  unfold applied
  split
  · split
    · exact ⟨_, _, rfl⟩
    · split
      · exact ⟨_, _, rfl⟩
      · exact ⟨_, _, rfl⟩
  · exact ⟨_, _, rfl⟩

/-- Taking input calls the decoder once and applies the last command that the call completed. -/
theorem takeInput_took {c : Controller} (h : c.drive.Sound) (held : List UInt8) :
    ∃ call decoder events,
      c.decoder.decode held = Act.done call.notices (decoder, call.decoded) ∧
      c.takeInput held =
        Act.done events (c.received decoder call.decoded.command, call.decoded.consumed) ∧
      Feed.Took ⟨c.decoder, held⟩ [] [call] ⟨decoder, held.drop call.decoded.consumed⟩ ∧
      call.decoded.consumed ≤ held.length ∧
      decoder.Ended call.decoded.consumed (held.drop call.decoded.consumed) := by
  obtain ⟨notices, decoder, command, taken, events, hd, ht, -⟩ := takeInput_done h held
  exact ⟨⟨notices, ⟨command, taken⟩⟩, decoder, events, hd, ht, Feed.took_of_decode hd⟩

variable {c : Controller}

theorem sound_received (h : c.drive.Sound) (decoder : Decoder) (command : Option Command) :
    (c.received decoder command).drive.Sound := by
  cases command with
  | none => exact h
  | some command =>
    rw [drive_received]
    exact sound_applied h command

theorem decoder_received (decoder : Decoder) (command : Option Command) :
    (c.received decoder command).decoder = decoder := by
  cases command with
  | none => rfl
  | some command =>
    obtain ⟨drive, running, h⟩ :=
      exists_applied_eq { c with decoder, commandRead := true } command
    rw [received, h]

theorem commandRead_received (decoder : Decoder) (command : Option Command) :
    (c.received decoder command).commandRead = command.isSome := by
  cases command with
  | none => rfl
  | some command =>
    obtain ⟨drive, running, h⟩ :=
      exists_applied_eq { c with decoder, commandRead := true } command
    rw [received, h]
    rfl

theorem errors_received (decoder : Decoder) (command : Option Command) :
    (c.received decoder command).errors = c.errors := by
  cases command with
  | none => rfl
  | some command =>
    obtain ⟨drive, running, h⟩ :=
      exists_applied_eq { c with decoder, commandRead := true } command
    rw [received, h]

theorem running_received (decoder : Decoder) {command : Option Command}
    (h : ∀ f ∈ command, ¬ f.IsConfirmedExit) :
    (c.received decoder command).running = c.running := by
  cases command with
  | none => rfl
  | some f => exact running_applied _ (h f rfl)

/-- A controller with the input that was handed in and not yet consumed. -/
structure Fed where
  controller : Controller
  held : List UInt8

namespace Fed

inductive Operation
  /-- Hand in what is held with a piece behind it, once. -/
  | piece (bytes : List UInt8)
  | tick (replies : Replies)

def Operation.bytes : Operation → List UInt8
  | piece bytes => bytes
  | tick _ => []

/-- Carry out an operation; the second result is what was sent on the bus. -/
def perform (f : Fed) : Operation → Act Event (Fed × Option Round)
  | .piece bytes => do
    let (controller, consumed) ← f.controller.takeInput (f.held ++ bytes)
    return (⟨controller, (f.held ++ bytes).drop consumed⟩, none)
  | .tick replies => do
    let (controller, round) ← f.controller.perform (.tick replies)
    return ({ f with controller }, round)

abbrev Moment := Act.Moment Fed Operation Event (Option Round)

/-- All that was handed in. -/
def stream (past : List Moment) : List UInt8 := past.flatMap fun m => m.operation.bytes

/-- What feeding keeps: what was handed in is passed up to the held bytes, and the controller runs
on as long as that is the front of `whole`. -/
structure Attends (d : Decoder) (whole : List UInt8) (past : List Moment) (f : Fed) : Prop where
  sound : f.controller.drive.Sound
  took : ∃ calls, Feed.Took ⟨d, []⟩ (stream past) calls ⟨f.controller.decoder, f.held⟩
  running : stream past <+: whole → f.controller.running = true

theorem stream_append (past : List Moment) (m : Moment) :
    stream (past ++ [m]) = stream past ++ m.operation.bytes := by
  rw [stream, List.flatMap_append, List.flatMap_singleton]
  rfl

theorem stream_prefix_append (front back : List Moment) :
    stream front <+: stream (front ++ back) := by
  rw [stream, stream, List.flatMap_append]
  exact List.prefix_append ..

variable {d : Decoder} {whole : List UInt8} {past : List Moment} {f : Fed}

theorem Attends.piece (hd : d.phase = .header 0)
    (hw : ∀ g ∈ Command.allIn whole, ¬ g.IsConfirmedExit) (h : Attends d whole past f)
    (bytes : List UInt8) : ∃ events round after,
      f.perform (.piece bytes) = Act.done events (after, round) ∧
        Attends d whole (past ++ [⟨f, .piece bytes, events, round, after⟩]) after := by
  obtain ⟨call, decoder, events, -, ht, took, -, -⟩ :=
    takeInput_took h.sound (f.held ++ bytes)
  obtain ⟨calls, before⟩ := h.took
  have all := (before.trans (.append _ bytes)).trans took
  rw [List.append_nil, List.append_nil] at all
  refine ⟨events ++ [], none, _, Act.bind_eq_done ht rfl, sound_received h.sound .., ?_, ?_⟩
  · refine ⟨calls ++ [call], ?_⟩
    rwa [stream_append, decoder_received]
  · intro hp
    rw [stream_append] at hp
    rw [running_received]
    · exact h.running ((List.prefix_append ..).trans hp)
    · intro g hg
      refine hw g ((all.completed_prefix hd hp).subset ?_)
      rw [took.returned call List.mem_cons_self] at hg
      exact List.mem_flatMap.2 ⟨call, List.mem_append_right _ List.mem_cons_self,
        List.mem_of_getLast? hg⟩

theorem Attends.tick (h : Attends d whole past f) (replies : Replies) : ∃ events round after,
    f.perform (.tick replies) = Act.done events (after, round) ∧
        Attends d whole (past ++ [⟨f, .tick replies, events, round, after⟩]) after := by
  obtain ⟨ramp, events, hr, ht, -⟩ := tick_done h.sound replies
  have sound := Drive.sound_ticked h.sound hr
  refine ⟨_, _, _, Act.bind_pure_eq_done ht _, ⟨sound.onCourse, sound.inTime⟩, ?_, ?_⟩
  · obtain ⟨calls, took⟩ := h.took
    refine ⟨calls, ?_⟩
    rw [stream_append]
    exact (List.append_nil (stream past)).symm ▸ took
  · intro hp
    rw [stream_append] at hp
    exact h.running ((List.prefix_append ..).trans hp)

theorem Attends.step (hd : d.phase = .header 0)
    (hw : ∀ g ∈ Command.allIn whole, ¬ g.IsConfirmedExit) (past : List Moment) (f : Fed)
    (operation : Operation) (h : Attends d whole past f) : ∃ events round after,
      f.perform operation = Act.done events (after, round) ∧
        Attends d whole (past ++ [⟨f, operation, events, round, after⟩]) after := by
  cases operation with
  | piece bytes => exact h.piece hd hw bytes
  | tick replies => exact h.tick replies

/-- A controller that is fed a stream without a confirmed exit completes and keeps running. -/
theorem run_attends (hd : d.phase = .header 0)
    (hw : ∀ g ∈ Command.allIn whole, ¬ g.IsConfirmedExit) (h : Attends d whole [] f)
    (operations : List Operation) (hp : operations.flatMap Operation.bytes <+: whole) :
    ∃ moments last, Act.run perform f operations = .ok (moments, last) ∧
      moments.map Act.Moment.operation = operations ∧ last.controller.running = true ∧
      ∀ m ∈ moments, m.before.controller.running = true ∧ m.after.controller.running = true := by
  obtain ⟨moments, last, run, ho, hl, hm⟩ := Act.run_keeps (Attends.step hd hw) operations [] f h
  have all : stream moments <+: whole := by
    have hs : stream moments = (moments.map Act.Moment.operation).flatMap Operation.bytes :=
      (List.flatMap_map ..).symm
    rwa [hs, ho]
  refine ⟨moments, last, run, ho, hl.running all, fun m mem => ?_⟩
  obtain ⟨earlier, later, rfl⟩ := List.append_of_mem mem
  obtain ⟨before, -, after⟩ := hm earlier m later rfl
  refine ⟨before.running ((stream_prefix_append ..).trans all), after.running ?_⟩
  rw [List.append_cons] at all
  exact (stream_prefix_append ..).trans all

end Fed

/-- However one byte of a stream of frames is damaged that speak of no exit, however the stream is
cut into pieces and wherever ticks come in between, a running controller keeps running. -/
theorem damaged_byte_never_stops (c : Controller) (hr : c.running = true)
    (hs : c.drive.Sound) (hd : c.decoder.phase = .header 0) (sent : List Command)
    (h : ∀ f ∈ sent, f.IsHarmless) (place : Nat) (value : UInt8) (operations : List Fed.Operation)
    (hp : operations.flatMap Fed.Operation.bytes <+:
      (sent.flatMap Command.encode).set place value) :
    ∃ moments last, Act.run Fed.perform ⟨c, []⟩ operations = .ok (moments, last) ∧
      moments.map Act.Moment.operation = operations ∧ last.controller.running = true ∧
      ∀ m ∈ moments, m.before.controller.running = true ∧ m.after.controller.running = true := by
  refine Fed.run_attends hd (fun g hg => ?_) ⟨hs, ⟨[], .nothing _⟩, fun _ => hr⟩ operations hp
  exact Command.not_exit_of_mem_allIn_set h place value hg

/-- The controller that the first start leaves. -/
def started : Controller :=
  { initial with
    errors := initial.errors.reset
    drive := { Drive.initial with driveEnabled := true }
    running := true }

/-- Seven frames with an exit's bytes and most of a header among their motion bytes. -/
def tempting : List Command :=
  ⟨.wheelSpace, .clear, -34, -83, -66, none⟩ ::
    List.replicate 6 ⟨.disableAmp, .busy, 0x68, 0x2C, 0x2C, none⟩

/-- The damaged lighting mode of the first frame announces colours, so the decoder takes up the
stream again in the middle of a frame. -/
theorem damaged_byte_never_stops_tempting :
    initial.start = Act.done [.board (.lights .machineInterface)] started ∧
    started.running = true ∧ started.drive.Sound ∧ started.decoder.phase = .header 0 ∧
      (∀ f ∈ tempting, f.IsHarmless) ∧
      ∃ moments last, Act.run Fed.perform ⟨started, []⟩
          [.piece (((tempting.flatMap Command.encode).set 8 0x07).take 20), .tick .initial,
            .piece (((tempting.flatMap Command.encode).set 8 0x07).drop 20)] = .ok (moments, last) ∧
        last.controller.running = true := by
  have hs : started.drive.Sound := ⟨Drive.sound_initial.onCourse, Drive.sound_initial.inTime⟩
  have h : ∀ f ∈ tempting, f.IsHarmless := by decide
  obtain ⟨moments, last, run, -, hl, -⟩ := damaged_byte_never_stops started rfl hs rfl tempting h 8
    0x07 [.piece (((tempting.flatMap Command.encode).set 8 0x07).take 20), .tick .initial,
      .piece (((tempting.flatMap Command.encode).set 8 0x07).drop 20)] <| by
    rw [List.flatMap_cons, List.flatMap_cons, List.flatMap_singleton]
    exact (List.take_append_drop 20 ((tempting.flatMap Command.encode).set 8 0x07)).symm ▸
      List.prefix_rfl
  exact ⟨start_eq initial, rfl, hs, rfl, h, moments, last, run, hl⟩

end OmniDrive.Controller
