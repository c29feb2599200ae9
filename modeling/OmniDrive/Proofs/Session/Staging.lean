import Mathlib.Data.List.DropRight
import OmniDrive.Proofs.Run
import OmniDrive.Proofs.Session.Runs

/-! What a session does with the bytes it has kept. Every cycle catches up with them: the staged
rest is too short for a command, all commands before it are decoded, and the newest is applied. -/
namespace OmniDrive.Session

open Decoder (Call Feed completed)

/-- The bytes that are kept: the longest front that fits of those received. -/
def kept (m : Moment) : List UInt8 := m.operation.bytes.take m.before.room

def input (past : List Moment) : List UInt8 := past.flatMap kept

/-- What was there to be read for the latest cycle. -/
def seen (past : List Moment) : List UInt8 :=
  input (past.rdropWhile fun m => !m.operation.isCycle)

/-- The number of bytes that were received since the latest cycle, dropped ones included. -/
def arrived (past : List Moment) : Nat :=
  ((past.rtakeWhile fun m => !m.operation.isCycle).flatMap fun m => m.operation.bytes).length

/-- The commands that the decoder completes in a cycle. -/
def decoded (m : Moment) : List Command :=
  if m.operation.isCycle then
    match (m.before.controller.decoder.decode m.before.staged).outcome with
    | .ok (notices, _) => completed notices
    | .error _ => []
  else []

variable {past : List Moment}

theorem input_append (past : List Moment) (m : Moment) :
    input (past ++ [m]) = input past ++ kept m := by
  rw [input, List.flatMap_append, List.flatMap_singleton]
  rfl

/-- A cycle keeps no bytes. -/
theorem input_append_cycle (past : List Moment) {m : Moment} (hm : m.operation.isCycle = true) :
    input (past ++ [m]) = input past := by
  have nothing : m.operation.bytes = [] := by
    cases ho : m.operation with
    | receive bytes =>
      rw [ho] at hm
      cases hm
    | cycle => rfl
  rw [input_append, kept, nothing, List.take_nil, List.append_nil]

theorem seen_append (past : List Moment) (m : Moment) :
    seen (past ++ [m]) = if m.operation.isCycle then input (past ++ [m]) else seen past := by
  unfold seen
  cases hc : m.operation.isCycle with
  | true => simp [hc]
  | false => simp [hc]

theorem arrived_append (past : List Moment) (m : Moment) :
    arrived (past ++ [m]) =
      if m.operation.isCycle then 0 else arrived past + m.operation.bytes.length := by
  unfold arrived
  cases hc : m.operation.isCycle with
  | true => simp [hc]
  | false => simp [hc]

theorem decoded_receive {m : Moment} {bytes : List UInt8} (ho : m.operation = .receive bytes) :
    decoded m = [] := by
  unfold decoded
  rw [ho]
  rfl

/-- What a session keeps whose decoder started as `d`: the bytes it has kept are passed up to the
staged ones, and the commands of those that the latest cycle could see are decoded. -/
structure Keeping (d : Decoder) (past : List Moment) (s : Session) : Prop where
  sound : s.controller.drive.Sound
  limit : s.controller.decoder.limit = Decoder.usualLimit
  roomy : s.staged.length ≤ capacity
  few : s.staged.length ≤ 47 + arrived past
  took : ∃ calls, Feed.Took ⟨d, []⟩ (input past) calls ⟨s.controller.decoder, s.staged⟩ ∧
    (calls.flatMap fun call => completed call.notices) = past.flatMap decoded
  caughtUp : past.flatMap decoded = Command.allIn (seen past)

variable {d : Decoder} {s : Session}

theorem Keeping.start {c : Controller} (hs : c.drive.Sound)
    (hl : c.decoder.limit = Decoder.usualLimit) : ∃ events s, Session.start c = Act.done events s ∧
      Keeping c.decoder [] s := by
  refine ⟨_, _, start_eq c, ?_⟩
  exact ⟨⟨hs.onCourse, hs.inTime⟩, hl, Nat.zero_le _, Nat.zero_le _,
    ⟨[], .nothing _, rfl⟩, (Command.allIn_nil).symm⟩

/-- What shows of receiving bytes, so many after the latest cycle. -/
structure Stages (m : Moment) (bytes : List UInt8) (since : Nat) : Prop where
  staged : m.after.staged = m.before.staged ++ bytes.take m.before.room
  /-- Between two cycles there is room for 977 bytes. -/
  whole : since + bytes.length ≤ 977 →
    m.after.staged = m.before.staged ++ bytes ∧ m.events = [] ∧
      m.after.controller = m.before.controller

/-- The last command of the bytes that a cycle sees, if they hold more commands than those that the
cycle before it saw. -/
def newest (before now : List UInt8) : Option Command :=
  if (Command.allIn before).length < (Command.allIn now).length then (Command.allIn now).getLast?
  else none

/-- Nothing is dropped of a few bytes. -/
theorem Stages.kept_eq {m : Moment} {bytes : List UInt8} {since : Nat} (h : Stages m bytes since)
    (ho : m.operation = .receive bytes) (few : since + bytes.length ≤ 977) : kept m = bytes := by
  obtain ⟨whole, -⟩ := h.whole few
  unfold kept
  rw [ho]
  exact (List.append_cancel_left (whole.symm.trans h.staged)).symm

/-- What shows of a cycle, by the bytes that the latest cycle before it could see and by those that
it sees itself. -/
structure CatchesUp (m : Moment) (replies : Replies) (sensors : SensorReport) (monitorOk : Bool)
    (before now : List UInt8) : Prop where
  short : m.after.staged.length < m.after.controller.decoder.phase.needed
  few : m.after.staged.length ≤ 47
  decoded : Command.allIn before ++ decoded m = Command.allIn now
  /-- The newest command is applied, nothing else is, and the cycle goes on from there. -/
  served : ∃ round cycle, m.result = some (round, cycle) ∧
    m.before.Serves replies sensors monitorOk (newest before now) m.events round cycle m.after ∧
    (cycle.report.commandRead = true ↔ (Command.allIn before).length < (Command.allIn now).length)
  asked : Controller.calls m.events =
    (newest before now).elim [] m.before.controller.asked ++ Controller.shown replies

/-- Receiving moves the input on by what is staged of it. -/
theorem Keeping.stage (h : Keeping d past s) {bytes : List UInt8} {events : List Event}
    {result : Option (Round × Cycle)} {after : Session}
    (hst : after.staged = s.staged ++ bytes.take s.room)
    (hd : after.controller.decoder = s.controller.decoder)
    (hr : after.controller.drive = s.controller.drive) :
    Keeping d (past ++ [⟨s, .receive bytes, events, result, after⟩]) after := by
  have hroom := h.roomy
  have hfew := h.few
  have hlen : (bytes.take s.room).length = min s.room bytes.length := List.length_take
  obtain ⟨calls, took, hc⟩ := h.took
  have all := took.trans (.append _ (bytes.take s.room))
  rw [List.append_nil] at all
  refine ⟨hr ▸ h.sound, hd ▸ h.limit, ?_, ?_, ⟨calls, ?_, ?_⟩, ?_⟩
  · rw [hst, List.length_append, hlen, room]
    omega
  · rw [hst, List.length_append, hlen, arrived_append]
    change _ ≤ 47 + (arrived past + bytes.length)
    omega
  · rw [input_append, hst, hd]
    exact all
  · rw [hc, List.flatMap_append, List.flatMap_singleton]
    exact (List.append_nil _).symm
  · rw [seen_append, List.flatMap_append, List.flatMap_singleton]
    exact (List.append_nil _).trans h.caughtUp

theorem Keeping.receive (h : Keeping d past s) {bytes : List UInt8} {events : List Event}
    {result : Option (Round × Cycle)} {after : Session}
    (hm : s.Moves (.receive bytes) events result after) :
    Keeping d (past ++ [⟨s, .receive bytes, events, result, after⟩]) after ∧
      Stages ⟨s, .receive bytes, events, result, after⟩ bytes (arrived past) := by
  cases hm with
  | receive fits =>
    have hst : s.staged ++ bytes = s.staged ++ bytes.take s.room := by
      rw [List.take_of_length_le fits]
    exact ⟨h.stage hst rfl rfl, hst, fun _ => ⟨rfl, rfl, rfl⟩⟩
  | overflow dropped =>
    refine ⟨h.stage rfl rfl rfl, rfl, fun hw => ?_⟩
    have hfew := h.few
    unfold room capacity at dropped
    omega

/-- A call of the decoder reads what is staged to where a whole command may be missing. Its limit
never stops it, since no more is staged than one call may consume. -/
theorem drained_of_decode (hl : s.controller.decoder.limit = Decoder.usualLimit)
    (hr : s.staged.length ≤ capacity) {call : Call} {decoder : Decoder}
    (hd : s.controller.decoder.decode s.staged = Act.done call.notices (decoder, call.decoded)) :
    Feed.Drained ⟨decoder, s.staged.drop call.decoded.consumed⟩ := by
  obtain ⟨took, hle, hend⟩ := Feed.took_of_decode hd
  rcases hend with short | stopped
  · exact short
  · have limit : decoder.limit = 1024 := took.limit.trans hl
    have room : s.staged.length ≤ 1024 := hr
    change (s.staged.drop call.decoded.consumed).length < decoder.phase.needed
    rw [List.length_drop]
    omega

theorem Keeping.drained (h : Keeping d past s) {call : Call} {decoder : Decoder}
    (hd : s.controller.decoder.decode s.staged = Act.done call.notices (decoder, call.decoded)) :
    Feed.Drained ⟨decoder, s.staged.drop call.decoded.consumed⟩ :=
  drained_of_decode h.limit h.roomy hd

theorem Keeping.length_rest_le (h : Keeping d past s) {call : Call} {decoder : Decoder}
    (hd : s.controller.decoder.decode s.staged = Act.done call.notices (decoder, call.decoded)) :
    (s.staged.drop call.decoded.consumed).length ≤ 47 :=
  Nat.le_of_lt_succ (Nat.lt_of_lt_of_le (h.drained hd) decoder.phase.needed_le)

theorem decoded_cycle {replies : Replies} {sensors : SensorReport} {monitorOk : Bool}
    {events : List Event} {result : Option (Round × Cycle)} {after : Session} {call : Call}
    {decoder : Decoder}
    (hd : s.controller.decoder.decode s.staged = Act.done call.notices (decoder, call.decoded)) :
    decoded ⟨s, .cycle replies sensors monitorOk, events, result, after⟩ =
      completed call.notices := by
  change (match (s.controller.decoder.decode s.staged).outcome with
    | .ok (notices, _) => completed notices
    | .error _ => []) = _
  rw [hd]
  rfl

/-- All commands of the input so far are decoded by the end of a cycle. -/
theorem Keeping.completed_all (h : Keeping d past s) (hp : d.phase = .header 0) {call : Call}
    {decoder : Decoder}
    (hd : s.controller.decoder.decode s.staged = Act.done call.notices (decoder, call.decoded)) :
    (∃ calls, Feed.Took ⟨d, []⟩ (input past) calls
        ⟨decoder, s.staged.drop call.decoded.consumed⟩ ∧
      (calls.flatMap fun call => completed call.notices) =
        past.flatMap decoded ++ completed call.notices) ∧
    past.flatMap decoded ++ completed call.notices = Command.allIn (input past) := by
  obtain ⟨took, -, -⟩ := Feed.took_of_decode hd
  obtain ⟨calls, before, hc⟩ := h.took
  obtain ⟨all, whole⟩ := before.catchUp hp took (h.drained hd)
  rw [hc] at whole
  refine ⟨⟨_, all, ?_⟩, whole⟩
  rw [List.flatMap_append, List.flatMap_singleton, hc]

/-- The newest command is the last of those that were not there before. -/
theorem newest_of_append {before now : List UInt8} {new : List Command}
    (h : Command.allIn before ++ new = Command.allIn now) : newest before now = new.getLast? := by
  unfold newest
  rw [← h]
  cases new with
  | nil =>
    rw [List.append_nil, if_neg (Nat.lt_irrefl _)]
    rfl
  | cons first more =>
    rw [if_pos (by rw [List.length_append, List.length_cons]; omega), List.getLast?_append,
      List.getLast?_eq_getLast_of_ne_nil (List.cons_ne_nil first more)]
    rfl

/-- A cycle that completes commands says so and applies the last of them. -/
theorem CatchesUp.serves {m : Moment} {replies : Replies} {sensors : SensorReport}
    {monitorOk : Bool} {before now : List UInt8} {new : List Command} {f : Command}
    (h : CatchesUp m replies sensors monitorOk before now)
    (hn : Session.decoded m = new ++ [f]) :
    ∃ round cycle, m.result = some (round, cycle) ∧ cycle.report.commandRead = true ∧
      m.before.Serves replies sensors monitorOk (some f) m.events round cycle m.after := by
  obtain ⟨round, cycle, hr, serves, read⟩ := h.served
  rw [newest_of_append h.decoded, hn, List.getLast?_concat] at serves
  refine ⟨round, cycle, hr, read.2 ?_, serves⟩
  rw [← h.decoded, hn, List.length_append, List.length_append, List.length_singleton]
  omega

section Cycle

variable {replies : Replies} {sensors : SensorReport} {monitorOk : Bool} {events : List Event}
  {result : Option (Round × Cycle)} {after : Session} {call : Call}

/-- A cycle keeps what is kept, with all of the input seen. -/
theorem Keeping.caught (h : Keeping d past s) (hp : d.phase = .header 0)
    (hd : s.controller.decoder.decode s.staged =
      Act.done call.notices (after.controller.decoder, call.decoded))
    (hst : after.staged = s.staged.drop call.decoded.consumed)
    (hs : after.controller.drive.Sound) :
    Keeping d (past ++ [⟨s, .cycle replies sensors monitorOk, events, result, after⟩]) after := by
  obtain ⟨took, -, -⟩ := Feed.took_of_decode hd
  obtain ⟨⟨calls, all, hc⟩, hall⟩ := h.completed_all hp hd
  have few := h.length_rest_le hd
  have hi : input (past ++ [⟨s, .cycle replies sensors monitorOk, events, result, after⟩]) =
      input past := input_append_cycle past rfl
  have hn : List.flatMap decoded
      (past ++ [⟨s, .cycle replies sensors monitorOk, events, result, after⟩]) =
        past.flatMap decoded ++ completed call.notices := by
    rw [List.flatMap_append, List.flatMap_singleton, decoded_cycle hd]
  rw [← hst] at all few
  refine ⟨hs, took.limit.trans h.limit, ?_, ?_, ⟨calls, ?_, ?_⟩, ?_⟩
  · exact Nat.le_trans few (by decide)
  · exact Nat.le_trans few (Nat.le_add_right ..)
  · rwa [hi]
  · rw [hc, hn]
  · rw [hn, hall, seen_append]
    exact congrArg _ hi.symm

theorem Keeping.catchesUp (h : Keeping d past s) (hp : d.phase = .header 0)
    {found : Option Command} {round : Round} {cycle : Cycle}
    (hm : s.Serves replies sensors monitorOk found events round cycle after) :
    CatchesUp ⟨s, .cycle replies sensors monitorOk, events, some (round, cycle), after⟩ replies
      sensors monitorOk (seen past) (input past) := by
  obtain ⟨call, hd, rfl, hst, hr⟩ := hm.reads h.sound
  obtain ⟨took, -, -⟩ := Feed.took_of_decode hd
  obtain ⟨-, hall⟩ := h.completed_all hp hd
  rw [h.caughtUp] at hall
  have applied : call.decoded.command = newest (seen past) (input past) :=
    (took.returned call List.mem_cons_self).trans (newest_of_append hall).symm
  refine ⟨?short, ?few, ?decoded, ⟨round, cycle, rfl, applied ▸ hm, ?read⟩,
    applied ▸ hm.calls_eq h.sound⟩
  case short =>
    rw [hst]
    exact h.drained hd
  case few =>
    rw [hst]
    exact h.length_rest_le hd
  case decoded => rwa [decoded_cycle hd]
  case read =>
    rw [hr, took.returned call List.mem_cons_self, List.getLast?_isSome, ← hall,
      List.length_append, ← List.length_pos_iff]
    omega

end Cycle

theorem Keeping.cycle (h : Keeping d past s) (hp : d.phase = .header 0) {replies : Replies}
    {sensors : SensorReport} {monitorOk : Bool} {found : Option Command} {events : List Event}
    {round : Round} {cycle : Cycle} {after : Session}
    (hm : s.Serves replies sensors monitorOk found events round cycle after) :
    Keeping d (past ++ [⟨s, .cycle replies sensors monitorOk, events, some (round, cycle), after⟩])
      after := by
  obtain ⟨call, hd, -, hst, -⟩ := hm.reads h.sound
  exact h.caught hp hd hst ((hm.moves h.sound).sound h.sound)

theorem Keeping.step (hp : d.phase = .header 0) (past : List Moment) (s : Session)
    (operation : Operation) (h : Keeping d past s) : ∃ events result after,
      s.perform operation = Act.done events (after, result) ∧
        Keeping d (past ++ [⟨s, operation, events, result, after⟩]) after := by
  cases operation with
  | receive bytes =>
    obtain ⟨events, result, after, he, hm⟩ := perform_moves h.sound h.roomy (.receive bytes)
    exact ⟨events, result, after, he, (h.receive hm).1⟩
  | cycle replies sensors monitorOk =>
    obtain ⟨found, events, round, cycle, after, hm⟩ :=
      cycle_serves h.sound replies sensors monitorOk
    exact ⟨events, some (round, cycle), after, hm.perform_eq, h.cycle hp hm⟩

/-- Whatever is received and whenever cycles are made, no more is staged than there is room for,
every cycle leaves less than a command phase needs, and it decodes the commands of the bytes kept so
far that no cycle before it has decoded. It reports whether there were any, applies the last of them
and no other, and the packets, the report and the session that it ends in all follow from there. -/
theorem staging_keeps_up (c : Controller) (hs : c.drive.Sound) (hp : c.decoder.phase = .header 0)
    (hl : c.decoder.limit = Decoder.usualLimit) (operations : List Operation) :
    ∃ events s moments last, start c = Act.done events s ∧
      Act.run perform s operations = .ok (moments, last) ∧
      moments.map Act.Moment.operation = operations ∧ last.staged.length ≤ capacity ∧
      ∀ earlier m later, moments = earlier ++ m :: later →
        m.before.staged.length ≤ capacity ∧ m.after.staged.length ≤ capacity ∧
        (∀ bytes, m.operation = .receive bytes → Stages m bytes (arrived earlier)) ∧
        ∀ replies sensors monitorOk, m.operation = .cycle replies sensors monitorOk →
          (earlier ++ [m]).flatMap decoded = Command.allIn (input earlier) ∧
            CatchesUp m replies sensors monitorOk (seen earlier) (input earlier) := by
  obtain ⟨events, s, hstart, h⟩ := Keeping.start hs hl
  obtain ⟨moments, last, run, ho, hlast, hm⟩ := Act.run_keeps (Keeping.step hp) operations [] s h
  refine ⟨events, s, moments, last, hstart, run, ho, hlast.roomy, fun earlier m later split => ?_⟩
  obtain ⟨before, happens, after⟩ := hm earlier m later split
  refine ⟨before.roomy, after.roomy, ?_, ?_⟩
  · intro bytes hb
    have moves := moves_of_happens before.sound before.roomy happens
    obtain ⟨held, operation, shown, result, next⟩ := m
    cases hb
    exact (before.receive moves).2
  · intro replies sensors monitorOk hc
    obtain ⟨found, round, cycle, hr, serves⟩ := serves_of_happens before.sound happens hc
    obtain ⟨held, operation, shown, result, next⟩ := m
    cases hc
    cases hr
    have caught := before.catchesUp hp serves
    refine ⟨?_, caught⟩
    rw [List.flatMap_append, List.flatMap_singleton]
    exact (congrArg (· ++ _) before.caughtUp).trans caught.decoded

/-- Three commands arrive in two pieces, cut within the second one. The first cycle applies the
first command; the second cycle completes the other two and applies the last. -/
theorem staging_keeps_up_split :
    let forward : Command := ⟨.wheelSpace, .busy, 40, -40, 0, none⟩
    let swerve : Command := ⟨.wheelSpace, .none, 25, 60, -10, none⟩
    let brake : Command := ⟨.wheelVoltage, .clear, 0, 0, 0, none⟩
    Controller.initial.drive.Sound ∧ Controller.initial.decoder.phase = .header 0 ∧
      Controller.initial.decoder.limit = Decoder.usualLimit ∧
      ∃ events s first m second n last, start Controller.initial = Act.done events s ∧
        Act.run perform s [.receive (forward.encode ++ swerve.encode.take 5),
          .cycle .initial .zero true, .receive (swerve.encode.drop 5 ++ brake.encode),
          .cycle .initial .zero true] = .ok ([first, m, second, n], last) ∧
        decoded m = [forward] ∧ decoded n = [swerve, brake] ∧
        (∃ round cycle, m.result = some (round, cycle) ∧ cycle.report.commandRead = true ∧
          m.before.Serves .initial .zero true (some forward) m.events round cycle m.after) ∧
        ∃ round cycle, n.result = some (round, cycle) ∧ cycle.report.commandRead = true ∧
          n.before.Serves .initial .zero true (some brake) n.events round cycle n.after := by
  intro forward swerve brake
  have one : Command.allIn (forward.encode ++ swerve.encode.take 5) = [forward] := by cbv
  have three : Command.allIn ((forward.encode ++ swerve.encode.take 5) ++
      (swerve.encode.drop 5 ++ brake.encode)) = [forward, swerve, brake] := by cbv
  obtain ⟨events, s, moments, last, hs, hr, ho, -, hm⟩ := staging_keeps_up Controller.initial
    Drive.sound_initial rfl rfl [.receive (forward.encode ++ swerve.encode.take 5),
      .cycle .initial .zero true, .receive (swerve.encode.drop 5 ++ brake.encode),
      .cycle .initial .zero true]
  obtain ⟨first, _, rfl, receives, ho⟩ := List.map_eq_cons_iff.1 ho
  obtain ⟨m, _, rfl, cycles, ho⟩ := List.map_eq_cons_iff.1 ho
  obtain ⟨second, _, rfl, receives', ho⟩ := List.map_eq_cons_iff.1 ho
  obtain ⟨n, rfl, cycles'⟩ := List.map_eq_singleton_iff.1 ho
  have isCycle : m.operation.isCycle = true := by
    rw [cycles]
    rfl
  obtain ⟨-, -, stages, -⟩ := hm [] first [m, second, n] rfl
  obtain ⟨-, -, -, caught⟩ := hm [first] m [second, n] rfl
  obtain ⟨-, -, stages', -⟩ := hm [first, m] second [n] rfl
  obtain ⟨-, -, -, caught'⟩ := hm [first, m, second] n [] rfl
  obtain ⟨all, caught⟩ := caught _ _ _ cycles
  obtain ⟨all', caught'⟩ := caught' _ _ _ cycles'
  -- both pieces are kept whole, so the cycles see the commands of what was sent
  have heard : input [first] = forward.encode ++ swerve.encode.take 5 :=
    (input_append [] first).trans ((stages _ receives).kept_eq receives (by decide))
  have heard' : input [first, m, second] =
      forward.encode ++ swerve.encode.take 5 ++ (swerve.encode.drop 5 ++ brake.encode) := by
    have cleared : arrived [first, m] = 0 := (arrived_append [first] m).trans (if_pos isCycle)
    have whole := (stages' _ receives').kept_eq receives' (by rw [cleared]; decide)
    rw [← heard, ← whole, ← input_append_cycle [first] isCycle]
    exact input_append [first, m] second
  have now : decoded m = [forward] := by
    rw [heard, one] at all
    simpa [decoded_receive receives] using all
  have now' : decoded n = [swerve, brake] := by
    rw [heard', three] at all'
    simpa [decoded_receive receives, decoded_receive receives', now] using all'
  exact ⟨Drive.sound_initial, rfl, rfl, events, s, first, m, second, n, last, hs, hr, now, now',
    caught.serves (show decoded m = [] ++ [forward] from now),
    caught'.serves (show decoded n = [swerve] ++ [brake] from now')⟩

end OmniDrive.Session
