import Mathlib.Data.List.Forall2
import OmniDrive.Proofs.Controller.RecentMotion

/-! How far the answers of the bus reach. The replies of a tick go into the packets of the next tick
alone, and of those replies only voltage and charge state count; everything else but the latched
errors is as if the bus had answered something else. -/
namespace OmniDrive

/-- The two replies agree in voltage and charge state. -/
def PowerReply.SameReading (r s : PowerReply) : Prop :=
  r.reading = s.reading ∧ r.chargeState = s.chargeState

theorem PowerReply.SameReading.voltage {r s : PowerReply} (h : r.SameReading s) :
    s.voltage = r.voltage := by
  unfold PowerReply.voltage
  rw [h.1]

theorem PowerReply.SameReading.isCharging {r s : PowerReply} (h : r.SameReading s) :
    s.isCharging = r.isCharging := by
  unfold PowerReply.isCharging
  rw [h.2]

namespace Drive

/-- The watchdog does not look at the replies. -/
theorem watched_replies (d : Drive) (replies : Replies) :
    watched { d with replies } = { d.watched with replies } := by
  unfold watched
  split
  · rfl
  · rfl

/-- Of the replies it keeps, a drive puts the reading of the power reply into its packets. -/
theorem round_replies {d : Drive} {replies : Replies}
    (h : d.replies.power.SameReading replies.power) :
    round { d with replies } = d.round := by
  have held : isHeld { d with replies } = d.isHeld :=
    congrArg (!d.driveEnabled || ·) h.isCharging
  unfold round
  rw [held]
  dsimp only
  rw [h.voltage]

theorem busVoltage_round (d : Drive) (i : Fin 3) :
    (d.round.motors.get i).busVoltage = d.replies.power.voltage := by
  unfold round
  rw [Wheels.get_map]
  rfl

end Drive

namespace Controller

/-- The same operation, but for what the bus answers; those answers are related by `R`. -/
inductive Operation.Alike (R : Replies → Replies → Prop) : Operation → Operation → Prop
  | same {operation : Operation} : (∀ replies, operation ≠ .tick replies) →
    Alike R operation operation
  | tick {replies others : Replies} : R replies others → Alike R (.tick replies) (.tick others)

/-- A controller with other replies kept and other errors latched. -/
def twin (c : Controller) (replies : Replies) (errors : ErrorLatch) : Controller :=
  { c with drive := { c.drive with replies }, errors }

/-- Nothing differs but the replies that are kept and the errors that are latched. -/
def Twins (c o : Controller) : Prop := o = c.twin o.drive.replies o.errors

variable {c o : Controller} {R : Replies → Replies → Prop}

theorem driven_replies (d : Drive) (replies : Replies) (f : Command) :
    driven { d with replies } f = { driven d f with replies } := by
  obtain ⟨mode, light, m1, m2, m3, colours⟩ := f
  cases mode <;> rfl

theorem applied_twin (c : Controller) (replies : Replies) (errors : ErrorLatch) (f : Command) :
    (c.twin replies errors).applied f = (c.applied f).twin replies errors := by
  unfold applied twin
  dsimp only
  split
  · split
    · rfl
    · split
      · rfl
      · rw [obeyed, driven_replies]
        rfl
  · rfl

theorem received_twin (c : Controller) (replies : Replies) (errors : ErrorLatch)
    (decoder : Decoder) (command : Option Command) :
    (c.twin replies errors).received decoder command =
      (c.received decoder command).twin replies errors := by
  cases command with
  | none => rfl
  | some f => exact applied_twin { c with decoder, commandRead := true } replies errors f

theorem sound_twin (h : c.drive.Sound) (replies : Replies) (errors : ErrorLatch) :
    (c.twin replies errors).drive.Sound := ⟨h.onCourse, h.inTime⟩

/-- What two moments have in common whose operations differ in what the bus answers alone. -/
structure Moment.Twins (R : Replies → Replies → Prop) (m n : Moment) : Prop where
  operation : m.operation.Alike R n.operation
  read : R m.before.drive.replies n.before.drive.replies
  after : Controller.Twins m.after n.after
  kept : R m.after.drive.replies n.after.drive.replies
  round : m.before.drive.replies.power.SameReading n.before.drive.replies.power →
    n.result = m.result
  calls : (∀ replies others, m.operation = .tick replies → n.operation = .tick others →
    replies.power.SameReading others.power) → Controller.calls n.events = Controller.calls m.events

/-- Both controllers carry out the operation, and twins they remain. -/
def Moment.Paired (R : Replies → Replies → Prop) (c o : Controller) (operation other : Operation) :
    Prop :=
  ∃ m n : Moment, m.Happens perform ∧ n.Happens perform ∧ m.before = c ∧ n.before = o ∧
    m.operation = operation ∧ n.operation = other ∧ m.Twins R n

variable {replies : Replies} {errors : ErrorLatch} {operation : Operation}

/-- An operation that is no tick sends nothing and keeps the replies. -/
theorem paired_of_quiet (hq : ∀ replies, operation ≠ .tick replies)
    (hR : R c.drive.replies replies) {events others : List Event} {after : Controller}
    {latched : ErrorLatch} (hc : c.perform operation = Act.done events (after, none))
    (ho : (c.twin replies errors).perform operation =
      Act.done others (after.twin replies latched, none))
    (hr : after.drive.replies = c.drive.replies) (hcalls : calls others = calls events) :
    Moment.Paired R c (c.twin replies errors) operation operation := by
  refine ⟨⟨c, operation, events, none, after⟩,
    ⟨c.twin replies errors, operation, others, none, after.twin replies latched⟩,
    hc, ho, rfl, rfl, rfl, rfl, .same hq, hR, rfl, ?_, fun _ => rfl, fun _ => hcalls⟩
  change R after.drive.replies replies
  rw [hr]
  exact hR

theorem paired_apply (hs : c.drive.Sound) (hR : R c.drive.replies replies) (f : Command) :
    Moment.Paired R c (c.twin replies errors) (.apply f) (.apply f) := by
  obtain ⟨events, hc, hcalls⟩ := apply_done hs f
  obtain ⟨others, ho, hcalls'⟩ := apply_done (sound_twin hs replies errors) f
  rw [applied_twin] at ho
  exact paired_of_quiet nofun hR (Act.bind_pure_eq_done hc _) (Act.bind_pure_eq_done ho _)
    (replies_applied c f) (hcalls'.trans hcalls.symm)

theorem replies_received (c : Controller) (decoder : Decoder) (command : Option Command) :
    (c.received decoder command).drive.replies = c.drive.replies := by
  cases command with
  | none => rfl
  | some f => exact replies_applied { c with decoder, commandRead := true } f

/-- Both decoders read the same input alike. -/
theorem paired_takeInput (hs : c.drive.Sound) (hR : R c.drive.replies replies)
    (bytes : List UInt8) :
    Moment.Paired R c (c.twin replies errors) (.takeInput bytes) (.takeInput bytes) := by
  obtain ⟨notices, decoder, command, taken, events, hd, hc, hcalls⟩ := takeInput_done hs bytes
  obtain ⟨notices', decoder', command', taken', others, hd', ho, hcalls'⟩ :=
    takeInput_done (sound_twin hs replies errors) bytes
  cases hd.symm.trans hd'
  rw [received_twin] at ho
  exact paired_of_quiet nofun hR (Act.bind_pure_eq_done hc _) (Act.bind_pure_eq_done ho _)
    (replies_received c decoder command) (hcalls'.trans hcalls.symm)

/-- The ramp goes on alike, whatever is answered in the tick and whatever was answered before. -/
theorem paired_tick (hs : c.drive.Sound) (hR : R c.drive.replies replies) {answers others : Replies}
    (ha : R answers others) :
    Moment.Paired R c (c.twin replies errors) (.tick answers) (.tick others) := by
  obtain ⟨ramp, events, hr, hc, hcalls⟩ := tick_done hs answers
  obtain ⟨ramp', events', hr', ho, hcalls'⟩ := tick_done (sound_twin hs replies errors) others
  have hw : (c.twin replies errors).drive.watched = { c.drive.watched with replies } :=
    Drive.watched_replies c.drive replies
  rw [hw] at hr'
  obtain rfl : ramp = ramp' := Except.ok.inj (hr.symm.trans hr')
  have ht : (c.twin replies errors).drive.ticked ramp = { c.drive.ticked ramp with replies } :=
    congrArg (fun d : Drive => { d with ramp }) hw
  rw [ht] at ho
  refine ⟨⟨c, .tick answers, events, _, _⟩, ⟨c.twin replies errors, .tick others, events', _, _⟩,
    hc, ho, rfl, rfl, rfl, rfl, .tick ha, hR, rfl, ha, fun same => ?_, fun same => ?_⟩
  · have kept : (c.drive.ticked ramp).replies = c.drive.replies := Drive.replies_watched c.drive
    refine congrArg some (Drive.round_replies ?_)
    rw [kept]
    exact same
  · have reading := same answers others rfl rfl
    rw [hcalls, hcalls', shown, shown, reading.isCharging]

theorem twins_step (hs : c.drive.Sound) (h : Twins c o) (hR : R c.drive.replies o.drive.replies)
    {other : Operation} (ha : operation.Alike R other) : Moment.Paired R c o operation other := by
  unfold Twins at h
  generalize o.drive.replies = replies at h hR
  generalize o.errors = errors at h
  subst h
  cases ha with
  | tick ha => exact paired_tick hs hR ha
  | same hq =>
    cases operation with
    | tick replies => exact absurd rfl (hq replies)
    | start =>
      exact paired_of_quiet hq hR (Act.bind_pure_eq_done (start_eq c) _)
        (Act.bind_pure_eq_done (start_eq _) _) rfl rfl
    | stop =>
      exact paired_of_quiet hq hR (Act.bind_pure_eq_done (stop_eq c) _)
        (Act.bind_pure_eq_done (stop_eq _) _) rfl rfl
    | disableCommands | enableCommands | report | noteError =>
      exact paired_of_quiet hq hR rfl rfl rfl rfl
    | apply f => exact paired_apply hs hR f
    | takeInput bytes => exact paired_takeInput hs hR bytes

/-- Runs of the same operations keep twins from moment to moment. -/
theorem twins_run {operations others : List Operation}
    (ha : List.Forall₂ (Operation.Alike R) operations others) (hs : c.drive.Sound) (h : Twins c o)
    (hR : R c.drive.replies o.drive.replies) :
    ∃ moments last moments' last', c.run operations = .ok (moments, last) ∧
      o.run others = .ok (moments', last') ∧ List.Forall₂ (Moment.Twins R) moments moments' := by
  have step (m n : Moment) (hs : m.before.drive.Sound) (_ : n.before.drive.Sound)
      (hm : m.Happens perform) (hn : n.Happens perform)
      (h : Twins m.before n.before ∧ R m.before.drive.replies n.before.drive.replies)
      (ha : m.operation.Alike R n.operation) :
      (Twins m.after n.after ∧ R m.after.drive.replies n.after.drive.replies) ∧ m.Twins R n := by
    obtain ⟨first, second, hf, hl, hb, hb', ho, ho', twins⟩ := twins_step hs h.1 h.2 ha
    obtain rfl := hm.unique hf hb ho
    obtain rfl := hn.unique hl hb' ho'
    exact ⟨⟨twins.after, twins.kept⟩, twins⟩
  have sound : o.drive.Sound := by
    rw [h]
    exact sound_twin hs _ _
  obtain ⟨moments, last, moments', last', hr, hr', -, -, twins⟩ :=
    run_pairs (R := fun c o => Twins c o ∧ R c.drive.replies o.drive.replies) step ha hs sound
      ⟨h, hR⟩
  exact ⟨moments, last, moments', last', hr, hr', twins⟩

theorem eq_take_append_of_getElem? {moments : List Moment} {k : Nat} {m : Moment}
    (h : moments[k]? = some m) : moments = moments.take k ++ m :: moments.drop (k + 1) := by
  obtain ⟨hk, rfl⟩ := List.getElem?_eq_some_iff.1 h
  rw [List.getElem_cons_drop, List.take_append_drop]

theorem twins_getElem? {moments others : List Moment}
    (h : List.Forall₂ (Moment.Twins R) moments others) {k : Nat} {m n : Moment}
    (hm : moments[k]? = some m) (hn : others[k]? = some n) : m.Twins R n := by
  obtain ⟨hk, rfl⟩ := List.getElem?_eq_some_iff.1 hm
  obtain ⟨hk', rfl⟩ := List.getElem?_eq_some_iff.1 hn
  exact h.get hk hk'

/-- The supply voltage in a packet is that of the latest power reply. -/
theorem Guided.busVoltage {past : List Moment} {m : Moment} {round : Round}
    (h : Guided past m.before) (hm : m.Happens perform) (hr : m.result = some round) (i : Fin 3) :
    (round.motors.get i).busVoltage = (latestReply past).voltage := by
  cases (steps_of_happens h.sound hm).moves with
  | tick replies ramp _ _ hround _ =>
    obtain rfl := Option.some.inj (hr.symm.trans hround)
    have kept : (m.before.drive.ticked ramp).replies = m.before.drive.replies :=
      Drive.replies_watched m.before.drive
    rw [Drive.busVoltage_round, kept, h.power]
  | stop _ hround | start _ hround | command _ _ hround | other _ _ _ hround =>
    exact nomatch hr.symm.trans hround

/-- Two runs whose operations differ only in what the bus answers, however much, differ only in the
replies they keep and the errors they latch. The packets of a tick are the same once voltage and
charge state are in the power reply of the tick before, and carry that voltage, 255 for zero. Where
all power replies agree in both, all packets and all calls on the board are the same. -/
theorem answers_reach_next_round (operations others : List Operation)
    (h : List.Forall₂ (Operation.Alike fun _ _ => True) operations others) :
    ∃ moments last moments' last', initial.run operations = .ok (moments, last) ∧
      initial.run others = .ok (moments', last') ∧
      moments.map Act.Moment.operation = operations ∧ moments'.map Act.Moment.operation = others ∧
      (∀ (k : Nat) m n, moments[k]? = some m → moments'[k]? = some n →
        Twins m.after n.after ∧
        ((latestReply (moments.take k)).SameReading (latestReply (moments'.take k)) →
          n.result = m.result) ∧
        ∀ round i, m.result = some round → (round.motors.get i).busVoltage =
          if (latestReply (moments.take k)).reading = 0 then (255 : UInt8)
          else (latestReply (moments.take k)).reading) ∧
      (List.Forall₂ (Operation.Alike fun r s => r.power.SameReading s.power) operations others →
        ∀ (k : Nat) m n, moments[k]? = some m → moments'[k]? = some n →
          n.result = m.result ∧ calls n.events = calls m.events ∧
            n.after.drive.isCharging = m.after.drive.isCharging) := by
  obtain ⟨moments, last, hr, ho, -, hg⟩ := run_guided operations
  obtain ⟨moments', last', hr', ho', -, hg'⟩ := run_guided others
  -- The runs are paired for any relation of the replies that all ticks respect.
  have paired {R : Replies → Replies → Prop} (hR : R .initial .initial)
      (ha : List.Forall₂ (Operation.Alike R) operations others) :
      List.Forall₂ (Moment.Twins R) moments moments' := by
    obtain ⟨_, _, _, _, hs, hs', twins⟩ := twins_run ha Drive.sound_initial
      (show Twins initial initial from rfl) hR
    cases hr.symm.trans hs
    cases hr'.symm.trans hs'
    exact twins
  refine ⟨moments, last, moments', last', hr, hr', ho, ho', ?_, ?_⟩
  · intro k m n hm hn
    have twins := twins_getElem? (paired trivial h) hm hn
    obtain ⟨guided, happens⟩ := hg _ m _ (eq_take_append_of_getElem? hm)
    obtain ⟨guided', -⟩ := hg' _ n _ (eq_take_append_of_getElem? hn)
    refine ⟨twins.after, fun same => twins.round ?_, fun round i hround => ?_⟩
    · rw [guided.power, guided'.power]
      exact same
    · exact guided.busVoltage happens hround i
  · intro ha k m n hm hn
    have twins := twins_getElem? (paired ⟨rfl, rfl⟩ ha) hm hn
    refine ⟨twins.round twins.read, twins.calls ?_, twins.kept.isCharging⟩
    intro replies answers hop hop'
    have alike := twins.operation
    rw [hop, hop'] at alike
    cases alike with
    | tick same => exact same
    | same hq => exact absurd rfl (hq replies)

/-- A drive on its way to a speed, with two ticks answered as given and a report in between. -/
def underWay (answers : Replies) : List Operation :=
  [.start, .apply ⟨.wheelSpace, .busy, 50, -50, 20, none⟩, .tick answers, .report .zero true,
    .tick answers]

/-- One bus answers as it should. The other is misaligned and its motors report nonsense, but the
power reply reads the same. -/
theorem answers_reach_next_round_garbled :
    let sane : Replies := ⟨⟨#v[0x7D, 120, 0, 40, 40, 40]⟩, Wheels.fill .initial⟩
    let garbled : Replies := ⟨⟨#v[0x00, 120, 0, 255, 254, 253]⟩, Wheels.fill ⟨#v[1, 2, 3, 4, 5]⟩⟩
    List.Forall₂ (Operation.Alike fun _ _ => True) (underWay sane) (underWay garbled) ∧
      List.Forall₂ (Operation.Alike fun r s => r.power.SameReading s.power) (underWay sane)
        (underWay garbled) ∧
      ∃ moments last moments' last', initial.run (underWay sane) = .ok (moments, last) ∧
        initial.run (underWay garbled) = .ok (moments', last') ∧
        ∀ (k : Nat) m n, moments[k]? = some m → moments'[k]? = some n →
          Twins m.after n.after ∧ n.result = m.result := by
  intro sane garbled
  have alike {R : Replies → Replies → Prop} (hR : R sane garbled) :
      List.Forall₂ (Operation.Alike R) (underWay sane) (underWay garbled) :=
    .cons (.same nofun) (.cons (.same nofun) (.cons (.tick hR) (.cons (.same nofun)
      (.cons (.tick hR) .nil))))
  have reading : sane.power.SameReading garbled.power := ⟨rfl, rfl⟩
  obtain ⟨moments, last, moments', last', hr, hr', -, -, apart, same⟩ :=
    answers_reach_next_round (underWay sane) (underWay garbled) (alike trivial)
  refine ⟨alike trivial, alike reading, moments, last, moments', last', hr, hr', ?_⟩
  intro k m n hm hn
  exact ⟨(apart k m n hm hn).1, (same (alike reading) k m n hm hn).1⟩

end Controller

end OmniDrive
