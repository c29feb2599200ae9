import OmniDrive.Proofs.Controller.Runs

/-! Wheels turn only for a recent motion command. The drive either rests or still follows the latest
motion command, and how long it has followed bounds how far its ramp can be from rest. -/
namespace OmniDrive

def MotorMode.IsMotion : MotorMode → Prop
  | .wheelSpace | .xyThetaSpace | .wheelVoltage => True
  | _ => False

instance : DecidablePred MotorMode.IsMotion
  | .wheelSpace | .xyThetaSpace | .wheelVoltage => .isTrue trivial
  | .exit | .enableCharging | .disableCharging | .enableVref | .disableVref | .enableAmp
  | .disableAmp | .unknown _ => .isFalse not_false

def MotorMode.driveMode (mode : MotorMode) : DriveMode :=
  if mode = .wheelVoltage then .voltage else .velocity

namespace Drive

/-- The last motion command came so many ticks ago, and in velocity mode the watchdog may have sent
the wheels to rest since. -/
def Follows (d : Drive) (ticks : Nat) : Prop :=
  d.idleTicks = ticks ∨ d.mode = .velocity ∧ patience ≤ ticks ∧ d.Stopping (149 - ticks)

variable {d : Drive} {ramp : Ramp} {ticks : Nat}

/-- A drive that follows a command at a tick follows it on or comes to rest. -/
theorem Follows.ticked (hs : d.Sound) (hr : d.watched.ramp.tick = .ok ramp)
    (h : d.Follows ticks) :
    (d.ticked ramp).Stopping 0 ∨ (d.ticked ramp).Follows (ticks + 1) := by
  have hm : (d.ticked ramp).mode = d.mode := mode_watched d
  rcases h with rfl | ⟨hv, hp, hd⟩
  · by_cases early : d.idleTicks + 1 < patience
    · have hw : d.watched = { d with idleTicks := d.idleTicks + 1 } := if_pos early
      exact .inr (.inl (congrArg idleTicks hw))
    · have hw : d.watched = { d.heard with ramp := d.stopRamp, stale := true } := if_neg early
      have hi : d.idleTicks + 1 = patience := by
        have := hs.inTime
        omega
      have far := stopping_watched_of_bite hs (Nat.le_of_eq hi.symm)
      cases hv : d.mode with
      | velocity =>
        rw [hi]
        exact .inr (.inr ⟨hm.trans hv, Nat.le_refl _, far.ticked hs hr⟩)
      | voltage =>
        have hz : d.watched.ramp = .steady (Wheels.fill 0) := by
          rw [hw]
          change d.stopRamp = _
          unfold stopRamp
          rw [hv]
        have near : d.watched.Stopping 0 := ⟨far.1, by rw [hz]; exact Nat.zero_le _⟩
        exact .inl (near.ticked hs hr)
  · have near := hd.watched.ticked hs hr
    rw [Nat.sub_sub] at near
    exact .inr (.inr ⟨hm.trans hv, Nat.le_succ_of_le hp, near⟩)

/-- A drive whose wheels turn follows a command that is not old. -/
theorem Follows.recent (hs : d.Sound) (h : d.Follows ticks) {i : Fin 3}
    (hi : d.ramp.speeds.get i ≠ 0) :
    ticks ≤ match d.mode with
      | .voltage => 49
      | .velocity => 148 := by
  have ht := hs.inTime
  unfold patience at ht
  rcases h with rfl | ⟨hv, hp, hd⟩
  · split <;> omega
  · rw [hv]
    refine Nat.le_of_not_lt fun old => ?_
    have hz : 149 - ticks = 0 := Nat.sub_eq_zero_of_le old
    rw [hz] at hd
    apply hi
    rw [speeds_of_stopping hs.onCourse hd, Wheels.get_fill]

end Drive

namespace Controller

/-- A motion command took effect. -/
def Moment.Orders (m : Moment) (f : Command) : Prop :=
  m.command? = some f ∧ f.motorMode.IsMotion ∧ m.before.running ∧ ¬ m.before.commandsDisabled

/-- A stop, a confirmed exit or a mode without a meaning took effect. -/
def Moment.Halts (m : Moment) : Prop :=
  m.operation = .stop ∨ ∃ f, m.command? = some f ∧ m.before.running ∧
    (f.IsConfirmedExit ∨ ¬ m.before.commandsDisabled ∧ ∃ byte, f.motorMode = .unknown byte)

def ticksIn (moments : List Moment) : Nat := moments.countP (·.result.isSome)

def latestReply (past : List Moment) : PowerReply :=
  past.foldl (fun reply m => match m.operation with
    | .tick replies => replies.power
    | _ => reply) .initial

/-- `f` is the latest motion command that took effect, and nothing in `since`, which is all that
came later, has halted the wheels. -/
def InForce (past : List Moment) (f : Command) (since : List Moment) : Prop :=
  ∃ front order, past = front ++ order :: since ∧ order.Orders f ∧
    ∀ m ∈ since, ¬ m.Halts ∧ ∀ g, ¬ m.Orders g

/-- The drive rests or follows the motion command in force. -/
def Obeys (past : List Moment) (d : Drive) : Prop :=
  d.Stopping 0 ∨ ∃ f since, InForce past f since ∧
    d.mode = f.motorMode.driveMode ∧ d.Follows (ticksIn since)

/-- What a run keeps about the drive. -/
structure Guided (past : List Moment) (c : Controller) : Prop where
  sound : c.drive.Sound
  power : c.drive.replies.power = latestReply past
  motion : Obeys past c.drive

theorem latestReply_append (past : List Moment) (m : Moment) :
    latestReply (past ++ [m]) = match m.operation with
      | .tick replies => replies.power
      | _ => latestReply past := by
  unfold latestReply
  rw [List.foldl_append]
  rfl

theorem ticksIn_append (since : List Moment) (m : Moment) :
    ticksIn (since ++ [m]) = ticksIn since + m.result.isSome.toNat := by
  unfold ticksIn
  rw [List.countP_append, List.countP_singleton]
  cases m.result <;> rfl

theorem InForce.append {past since : List Moment} {f : Command} {m : Moment}
    (h : InForce past f since) (hh : ¬ m.Halts) (ho : ∀ g, ¬ m.Orders g) :
    InForce (past ++ [m]) f (since ++ [m]) := by
  obtain ⟨front, order, rfl, hf, hs⟩ := h
  refine ⟨front, order, List.append_assoc .., hf, ?_⟩
  intro n hn
  rcases List.mem_append.1 hn with hn | hn
  · exact hs n hn
  · rw [List.mem_singleton.1 hn]
    exact ⟨hh, ho⟩

/-- A moment that neither ticks nor commands the wheels leaves the motion as it was. -/
theorem motion_quiet {past : List Moment} {m : Moment} (h : Guided past m.before)
    (hh : ¬ m.Halts) (ho : ∀ g, ¬ m.Orders g) (hr : m.result = none) {d : Drive}
    (hm : d.mode = m.before.drive.mode) (hi : d.idleTicks = m.before.drive.idleTicks)
    (hd : d.ramp = m.before.drive.ramp) : Obeys (past ++ [m]) d := by
  unfold Obeys Drive.Stopping Drive.Follows Drive.Stopping
  rw [hm, hi, hd]
  rcases h.motion with rest | ⟨f, since, hf, hv, hk⟩
  · exact .inl rest
  · refine .inr ⟨f, since ++ [m], hf.append hh ho, hv, ?_⟩
    rw [ticksIn_append, hr]
    exact hk

theorem stopping_still (d : Drive) (h : d.ramp = .steady (Wheels.fill 0)) : d.Stopping 0 := by
  unfold Drive.Stopping
  rw [h]
  exact ⟨rfl, Nat.zero_le _⟩

theorem latestReply_quiet {past : List Moment} {m : Moment}
    (h : ∀ replies, m.operation ≠ .tick replies) : latestReply (past ++ [m]) = latestReply past := by
  rw [latestReply_append]
  split
  · rename_i replies ht
    exact absurd ht (h replies)
  · rfl

/-- A command that takes effect is a motion command, an order to rest, or leaves the motion be. -/
theorem driven_cases (d : Drive) (f : Command) :
    (f.motorMode.IsMotion ∧ (driven d f).mode = f.motorMode.driveMode ∧
      (driven d f).idleTicks = 0) ∨
    ((∃ byte, f.motorMode = .unknown byte) ∧ (driven d f).ramp = .steady (Wheels.fill 0)) ∨
    (¬ f.motorMode.IsMotion ∧ (∀ byte, f.motorMode ≠ .unknown byte) ∧
      (driven d f).mode = d.mode ∧ (driven d f).idleTicks = d.idleTicks ∧
      (driven d f).ramp = d.ramp) := by
  obtain ⟨mode, light, m1, m2, m3, colours⟩ := f
  cases mode with
  | wheelSpace | xyThetaSpace | wheelVoltage => exact .inl ⟨trivial, rfl, rfl⟩
  | unknown byte => exact .inr (.inl ⟨⟨byte, rfl⟩, rfl⟩)
  | exit | enableCharging | disableCharging | enableVref | disableVref | enableAmp | disableAmp =>
    exact .inr (.inr ⟨id, nofun, rfl, rfl, rfl⟩)

theorem not_halts {m : Moment} (ho : m.operation ≠ .stop) (hc : m.command? = none) :
    ¬ m.Halts := by
  rintro (hs | ⟨g, hg, -⟩)
  · exact ho hs
  · exact nomatch hc.symm.trans hg

theorem not_orders {m : Moment} (hc : m.command? = none) (g : Command) : ¬ m.Orders g := by
  rintro ⟨hg, -⟩
  exact nomatch hc.symm.trans hg

theorem gated_of_isMotion {mode : MotorMode} (h : mode.IsMotion) : Gated mode := by
  cases mode with
  | wheelSpace | xyThetaSpace | wheelVoltage => trivial
  | _ => exact h.elim

theorem motion_command {past : List Moment} {m : Moment} {f : Command} (h : Guided past m.before)
    (hc : m.command? = some f) (hr : m.result = none) :
    Obeys (past ++ [m]) (m.before.applied f).drive := by
  -- This command alone decides whether the moment orders or halts.
  have only {g : Command} (hg : m.command? = some g) : g = f := Option.some.inj (hg.symm.trans hc)
  have halts (hx : m.before.running → ¬ (f.IsConfirmedExit ∨
      ¬ m.before.commandsDisabled ∧ ∃ byte, f.motorMode = .unknown byte)) : ¬ m.Halts := by
    rintro (hs | ⟨g, hg, hrun, why⟩)
    · unfold Moment.command? at hc
      rw [hs] at hc
      cases hc
    · rw [only hg] at why
      exact hx hrun why
  have orders (hx : f.motorMode.IsMotion → m.before.running → m.before.commandsDisabled) (g) :
      ¬ m.Orders g := by
    rintro ⟨hg, hm, hrun, hd⟩
    rw [only hg] at hm
    exact hd (hx hm hrun)
  rw [drive_applied]
  by_cases hrun : m.before.running
  · rw [if_pos hrun]
    by_cases hx : f.IsConfirmedExit
    · rw [if_pos hx]
      exact .inl (stopping_still _ rfl)
    · rw [if_neg hx]
      by_cases hd : m.before.commandsDisabled ∧ Gated f.motorMode
      · rw [if_pos hd]
        refine motion_quiet h (halts fun _ => ?_) (orders fun _ _ => hd.1) hr rfl rfl rfl
        rintro (he | ⟨hn, -⟩)
        · exact hx he
        · exact hn hd.1
      · rw [if_neg hd]
        rcases driven_cases m.before.drive f with
          ⟨hm, hv, hi⟩ | ⟨-, hs⟩ | ⟨hm, hu, hv, hi, hs⟩
        · have free : ¬ m.before.commandsDisabled := fun hb => hd ⟨hb, gated_of_isMotion hm⟩
          have latest : InForce (past ++ [m]) f [] :=
            ⟨past, m, rfl, ⟨hc, hm, hrun, free⟩, List.forall_mem_nil _⟩
          exact .inr ⟨f, [], latest, hv, .inl hi⟩
        · exact .inl (stopping_still _ hs)
        · refine motion_quiet h (halts fun _ => ?_) (orders fun he _ => (hm he).elim) hr hv hi hs
          rintro (he | ⟨-, byte, hb⟩)
          · exact hx he
          · exact hu byte hb
  · rw [if_neg hrun]
    exact motion_quiet h (halts fun he => (hrun he).elim) (orders fun _ he => (hrun he).elim) hr
      rfl rfl rfl

theorem motion_tick {past : List Moment} {m : Moment} {replies : Replies} {ramp : Ramp}
    {round : Round} (h : Guided past m.before) (ho : m.operation = .tick replies)
    (hr : m.before.drive.watched.ramp.tick = .ok ramp) (hround : m.result = some round) :
    Obeys (past ++ [m]) (m.before.drive.ticked ramp) := by
  have hc : m.command? = none := by
    unfold Moment.command?
    rw [ho]
  have hs : m.operation ≠ .stop := fun hs => nomatch ho.symm.trans hs
  rcases h.motion with rest | ⟨f, since, hf, hv, hk⟩
  · exact .inl (rest.watched.ticked h.sound hr)
  · rcases hk.ticked h.sound hr with rest | hk
    · exact .inl rest
    · refine .inr ⟨f, since ++ [m], hf.append (not_halts hs hc) (not_orders hc),
        (Drive.mode_watched _).trans hv, ?_⟩
      rw [ticksIn_append, hround]
      exact hk

theorem replies_applied (c : Controller) (f : Command) :
    (c.applied f).drive.replies = c.drive.replies := by
  obtain ⟨mode, light, m1, m2, m3, colours⟩ := f
  rw [drive_applied]
  split
  · split
    · rfl
    · split
      · rfl
      · cases mode <;> rfl
  · rfl

theorem Guided.step {past : List Moment} {m : Moment} (h : Guided past m.before) (hm : m.Moves) :
    Guided (past ++ [m]) m.after := by
  have sound := hm.sound h.sound
  have quietReply (hs : ∀ replies, m.operation ≠ .tick replies) :
      m.before.drive.replies.power = latestReply (past ++ [m]) := by
    rw [latestReply_quiet hs]
    exact h.power
  cases hm with
  | tick replies ramp ho hr hround hd =>
    refine ⟨sound, ?_, ?_⟩
    · rw [latestReply_append, ho, hd]
    · rw [hd]
      exact motion_tick h ho hr hround
  | stop ho hr hd =>
    refine ⟨sound, ?_, ?_⟩
    · rw [hd]
      exact quietReply fun replies ht => nomatch ho.symm.trans ht
    · rw [hd]
      exact .inl (stopping_still _ rfl)
  | start ho hr hd =>
    have hc : m.command? = none := by
      unfold Moment.command?
      rw [ho]
    have hs : m.operation ≠ .stop := fun hs => nomatch ho.symm.trans hs
    refine ⟨sound, ?_, ?_⟩
    · rw [hd]
      exact quietReply fun replies ht => nomatch ho.symm.trans ht
    · rw [hd]
      exact motion_quiet h (not_halts hs hc) (not_orders hc) hr rfl rfl rfl
  | command f hc hr hd =>
    refine ⟨sound, ?_, ?_⟩
    · rw [hd, replies_applied]
      refine quietReply fun replies ht => ?_
      unfold Moment.command? at hc
      rw [ht] at hc
      cases hc
    · rw [hd]
      exact motion_command h hc hr
  | other ho ht hc hr hd =>
    refine ⟨sound, ?_, ?_⟩
    · rw [hd]
      exact quietReply ht
    · rw [hd]
      exact motion_quiet h (not_halts ho hc) (not_orders hc) hr rfl rfl rfl

theorem guided_initial : Guided [] initial where
  sound := Drive.sound_initial
  power := rfl
  motion := .inl ⟨by decide, Nat.zero_le _⟩

/-- A run keeps what its packets say about the past. -/
theorem run_guided (operations : List Operation) :
    ∃ moments last, initial.run operations = .ok (moments, last) ∧
      moments.map Act.Moment.operation = operations ∧ Guided moments last ∧
      ∀ earlier m later, moments = earlier ++ m :: later →
        Guided earlier m.before ∧ m.Happens perform := by
  obtain ⟨moments, last, hr, ho, hl, hk⟩ := Act.run_keeps
    (perform_keeps Guided (fun _ _ h => h.sound) fun _ _ h hm => h.step hm.moves)
    operations [] initial guided_initial
  refine ⟨moments, last, hr, ho, hl, fun earlier m later hs => ?_⟩
  obtain ⟨before, happens, -⟩ := hk earlier m later hs
  exact ⟨before, happens⟩

/-- A speed in a motor packet is the wheel's, unless the drive is held. -/
theorem setpoint_round (d : Drive) (i : Fin 3) :
    (d.round.motors.get i).setpoint = if d.isHeld then 0 else d.ramp.speeds.get i := by
  unfold Drive.round
  rw [Wheels.get_map]
  exact Int8.toInt8_toUInt8 _

theorem not_held {d : Drive} (h : d.isHeld = false) :
    d.driveEnabled ∧
      (d.replies.power.chargeState = 0 ∨ d.replies.power.chargeState = 5) := by
  unfold Drive.isHeld Drive.isCharging PowerReply.isCharging at h
  simpa [Bool.or_eq_false_iff, Decidable.or_iff_not_imp_left] using h

/-- What a packet that lets a wheel turn says about the past. -/
theorem Guided.turning {past : List Moment} {c : Controller} {ramp : Ramp} {i : Fin 3}
    (h : Guided past c) (hr : c.drive.watched.ramp.tick = .ok ramp)
    (hi : ((c.drive.ticked ramp).round.motors.get i).setpoint ≠ 0) :
    (∃ f since, InForce past f since ∧
      ticksIn since + 1 ≤ if f.motorMode = .wheelVoltage then 49 else 148) ∧
    c.drive.driveEnabled ∧
    ((latestReply past).chargeState = 0 ∨ (latestReply past).chargeState = 5) ∧
    InLimit ((c.drive.ticked ramp).round.motors.get i).setpoint := by
  have hs := Drive.sound_ticked h.sound hr
  rw [setpoint_round] at hi ⊢
  cases held : (c.drive.ticked ramp).isHeld with
  | true =>
    rw [held] at hi
    exact absurd rfl hi
  | false =>
    rw [held] at hi
    have turning : (c.drive.ticked ramp).ramp.speeds.get i ≠ 0 := hi
    have moving : ¬ (c.drive.ticked ramp).Stopping 0 := by
      intro rest
      rw [Drive.speeds_of_stopping hs.onCourse rest, Wheels.get_fill] at turning
      exact turning rfl
    obtain ⟨hd, hp⟩ := not_held held
    have he : (c.drive.ticked ramp).driveEnabled = c.drive.driveEnabled :=
      Drive.driveEnabled_watched c.drive
    have hq : (c.drive.ticked ramp).replies.power = latestReply past :=
      (congrArg Replies.power (Drive.replies_watched c.drive)).trans h.power
    rw [he] at hd
    rw [hq] at hp
    refine ⟨?_, hd, hp, hs.onCourse.speeds_inLimit i⟩
    rcases h.motion with rest | ⟨f, since, hf, hv, hk⟩
    · exact absurd (rest.watched.ticked h.sound hr) moving
    · rcases hk.ticked h.sound hr with rest | hk
      · exact absurd rest moving
      · refine ⟨f, since, hf, ?_⟩
        have age := hk.recent hs turning
        have hm : (c.drive.ticked ramp).mode = f.motorMode.driveMode :=
          (Drive.mode_watched c.drive).trans hv
        rw [hm] at age
        unfold MotorMode.driveMode at age
        split
        · rename_i duty
          rwa [if_pos duty] at age
        · rename_i velocity
          rwa [if_neg velocity] at age

/-- In every run, a wheel is told to turn only while a motion command is in force that is at most
49 ticks old if it set duties and at most 148 ticks old otherwise, only while driving is allowed and
the last power reply shows no charging, and never beyond a hundred. -/
theorem turns_only_for_recent_motion (operations : List Operation) :
    ∃ moments last, initial.run operations = .ok (moments, last) ∧
      ∀ earlier m later round (i : Fin 3), moments = earlier ++ m :: later →
        m.result = some round → (round.motors.get i).setpoint ≠ 0 →
          (∃ f since, InForce earlier f since ∧
            ticksIn since + 1 ≤ if f.motorMode = .wheelVoltage then 49 else 148) ∧
          m.before.drive.driveEnabled ∧
          ((latestReply earlier).chargeState = 0 ∨ (latestReply earlier).chargeState = 5) ∧
          -100 ≤ (round.motors.get i).setpoint.toInt ∧
          (round.motors.get i).setpoint.toInt ≤ 100 := by
  obtain ⟨moments, last, hr, -, -, hk⟩ := run_guided operations
  refine ⟨moments, last, hr, ?_⟩
  intro earlier m later round i hs hround hi
  obtain ⟨hg, happens⟩ := hk earlier m later hs
  cases (steps_of_happens hg.sound happens).moves with
  | tick replies ramp _ hramp hsent _ =>
    obtain rfl := Option.some.inj (hround.symm.trans hsent)
    exact hg.turning hramp hi
  | stop _ hsent | start _ hsent | command _ _ hsent | other _ _ _ hsent =>
    exact nomatch hround.symm.trans hsent

end Controller

end OmniDrive
