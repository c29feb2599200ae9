import OmniDrive.Proofs.Controller.RecentMotion
import OmniDrive.Proofs.Drive.Pace

/-! Motors are told to speed up gradually. While nobody sets duties, a tick sends no speed more than
one unit above that of the tick before, except behind a tick that held the wheels for the charger:
the ramp goes on behind the zeros that are sent, and what it has reached comes all at once. -/
namespace OmniDrive

/-- No wheel is faster, in either direction. -/
def Wheels.NoFaster (v w : Wheels Int8) : Prop :=
  ∀ i, (v.get i).toInt.natAbs ≤ (w.get i).toInt.natAbs

theorem Wheels.noFaster_zero (w : Wheels Int8) : (Wheels.fill 0).NoFaster w := by
  intro i
  rw [Wheels.get_fill]
  exact Nat.zero_le _

/-- What keeps its speeds or is stopped is no faster. -/
theorem Wheels.noFaster_of_eq_or {v w : Wheels Int8} (h : v = w ∨ v = Wheels.fill 0) :
    v.NoFaster w := by
  rcases h with rfl | rfl
  · exact fun _ => Nat.le_refl _
  · exact Wheels.noFaster_zero w

namespace Drive

variable {d : Drive} {ramp : Ramp}

theorem driveEnabled_ticked (d : Drive) (ramp : Ramp) :
    (d.ticked ramp).driveEnabled = d.driveEnabled := driveEnabled_watched d

theorem isCharging_ticked (d : Drive) (ramp : Ramp) :
    (d.ticked ramp).isCharging = d.isCharging :=
  congrArg (·.power.isCharging) (replies_watched d)

/-- A tick makes no wheel faster by more than one unit, whatever the watchdog does in it. -/
theorem speeds_ticked_le (hs : d.Sound) (hr : d.watched.ramp.tick = .ok ramp) (i : Fin 3) :
    (ramp.speeds.get i).toInt.natAbs ≤ (d.ramp.speeds.get i).toInt.natAbs + 1 := by
  have step := (sound_watched hs).onCourse.step_le hr i
  have kept := Wheels.noFaster_of_eq_or (speeds_watched d) i
  omega

end Drive

namespace Controller

variable {past : List Moment} {m : Moment} {c : Controller}

/-- What is known from the last tick; `a` before the first. -/
def ofLastTick {α : Type} (a : α) (f : Moment → Round → α) (past : List Moment) : α :=
  past.foldl (fun latest m => m.result.elim latest (f m)) a

/-- The speeds that the last tick sent to the motors; zero before the first tick. -/
def lastSent (past : List Moment) : Wheels Int8 :=
  ofLastTick (Wheels.fill 0) (fun _ round => round.motors.map MotorBytes.setpoint) past

/-- The last tick held the wheels still for the charger. -/
def chargingLast (past : List Moment) : Bool :=
  ofLastTick false (fun m _ => m.before.drive.isCharging) past

/-- A command that sets duties took effect. -/
def Moment.SetsDuties (m : Moment) : Prop := ∃ f, m.Orders f ∧ f.motorMode = .wheelVoltage

theorem ofLastTick_append {α : Type} (a : α) (f : Moment → Round → α) (past : List Moment)
    (m : Moment) :
    ofLastTick a f (past ++ [m]) = m.result.elim (ofLastTick a f past) (f m) := by
  simp only [ofLastTick, List.foldl_append, List.foldl_cons, List.foldl_nil]

/-- What a run without duties keeps about the speeds that are sent. -/
structure Eased (past : List Moment) (c : Controller) : Prop where
  masked : chargingLast past = true → lastSent past = Wheels.fill 0
  close : chargingLast past = false → c.drive.ramp.speeds.NoFaster (lastSent past)
  /-- A drive that is not allowed rests, and no command can change that. -/
  still : c.drive.driveEnabled = false → c.running = false ∧ c.drive.Stopping 0

theorem Eased.append (h : Eased past c) (hr : m.result = none) : Eased (past ++ [m]) c := by
  have hc : chargingLast (past ++ [m]) = chargingLast past := by
    simp only [chargingLast, ofLastTick_append, hr, Option.elim_none]
  have hl : lastSent (past ++ [m]) = lastSent past := by
    simp only [lastSent, ofLastTick_append, hr, Option.elim_none]
  refine ⟨?_, ?_, h.still⟩
  · rw [hc, hl]
    exact h.masked
  · rw [hc, hl]
    exact h.close

theorem Eased.stopped (h : Eased past c) : Eased past c.stopped where
  masked := h.masked
  close _ := Wheels.noFaster_of_eq_or (.inr (Ramp.speeds_course_zero ..))
  still _ := ⟨rfl, stopping_still _ rfl⟩

theorem driveEnabled_driven (d : Drive) (f : Command) :
    (driven d f).driveEnabled = d.driveEnabled := by
  obtain ⟨mode, light, m1, m2, m3, colours⟩ := f
  cases mode <;> rfl

/-- Only duties take effect on the speeds at once; every other command leaves them to the ticks or
stops the wheels. -/
theorem speeds_driven (d : Drive) {f : Command} (hf : f.motorMode ≠ .wheelVoltage) :
    (driven d f).ramp.speeds = d.ramp.speeds ∨ (driven d f).ramp.speeds = Wheels.fill 0 := by
  obtain ⟨mode, light, m1, m2, m3, colours⟩ := f
  cases mode with
  | wheelVoltage => exact absurd rfl hf
  | wheelSpace | xyThetaSpace => exact .inl (Drive.speeds_aimed ..)
  | unknown => exact .inr (Ramp.speeds_course_zero ..)
  | exit | enableCharging | disableCharging | enableVref | disableVref | enableAmp | disableAmp =>
    exact .inl rfl

theorem Eased.applied (h : Eased past c) {f : Command}
    (hf : c.running → ¬ c.commandsDisabled → f.motorMode ≠ .wheelVoltage) :
    Eased past (c.applied f) := by
  by_cases hrun : c.running
  · simp only [Controller.applied, if_pos hrun]
    split
    · exact h.stopped
    · split
      · exact h
      · rename_i hd
        have free : f.motorMode ≠ .wheelVoltage := by
          intro hm
          refine hf hrun (fun hg => hd ⟨hg, ?_⟩) hm
          rw [hm]
          trivial
        refine ⟨h.masked, ?_, ?_⟩
        · intro hc i
          exact Nat.le_trans (Wheels.noFaster_of_eq_or (speeds_driven _ free) i) (h.close hc i)
        · intro off
          have halted := h.still ((driveEnabled_driven ..).symm.trans off)
          exact nomatch hrun.symm.trans halted.1
  · simp only [Controller.applied, if_neg hrun]
    exact h

theorem Eased.input {decoder : Decoder} {commandRead : Bool} (h : Eased past m.before)
    (hf : ¬ m.SetsDuties)
    (ha : m.after = m.command?.elim { m.before with decoder, commandRead }
      (Controller.applied { m.before with decoder, commandRead })) : Eased past m.after := by
  have read : Eased past { m.before with decoder, commandRead } := ⟨h.masked, h.close, h.still⟩
  rw [ha]
  cases hc : m.command? with
  | none => exact read
  | some f =>
    refine read.applied fun hrun hd hm => hf ⟨f, ⟨hc, ?_, hrun, hd⟩, hm⟩
    rw [hm]
    trivial

/-- A tick that is not held sends the speeds of the ramp. -/
theorem get_setpoints (d : Drive) (i : Fin 3) :
    (d.round.motors.map MotorBytes.setpoint).get i =
      if d.isHeld then 0 else d.ramp.speeds.get i := by
  rw [Wheels.get_map, setpoint_round]

theorem Eased.tick {replies : Replies} {ramp : Ramp} (hs : m.before.drive.Sound)
    (h : Eased past m.before) (hr : m.before.drive.watched.ramp.tick = .ok ramp)
    (hround : m.result = some (m.before.drive.ticked ramp).round) :
    Eased (past ++ [m])
      (answered { m.before with drive := m.before.drive.ticked ramp } replies) := by
  have hc : chargingLast (past ++ [m]) = m.before.drive.isCharging := by
    simp only [chargingLast, ofLastTick_append, hround, Option.elim_some]
  have hl : lastSent (past ++ [m]) =
      (m.before.drive.ticked ramp).round.motors.map MotorBytes.setpoint := by
    simp only [lastSent, ofLastTick_append, hround, Option.elim_some]
  have rest : m.before.drive.driveEnabled = false → (m.before.drive.ticked ramp).Stopping 0 :=
    fun off => (h.still off).2.watched.ticked hs hr
  rw [← Drive.isCharging_ticked m.before.drive ramp] at hc
  rw [← Drive.driveEnabled_ticked m.before.drive ramp] at rest
  refine ⟨?masked, ?close, ?still⟩
  case masked =>
    rw [hc, hl]
    intro charging
    apply Wheels.ext_get
    intro i
    rw [get_setpoints, Drive.isHeld, charging, Bool.or_true, if_pos rfl, Wheels.get_fill]
  case close =>
    rw [hc, hl]
    intro free i
    change (ramp.speeds.get i).toInt.natAbs ≤ _
    cases on : (m.before.drive.ticked ramp).driveEnabled with
    | true =>
      rw [get_setpoints, Drive.isHeld, free, on]
      exact Nat.le_refl _
    | false =>
      have zero : ramp.speeds = Wheels.fill 0 :=
        Drive.speeds_of_stopping (Drive.sound_ticked hs hr).onCourse (rest on)
      rw [zero]
      exact Wheels.noFaster_zero _ i
  case still =>
    intro (off : (m.before.drive.ticked ramp).driveEnabled = false)
    exact ⟨(h.still ((Drive.driveEnabled_ticked ..).symm.trans off)).1, rest off⟩

/-- Every run keeps a sound drive, and eased speeds as long as nobody sets duties. -/
def Sparing (past : List Moment) (c : Controller) : Prop :=
  c.drive.Sound ∧ ((∀ m ∈ past, ¬ m.SetsDuties) → Eased past c)

theorem Sparing.step (h : Sparing past m.before) (hm : m.Steps) :
    Sparing (past ++ [m]) m.after := by
  refine ⟨hm.moves.sound h.1, fun duties => ?_⟩
  rw [List.forall_mem_append, List.forall_mem_singleton] at duties
  have eased := h.2 duties.1
  cases hm with
  | start _ hr _ ha =>
    rw [ha]
    exact Eased.append ⟨eased.masked, eased.close, nofun⟩ hr
  | stop _ hr _ ha =>
    rw [ha]
    exact eased.stopped.append hr
  | gate _ _ hr _ ha =>
    rw [ha]
    exact Eased.append ⟨eased.masked, eased.close, eased.still⟩ hr
  | latch _ _ hr _ ha =>
    rw [ha]
    exact Eased.append ⟨eased.masked, eased.close, eased.still⟩ hr
  | input decoder commandRead _ hr _ ha => exact (eased.input duties.2 ha).append hr
  | tick replies ramp _ ht hround _ ha =>
    rw [ha]
    exact eased.tick h.1 ht hround

theorem sparing_initial : Sparing [] initial := by
  refine ⟨Drive.sound_initial, fun _ => ⟨nofun, fun _ => ?_, nofun⟩⟩
  exact Wheels.noFaster_of_eq_or (.inr (by decide))

/-- What a tick sends is at most one unit above the last, unless that was masked. -/
theorem Eased.sent_le {ramp : Ramp} (h : Eased past c) (hs : c.drive.Sound)
    (hr : c.drive.watched.ramp.tick = .ok ramp) (hc : chargingLast past = false) (i : Fin 3) :
    ((c.drive.ticked ramp).round.motors.get i).setpoint.toInt.natAbs ≤
      ((lastSent past).get i).toInt.natAbs + 1 := by
  rw [setpoint_round]
  split
  · exact Nat.zero_le _
  · exact Nat.le_trans (Drive.speeds_ticked_le hs hr i) (Nat.succ_le_succ (h.close hc i))

/-- In every run, as long as nobody has set duties, the speed sent to a motor jumps exactly where
the tick before held the wheels for the charger and the ramp has meanwhile gone beyond one unit. -/
theorem speed_jumps_iff (operations : List Operation) :
    ∃ moments last, initial.run operations = .ok (moments, last) ∧
      ∀ earlier m later round (i : Fin 3), moments = earlier ++ m :: later →
        m.result = some round → (∀ n ∈ earlier, ¬ n.SetsDuties) →
          (((lastSent earlier).get i).toInt.natAbs + 1 <
              (round.motors.get i).setpoint.toInt.natAbs ↔
            chargingLast earlier = true ∧ 1 < (round.motors.get i).setpoint.toInt.natAbs) := by
  obtain ⟨moments, last, hr, -, -, hk⟩ := Act.run_keeps
    (perform_keeps Sparing (fun _ _ h => h.1) fun _ _ => .step) operations [] initial
    sparing_initial
  refine ⟨moments, last, hr, ?_⟩
  intro earlier m later round i hs hround duties
  obtain ⟨⟨sound, hd⟩, happens, -⟩ := hk earlier m later hs
  have eased : Eased earlier m.before := hd duties
  cases steps_of_happens sound happens with
  | tick replies ramp _ ht hsent _ _ =>
    obtain rfl := Option.some.inj (hround.symm.trans hsent)
    cases hc : chargingLast earlier with
    | true =>
      rw [eased.masked hc, Wheels.get_fill]
      exact ⟨fun jump => ⟨rfl, jump⟩, fun jump => jump.2⟩
    | false =>
      have close := eased.sent_le sound ht hc i
      exact ⟨fun jump => absurd close (Nat.not_le.2 jump), fun jump => nomatch jump.1⟩
  | start _ hsent | stop _ hsent | gate _ _ hsent | input _ _ _ hsent | latch _ _ hsent =>
    exact nomatch hround.symm.trans hsent

/-- The wheels speed up, and one reply says that the charger is active. -/
def briefCharge : List Operation :=
  [.apply ⟨.wheelSpace, .none, 50, 50, 50, none⟩,
    .tick { Replies.initial with power := ⟨#v[Misalignment.padding, 120, 2, 0, 0, 0]⟩ },
    .tick .initial, .tick .initial]

/-- A brief charge makes the speeds 1, 0 and 3 follow each other. -/
theorem speed_jumps_after_charging : ¬ ∀ (operations : List Operation) (moments : List Moment)
    (last : Controller), initial.run (.start :: operations) = .ok (moments, last) →
      .start ∉ operations →
      (∀ m ∈ moments, ∀ f, m.command? = some f → f.motorMode ≠ .wheelVoltage) →
      ∀ earlier m later round (i : Fin 3), moments = earlier ++ m :: later →
        m.result = some round → (round.motors.get i).setpoint.toInt.natAbs ≤
          ((lastSent earlier).get i).toInt.natAbs + 1 := by
  intro gradual
  have modes : (initial.run (.start :: briefCharge)).map
      (·.1.filterMap fun m => m.command?.map Command.motorMode) = .ok [.wheelSpace] := rfl
  have before : (initial.run (.start :: briefCharge)).map
      (fun result => (lastSent (result.1.take 4)).get 0) = .ok 0 := rfl
  have now : (initial.run (.start :: briefCharge)).map (fun result => (result.1.drop 4).map
      fun m => m.result.map fun round => (round.motors.get 0).setpoint) = .ok [some 3] := rfl
  cases hr : initial.run (.start :: briefCharge) with
  | error fault =>
    rw [hr] at now
    cases now
  | ok result =>
    obtain ⟨moments, last⟩ := result
    rw [hr] at modes before now
    obtain ⟨m, hm, sent⟩ := List.map_eq_singleton_iff.1 (Except.ok.inj now)
    obtain ⟨round, hround, sent⟩ := Option.map_eq_some_iff.1 sent
    have velocities : ∀ m ∈ moments, ∀ f, m.command? = some f → f.motorMode ≠ .wheelVoltage := by
      intro m mem f hf
      have given : f.motorMode ∈ [MotorMode.wheelSpace] := by
        rw [← Except.ok.inj modes]
        exact List.mem_filterMap.2 ⟨m, mem, by rw [hf, Option.map_some]⟩
      rw [List.mem_singleton.1 given]
      exact nofun
    have sentBefore : (lastSent (moments.take 4)).get 0 = 0 := Except.ok.inj before
    have split : moments = moments.take 4 ++ m :: [] := by rw [← hm, List.take_append_drop]
    have close := gradual briefCharge moments last hr (by simp [briefCharge]) velocities _ m []
      round 0 split hround
    rw [sentBefore, sent] at close
    exact absurd close (by decide)

end Controller

end OmniDrive
