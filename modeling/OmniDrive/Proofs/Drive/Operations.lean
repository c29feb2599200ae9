import OmniDrive.Drive.Basic
import OmniDrive.Proofs.Drive.Course
import OmniDrive.Proofs.Drive.WheelSpeeds

/-! What each operation of the drive leaves behind. On a sound drive every one of them completes,
and the drive stays sound. -/
namespace OmniDrive.Drive

/-- The ramp is on a course and the watchdog is about to bite in time. -/
structure Sound (d : Drive) : Prop where
  onCourse : d.ramp.OnCourse
  inTime : d.idleTicks < patience

/-- The ramp after a request for velocities. -/
def aimed (d : Drive) (targets : Wheels Int8) : Ramp :=
  if d.mode = .velocity ∧ targets.map clampSpeed = d.ramp.targets then d.ramp
  else .course d.ramp.speeds (targets.map clampSpeed) 0

def aimNotices (d : Drive) (targets : Wheels Int8) : List Notice :=
  if d.mode = .velocity ∧ targets.map clampSpeed = d.ramp.targets then []
  else [.slewing (targets.map clampSpeed) (Ramp.span d.ramp.speeds (targets.map clampSpeed))]

/-- The ramp after the watchdog's stop: on its way to rest, or at rest. -/
def stopRamp (d : Drive) : Ramp :=
  match d.mode with
  | .velocity => d.aimed (Wheels.fill 0)
  | .voltage => .steady (Wheels.fill 0)

def stopNotices (d : Drive) : List Notice :=
  match d.mode with
  | .velocity => d.aimNotices (Wheels.fill 0)
  | .voltage => []

/-- The drive after the watchdog has counted a tick. -/
def watched (d : Drive) : Drive :=
  if d.idleTicks + 1 < patience then { d with idleTicks := d.idleTicks + 1 }
  else { d.heard with ramp := d.stopRamp, stale := true }

/-- The drive after the first half of a tick that moved its ramp on to `ramp`. -/
def ticked (d : Drive) (ramp : Ramp) : Drive := { d.watched with ramp }

def watchNotices (d : Drive) : List Notice :=
  if d.idleTicks + 1 < patience then []
  else (if d.stale then [] else [.commandTimeout (d.idleTicks + 1)]) ++ d.stopNotices

theorem onCourse_still : (Ramp.steady (Wheels.fill 0)).OnCourse := by
  apply Ramp.OnCourse.steady
  intro i
  rw [Wheels.get_fill]
  exact inLimit_zero

theorem onCourse_aimed {d : Drive} (h : d.ramp.OnCourse) (targets : Wheels Int8) :
    (d.aimed targets).OnCourse := by
  unfold aimed
  split
  · exact h
  · exact .mk 0 h.speeds_inLimit (inLimit_map_clampSpeed targets)

theorem targets_aimed (d : Drive) (targets : Wheels Int8) :
    (d.aimed targets).targets = targets.map clampSpeed := by
  unfold aimed
  split
  · rename_i same
    exact same.2.symm
  · exact Ramp.targets_course ..

/-- A request for velocities leaves the present speeds to the ticks. -/
theorem speeds_aimed (d : Drive) (targets : Wheels Int8) :
    (d.aimed targets).speeds = d.ramp.speeds := by
  unfold aimed
  split
  · rfl
  · exact Ramp.speeds_course_zero ..

theorem setVelocities_eq {d : Drive} (h : d.ramp.OnCourse) (targets : Wheels Int8) :
    d.setVelocities targets = Act.done (d.aimNotices targets)
      { d.heard with mode := .velocity, ramp := d.aimed targets } := by
  have ha := Ramp.aim_eq h.speeds_inLimit (targets.map clampSpeed)
  rw [map_clampSpeed_eq (inLimit_map_clampSpeed targets)] at ha
  have hm : d.heard.mode = d.mode := rfl
  have hr : d.heard.ramp = d.ramp := rfl
  unfold setVelocities aimNotices aimed
  dsimp only
  rw [hm, hr]
  split
  · rename_i same
    rw [← same.1]
    rfl
  · simp only [ha, Act.lift_ok, Act.silent_bind, Ramp.total_course]
    exact Act.emit_bind _ _ rfl

/-- A body velocity is a request for the velocities that it asks of the wheels. -/
theorem setBodyVelocity_eq (d : Drive) (v : BodyVelocity) :
    d.setBodyVelocity v = d.setVelocities
      ((BodyVelocity.slowed (Gains.mounted.map v.rawSpeed)).map Int8.ofInt) := by
  simp only [setBodyVelocity, BodyVelocity.wheelSpeeds_eq, Act.lift_ok, Act.silent_bind]

theorem setDuties_eq (d : Drive) (duties : Wheels Int8) :
    d.setDuties duties = Act.done []
      { d.heard with mode := .voltage, ramp := .steady (duties.map clampSpeed) } := by
  simp only [setDuties, Ramp.jump_eq, Act.lift_ok, Act.silent_bind, Act.pure_eq_done]

theorem map_clampSpeed_zero : (Wheels.fill 0).map clampSpeed = Wheels.fill 0 := by decide

theorem halt_eq (d : Drive) :
    d.halt = Act.done [] { d with mode := .voltage, ramp := .steady (Wheels.fill 0) } := by
  simp only [halt, Ramp.jump_eq, map_clampSpeed_zero, Act.lift_ok, Act.silent_bind,
    Act.pure_eq_done]

theorem stopInMode_eq {d : Drive} (h : d.ramp.OnCourse) :
    d.stopInMode = Act.done d.stopNotices { d.heard with ramp := d.stopRamp } := by
  obtain ⟨ramp, mode, _, _, _, _, _⟩ := d
  cases mode with
  | velocity => exact setVelocities_eq h _
  | voltage => exact setDuties_eq _ _

/-- The watchdog counts the tick or stops the wheels; it never counts beyond its word. -/
theorem watch_eq {d : Drive} (h : d.Sound) : d.watch = Act.done d.watchNotices d.watched := by
  have ht : Word.uint32.Holds (d.idleTicks + 1 : Nat) := by
    have := h.inTime
    unfold patience at this
    constructor <;> simp only [Word.uint32] <;> omega
  unfold watch watchNotices watched
  rw [Word.count_eq_ok ht, Act.lift_ok, Act.silent_bind]
  split
  · rfl
  · have hs : stopInMode { d with idleTicks := d.idleTicks + 1 } =
        Act.done d.stopNotices { d.heard with ramp := d.stopRamp } := stopInMode_eq h.onCourse
    have after := Act.bind_eq_done (f := fun stopped => pure { stopped with stale := true }) hs rfl
    rw [List.append_nil] at after
    cases hst : d.stale with
    | true => exact after
    | false => exact Act.emit_bind _ _ after

theorem mode_watched (d : Drive) : d.watched.mode = d.mode := by
  unfold watched
  split <;> rfl

theorem driveEnabled_watched (d : Drive) : d.watched.driveEnabled = d.driveEnabled := by
  unfold watched
  split <;> rfl

theorem chargingEnabled_watched (d : Drive) : d.watched.chargingEnabled = d.chargingEnabled := by
  unfold watched
  split <;> rfl

theorem replies_watched (d : Drive) : d.watched.replies = d.replies := by
  unfold watched
  split <;> rfl

theorem onCourse_stopRamp {d : Drive} (h : d.ramp.OnCourse) : d.stopRamp.OnCourse := by
  unfold stopRamp
  split
  · exact onCourse_aimed h _
  · exact onCourse_still

theorem targets_stopRamp (d : Drive) : d.stopRamp.targets = Wheels.fill 0 := by
  unfold stopRamp
  split
  · rw [targets_aimed, map_clampSpeed_zero]
  · exact Ramp.targets_course ..

theorem stopRamp_of_voltage {d : Drive} (h : d.mode = .voltage) :
    d.stopRamp = .steady (Wheels.fill 0) := by
  unfold stopRamp
  rw [h]

/-- A ramp that already leads to rest is not started anew. -/
theorem stopRamp_of_targets {d : Drive} (h : d.mode = .velocity)
    (ht : d.ramp.targets = Wheels.fill 0) : d.stopRamp = d.ramp := by
  unfold stopRamp
  rw [h]
  exact if_pos ⟨h, map_clampSpeed_zero.trans ht.symm⟩

/-- The watchdog stops the wheels at once or leaves the present speeds to the ticks. -/
theorem speeds_watched (d : Drive) : d.watched.ramp.speeds = d.ramp.speeds ∨
    d.watched.ramp.speeds = Wheels.fill 0 := by
  unfold watched
  split
  · exact .inl rfl
  · cases hm : d.mode with
    | velocity =>
      refine .inl ?_
      change d.stopRamp.speeds = _
      rw [stopRamp, hm]
      exact speeds_aimed ..
    | voltage =>
      refine .inr ?_
      change d.stopRamp.speeds = _
      rw [stopRamp_of_voltage hm]
      exact Ramp.speeds_course_zero ..

theorem sound_watched {d : Drive} (h : d.Sound) : d.watched.Sound := by
  unfold watched
  split
  · rename_i early
    exact ⟨h.onCourse, early⟩
  · exact ⟨onCourse_stopRamp h.onCourse, Nat.zero_lt_succ _⟩

theorem sound_ticked {d : Drive} {ramp : Ramp} (h : d.Sound)
    (hr : d.watched.ramp.tick = .ok ramp) : (d.ticked ramp).Sound := by
  obtain ⟨next, hn, hc, -⟩ := (sound_watched h).onCourse.tick
  obtain rfl : next = ramp := Except.ok.inj (hn.symm.trans hr)
  exact ⟨hc, (sound_watched h).inTime⟩

/-- A tick lets the watchdog count and then moves the ramp on by one. -/
theorem beginTick_eq {d : Drive} (h : d.Sound) : ∃ ramp, d.watched.ramp.tick = .ok ramp ∧
    d.beginTick = Act.done d.watchNotices (d.ticked ramp, (d.ticked ramp).round) := by
  obtain ⟨ramp, hr, _⟩ := (sound_watched h).onCourse.tick
  refine ⟨ramp, hr, ?_⟩
  rw [← List.append_nil d.watchNotices]
  refine Act.bind_eq_done (watch_eq h) ?_
  simp only [hr, Act.lift_ok, Act.silent_bind, Act.pure_eq_done, ticked]

theorem sound_initial : initial.Sound := by
  refine ⟨?_, Nat.zero_lt_succ _⟩
  change Ramp.atRest.OnCourse
  rw [Ramp.atRest_eq]
  exact onCourse_still

/-- The wheels come to rest within so many ticks. -/
def Stopping (d : Drive) (ticks : Nat) : Prop :=
  d.ramp.targets = Wheels.fill 0 ∧ d.ramp.total ≤ d.ramp.elapsed + ticks

theorem speeds_of_stopping {d : Drive} (h : d.ramp.OnCourse) (hd : d.Stopping 0) :
    d.ramp.speeds = Wheels.fill 0 :=
  (h.speeds_eq_targets hd.2).trans hd.1

theorem Stopping.watched {d : Drive} {ticks : Nat} (h : d.Stopping ticks) :
    d.watched.Stopping ticks := by
  unfold Drive.watched
  split
  · exact h
  · have hr : d.stopRamp = d.ramp ∨ d.stopRamp = .steady (Wheels.fill 0) := by
      cases hm : d.mode with
      | velocity => exact .inl (stopRamp_of_targets hm h.1)
      | voltage => exact .inr (stopRamp_of_voltage hm)
    refine ⟨targets_stopRamp d, ?_⟩
    change d.stopRamp.total ≤ d.stopRamp.elapsed + ticks
    rcases hr with hr | hr
    · rw [hr]
      exact h.2
    · rw [hr]
      exact Nat.zero_le _

/-- When the watchdog bites, the way to rest takes at most a hundred ticks. -/
theorem stopping_watched_of_bite {d : Drive} (hs : d.Sound) (hb : patience ≤ d.idleTicks + 1) :
    d.watched.Stopping 100 := by
  have hw : d.watched = { d.heard with ramp := d.stopRamp, stale := true } :=
    if_neg (Nat.not_lt.2 hb)
  have ht : d.watched.ramp.targets = Wheels.fill 0 := by
    rw [hw]
    exact targets_stopRamp d
  have hl := (sound_watched hs).onCourse.total_le_of_targets_eq_zero ht
  exact ⟨ht, Nat.le_trans hl (Nat.le_add_left ..)⟩

/-- A tick brings the wheels one step nearer to rest. -/
theorem Stopping.ticked {d : Drive} {ramp : Ramp} {ticks : Nat} (hs : d.Sound)
    (hr : d.watched.ramp.tick = .ok ramp) (h : d.watched.Stopping ticks) :
    (d.ticked ramp).Stopping (ticks - 1) := by
  obtain ⟨next, hn, -, ht, hl, he⟩ := (sound_watched hs).onCourse.tick
  obtain rfl : next = ramp := Except.ok.inj (hn.symm.trans hr)
  obtain ⟨h0, h1⟩ := h
  refine ⟨ht.trans h0, ?_⟩
  change next.total ≤ next.elapsed + (ticks - 1)
  omega

end OmniDrive.Drive
