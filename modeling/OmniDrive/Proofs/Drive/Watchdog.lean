import Mathlib.Data.List.DropRight
import OmniDrive.Proofs.Drive.Runs

/-! The watchdog of the drive, tick by tick. What it has done to the drive is a function of the
ticks since the latest command alone, whatever else happened since. -/
namespace OmniDrive

theorem Ramp.tick_steady (speeds : Wheels Int8) : (steady speeds).tick = .ok (steady speeds) := by
  have hd : (steady speeds).total ≤ (steady speeds).elapsed := by
    simp only [steady, total_course, elapsed_course, span_self, Nat.le_refl, Nat.min_self]
  exact if_pos hd

namespace Drive

/-- The ticks since the latest command, or since the start if there was none. -/
def silence (past : List Operation) : Nat :=
  (past.rtakeWhile fun operation => !operation.isCommand).countP Operation.isTick

theorem silence_append (past : List Operation) (operation : Operation) :
    silence (past ++ [operation]) =
      if operation.isCommand then 0 else silence past + operation.isTick.toNat := by
  cases hc : operation.isCommand with
  | true => simp [silence, hc]
  | false =>
    cases ht : operation.isTick <;>
      simp [silence, hc, ht]

/-- The invariant of the watchdog's count, for a drive after so many ticks of silence. -/
structure Waited (d : Drive) (ticks : Nat) : Prop where
  sound : d.Sound
  count : d.idleTicks = ticks % patience
  stale : d.stale = true ↔ patience ≤ ticks
  stopping : patience ≤ ticks → d.Stopping (patience + 99 - ticks)
  /-- Duties are not approached gradually. -/
  atOnce : d.mode = .voltage → ∃ speeds, d.ramp = .steady speeds

variable {d : Drive} {ramp : Ramp} {ticks : Nat}

theorem waited_zero (hs : d.Sound) (hc : d.idleTicks = 0) (hf : d.stale = false)
    (ha : d.mode = .voltage → ∃ speeds, d.ramp = .steady speeds) : d.Waited 0 := by
  have hp : ¬ patience ≤ 0 := by decide
  refine ⟨hs, hc, ?_, fun hk => absurd hk hp, ha⟩
  rw [hf]
  exact iff_of_false Bool.false_ne_true hp

theorem waited_initial : initial.Waited 0 := waited_zero sound_initial rfl rfl nofun

/-- Once the wheels are on their way to rest, the watchdog leaves the ramp alone. -/
theorem Waited.ramp_watched (h : d.Waited ticks) (hk : patience ≤ ticks) :
    d.watched.ramp = d.ramp := by
  obtain ⟨ht, -⟩ := h.stopping hk
  unfold watched
  split
  · rfl
  · change d.stopRamp = d.ramp
    cases hm : d.mode with
    | velocity => exact stopRamp_of_targets hm ht
    | voltage =>
      obtain ⟨speeds, hr⟩ := h.atOnce hm
      rw [hr, Ramp.steady, Ramp.targets_course] at ht
      rw [stopRamp_of_voltage hm, hr, ht]

/-- The watchdog bites whenever the silence grows to a multiple of the patience. -/
theorem Waited.bites_or_counts (h : d.Waited ticks) :
    (d.idleTicks + 1 < patience ∧ d.idleTicks + 1 = (ticks + 1) % patience ∧
      (patience ≤ ticks ↔ patience ≤ ticks + 1)) ∨
    (patience ≤ d.idleTicks + 1 ∧ 0 = (ticks + 1) % patience ∧ patience ≤ ticks + 1) := by
  rw [h.count]
  unfold patience
  omega

theorem Waited.count_watched (h : d.Waited ticks) :
    d.watched.idleTicks = (ticks + 1) % patience := by
  unfold watched
  rcases h.bites_or_counts with ⟨early, hc, -⟩ | ⟨bite, hc, -⟩
  · rwa [if_pos early]
  · rwa [if_neg (Nat.not_lt.2 bite)]

theorem Waited.stale_watched (h : d.Waited ticks) :
    d.watched.stale = true ↔ patience ≤ ticks + 1 := by
  unfold watched
  rcases h.bites_or_counts with ⟨early, -, hk⟩ | ⟨bite, -, hk⟩
  · rw [if_pos early]
    exact h.stale.trans hk
  · rw [if_neg (Nat.not_lt.2 bite)]
    exact iff_of_true rfl hk

/-- The first bite sends the wheels to rest, and they are on their way ever after. -/
theorem Waited.stopping_watched (h : d.Waited ticks) (hk : patience ≤ ticks + 1) :
    d.watched.Stopping (patience + 100 - (ticks + 1)) := by
  rcases Nat.lt_or_eq_of_le hk with later | now
  · have hs := (h.stopping (Nat.le_of_lt_succ later)).watched
    rwa [show patience + 99 - ticks = patience + 100 - (ticks + 1) by omega] at hs
  · rw [← now, Nat.add_sub_cancel_left]
    refine stopping_watched_of_bite h.sound ?_
    rcases h.bites_or_counts with ⟨-, -, hk'⟩ | ⟨bite, -⟩
    · have := hk'.2 hk
      omega
    · exact bite

theorem Waited.atOnce_watched (h : d.Waited ticks) (hm : d.watched.mode = .voltage) :
    ∃ speeds, d.watched.ramp = .steady speeds := by
  rw [mode_watched] at hm
  unfold watched
  split
  · exact h.atOnce hm
  · exact ⟨_, stopRamp_of_voltage hm⟩

theorem Waited.ticked (h : d.Waited ticks) (hr : d.watched.ramp.tick = .ok ramp)
    (replies : Replies) : Waited { d.ticked ramp with replies } (ticks + 1) := by
  obtain ⟨hc, ht⟩ := sound_ticked h.sound hr
  refine ⟨⟨hc, ht⟩, h.count_watched, h.stale_watched, fun hk => ?_, fun hm => ?_⟩
  · have hs := Stopping.ticked h.sound hr (h.stopping_watched hk)
    rwa [show patience + 100 - (ticks + 1) - 1 = patience + 99 - (ticks + 1) by omega] at hs
  · obtain ⟨speeds, hw⟩ := h.atOnce_watched hm
    refine ⟨speeds, ?_⟩
    rw [hw, Ramp.tick_steady] at hr
    exact (Except.ok.inj hr).symm

/-- A new command ends the silence; orders to rest and switches neither end nor prolong it. -/
theorem Waited.moves {operation : Operation} {notices : List Notice} {after : Drive}
    (h : d.Waited ticks) (hm : d.Moves operation notices after) :
    after.Waited (if operation.isCommand then 0 else ticks + operation.isTick.toNat) := by
  cases hm with
  | command mode ramp hc hn hr ha =>
    rw [hc]
    exact waited_zero ⟨hr, Nat.zero_lt_succ _⟩ rfl rfl ha
  | halt =>
    exact ⟨⟨onCourse_still, h.sound.inTime⟩, h.count, h.stale,
      fun _ => ⟨Ramp.targets_course .., Nat.zero_le _⟩, fun _ => ⟨_, rfl⟩⟩
  | switch driveEnabled chargingEnabled hc ht =>
    rw [hc, ht]
    exact ⟨⟨h.sound.onCourse, h.sound.inTime⟩, h.count, h.stale, h.stopping, h.atOnce⟩
  | tick replies ramp hr => exact h.ticked hr replies

/-- The warning comes with the first bite only. -/
theorem Waited.timeouts_watchNotices (h : d.Waited ticks) :
    timeouts d.watchNotices = if ticks + 1 = patience then [patience] else [] := by
  unfold watchNotices
  rcases h.bites_or_counts with ⟨early, -, hk⟩ | ⟨bite, -, hk⟩
  · rw [if_pos early, if_neg (by omega)]
    rfl
  · have hn : d.idleTicks + 1 = patience := Nat.le_antisymm h.sound.inTime bite
    rw [if_neg (Nat.not_lt.2 bite), hn, timeouts, List.filterMap_append, ← timeouts, ← timeouts,
      timeouts_stopNotices, List.append_nil]
    cases hs : d.stale with
    | true =>
      have hlong : ticks + 1 ≠ patience := by
        have := h.stale.1 hs
        omega
      rw [if_neg hlong]
      rfl
    | false =>
      have hnow : ticks + 1 = patience := by
        have := mt h.stale.2 (Bool.eq_false_iff.1 hs)
        omega
      rw [if_pos hnow]
      rfl

/-- What shows of the watchdog on a drive after so many ticks without a command. -/
structure Unheard (d : Drive) (ticks : Nat) : Prop where
  count : d.idleTicks = ticks % patience
  stale : d.stale = true ↔ patience ≤ ticks
  targets : patience ≤ ticks → d.ramp.targets = Wheels.fill 0
  speeds : patience + 99 ≤ ticks → d.ramp.speeds = Wheels.fill 0

theorem Waited.unheard (h : d.Waited ticks) : d.Unheard ticks where
  count := h.count
  stale := h.stale
  targets := fun hk => (h.stopping hk).1
  speeds := fun hk => by
    have hs := h.stopping (Nat.le_trans (Nat.le_add_right ..) hk)
    rw [Nat.sub_eq_zero_of_le hk] at hs
    exact speeds_of_stopping h.sound.onCourse hs

/-- What the watchdog does in an operation that leaves so many ticks of silence behind it. -/
structure WatchedOver (m : Moment) (ticks : Nat) : Prop where
  unheard : m.after.Unheard ticks
  mode : m.operation.isTick = true → m.after.mode = m.before.mode
  /-- Once the wheels are on their way to rest, no later bite disturbs them. -/
  undisturbed : m.operation.isTick = true → patience < ticks →
    m.before.ramp.tick = .ok m.after.ramp
  warning : timeouts m.events =
    if m.operation.isTick = true ∧ ticks = patience then [patience] else []

theorem Waited.watchedOver {operation : Operation} {notices : List Notice} {after : Drive}
    (h : d.Waited ticks) (hm : d.Moves operation notices after) (round : Option Round) :
    WatchedOver ⟨d, operation, notices, round, after⟩
      (if operation.isCommand then 0 else ticks + operation.isTick.toNat) := by
  have hu := (h.moves hm).unheard
  cases hm with
  | command mode ramp hc hn hr ha =>
    have ht : operation.isTick = false := by
      cases operation <;> first | rfl | cases hc
    refine ⟨hu, fun hk => ?_, fun hk => ?_, ?_⟩
    · cases ht.symm.trans hk
    · cases ht.symm.trans hk
    · rw [ht]
      exact hn
  | halt => exact ⟨hu, nofun, nofun, rfl⟩
  | switch driveEnabled chargingEnabled hc ht =>
    refine ⟨hu, fun hk => rfl, fun hk => ?_, ?_⟩
    · cases ht.symm.trans hk
    · rw [ht]
      rfl
  | tick replies ramp hr =>
    refine ⟨hu, fun _ => mode_watched _, fun _ hk => ?_, ?_⟩
    · rwa [h.ramp_watched (Nat.le_of_lt_succ hk)] at hr
    · change timeouts d.watchNotices = if true = true ∧ ticks + 1 = patience then _ else _
      rw [h.timeouts_watchNotices]
      simp only [true_and]

/-- The drive has waited since the latest command of its past. -/
def WaitedAfter (past : List Moment) (d : Drive) : Prop :=
  d.Waited (silence (past.map Act.Moment.operation))

theorem WaitedAfter.step {past : List Moment} (h : d.WaitedAfter past) (operation : Operation) :
    ∃ notices round after, d.perform operation = Act.done notices (after, round) ∧
      after.WaitedAfter (past ++ [⟨d, operation, notices, round, after⟩]) := by
  obtain ⟨notices, round, after, hp, hm⟩ := perform_moves h.sound operation
  refine ⟨notices, round, after, hp, ?_⟩
  unfold WaitedAfter
  rw [List.map_append, List.map_singleton, silence_append]
  exact h.moves hm

/-- The watchdog bites after fifty ticks without a command, and again every fifty ticks. It warns
at the first bite only, and the wheels rest within ninety-nine ticks from there. -/
theorem watchdog_exact (operations : List Operation) :
    ∃ moments last, Act.run perform initial operations = .ok (moments, last) ∧
      moments.map Act.Moment.operation = operations ∧ last.Unheard (silence operations) ∧
      ∀ earlier m later, moments = earlier ++ m :: later →
        WatchedOver m (silence ((earlier ++ [m]).map Act.Moment.operation)) := by
  have step (past : List Moment) (d : Drive) (operation : Operation) (h : WaitedAfter past d) :=
    h.step operation
  obtain ⟨moments, last, hr, ho, hl, hm⟩ :=
    Act.run_keeps step operations [] initial waited_initial
  rw [List.nil_append, WaitedAfter, ho] at hl
  refine ⟨moments, last, hr, ho, hl.unheard, fun earlier m later hs => ?_⟩
  obtain ⟨hb, happens, -⟩ := hm earlier m later hs
  rw [List.map_append, List.map_singleton, silence_append]
  exact Waited.watchedOver hb (moves_of_happens hb.sound happens) m.result

end Drive

end OmniDrive
