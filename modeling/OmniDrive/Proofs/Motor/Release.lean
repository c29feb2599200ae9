import OmniDrive.Proofs.Motor.DeadTime
import OmniDrive.Proofs.Motor.PowerWindow
import OmniDrive.Proofs.Motor.Winding

/-! How a motor that was held back is let go. While little current flows, every tick takes from the
correction and from the countdown, and the ring forgets what was too much. Once all of it is gone
the bridge needs one tick to turn round, and from then on it drives the duty that is asked for. -/
namespace OmniDrive

namespace CurrentLimiter

/-- At most so much correction is left. -/
def Eased (left : Nat) (l : CurrentLimiter) : Prop := -(left : Int) ≤ l.correction ∧ l.correction ≤ 0

variable {l : CurrentLimiter} {left : Nat} {current : UInt8}

/-- A current below the limit takes at least one unit off. -/
theorem Eased.corrected (h : l.Eased left) (hc : current.toNat ≤ 24) (setpoint : Int8) :
    Eased (left - 1) ⟨l.corrected setpoint current⟩ := by
  obtain ⟨low, high⟩ := h
  have moderate : ¬ limit - (current.toNat : Int) < 0 := by
    unfold limit
    omega
  unfold Eased CurrentLimiter.corrected
  rw [if_neg moderate]
  dsimp only [limit]
  omega

theorem Within.eased (h : l.Within 127) : l.Eased 4064 := h

theorem Eased.eq_zero (h : l.Eased 0) : l.correction = 0 := Int.le_antisymm h.2 h.1

end CurrentLimiter

namespace PowerLimiter

/-- The currents that are remembered, the oldest one first. -/
def queue (p : PowerLimiter) : List UInt8 := p.history.toList.rotate p.next

/-- No more than `peak` has flowed in the last ticks, so many of them. What is left of the countdown
is what the last trip before them can have left. -/
structure Calmed (peak ticks : Nat) (p : PowerLimiter) : Prop where
  recent : ∀ current ∈ p.queue.rtake ticks, current.toNat ≤ peak
  countdown : p.decay.toNat ≤ 354 - ticks

variable {p : PowerLimiter} {peak ticks : Nat} {current bus : UInt8}

theorem calmed_zero (peak : Nat) (p : PowerLimiter) : p.Calmed peak 0 where
  recent := by
    intro current hc
    rw [List.rtake_zero] at hc
    exact absurd hc List.not_mem_nil
  countdown := by
    have := p.decay.toNat_lt
    omega

theorem length_queue (p : PowerLimiter) : p.queue.length = 100 := by
  rw [queue, List.length_rotate, Vector.length_toList]

/-- After a hundred ticks nothing else is remembered. -/
theorem below_of_recent (h : ∀ current ∈ p.queue.rtake ticks, current.toNat ≤ peak)
    (hk : 100 ≤ ticks) : p.Below peak := by
  intro current hc
  apply h
  rw [List.rtake, length_queue, Nat.sub_eq_zero_of_le hk, List.drop_zero]
  exact List.mem_rotate.2 (Vector.mem_toList_iff.2 hc)

theorem recent_record (h : ∀ current ∈ p.queue.rtake ticks, current.toNat ≤ peak)
    (hc : current.toNat ≤ peak) :
    ∀ c ∈ (p.record current).queue.rtake (ticks + 1), c.toNat ≤ peak := by
  intro c hm
  have turned : (p.record current).queue = p.queue.tail ++ [current] := rotate_record p current
  rw [turned, List.rtake_concat_succ] at hm
  rcases List.mem_append.1 hm with old | new
  · rw [List.rtake, List.drop_tail, List.length_tail, length_queue] at old
    refine h c (List.drop_subset_drop_left _ ?_ old)
    rw [length_queue]
    omega
  · rwa [List.mem_singleton.1 new]

/-- A tick in which all that is remembered is little cannot trip the limiter. -/
theorem estimate_le_of_recent (h : ∀ c ∈ (p.record current).queue.rtake ticks, c.toNat ≤ peak)
    (hk : 100 ≤ ticks) (hp : peak * bus.toNat ≤ tripPower) :
    p.estimate current bus ≤ tripPower := by
  refine Nat.le_trans (Nat.mul_le_mul_right _ (Nat.div_le_of_le_mul ?_)) hp
  rw [Nat.mul_comm]
  exact (below_of_recent h hk).total_le

theorem Calmed.after (h : p.Calmed peak ticks) (hc : current.toNat ≤ peak)
    (hp : peak * bus.toNat ≤ tripPower) : (p.after current bus).Calmed peak (ticks + 1) where
  recent := recent_record h.recent hc
  countdown := by
    have before := h.countdown
    rw [toNat_decay_after]
    split
    · rename_i trips
      have early : ticks + 1 < 100 := by
        refine Nat.lt_of_not_le fun late => Nat.not_lt.2 ?_ trips
        exact estimate_le_of_recent (recent_record h.recent hc) late hp
      omega
    · omega

theorem Calmed.not_tripped (h : p.Calmed peak ticks) (hk : 354 ≤ ticks) : p.isTripped = false := by
  rw [← Bool.not_eq_true, isTripped_iff]
  have := h.countdown
  omega

end PowerLimiter

namespace Bridge

open BridgeDriver (conduct release takeover)

variable {b : Bridge}

theorem enabled_drive (d : BridgeDriver) (speed : Int8) :
    (d.drive speed).1.bridge.enabled = d.bridge.enabled := by
  unfold BridgeDriver.drive BridgeDriver.response conduct release
  dsimp only
  split
  · split
    · rfl
    · split <;> rfl
  · rfl

/-- The writes for a duty set every line but the one that enables the bridge. -/
theorem writeAll_conduct (h : b.enabled = true) (speed : Int8) :
    b.writeAll (conduct speed) = off.writeAll (takeover ++ conduct speed) := by
  obtain ⟨dutyA, dutyB, lowA, lowB, enabled⟩ := b
  obtain rfl : enabled = true := h
  unfold conduct release
  dsimp only
  split
  · rfl
  · split <;> rfl

end Bridge

namespace BridgeDriver

theorem toInt_symmetric (speed : Int8) : (symmetric speed).toInt = max speed.toInt (-127) := by
  have low := speed.le_toInt
  unfold symmetric
  split
  · rename_i least
    rw [Int8.lt_iff_toInt_lt] at least
    change speed.toInt < -127 at least
    change -127 = _
    omega
  · rename_i within
    rw [Int8.lt_iff_toInt_lt] at within
    change ¬ speed.toInt < -127 at within
    omega

theorem symmetric_symmetric (speed : Int8) : symmetric (symmetric speed) = symmetric speed := by
  have within := natAbs_symmetric_le speed
  exact symmetric_eq_self (by omega)

/-- A bridge that was asked for a duty before drives it when it is asked for it again. -/
theorem response_again {d : BridgeDriver} {speed : Int8} (h : d.lastSpeed = symmetric speed) :
    d.response speed = (symmetric speed, conduct (symmetric speed)) := by
  unfold response
  dsimp only
  rw [h, if_pos rfl]

end BridgeDriver

namespace Motor

variable {m start : Motor} {ticks : Nat} {measured : Measurement}

section Ticked

variable (m : Motor) (regulator : Regulator) (wanted : Int8) (measured : Measurement)

theorem mode_ticked : (m.ticked regulator wanted measured).mode = m.mode := by
  rw [ticked]

theorem setpoint_ticked : (m.ticked regulator wanted measured).setpoint = m.setpoint := by
  rw [ticked]

theorem busVoltage_ticked : (m.ticked regulator wanted measured).busVoltage = m.busVoltage := by
  rw [ticked]

theorem driver_ticked : (m.ticked regulator wanted measured).driver =
    (m.driver.drive (m.asked wanted measured.current)).1 := by
  rw [ticked]

theorem currentLimiter_ticked : (m.ticked regulator wanted measured).currentLimiter =
    ⟨m.currentLimiter.corrected wanted measured.current⟩ := by
  rw [ticked]

theorem powerLimiter_ticked : (m.ticked regulator wanted measured).powerLimiter =
    m.powerLimiter.after measured.current m.busVoltage := by
  rw [ticked]

theorem duty_ticked : (m.ticked regulator wanted measured).duty =
    (m.driver.response (m.asked wanted measured.current)).1 := by
  rw [ticked]

end Ticked

theorem Reachable.enabled (h : m.Reachable) : m.driver.bridge.enabled = true := by
  induction h with
  | initial law => rfl
  | exchange _ he ih =>
    obtain ⟨_, _, _, rfl⟩ := exchange_changes he
    exact ih
  | tick hm ht ih =>
    obtain ⟨regulator, wanted, hr⟩ := request_of_tick ht
    obtain ⟨_, he⟩ := tick_eq (hm.currentLimiter.mono (by decide)) hr
    cases ht.symm.trans he
    rw [driver_ticked, Bridge.enabled_drive]
    exact ih

/-- The greatest current below the limit that does not trip the power limiter. -/
def safeCurrent (bus : UInt8) : Nat :=
  if bus.toNat = 0 then 24 else min 24 (2000 / bus.toNat)

theorem le_safeCurrent_iff {bus : UInt8} {current : Nat} :
    current ≤ safeCurrent bus ↔ current ≤ 24 ∧ current * bus.toNat ≤ 2000 := by
  unfold safeCurrent
  split
  · rename_i unpowered
    rw [unpowered, Nat.mul_zero]
    exact ⟨fun h => ⟨h, Nat.zero_le _⟩, And.left⟩
  · rename_i powered
    rw [Nat.le_min, Nat.le_div_iff_mul_le (Nat.pos_of_ne_zero powered)]

/-- A motor under raw duty, so many ticks after it began to draw little. The largest correction is
one of 4064 units. -/
structure Easing (m start : Motor) (ticks : Nat) : Prop where
  mode : m.mode = .voltage
  setpoint : m.setpoint = start.setpoint
  busVoltage : m.busVoltage = start.busVoltage
  enabled : m.driver.bridge.enabled = true
  eased : m.currentLimiter.Eased (4064 - ticks)
  calmed : m.powerLimiter.Calmed (safeCurrent start.busVoltage) ticks
  /-- The bridge was asked for the duty already. -/
  turned : 4064 ≤ ticks → m.driver.lastSpeed = BridgeDriver.symmetric start.setpoint

theorem Reachable.easing (h : m.Reachable) (hm : m.mode = .voltage) : m.Easing m 0 where
  mode := hm
  setpoint := rfl
  busVoltage := rfl
  enabled := h.enabled
  eased := h.currentLimiter.eased
  calmed := PowerLimiter.calmed_zero _ _
  turned := nofun

/-- What a motor does once nothing holds it back. -/
structure Drives (start : Motor) (t : Moment) : Prop where
  duty : t.after.duty.toInt = max start.setpoint.toInt (-127)
  writes : t.result = .writes (BridgeDriver.conduct t.after.duty)
  bridge : t.after.driver.bridge =
    Bridge.off.writeAll (BridgeDriver.takeover ++ BridgeDriver.conduct t.after.duty)
  uncorrected : t.after.currentLimiter.correction = 0
  untripped : t.after.powerLimiter.isTripped = false

theorem Easing.within (h : m.Easing start ticks) : m.currentLimiter.Within 128 := by
  obtain ⟨low, high⟩ := h.eased
  unfold CurrentLimiter.Within CurrentLimiter.scale
  omega

theorem Easing.request (h : m.Easing start ticks) (clicks : Int8) :
    m.request clicks = .ok (m.regulator, BridgeDriver.symmetric start.setpoint) := by
  unfold Motor.request
  rw [h.mode, h.setpoint]
  rfl

/-- The safe current does not trip the power limiter at the voltage of the start. -/
theorem Easing.power_le (h : m.Easing start ticks) :
    safeCurrent start.busVoltage * m.busVoltage.toNat ≤ PowerLimiter.tripPower := by
  rw [h.busVoltage]
  exact (le_safeCurrent_iff.1 (Nat.le_refl _)).2

section Safe

variable (h : m.Easing start ticks) (hc : measured.current.toNat ≤ safeCurrent start.busVoltage)
include h hc

theorem Easing.eased_ticked (wanted : Int8) :
    CurrentLimiter.Eased (4064 - (ticks + 1))
      ⟨m.currentLimiter.corrected wanted measured.current⟩ := by
  have eased := h.eased.corrected (le_safeCurrent_iff.1 hc).1 wanted
  rwa [Nat.sub_sub] at eased

theorem Easing.calmed_ticked : PowerLimiter.Calmed (safeCurrent start.busVoltage) (ticks + 1)
    (m.powerLimiter.after measured.current m.busVoltage) :=
  h.calmed.after hc h.power_le

/-- Once the countdown is over, a safe current passes the power limiter. -/
theorem Easing.not_isCut (hk : 354 ≤ ticks) : ¬ m.IsCut measured.current := by
  rintro (trips | tripped)
  · have recent := PowerLimiter.recent_record h.calmed.recent hc
    have quiet := PowerLimiter.estimate_le_of_recent recent (by omega) h.power_le
    exact Nat.not_lt.2 quiet trips
  · exact nomatch (h.calmed.not_tripped hk).symm.trans tripped

/-- Once the correction is gone too, the bridge is asked for what is wanted. -/
theorem Easing.asked_eq (hk : 4064 ≤ ticks + 1) (wanted : Int8) :
    m.asked wanted measured.current = wanted := by
  have gone : m.currentLimiter.corrected wanted measured.current = 0 := by
    have eased := h.eased_ticked hc wanted
    rw [Nat.sub_eq_zero_of_le hk] at eased
    exact eased.eq_zero
  rw [asked, if_neg (h.not_isCut hc (by omega))]
  refine limited_of_pull_eq_zero ?_
  rw [CurrentLimiter.pull, gone, Int.zero_tdiv, Int.zero_mul]

/-- The tick after that finds the bridge turned to the duty, and drives it. -/
theorem Easing.response_eq (hk : 4064 ≤ ticks) :
    m.driver.response (m.asked (BridgeDriver.symmetric start.setpoint) measured.current) =
      (BridgeDriver.symmetric start.setpoint,
        BridgeDriver.conduct (BridgeDriver.symmetric start.setpoint)) := by
  have settled := BridgeDriver.symmetric_symmetric start.setpoint
  have again := BridgeDriver.response_again ((h.turned hk).trans settled.symm)
  rw [h.asked_eq hc (Nat.le_succ_of_le hk), again, settled]

theorem Easing.ticked :
    (m.ticked m.regulator (BridgeDriver.symmetric start.setpoint) measured).Easing start
      (ticks + 1) where
  mode := (mode_ticked ..).trans h.mode
  setpoint := (setpoint_ticked ..).trans h.setpoint
  busVoltage := (busVoltage_ticked ..).trans h.busVoltage
  enabled := by
    rw [driver_ticked, Bridge.enabled_drive]
    exact h.enabled
  eased := by
    rw [currentLimiter_ticked]
    exact h.eased_ticked hc _
  calmed := by
    rw [powerLimiter_ticked]
    exact h.calmed_ticked hc
  turned := fun hk => by
    rw [driver_ticked, h.asked_eq hc hk]
    exact BridgeDriver.symmetric_symmetric _

theorem Easing.drives (hk : 4064 ≤ ticks) (notices : List Notice) : Drives start ⟨m, .tick measured,
    notices, .writes (m.driver.response
      (m.asked (BridgeDriver.symmetric start.setpoint) measured.current)).2,
    m.ticked m.regulator (BridgeDriver.symmetric start.setpoint) measured⟩ := by
  have response := h.response_eq hc hk
  have eased := h.eased_ticked hc (BridgeDriver.symmetric start.setpoint)
  rw [Nat.sub_eq_zero_of_le (Nat.le_succ_of_le hk)] at eased
  constructor
  · rw [duty_ticked, response]
    exact BridgeDriver.toInt_symmetric _
  · rw [duty_ticked, response]
  · rw [duty_ticked, driver_ticked, BridgeDriver.drive, response]
    exact Bridge.writeAll_conduct h.enabled _
  · rw [currentLimiter_ticked]
    exact eased.eq_zero
  · rw [powerLimiter_ticked]
    exact (h.calmed_ticked hc).not_tripped (by omega)

/-- A tick completes and eases the motor further; one that finds the bridge turned drives the duty
that is asked for. -/
theorem Easing.tick : ∃ notices after result,
    m.perform (.tick measured) = Act.done notices (after, result) ∧
      after.Easing start (ticks + 1) ∧
      (4064 ≤ ticks → Drives start ⟨m, .tick measured, notices, result, after⟩) := by
  obtain ⟨notices, ht⟩ := tick_eq h.within (h.request measured.clicks)
  have performed := Act.bind_pure_eq_done ht fun r => (r.1, Outcome.writes r.2)
  exact ⟨notices, _, _, performed, h.ticked hc, fun hk => h.drives hc hk notices⟩

end Safe

/-- Every tick of a run at safe currents completes; those that find the bridge turned drive. -/
theorem Easing.run {measurements : List Measurement} (h : m.Easing start ticks)
    (hc : ∀ measured ∈ measurements, measured.current.toNat ≤ safeCurrent start.busVoltage) :
    ∃ moments last, Act.run perform m (measurements.map .tick) = .ok (moments, last) ∧
      moments.map Act.Moment.operation = measurements.map .tick ∧
      ∀ earlier t later, moments = earlier ++ t :: later →
        4064 ≤ ticks + earlier.length → Drives start t := by
  induction measurements generalizing m ticks with
  | nil =>
    refine ⟨[], m, rfl, rfl, fun earlier t later split => ?_⟩
    exact absurd split.symm (List.append_ne_nil_of_right_ne_nil _ (List.cons_ne_nil _ _))
  | cons measured measurements ih =>
    obtain ⟨here, there⟩ := List.forall_mem_cons.1 hc
    obtain ⟨notices, after, result, hp, easing, drives⟩ := h.tick here
    obtain ⟨moments, last, hr, ho, hd⟩ := ih easing there
    refine ⟨_, last, Act.run_cons hp hr, ?_, fun earlier t later split far => ?_⟩
    · rw [List.map_cons, List.map_cons, ho]
    · rcases List.cons_eq_append_iff.1 split with ⟨rfl, same⟩ | ⟨front, rfl, same⟩
      · cases same
        exact drives far
      · rw [List.length_cons] at far
        exact hd front t later same (by omega)

/-- Protection always lets go. Under raw duty and at currents that are below the limit and do not
trip the power limiter, from the 4200th tick on the motor drives the duty that is asked for, with
no correction and untripped, wherever it has come from. -/
theorem protection_releases (h : m.Reachable) (hm : m.mode = .voltage)
    (measurements : List Measurement) (hc : ∀ measured ∈ measurements,
      measured.current.toNat ≤ 24 ∧ measured.current.toNat * m.busVoltage.toNat ≤ 2000) :
    ∃ moments last, Act.run perform m (measurements.map .tick) = .ok (moments, last) ∧
      moments.map Act.Moment.operation = measurements.map .tick ∧
      ∀ earlier t later, moments = earlier ++ t :: later →
        4200 ≤ (earlier ++ [t]).length → Drives m t := by
  have safe : ∀ measured ∈ measurements, measured.current.toNat ≤ safeCurrent m.busVoltage :=
    fun measured hx => le_safeCurrent_iff.2 (hc measured hx)
  obtain ⟨moments, last, hr, ho, hd⟩ := (h.easing hm).run safe
  refine ⟨moments, last, hr, ho, fun earlier t later split far => hd earlier t later split ?_⟩
  rw [List.length_append, List.length_singleton] at far
  omega

/-- A motor that was held back and then asked for reverse again, at a current of sixteen. -/
theorem strained_released : ∃ moments last,
    Act.run perform { strained with setpoint := -100 }
        ((List.replicate 4200 ⟨0, 16, 30⟩).map .tick) = .ok (moments, last) ∧
      moments.length = 4200 ∧ ∀ earlier t later, moments = earlier ++ t :: later →
        4200 ≤ (earlier ++ [t]).length → Drives { strained with setpoint := -100 } t := by
  have asked := @Reachable.exchange _ { strained with setpoint := -100 }
    #v[0x7B, 0x9C, 120, 0, 0] [] _ reachable_strained rfl
  obtain ⟨moments, last, hr, ho, hd⟩ := protection_releases asked rfl
    (List.replicate 4200 ⟨0, 16, 30⟩) fun measured hx => by
      rw [List.eq_of_mem_replicate hx]
      decide
  refine ⟨moments, last, hr, ?_, hd⟩
  have lengths := congrArg List.length ho
  rwa [List.length_map, List.length_map, List.length_replicate] at lengths

end Motor

end OmniDrive
