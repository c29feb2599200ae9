import OmniDrive.Proofs.Motor.Regulation

/-! A motor that draws so little that neither limiter has anything to do. What its regulator or its
setpoint wants is what the bridge is asked for. -/
namespace OmniDrive

namespace CurrentLimiter

variable {l : CurrentLimiter} {current : UInt8}

/-- Without a correction and at a moderate current no correction is built up. -/
theorem corrected_eq_zero (h : l.correction = 0) (hc : current.toNat ≤ 25) (setpoint : Int8) :
    l.corrected setpoint current = 0 := by
  unfold corrected limit
  rw [h, if_neg (by omega)]
  omega

theorem pull_eq_zero (h : l.correction = 0) (hc : current.toNat ≤ 25) (setpoint : Int8) :
    l.pull setpoint current = 0 := by
  unfold pull
  rw [corrected_eq_zero h hc, Int.zero_tdiv, Int.zero_mul]

end CurrentLimiter

namespace PowerLimiter

variable {p : PowerLimiter} {peak : Nat} {current bus : UInt8}

theorem Below.mono {higher : Nat} (h : p.Below peak) (hp : peak ≤ higher) : p.Below higher :=
  fun c hc => Nat.le_trans (h c hc) hp

theorem below_initial (peak : Nat) : initial.Below peak := by
  intro c hc
  rw [(Vector.mem_replicate.1 hc).2]
  exact Nat.zero_le _

theorem Below.record (h : p.Below peak) (hc : current.toNat ≤ peak) :
    (p.record current).Below peak := by
  intro c hm
  have set : c ∈ p.history.set p.next current p.next.isLt := hm
  rcases Vector.mem_or_eq_of_mem_set set with old | rfl
  · exact h c old
  · exact hc

/-- The estimate stays below what the peak would make of the supply voltage. -/
theorem Below.estimate_le (h : p.Below peak) (hc : current.toNat ≤ peak) :
    p.estimate current bus ≤ peak * bus.toNat := by
  refine Nat.mul_le_mul_right _ (Nat.div_le_of_le_mul ?_)
  rw [Nat.mul_comm]
  exact (h.record hc).total_le

/-- A limiter that is not tripped stays so below the power that trips it. -/
theorem isTripped_after (h : p.isTripped = false) (quiet : p.estimate current bus ≤ tripPower) :
    (p.after current bus).isTripped = false := by
  have same : (p.after current bus).decay = p.decay := by
    unfold after
    dsimp only
    rw [if_neg (Nat.not_lt.2 quiet), h, if_neg Bool.false_ne_true]
  unfold isTripped
  rw [same]
  exact h

end PowerLimiter

namespace Motor

/-- Neither limiter holds anything back, no current above `peak` is remembered, and the regulator's
memory is bounded. -/
structure Calm (peak : Nat) (m : Motor) : Prop where
  uncorrected : m.currentLimiter.correction = 0
  untripped : m.powerLimiter.isTripped = false
  below : m.powerLimiter.Below peak
  tame : m.regulator.Tame Regulator.settledReach

variable {m : Motor} {peak : Nat} {measured : Measurement} {regulator : Regulator} {wanted : Int8}

theorem calm_initial (law : Regulator.Law) (peak : Nat) : (initial law).Calm peak where
  uncorrected := rfl
  untripped := rfl
  below := PowerLimiter.below_initial peak
  tame := Regulator.tame_initial law _

theorem Calm.mono {higher : Nat} (h : m.Calm peak) (hp : peak ≤ higher) : m.Calm higher :=
  { h with below := h.below.mono hp }

/-- A packet changes what is wanted, not what protects. -/
theorem Calm.latched (h : m.Calm peak) (mode : DriveMode) (setpoint : Int8) (busVoltage : UInt8) :
    Calm peak { m with mode, setpoint, busVoltage } :=
  ⟨h.uncorrected, h.untripped, h.below, h.tame⟩

theorem Calm.within (h : m.Calm peak) : m.currentLimiter.Within 128 := by
  unfold CurrentLimiter.Within CurrentLimiter.scale
  rw [h.uncorrected]
  decide

/-- The regulator of a calm motor completes and stays bounded. -/
theorem Calm.request (h : m.Calm peak) (clicks : Int8) : ∃ regulator wanted,
    m.request clicks = .ok (regulator, wanted) ∧ regulator.Tame Regulator.settledReach := by
  unfold Motor.request
  cases m.mode with
  | velocity => exact h.tame.tick (Nat.le_refl _) (by decide) m.setpoint clicks
  | voltage => exact ⟨m.regulator, _, rfl, h.tame⟩

section Moderate

variable (h : m.Calm peak) (hp : peak ≤ 25) (hv : peak * m.busVoltage.toNat ≤ 2000)
  (hc : measured.current.toNat ≤ peak)
include h hp hc

theorem Calm.limited_eq (wanted : Int8) : m.limited wanted measured.current = wanted :=
  limited_of_pull_eq_zero (CurrentLimiter.pull_eq_zero h.uncorrected (Nat.le_trans hc hp) wanted)

include hv in
/-- At a moderate current a calm motor asks the bridge for what is wanted. -/
theorem Calm.asked_eq (wanted : Int8) : m.asked wanted measured.current = wanted := by
  have uncut : ¬ m.IsCut measured.current := by
    rintro (trips | tripped)
    · exact Nat.not_lt.2 (Nat.le_trans (h.below.estimate_le hc) hv) trips
    · exact nomatch h.untripped.symm.trans tripped
  unfold asked
  rw [if_neg uncut, h.limited_eq hp hc]

include hv in
/-- At a moderate current a calm motor stays calm. -/
theorem Calm.ticked (ht : regulator.Tame Regulator.settledReach) (wanted : Int8) :
    (m.ticked regulator wanted measured).Calm peak where
  uncorrected := CurrentLimiter.corrected_eq_zero h.uncorrected (Nat.le_trans hc hp) wanted
  untripped :=
    PowerLimiter.isTripped_after h.untripped (Nat.le_trans (h.below.estimate_le hc) hv)
  below := h.below.record hc
  tame := by
    change (regulator.fold (m.currentLimiter.pull wanted measured.current)).Tame _
    rw [CurrentLimiter.pull_eq_zero h.uncorrected (Nat.le_trans hc hp), ht.fold_zero (by decide)]
    exact ht

include hv in
/-- A calm motor's tick completes; the bridge drives what is wanted. -/
theorem Calm.tick : ∃ regulator wanted notices after writes,
    m.request measured.clicks = .ok (regulator, wanted) ∧
      m.tick measured = Act.done notices (after, writes) ∧ after.Calm peak ∧
      after.measured = measured ∧ after.driver = (m.driver.drive wanted).1 := by
  obtain ⟨regulator, wanted, hr, ht⟩ := h.request measured.clicks
  obtain ⟨notices, hd⟩ := tick_eq h.within hr
  refine ⟨regulator, wanted, notices, _, _, hr, hd, h.ticked hp hv hc ht wanted, rfl, ?_⟩
  change (m.driver.drive (m.asked wanted measured.current)).1 = _
  rw [h.asked_eq hp hv hc]

end Moderate

end Motor

end OmniDrive
