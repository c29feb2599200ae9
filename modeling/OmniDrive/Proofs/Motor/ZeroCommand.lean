import OmniDrive.Proofs.Motor.Loop

/-! What a zero command does to a motor. A correction that the current limiter built up under an
earlier setpoint outlives that setpoint, and while the bridge runs in reverse it keeps driving. -/
namespace OmniDrive

namespace BridgeDriver

def IsOff (d : BridgeDriver) : Prop := d.bridge.dutyA = 0 ∧ d.bridge.dutyB = 0

theorem compareValue_ne_zero {magnitude : Nat} (h : 0 < magnitude) :
    compareValue magnitude ≠ 0 := by
  unfold compareValue
  split
  · decide
  · intro hz
    have ht := congrArg UInt8.toNat hz
    rw [Nat.toUInt8, UInt8.toNat_ofNat'] at ht
    change 2 * magnitude % 256 = 0 at ht
    omega

theorem symmetric_eq_self {speed : Int8} (h : -127 ≤ speed.toInt) : symmetric speed = speed := by
  unfold symmetric
  apply if_neg
  rw [Int8.lt_iff_toInt_lt]
  exact Int.not_lt.2 h

theorem isOff_release (d : BridgeDriver) (speed : Int8) :
    IsOff ⟨d.bridge.writeAll release, speed⟩ := ⟨rfl, rfl⟩

theorem drive_zero (d : BridgeDriver) : (d.response 0).1 = 0 ∧ (d.drive 0).1.IsOff := by
  have hr : d.response 0 = (0, release) := by
    unfold response
    dsimp only
    split
    · rfl
    · rfl
  unfold drive
  rw [hr]
  exact ⟨rfl, isOff_release d _⟩

/-- A request to reverse is carried out only if the bridge was asked to reverse before. -/
theorem drive_reverse (d : BridgeDriver) {speed : Int8} (low : -127 ≤ speed.toInt)
    (h : speed.toInt < 0) :
    if d.lastSpeed.toInt < 0 then (d.response speed).1 = speed ∧ ¬ (d.drive speed).1.IsOff
    else (d.response speed).1 = 0 ∧ (d.drive speed).1.IsOff := by
  have backward : ∀ {s : Int8}, isForward s = false ↔ s.toInt < 0 := by
    intro s
    unfold isForward
    rw [decide_eq_false_iff_not, Int8.le_iff_toInt_le, Int.not_le]
    rfl
  have hs : isForward speed = false := backward.2 h
  unfold drive response
  dsimp only
  rw [symmetric_eq_self low, hs]
  split
  · rename_i hd
    rw [if_pos (backward.2 hd).symm]
    refine ⟨rfl, ?_⟩
    have hc : conduct speed =
        [.duty 0 (compareValue speed.toInt.natAbs), .lowSide true false] := by
      unfold conduct
      dsimp only
      rw [if_neg (mt Int8.lt_iff_toInt_lt.1 (Int.not_lt.2 (Int.le_of_lt h))),
        if_pos (Int8.lt_iff_toInt_lt.2 h)]
    rw [hc]
    rintro ⟨-, hb⟩
    exact compareValue_ne_zero (Int.natAbs_pos.2 (Int.ne_of_lt h)) hb
  · rename_i hd
    rw [if_neg fun he => hd (backward.1 he.symm)]
    exact ⟨rfl, isOff_release d _⟩

end BridgeDriver

namespace CurrentLimiter

variable {l : CurrentLimiter}

/-- What is left of the correction under a zero setpoint. -/
def leftover (l : CurrentLimiter) (current : UInt8) : Int :=
  if 25 < current.toNat then 0 else min (l.correction + (25 - current.toNat)) 0

theorem corrected_zero (h : l.Within 127) (current : UInt8) :
    l.corrected 0 current = l.leftover current := by
  obtain ⟨low, high⟩ := h
  have hz : ((0 : Int8).toInt.natAbs : Int) = 0 := rfl
  unfold corrected leftover limit
  rw [hz]
  split
  · split <;> omega
  · split <;> omega

end CurrentLimiter

namespace Motor

/-- The latched setpoint asks for no drive. -/
def IsIdle (m : Motor) : Prop :=
  m.setpoint = 0 ∨ m.mode = .velocity ∧ 100 < m.setpoint.toInt.natAbs

/-- The bridge runs in reverse, the power limiter lets it, the current is not too high and at least
one step of an earlier correction is left. -/
def PullsOn (m : Motor) (measured : Measurement) : Prop :=
  m.driver.lastSpeed.toInt < 0 ∧ ¬ m.IsCut measured.current ∧ measured.current.toNat ≤ 25 ∧
    m.currentLimiter.correction + (25 - measured.current.toNat) ≤ -32

theorem request_idle {m : Motor} (h : m.IsIdle) (clicks : Int8) :
    m.request clicks = .ok (m.regulator, 0) := by
  unfold request
  cases hm : m.mode with
  | velocity =>
    have hn : Regulator.isNeutral m.setpoint = true := by
      unfold Regulator.isNeutral
      rw [Bool.or_eq_true, beq_iff_eq, decide_eq_true_iff]
      exact h.imp id And.right
    exact if_pos hn
  | voltage =>
    have hz : m.setpoint = 0 := h.resolve_right fun hv => nomatch hm.symm.trans hv.1
    rw [hz]
    rfl

/-- Under a zero setpoint the current limiter hands on what is left of its correction. -/
theorem limited_zero {m : Motor} (h : m.currentLimiter.Within 127) (current : UInt8) :
    (m.limited 0 current).toInt = -(-m.currentLimiter.leftover current / 32) ∧
      -127 ≤ (m.limited 0 current).toInt := by
  have hs : (0 : Int8).toInt.natAbs ≤ 127 := by decide
  have hw := CurrentLimiter.corrected_within h hs current
  rw [CurrentLimiter.corrected_zero h] at hw
  obtain ⟨low, high⟩ := hw
  unfold CurrentLimiter.scale at low
  dsimp only at low high
  have hp : m.currentLimiter.pull 0 current = -(-m.currentLimiter.leftover current / 32) := by
    unfold CurrentLimiter.pull
    rw [CurrentLimiter.corrected_zero h, CurrentLimiter.tdiv_scale_eq high]
    exact Int.mul_one _
  have hc : Word.int8.Holds (m.currentLimiter.pull 0 current) := by
    constructor <;> simp only [Word.int8] <;> omega
  have hz : (0 : Int8).toInt = 0 := rfl
  have hl : (m.limited 0 current).toInt = -(-m.currentLimiter.leftover current / 32) := by
    unfold limited
    rw [hz, Int.zero_add, Word.clamp_eq_self hc, hp]
    exact Int8.toInt_ofInt_of_le (by omega) (by omega)
  exact ⟨hl, by omega⟩

theorem asked_pullsOn {m : Motor} (h : m.currentLimiter.Within 127) {measured : Measurement}
    (hp : m.PullsOn measured) :
    (m.asked 0 measured.current).toInt =
        (m.currentLimiter.correction + (25 - measured.current.toNat)).tdiv 32 ∧
      -127 ≤ (m.asked 0 measured.current).toInt ∧ (m.asked 0 measured.current).toInt < 0 := by
  obtain ⟨hz, low⟩ := limited_zero h measured.current
  obtain ⟨-, uncut, small, left⟩ := hp
  have ha : m.asked 0 measured.current = m.limited 0 measured.current := if_neg uncut
  have hr : m.currentLimiter.leftover measured.current =
      m.currentLimiter.correction + (25 - measured.current.toNat) := by
    unfold CurrentLimiter.leftover
    rw [if_neg (Nat.not_lt.2 small)]
    omega
  have hd := CurrentLimiter.tdiv_scale_eq
    (show m.currentLimiter.correction + (25 - measured.current.toNat) ≤ 0 by omega)
  unfold CurrentLimiter.scale at hd
  rw [ha, hd]
  rw [hr] at hz
  omega

/-- A bridge that does not pull on is asked for nothing, or to turn round. -/
theorem asked_not_pullsOn {m : Motor} (h : m.currentLimiter.Within 127) {measured : Measurement}
    (hp : ¬ m.PullsOn measured) :
    m.asked 0 measured.current = 0 ∨ ¬ m.driver.lastSpeed.toInt < 0 ∧
      -127 ≤ (m.asked 0 measured.current).toInt ∧ (m.asked 0 measured.current).toInt < 0 := by
  obtain ⟨hz, low⟩ := limited_zero h measured.current
  unfold asked
  split
  · exact .inl rfl
  · rename_i uncut
    rcases Int.lt_or_le (m.limited 0 measured.current).toInt 0 with back | still
    · refine .inr ⟨fun hd => hp ⟨hd, uncut, ?_⟩, low, back⟩
      unfold CurrentLimiter.leftover at hz
      split at hz <;> omega
    · left
      apply Int8.toInt_inj.1
      unfold CurrentLimiter.leftover at hz
      change _ = (0 : Int)
      split at hz <;> omega

/-- After a zero command the next tick of a reachable motor drives nothing, unless the leftover of
the current limiter pulls on in reverse, and then it drives that. -/
theorem tick_of_idle {m : Motor} (h : m.Reachable) (hi : m.IsIdle) (measured : Measurement) :
    ∃ notices after writes, m.tick measured = Act.done notices (after, writes) ∧
      (after.duty = 0 ∧ after.driver.IsOff ↔ ¬ m.PullsOn measured) ∧
      (m.PullsOn measured → after.duty.toInt =
        (m.currentLimiter.correction + (25 - measured.current.toNat)).tdiv 32) := by
  have hl := h.currentLimiter
  obtain ⟨notices, ht⟩ := tick_eq (hl.mono (by decide)) (request_idle hi measured.clicks)
  refine ⟨notices, _, _, ht, ?_⟩
  change ((m.driver.response (m.asked 0 measured.current)).1 = 0 ∧
    (m.driver.drive (m.asked 0 measured.current)).1.IsOff ↔ ¬ m.PullsOn measured) ∧
    (m.PullsOn measured → (m.driver.response (m.asked 0 measured.current)).1.toInt = _)
  by_cases hp : m.PullsOn measured
  · obtain ⟨hv, low, back⟩ := asked_pullsOn hl hp
    have hd := m.driver.drive_reverse low back
    rw [if_pos hp.1] at hd
    refine ⟨iff_of_false (fun off => hd.2 off.2) (fun hn => hn hp), fun _ => ?_⟩
    rw [hd.1, hv]
  · refine ⟨iff_of_true ?_ hp, fun hn => absurd hn hp⟩
    rcases asked_not_pullsOn hl hp with hz | ⟨hd, low, back⟩
    · rw [hz]
      exact m.driver.drive_zero
    · have ht := m.driver.drive_reverse low back
      rw [if_neg hd] at ht
      exact ht

/-- A motor that met too much current in reverse before its command was withdrawn. -/
def strained : Motor :=
  { initial .pd with
    driver := ⟨(initial .pd).driver.bridge, -93⟩
    currentLimiter := ⟨-230⟩
    powerLimiter := (initial .pd).powerLimiter.after 255 120
    regulator := ⟨.pd, 0, 7, 0⟩
    mode := .voltage
    setpoint := 0
    busVoltage := 120
    measured := ⟨0, 255, 30⟩ }

theorem reachable_strained : strained.Reachable := by
  have sent := @Reachable.exchange _ _ #v[0x7B, 0x9C, 120, 0, 0] [] _ (.initial .pd) rfl
  have strain := @Reachable.tick _ _ ⟨0, 255, 30⟩ [] BridgeDriver.release sent rfl
  exact @Reachable.exchange _ _ #v[0x7B, 0, 120, 0, 0] [] _ strain rfl

/-- At the limit of the current the strained motor drives seven steps in reverse. -/
theorem strained_pulls_on : strained.Reachable ∧ strained.IsIdle ∧ strained.PullsOn ⟨0, 25, 30⟩ ∧
    ∃ notices after writes, strained.tick ⟨0, 25, 30⟩ = Act.done notices (after, writes) ∧
      after.duty.toInt = -7 := by
  have hp : strained.PullsOn ⟨0, 25, 30⟩ := ⟨by decide, by decide, by decide, by decide⟩
  obtain ⟨notices, after, writes, ht, -, hd⟩ :=
    tick_of_idle reachable_strained (.inl rfl) ⟨0, 25, 30⟩
  exact ⟨reachable_strained, .inl rfl, hp, notices, after, writes, ht, hd hp⟩

/-- A zero command alone does not stop every reachable motor. -/
theorem zero_command_not_enough : ¬ ∀ m : Motor, m.Reachable → m.IsIdle → ∀ measured,
    ∃ notices after writes, m.tick measured = Act.done notices (after, writes) ∧
      after.duty = 0 ∧ after.driver.IsOff := by
  intro stops
  obtain ⟨notices, after, writes, ht, hd, -⟩ :=
    stops strained reachable_strained (.inl rfl) ⟨0, 25, 30⟩
  have hs : strained.tick ⟨0, 25, 30⟩ = Act.done [] (strained.ticked ⟨.pd, 0, 7, 0⟩ 0 ⟨0, 25, 30⟩,
      [.duty 0 14, .lowSide true false]) := rfl
  cases ht.symm.trans hs
  exact absurd hd (by decide)

end Motor

end OmniDrive
