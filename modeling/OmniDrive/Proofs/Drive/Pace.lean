import OmniDrive.Proofs.Drive.Course

/-! How fast a ramp moves: in one tick no wheel goes farther than by one unit, and none goes away
from its target. The last tick, which sets the targets exactly, has no more than that left to do. -/
namespace OmniDrive.Ramp

/-- From one speed to the next a wheel goes by at most one unit, toward its target and not past
it. -/
def Toward (target before after : Int8) : Prop :=
  (before.toInt ≤ after.toInt ∧ after.toInt ≤ before.toInt + 1 ∧ after.toInt ≤ target.toInt) ∨
    (target.toInt ≤ after.toInt ∧ after.toInt ≤ before.toInt ∧ before.toInt ≤ after.toInt + 1)

theorem span_le {starts targets : Wheels Int8} (hs : ∀ i, InLimit (starts.get i))
    (ht : ∀ i, InLimit (targets.get i)) : span starts targets ≤ 200 := by
  apply Wheels.greatest_le
  intro i
  obtain ⟨_, _⟩ := hs i
  obtain ⟨_, _⟩ := ht i
  rw [Wheels.get_zipWith, way]
  omega

/-- The pace is the way in fractions divided by the ticks, in the direction of the target. -/
theorem pace_up {start target : Int8} (h : start.toInt ≤ target.toInt) (total : Nat) :
    pace start target total = (way start target * 65536 / total : Nat) := by
  unfold pace way
  split
  · rename_i hz
    rw [hz, Nat.div_zero]
    rfl
  · rw [Int.tdiv_eq_ediv_of_nonneg (by omega), Int.natCast_ediv, Int.natCast_mul,
      Int.natAbs_of_nonneg (by omega)]
    rfl

theorem pace_down {start target : Int8} (h : target.toInt ≤ start.toInt) (total : Nat) :
    pace start target total = -((way start target * 65536 / total : Nat) : Int) := by
  have hp : pace start target total = -pace target start total := by
    have hn : (target.toInt - start.toInt) * 65536 = -((start.toInt - target.toInt) * 65536) := by
      omega
    unfold pace
    rw [hn, Int.neg_tdiv]
    split <;> rfl
  have hw : way target start = way start target := by
    unfold way
    omega
  rw [hp, pace_up h, hw]

/-- No tick goes farther than by one unit, and what all but one of them leave is no farther. -/
theorem quotient_le {distance total : Nat} (hd : distance ≤ total) (hl : total ≤ 200)
    (hp : 0 < total) : distance * 65536 / total ≤ 65536 ∧
      (total - 1) * (distance * 65536 / total) ≤ distance * 65536 ∧
      distance * 65536 ≤ (total - 1) * (distance * 65536 / total) + 65536 := by
  have le : total * (distance * 65536 / total) ≤ distance * 65536 := Nat.mul_div_le ..
  have lt : distance * 65536 < total * (distance * 65536 / total) + total := by
    rw [← Nat.mul_succ]
    exact Nat.lt_mul_div_succ _ hp
  generalize distance * 65536 / total = pace at le lt ⊢
  have one : total * pace = (total - 1) * pace + pace := by
    rw [← Nat.succ_mul, Nat.succ_eq_add_one, Nat.sub_add_cancel hp]
  have whole : pace ≤ 65536 := by
    refine Nat.le_of_not_lt fun far => ?_
    have := Nat.mul_le_mul_left total far
    omega
  refine ⟨whole, by omega, ?_⟩
  -- A wheel with less than the farthest way loses more to its pace than the division leaves behind.
  rcases Nat.eq_or_lt_of_le hd with rfl | short
  · have fast : 65536 ≤ pace := by
      refine Nat.le_of_not_lt fun slow => ?_
      have := Nat.mul_le_mul_left distance (Nat.le_of_lt_succ slow)
      omega
    have := Nat.mul_le_mul_left distance fast
    omega
  · have slow : pace ≤ 65536 - 199 := by
      refine Nat.le_of_not_lt fun far => ?_
      have := Nat.mul_le_mul_left total (Nat.le_of_lt_succ (Nat.succ_lt_succ far))
      omega
    omega

namespace Wheel

theorem toInt_current {start target : Int8} (hs : InLimit start) (ht : InLimit target)
    {total ticks : Nat} (hk : ticks < total) :
    (course start target total ticks).current.toInt = height start target total ticks / 65536 := by
  obtain ⟨_, _⟩ := floor_inLimit hs ht (Nat.le_of_lt hk)
  unfold course
  dsimp only
  rw [if_pos hk, Int8.toInt_ofInt_of_le (by omega) (by omega)]

/-- A tick takes a wheel toward its target, and by no more than one unit. -/
theorem course_step {start target : Int8} (hs : InLimit start) (ht : InLimit target) {total : Nat}
    (hw : way start target ≤ total) (hl : total ≤ 200) (ticks : Nat) :
    (start.toInt ≤ target.toInt →
      (course start target total ticks).current.toInt ≤
          (course start target total (ticks + 1)).current.toInt ∧
        (course start target total (ticks + 1)).current.toInt ≤
          (course start target total ticks).current.toInt + 1) ∧
    (target.toInt ≤ start.toInt →
      (course start target total (ticks + 1)).current.toInt ≤
          (course start target total ticks).current.toInt ∧
        (course start target total ticks).current.toInt ≤
          (course start target total (ticks + 1)).current.toInt + 1) := by
  rcases Nat.lt_or_ge ticks total with before | done
  · obtain ⟨small, below, above⟩ := quotient_le hw hl (Nat.zero_lt_of_lt before)
    generalize hq : way start target * 65536 / total = quotient at small below above
    rw [toInt_current hs ht before]
    rcases Nat.lt_or_ge (ticks + 1) total with early | last
    · rw [toInt_current hs ht early, height_succ]
      constructor
      · intro hd
        rw [pace_up hd, hq]
        omega
      · intro hd
        rw [pace_down hd, hq]
        omega
    · have arrived : (course start target total (ticks + 1)).current = target :=
        if_neg (Nat.not_lt.2 last)
      obtain rfl : total = ticks + 1 := Nat.le_antisymm last before
      rw [arrived, height]
      have product : ((ticks * quotient : Nat) : Int) = ticks * quotient := Int.natCast_mul ..
      have distance : (way start target : Int) = (target.toInt - start.toInt).natAbs := rfl
      rw [Nat.add_sub_cancel] at below above
      constructor
      · intro hd
        rw [pace_up hd, hq]
        omega
      · intro hd
        rw [pace_down hd, hq, Int.mul_neg]
        omega
  · rw [course_done done]
    exact ⟨fun _ => ⟨Int.le_refl _, by omega⟩, fun _ => ⟨Int.le_refl _, by omega⟩⟩

/-- No wheel leaves the way between its start and its target. -/
theorem current_between {start target : Int8} (hs : InLimit start) (ht : InLimit target)
    (total ticks : Nat) :
    min start.toInt target.toInt ≤ (course start target total ticks).current.toInt ∧
      (course start target total ticks).current.toInt ≤ max start.toInt target.toInt := by
  rcases Nat.lt_or_ge ticks total with before | done
  · rw [toInt_current hs ht before]
    exact floor_between start target (Nat.le_of_lt before)
  · have arrived : (course start target total ticks).current = target := if_neg (Nat.not_lt.2 done)
    rw [arrived]
    exact ⟨Int.min_le_right .., Int.le_max_right ..⟩

theorem course_toward {start target : Int8} (hs : InLimit start) (ht : InLimit target) {total : Nat}
    (hw : way start target ≤ total) (hl : total ≤ 200) (ticks : Nat) :
    Toward target (course start target total ticks).current
      (course start target total (ticks + 1)).current := by
  obtain ⟨up, down⟩ := course_step hs ht hw hl ticks
  obtain ⟨low, high⟩ := current_between hs ht total (ticks + 1)
  rcases Int.le_total start.toInt target.toInt with hd | hd
  · obtain ⟨forward, slow⟩ := up hd
    rw [Int.max_eq_right hd] at high
    exact .inl ⟨forward, slow, high⟩
  · obtain ⟨forward, slow⟩ := down hd
    rw [Int.min_eq_right hd] at low
    exact .inr ⟨low, forward, slow⟩

end Wheel

/-- In one tick every wheel goes toward its target, by at most one unit. -/
theorem OnCourse.toward {r next : Ramp} (h : r.OnCourse) (hn : r.tick = .ok next) (i : Fin 3) :
    Toward (r.targets.get i) (r.speeds.get i) (next.speeds.get i) := by
  obtain @⟨starts, targets, ticks, hs, ht⟩ := h
  obtain rfl := Except.ok.inj ((tick_course ticks hs ht).symm.trans hn)
  rw [get_speeds, get_speeds, get_wheels_course, get_wheels_course]
  exact Wheel.course_toward (hs i) (ht i) (way_le_span _ _ i) (span_le hs ht) ticks

theorem OnCourse.step_le {r next : Ramp} (h : r.OnCourse) (hn : r.tick = .ok next) (i : Fin 3) :
    ((next.speeds.get i).toInt - (r.speeds.get i).toInt).natAbs ≤ 1 := by
  rcases h.toward hn i with ⟨_, _, _⟩ | ⟨_, _, _⟩
  · omega
  · omega

end OmniDrive.Ramp
