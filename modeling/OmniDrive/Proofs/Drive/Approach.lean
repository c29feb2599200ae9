import Mathlib.Algebra.Order.Field.Basic
import Mathlib.Data.Rat.Cast.Order
import Mathlib.Tactic.Linarith
import Mathlib.Tactic.Ring
import OmniDrive.Proofs.Drive.Pace

/-! How a ramp gets from its start to its targets. Every wheel keeps to the straight line, rounded
down and at most one unit below it. The wheel with the farthest way goes by one unit in every tick,
so that all of them are at their targets after as many ticks as it has units to go, and not
before. -/
namespace OmniDrive.Ramp

/-- Where a wheel would be after some ticks if its speeds were not rounded. -/
def line (start target : Int8) (total ticks : Nat) : ℚ :=
  start.toInt + ticks * (target.toInt - start.toInt) / total

/-- What the pace loses to its division is less than one fraction a tick. -/
theorem natAbs_lost_lt (start target : Int8) {total : Nat} (hp : 0 < total) :
    (total * pace start target total - (target.toInt - start.toInt) * 65536).natAbs < total := by
  have positive : (0 : Int) < total := Int.natCast_pos.2 hp
  have divided := Int.mul_tdiv_add_tmod ((target.toInt - start.toInt) * 65536) total
  have low := Int.lt_tmod_of_pos ((target.toInt - start.toInt) * 65536) positive
  have high := Int.tmod_lt_of_pos ((target.toInt - start.toInt) * 65536) positive
  unfold pace
  rw [if_neg (Nat.ne_of_gt hp)]
  omega

/-- What a wheel has gone, rounded down, is at most the part of its way that the ticks make, and at
most one unit less. -/
theorem floor_near (start target : Int8) {total ticks : Nat} (hk : ticks < total)
    (hl : total ≤ 200) :
    ticks * (target.toInt - start.toInt) - total ≤
        total * (ticks * pace start target total / 65536) ∧
      total * (ticks * pace start target total / 65536) ≤
        ticks * (target.toInt - start.toInt) := by
  have less := natAbs_lost_lt start target (Nat.zero_lt_of_lt hk)
  generalize target.toInt - start.toInt = distance at less ⊢
  generalize pace start target total = pace at less ⊢
  generalize hlost : total * pace - distance * 65536 = lost at less
  -- All ticks together lose less than one unit, so the rounding can show it only at a whole number.
  have little : (ticks * lost).natAbs ≤ 199 * 199 := by
    rw [Int.natAbs_mul]
    exact Nat.mul_le_mul (by omega) (by omega)
  have gone : total * (ticks * pace) = ticks * lost + ticks * distance * 65536 := by
    rw [← hlost]
    ring
  have low : 65536 * (ticks * pace / 65536) ≤ ticks * pace := Int.mul_ediv_self_le (by decide)
  have high : ticks * pace < 65536 * (ticks * pace / 65536) + 65536 :=
    Int.lt_mul_ediv_self_add (by decide)
  generalize ticks * pace / 65536 = floor at low high ⊢
  have nonneg : (0 : Int) ≤ total := Int.natCast_nonneg total
  have least : 65536 * (total * floor) ≤ total * (ticks * pace) := by
    rw [Int.mul_left_comm 65536]
    exact Int.mul_le_mul_of_nonneg_left low nonneg
  have most : total * (ticks * pace) ≤ 65536 * (total * floor) + total * 65535 := by
    rw [Int.mul_left_comm 65536, ← Int.mul_add]
    exact Int.mul_le_mul_of_nonneg_left (by omega) nonneg
  rw [gone] at least most
  generalize total * floor = product at least most ⊢
  generalize ticks * distance = share at least most ⊢
  constructor <;> omega

namespace Wheel

variable {start target : Int8} {total ticks : Nat}

/-- The speed is what the position says, rounded down. -/
theorem toInt_current_eq_position (hs : InLimit start) (ht : InLimit target) (hk : ticks < total) :
    (course start target total ticks).current.toInt =
      (course start target total ticks).position / 65536 := by
  rw [toInt_current hs ht hk]
  unfold course
  dsimp only
  rw [Nat.min_eq_left (Nat.le_sub_one_of_lt hk)]

theorem current_near_line (hs : InLimit start) (ht : InLimit target) (hk : ticks < total)
    (hl : total ≤ 200) :
    line start target total ticks - 1 ≤ (course start target total ticks).current.toInt ∧
      (course start target total ticks).current.toInt ≤ line start target total ticks := by
  obtain ⟨late, early⟩ := floor_near start target hk hl
  have current : (course start target total ticks).current.toInt =
      start.toInt + ticks * pace start target total / 65536 := by
    rw [toInt_current hs ht hk, height]
    omega
  rw [current, Int.cast_add]
  generalize (ticks : Int) * pace start target total / 65536 = floor at late early
  have positive : (0 : ℚ) < total := Nat.cast_pos.2 (Nat.zero_lt_of_lt hk)
  have above : ticks * (target.toInt - start.toInt : ℚ) / total ≤ floor + 1 := by
    rw [div_le_iff₀ positive]
    have cast : ticks * (target.toInt - start.toInt : ℚ) - total ≤ total * floor := by
      exact_mod_cast late
    linarith
  have below : (floor : ℚ) ≤ ticks * (target.toInt - start.toInt) / total := by
    rw [le_div_iff₀ positive]
    have cast : total * floor ≤ ticks * (target.toInt - start.toInt : ℚ) := by
      exact_mod_cast early
    linarith
  unfold line
  constructor <;> linarith

/-- The wheel with the farthest way is not at its target before the last tick. -/
theorem current_ne_of_way_eq (hs : InLimit start) (ht : InLimit target)
    (hw : way start target = total) (hk : ticks < total) :
    (course start target total ticks).current ≠ target := by
  have unit : way start target * 65536 / total = 65536 := by
    rw [hw, Nat.mul_div_cancel_left _ (Nat.zero_lt_of_lt hk)]
  have far : (target.toInt - start.toInt).natAbs = total := hw
  intro arrived
  have speed := toInt_current hs ht hk
  rw [arrived, height] at speed
  rcases Int.le_total start.toInt target.toInt with hd | hd
  · rw [pace_up hd, unit] at speed
    omega
  · rw [pace_down hd, unit] at speed
    omega

end Wheel

theorem course_rests {starts targets : Wheels Int8} {ticks : Nat}
    (h : span starts targets ≤ ticks) :
    course starts targets (ticks + 1) = course starts targets ticks := by
  have hm : min (ticks + 1) (span starts targets) = min ticks (span starts targets) := by omega
  simp only [course, Wheel.course_done h, hm]

section

variable {starts targets : Wheels Int8} (hs : ∀ i, InLimit (starts.get i))
  (ht : ∀ i, InLimit (targets.get i))
include hs ht

/-- The wheels are at their targets once the last tick is done, and not before. -/
theorem speeds_course_eq_iff (ticks : Nat) :
    (course starts targets ticks).speeds = targets ↔ span starts targets ≤ ticks := by
  refine ⟨fun arrived => Nat.le_of_not_lt fun before => ?_, speeds_course_of_span_le⟩
  obtain ⟨i, far⟩ := (Wheels.zipWith way starts targets).exists_get_eq_greatest
  rw [Wheels.get_zipWith] at far
  refine Wheel.current_ne_of_way_eq (hs i) (ht i) far before ?_
  have same : (course starts targets ticks).speeds.get i = targets.get i := by rw [arrived]
  rwa [get_speeds, get_wheels_course] at same

end

/-- What becomes of a ramp, tick by tick, that leaves `starts` for `targets`. -/
structure Approaches (starts targets : Wheels Int8) (path : Nat → Ramp) : Prop where
  departs : (path 0).speeds = starts
  total_eq : (path 0).total = (Wheels.zipWith way starts targets).greatest
  ticks_on (ticks : Nat) : (path ticks).tick = .ok (path (ticks + 1))
  toward (ticks : Nat) (i : Fin 3) :
    Toward (targets.get i) ((path ticks).speeds.get i) ((path (ticks + 1)).speeds.get i)
  near (ticks : Nat) (i : Fin 3) : ticks < (path 0).total →
    |((path ticks).speeds.get i).toInt -
      line (starts.get i) (targets.get i) (path 0).total ticks| ≤ 1
  /-- Nothing is lost where a position becomes a speed. -/
  kept (ticks : Nat) (i : Fin 3) : ticks < (path 0).total →
    ((path ticks).speeds.get i).toInt = ((path ticks).wheels.get i).position / 65536
  arrives_iff (ticks : Nat) : (path ticks).speeds = targets ↔ (path 0).total ≤ ticks
  isMoving_iff (ticks : Nat) : (path ticks).isMoving = true ↔ ticks < (path 0).total
  rests (ticks : Nat) : (path 0).total ≤ ticks → path (ticks + 1) = path ticks

theorem course_approaches {starts targets : Wheels Int8} (hs : ∀ i, InLimit (starts.get i))
    (ht : ∀ i, InLimit (targets.get i)) : Approaches starts targets (course starts targets) where
  departs := speeds_course_zero starts targets
  total_eq := rfl
  ticks_on ticks := tick_course ticks hs ht
  toward ticks := OnCourse.toward (.mk ticks hs ht) (tick_course ticks hs ht)
  near ticks i before := by
    rw [total_course] at before ⊢
    obtain ⟨low, high⟩ := Wheel.current_near_line (hs i) (ht i) before (span_le hs ht)
    rw [get_speeds, get_wheels_course, abs_le]
    constructor <;> linarith
  kept ticks i before := by
    rw [get_speeds, get_wheels_course]
    exact Wheel.toInt_current_eq_position (hs i) (ht i) before
  arrives_iff := speeds_course_eq_iff hs ht
  isMoving_iff ticks := by
    rw [isMoving, decide_eq_true_iff, elapsed_course, total_course, total_course]
    omega
  rests _ := course_rests

/-- Wherever a ramp has got to, it can be aimed at any targets, and approaches them from there. -/
theorem OnCourse.aim {r : Ramp} (h : r.OnCourse) (targets : Wheels Int8) :
    ∃ path, r.aim targets = .ok (path 0) ∧
      Approaches r.speeds (targets.map clampSpeed) path :=
  ⟨_, aim_eq h.speeds_inLimit targets,
    course_approaches h.speeds_inLimit (inLimit_map_clampSpeed targets)⟩

/-- From any speeds within the limit a ramp approaches any targets, all wheels in proportion. -/
theorem aim_approaches (starts targets : Wheels Int8) (h : ∀ i, InLimit (starts.get i)) :
    ∃ still path, jump starts = .ok still ∧ still.speeds = starts ∧
      still.aim targets = .ok (path 0) ∧ Approaches starts (targets.map clampSpeed) path := by
  have jumped := jump_eq starts
  rw [map_clampSpeed_eq h] at jumped
  have speeds : (steady starts).speeds = starts := speeds_course_zero starts starts
  obtain ⟨path, aimed, approaches⟩ := (OnCourse.steady h).aim targets
  rw [speeds] at approaches
  exact ⟨_, path, jumped, speeds, aimed, approaches⟩

/-- Two wheels that go from limit to limit, and one that goes by two units in the same time. -/
theorem aim_approaches_across :
    (∀ i, InLimit ((⟨-100, 100, 1⟩ : Wheels Int8).get i)) ∧
      ∃ still path, jump ⟨-100, 100, 1⟩ = .ok still ∧ still.aim ⟨127, -128, -1⟩ = .ok (path 0) ∧
        Approaches ⟨-100, 100, 1⟩ ⟨100, -100, -1⟩ path ∧ (path 0).total = 200 := by
  have within : ∀ i, InLimit ((⟨-100, 100, 1⟩ : Wheels Int8).get i) := by decide
  obtain ⟨still, path, jumped, -, aimed, approaches⟩ :=
    aim_approaches ⟨-100, 100, 1⟩ ⟨127, -128, -1⟩ within
  exact ⟨within, still, path, jumped, aimed, approaches, approaches.total_eq⟩

end OmniDrive.Ramp
