import Mathlib.Algebra.Order.Field.Basic
import Mathlib.Data.Rat.Cast.Order
import Mathlib.Tactic.Linarith
import OmniDrive.Proofs.Drive.Runs

/-! How wheel speeds beyond the limit are slowed down. The fastest wheel comes to the limit and the
others keep their ratio to it, rounded toward zero: no wheel turns the other way, none overtakes
another, and the opposite velocity gives the opposite speeds. -/
namespace OmniDrive.BodyVelocity

/-- The speed of the fastest wheel, in either direction. -/
def fastest (speeds : Wheels Int) : Nat := (speeds.map Int.natAbs).greatest

/-- The opposite velocity. -/
def reversed (v : BodyVelocity) : BodyVelocity := ⟨-v.x, -v.y, -v.theta⟩

/-- What becomes of the speeds that are asked of the wheels. -/
structure Saturates (asked : Wheels Int) (given : Wheels Int8) : Prop where
  within : fastest asked ≤ 100 → ∀ i, (given.get i).toInt = asked.get i
  slowed : 100 < fastest asked → ∀ i,
    (given.get i).toInt = (asked.get i * 100).tdiv (fastest asked)
  atLimit : 100 < fastest asked → ∀ i, (asked.get i).natAbs = fastest asked →
    (given.get i).toInt.natAbs = 100
  near : 100 < fastest asked → ∀ i,
    |(given.get i).toInt - (asked.get i * 100 / fastest asked : ℚ)| < 1
  inLimit (i : Fin 3) : InLimit (given.get i)
  sameSign (i : Fin 3) : 0 ≤ (given.get i).toInt * asked.get i
  ordered (i j : Fin 3) : (asked.get i).natAbs ≤ (asked.get j).natAbs →
    (given.get i).toInt.natAbs ≤ (given.get j).toInt.natAbs

/-- Rounding toward zero goes by less than one. -/
theorem abs_tdiv_sub_lt (speed : Int) {unit : Nat} (h : 0 < unit) :
    |(speed.tdiv unit : ℚ) - speed / unit| < 1 := by
  have positive : (0 : ℚ) < unit := Nat.cast_pos.2 h
  have divided := Int.mul_tdiv_add_tmod speed unit
  have least := Int.lt_tmod_of_pos speed (Int.natCast_pos.2 h)
  have most := Int.tmod_lt_of_pos speed (Int.natCast_pos.2 h)
  have low : (unit * (speed.tdiv unit - 1) : ℚ) < speed := by
    have exact : unit * (speed.tdiv unit - 1) < speed := by
      rw [Int.mul_sub, Int.mul_one]
      omega
    exact_mod_cast exact
  have high : (speed : ℚ) < unit * (speed.tdiv unit + 1) := by
    have exact : speed < unit * (speed.tdiv unit + 1) := by
      rw [Int.mul_add, Int.mul_one]
      omega
    exact_mod_cast exact
  have below : (speed.tdiv unit - 1 : ℚ) < speed / unit := by
    rwa [lt_div_iff₀ positive, mul_comm]
  have above : (speed / unit : ℚ) < speed.tdiv unit + 1 := by
    rwa [div_lt_iff₀ positive, mul_comm]
  rw [abs_lt]
  constructor <;> linarith

theorem tdiv_mul_nonneg (speed : Int) (share unit : Nat) :
    0 ≤ (speed * share).tdiv unit * speed := by
  rcases Int.le_total 0 speed with forward | backward
  · have nonneg := Int.mul_nonneg forward (Int.natCast_nonneg share)
    exact Int.mul_nonneg (Int.tdiv_nonneg nonneg (Int.natCast_nonneg unit)) forward
  · have nonneg := Int.mul_nonneg (Int.neg_nonneg_of_nonpos backward) (Int.natCast_nonneg share)
    have nonpos := Int.tdiv_nonneg nonneg (Int.natCast_nonneg unit)
    rw [Int.neg_mul, Int.neg_tdiv] at nonpos
    exact Int.mul_nonneg_of_nonpos_of_nonpos (Int.nonpos_of_neg_nonneg nonpos) backward

section

variable (speeds : Wheels Int)

theorem natAbs_le_fastest (i : Fin 3) : (speeds.get i).natAbs ≤ fastest speeds := by
  have h := (speeds.map Int.natAbs).get_le_greatest i
  rwa [Wheels.get_map] at h

theorem slowed_of_le (h : fastest speeds ≤ 100) : slowed speeds = speeds :=
  if_neg (Nat.not_lt.2 h)

theorem get_slowed (h : 100 < fastest speeds) (i : Fin 3) :
    (slowed speeds).get i = (speeds.get i * 100).tdiv (fastest speeds) := by
  have hs : slowed speeds = speeds.map fun speed => (speed * 100).tdiv (fastest speeds) := if_pos h
  rw [hs, Wheels.get_map]

/-- All wheels are given the same share of what they are asked. -/
theorem exists_share : ∃ share unit : Nat, ∀ i,
    (slowed speeds).get i = (speeds.get i * share).tdiv unit := by
  rcases Nat.lt_or_ge 100 (fastest speeds) with fast | slow
  · exact ⟨100, fastest speeds, get_slowed speeds fast⟩
  · refine ⟨1, 1, fun i => ?_⟩
    rw [slowed_of_le speeds slow, Int.natCast_one, Int.mul_one, Int.tdiv_one]

theorem natAbs_slowed_le (i : Fin 3) : ((slowed speeds).get i).natAbs ≤ 100 := by
  have most := natAbs_le_fastest speeds i
  rcases Nat.lt_or_ge 100 (fastest speeds) with fast | slow
  · rw [get_slowed speeds fast, Int.natAbs_tdiv, Int.natAbs_mul]
    refine Nat.div_le_of_le_mul ?_
    exact Nat.mul_le_mul_right 100 most
  · rw [slowed_of_le speeds slow]
    exact Nat.le_trans most slow

/-- No slowed speed is lost in a byte. -/
theorem toInt_slowed (i : Fin 3) :
    (((slowed speeds).map Int8.ofInt).get i).toInt = (slowed speeds).get i := by
  have small := natAbs_slowed_le speeds i
  rw [Wheels.get_map, Int8.toInt_ofInt_of_le (by omega) (by omega)]

theorem saturates_slowed : Saturates speeds ((slowed speeds).map Int8.ofInt) where
  within slow i := by rw [toInt_slowed, slowed_of_le speeds slow]
  slowed fast i := by rw [toInt_slowed, get_slowed speeds fast]
  atLimit fast i most := by
    rw [toInt_slowed, get_slowed speeds fast, Int.natAbs_tdiv, Int.natAbs_mul, most]
    exact Nat.mul_div_cancel_left 100 (Nat.zero_lt_of_lt fast)
  near fast i := by
    have rounded := abs_tdiv_sub_lt (speeds.get i * 100) (Nat.zero_lt_of_lt fast)
    rw [toInt_slowed, get_slowed speeds fast]
    rwa [Int.cast_mul] at rounded
  inLimit i := by
    have small := natAbs_slowed_le speeds i
    unfold InLimit
    rw [toInt_slowed]
    omega
  sameSign i := by
    obtain ⟨share, unit, shared⟩ := exists_share speeds
    rw [toInt_slowed, shared]
    exact tdiv_mul_nonneg ..
  ordered i j slower := by
    obtain ⟨share, unit, shared⟩ := exists_share speeds
    rw [toInt_slowed, toInt_slowed, shared, shared, Int.natAbs_tdiv, Int.natAbs_tdiv,
      Int.natAbs_mul, Int.natAbs_mul]
    exact Nat.div_le_div_right (Nat.mul_le_mul_right _ slower)

theorem fastest_neg : fastest (speeds.map Neg.neg) = fastest speeds := by
  have same : (speeds.map Neg.neg).map Int.natAbs = speeds.map Int.natAbs := by
    apply Wheels.ext_get
    intro i
    rw [Wheels.get_map, Wheels.get_map, Wheels.get_map, Int.natAbs_neg]
  rw [fastest, same, fastest]

theorem slowed_neg : slowed (speeds.map Neg.neg) = (slowed speeds).map Neg.neg := by
  rcases Nat.lt_or_ge 100 (fastest speeds) with fast | slow
  · apply Wheels.ext_get
    intro i
    rw [get_slowed _ (by rwa [fastest_neg]), fastest_neg, Wheels.get_map, Wheels.get_map,
      get_slowed speeds fast, Int.neg_mul, Int.neg_tdiv]
  · rw [slowed_of_le speeds slow, slowed_of_le _ (by rwa [fastest_neg])]

end

section

variable {v : BodyVelocity} (hx : v.x ≠ -128) (hy : v.y ≠ -128) (ht : v.theta ≠ -128)
include hx hy ht

theorem rawSpeed_reversed (g : Gains) : v.reversed.rawSpeed g = -v.rawSpeed g := by
  unfold rawSpeed reversed
  dsimp only
  rw [Word.toInt_neg hx, Word.toInt_neg hy, Word.toInt_neg ht, Int.neg_mul, Int.neg_mul, Int.neg_mul,
    ← Int.neg_add, ← Int.neg_add, Int.neg_tdiv]

theorem wheelSpeeds_reversed : v.reversed.wheelSpeeds =
    .ok (((slowed (Gains.mounted.map v.rawSpeed)).map Int8.ofInt).map Neg.neg) := by
  have opposite : Gains.mounted.map v.reversed.rawSpeed =
      (Gains.mounted.map v.rawSpeed).map Neg.neg := by
    apply Wheels.ext_get
    intro i
    rw [Wheels.get_map, Wheels.get_map, Wheels.get_map, rawSpeed_reversed hx hy ht]
  have signed : ((slowed (Gains.mounted.map v.rawSpeed)).map Neg.neg).map Int8.ofInt =
      ((slowed (Gains.mounted.map v.rawSpeed)).map Int8.ofInt).map Neg.neg := by
    apply Wheels.ext_get
    intro i
    rw [Wheels.get_map, Wheels.get_map, Wheels.get_map, Wheels.get_map, Int8.ofInt_neg]
  rw [wheelSpeeds_eq, opposite, slowed_neg, signed]

end

/-- Whatever was done with a drive before, a body velocity becomes its targets as it is. -/
theorem targets_setBodyVelocity {d : Drive} (h : d.ramp.OnCourse) {v : BodyVelocity}
    {given : Wheels Int8} (hg : v.wheelSpeeds = .ok given) (hl : ∀ i, InLimit (given.get i)) :
    ∃ notices after, d.setBodyVelocity v = Act.done notices after ∧ after.ramp.targets = given := by
  have done := Drive.setBodyVelocity_eq d v
  obtain rfl := Except.ok.inj ((wheelSpeeds_eq v).symm.trans hg)
  rw [Drive.setVelocities_eq h] at done
  refine ⟨_, _, done, ?_⟩
  exact (Drive.targets_aimed d _).trans (map_clampSpeed_eq hl)

/-- The wheel speeds of a body velocity are what it asks for, or as fast as the wheels allow in the
same direction; and these are the targets that it gives a drive. -/
theorem wheelSpeeds_keep_direction (v : BodyVelocity) : ∃ given,
    v.wheelSpeeds = .ok given ∧ Saturates (Gains.mounted.map v.rawSpeed) given ∧
      (v.x ≠ -128 → v.y ≠ -128 → v.theta ≠ -128 →
        v.reversed.wheelSpeeds = .ok (given.map Neg.neg)) ∧
      given.map clampSpeed = given ∧
      ∀ operations, ∃ moments d, Act.run Drive.perform Drive.initial operations = .ok (moments, d) ∧
        ∃ notices after, d.setBodyVelocity v = Act.done notices after ∧
          after.ramp.targets = given := by
  have saturates := saturates_slowed (Gains.mounted.map v.rawSpeed)
  refine ⟨_, wheelSpeeds_eq v, saturates, wheelSpeeds_reversed, map_clampSpeed_eq saturates.inLimit,
    fun operations => ?_⟩
  obtain ⟨moments, d, run, sound⟩ := Drive.run_sound operations
  have given := targets_setBodyVelocity sound.onCourse (wheelSpeeds_eq v) saturates.inLimit
  exact ⟨moments, d, run, given⟩

/-- Full speed ahead, to the left and around asks more than three times the limit of one wheel. -/
theorem wheelSpeeds_keep_direction_fast :
    let v : BodyVelocity := ⟨127, 127, 127⟩
    v.x ≠ -128 ∧ v.y ≠ -128 ∧ v.theta ≠ -128 ∧ 300 < fastest (Gains.mounted.map v.rawSpeed) ∧
      ∃ given, v.wheelSpeeds = .ok given ∧ Saturates (Gains.mounted.map v.rawSpeed) given ∧
        v.reversed.wheelSpeeds = .ok (given.map Neg.neg) := by
  intro v
  have hx : v.x ≠ -128 := by decide
  have hy : v.y ≠ -128 := by decide
  have ht : v.theta ≠ -128 := by decide
  obtain ⟨given, speeds, saturates, reversed, -⟩ := wheelSpeeds_keep_direction v
  exact ⟨hx, hy, ht, by decide, given, speeds, saturates, reversed hx hy ht⟩

end OmniDrive.BodyVelocity
