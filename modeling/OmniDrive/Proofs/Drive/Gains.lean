import Mathlib.Analysis.SpecialFunctions.Trigonometric.Basic
import OmniDrive.Drive.BodyVelocity

/-! Where the gains come from. A wheel rolls at a right angle to the direction of its mounting, so its
gains are the cosine and the negated sine of that, rounded. All of them follow from the sine of ten
degrees, which is known from its triple angle. -/
namespace OmniDrive.Gains

open Real

/-- The rolling direction of a wheel, in radians. -/
noncomputable def rolling (i : Fin 3) : ℝ := (90 + angles.get i) * (π / 180)

/-- The sine of a triple angle grows with the sine, as far as thirty degrees. -/
theorem triple_le {s t : ℝ} (hs : 0 ≤ s) (h : s ≤ t) (ht : t ≤ 1 / 2) :
    3 * s - 4 * s ^ 3 ≤ 3 * t - 4 * t ^ 3 := by
  have slope : 0 ≤ 3 - 4 * (t ^ 2 + t * s + s ^ 2) := by nlinarith
  have rise : 3 * t - 4 * t ^ 3 - (3 * s - 4 * s ^ 3) =
      (t - s) * (3 - 4 * (t ^ 2 + t * s + s ^ 2)) := by ring
  linarith [mul_nonneg (sub_nonneg.2 h) slope]

/-- The sine of ten degrees, by that of thirty. -/
theorem sin_ten_bounds : 0.17364 < sin (π / 18) ∧ sin (π / 18) < 0.17366 := by
  have triple : 3 * sin (π / 18) - 4 * sin (π / 18) ^ 3 = 1 / 2 := by
    rw [← sin_three_mul, ← sin_pi_div_six]
    congr 1
    ring
  have low : 0 < sin (π / 18) := sin_pos_of_pos_of_lt_pi (by positivity) (by linarith [pi_pos])
  have high : sin (π / 18) < 1 / 2 := by
    rw [← sin_pi_div_six]
    exact sin_lt_sin_of_lt_of_le_pi_div_two (by linarith [pi_pos]) (by linarith [pi_pos])
      (by linarith [pi_pos])
  constructor
  · by_contra! far
    have below := triple_le low.le far (by norm_num)
    rw [triple] at below
    norm_num at below
  · by_contra! far
    have above := triple_le (by norm_num) far high.le
    rw [triple] at above
    norm_num at above

theorem cos_ten_bounds : 0.9848 < cos (π / 18) ∧ cos (π / 18) < 0.98482 := by
  obtain ⟨low, high⟩ := sin_ten_bounds
  have square : cos (π / 18) ^ 2 = 1 - sin (π / 18) ^ 2 := cos_sq' _
  have pos : 0 < cos (π / 18) := cos_pos_of_mem_Ioo ⟨by linarith [pi_pos], by linarith [pi_pos]⟩
  constructor <;> nlinarith

theorem twenty_eq : π / 9 = 2 * (π / 18) := by ring

theorem sin_twenty_bounds : 0.342 < sin (π / 9) ∧ sin (π / 9) < 0.3421 := by
  obtain ⟨low, high⟩ := sin_ten_bounds
  obtain ⟨low', high'⟩ := cos_ten_bounds
  rw [twenty_eq, sin_two_mul]
  constructor <;> nlinarith

theorem cos_twenty_bounds : 0.93968 < cos (π / 9) ∧ cos (π / 9) < 0.9397 := by
  obtain ⟨low, high⟩ := sin_ten_bounds
  rw [twenty_eq, cos_two_mul_eq_one_sub]
  constructor <;> nlinarith

theorem sin_forty_bounds : 0.6427 < sin (2 * π / 9) ∧ sin (2 * π / 9) < 0.643 := by
  obtain ⟨low, high⟩ := sin_twenty_bounds
  obtain ⟨low', high'⟩ := cos_twenty_bounds
  rw [mul_div_assoc, sin_two_mul]
  constructor <;> nlinarith

theorem cos_forty_bounds : 0.7659 < cos (2 * π / 9) ∧ cos (2 * π / 9) < 0.7661 := by
  obtain ⟨low, high⟩ := cos_twenty_bounds
  rw [mul_div_assoc, cos_two_mul]
  constructor <;> nlinarith

/-- Each rolling direction is ten, forty or twenty degrees away from an axis. -/
theorem rolling_eq : rolling 0 = π / 18 + π ∧ rolling 1 = 2 * π - (π / 2 - 2 * π / 9) ∧
    rolling 2 = π / 2 - π / 9 + 2 * π := by
  refine ⟨?_, ?_, ?_⟩ <;> simp only [rolling, angles, Wheels.get] <;> push_cast <;> ring

/-- A number that is no further than a half from an integer is rounded to it. -/
theorem eq_round {a : ℝ} {z : Int} (low : z - 1 / 2 ≤ a) (high : a < z + 1 / 2) :
    z = round a := by
  rw [round_eq, eq_comm, Int.floor_eq_iff]
  constructor <;> linarith

/-- The gains are those of the mounting angles, to the nearest unit. -/
theorem mounted_eq_round (i : Fin 3) :
    (mounted.get i).x = round (scale * cos (rolling i)) ∧
      (mounted.get i).y = round (scale * -sin (rolling i)) ∧
      (mounted.get i).theta = round (scale * 1.07 : ℝ) := by
  have unit : ((scale : Int) : ℝ) = 1024 := by norm_num [scale]
  have turn : (1096 : Int) = round (1024 * 1.07 : ℝ) := by
    apply eq_round <;> norm_num
  rw [unit]
  match i with
  | 0 =>
    obtain ⟨low, high⟩ := sin_ten_bounds
    obtain ⟨low', high'⟩ := cos_ten_bounds
    rw [rolling_eq.1, cos_add_pi, sin_add_pi]
    refine ⟨eq_round ?_ ?_, eq_round ?_ ?_, turn⟩ <;> norm_num [mounted, Wheels.get] <;> linarith
  | 1 =>
    obtain ⟨low, high⟩ := sin_forty_bounds
    obtain ⟨low', high'⟩ := cos_forty_bounds
    rw [rolling_eq.2.1, cos_two_pi_sub, sin_two_pi_sub, cos_pi_div_two_sub, sin_pi_div_two_sub]
    refine ⟨eq_round ?_ ?_, eq_round ?_ ?_, turn⟩ <;> norm_num [mounted, Wheels.get] <;> linarith
  | 2 =>
    obtain ⟨low, high⟩ := sin_twenty_bounds
    obtain ⟨low', high'⟩ := cos_twenty_bounds
    rw [rolling_eq.2.2, cos_add_two_pi, sin_add_two_pi, cos_pi_div_two_sub, sin_pi_div_two_sub]
    refine ⟨eq_round ?_ ?_, eq_round ?_ ?_, turn⟩ <;> norm_num [mounted, Wheels.get] <;> linarith

end OmniDrive.Gains
