import OmniDrive.Proofs.Motor.Loop

/-! How far the memory of a velocity regulator goes. Speeds and clicks bound the error, the output
is clipped, and what leaks from a large integral outweighs what one error adds to it. Within these
bounds no operation of a tick leaves its word. -/
namespace OmniDrive.Regulator

open Word (int32)

/-- The greatest error: four times the speed limit and the clicks of a wheel that runs away. -/
def errorBound : Nat := 528

/-- The integral that leaks, in one tick, what the greatest error adds to it. -/
def settledReach : Nat := 33792

/-- The integral from which the leak can still be computed. -/
def widestReach : Nat := 34087042

/-- The memory is bounded, the integral by `reach`. -/
structure Tame (reach : Nat) (r : Regulator) : Prop where
  error : r.error.natAbs ≤ errorBound
  integral : r.integral.natAbs ≤ reach
  output : -bound ≤ r.output ∧ r.output ≤ bound

variable {r : Regulator} {reach : Nat} {setpoint clicks : Int8} {error change : Int}

theorem tame_initial (law : Law) (reach : Nat) : (initial law).Tame reach where
  error := Nat.zero_le _
  integral := Nat.zero_le _
  output := ⟨show -bound ≤ 0 by decide, show 0 ≤ bound by decide⟩

theorem int32_holds {z : Int} (h : z.natAbs ≤ 2147483647) : int32.Holds z := by
  constructor <;> simp only [int32] <;> omega

theorem natAbs_error_le (h : isNeutral setpoint = false) (clicks : Int8) :
    (setpoint.toInt * 4 - clicks.toInt).natAbs ≤ errorBound := by
  have hc := Word.natAbs_toInt_le clicks
  unfold isNeutral at h
  have hs : setpoint.toInt.natAbs ≤ 100 :=
    Nat.le_of_not_lt (of_decide_eq_false (Bool.or_eq_false_iff.1 h).2)
  unfold errorBound
  omega

theorem incremental_eq (h : r.Tame reach) (he : error.natAbs ≤ errorBound)
    (hc : change.natAbs ≤ 2 * errorBound) :
    r.incremental error change = .ok (r.output + error * 3 + change * 4) := by
  obtain ⟨low, high⟩ := h.output
  unfold bound at low high
  unfold errorBound at he hc
  have proportional : int32.Holds (error * 3) := int32_holds (by omega)
  have sum : int32.Holds (r.output + error * 3) := int32_holds (by omega)
  have differential : int32.Holds (change * 4) := int32_holds (by omega)
  have output : int32.Holds (r.output + error * 3 + change * 4) := int32_holds (by omega)
  simp only [incremental, Word.hold_eq_ok proportional, Word.hold_eq_ok sum,
    Word.hold_eq_ok differential, Word.hold_eq_ok output, Word.ok_bind]

/-- What is left of an integral after the leak. -/
theorem natAbs_leaked (integral : Int) :
    ((integral * 63).tdiv 64).natAbs = integral.natAbs * 63 / 64 := by
  rw [Int.natAbs_tdiv, Int.natAbs_mul]
  rfl

/-- From the settled reach on, a tick leads no farther. -/
theorem natAbs_integral_le {integral : Int} (hr : settledReach ≤ reach)
    (hi : integral.natAbs ≤ reach) (he : error.natAbs ≤ errorBound) :
    ((integral * 63).tdiv 64 + error).natAbs ≤ reach := by
  -- the settled reach is 64 times the greatest error: what leaks there is at least what comes in
  have leaked := natAbs_leaked integral
  unfold settledReach at hr
  unfold errorBound at he
  omega

theorem leak_eq (hi : r.integral.natAbs ≤ widestReach) (he : error.natAbs ≤ errorBound) :
    r.leak error = .ok ((r.integral * 63).tdiv 64 + error) := by
  have leaked := natAbs_leaked r.integral
  unfold widestReach at hi
  unfold errorBound at he
  have scaled : int32.Holds (r.integral * 63) := int32_holds (by omega)
  have integral : int32.Holds ((r.integral * 63).tdiv 64 + error) := int32_holds (by omega)
  simp only [leak, Word.hold_eq_ok scaled, Word.hold_eq_ok integral, Word.ok_bind]

theorem positional_eq {integral : Int} (hi : integral.natAbs ≤ widestReach)
    (he : error.natAbs ≤ errorBound) (hc : change.natAbs ≤ 2 * errorBound) :
    positional integral error change = .ok (error * 8 + integral * 8 + change * 16) := by
  unfold widestReach at hi
  unfold errorBound at he hc
  have proportional : int32.Holds (error * 8) := int32_holds (by omega)
  have integrated : int32.Holds (integral * 8) := int32_holds (by omega)
  have sum : int32.Holds (error * 8 + integral * 8) := int32_holds (by omega)
  have differential : int32.Holds (change * 16) := int32_holds (by omega)
  have output : int32.Holds (error * 8 + integral * 8 + change * 16) := int32_holds (by omega)
  simp only [positional, Word.hold_eq_ok proportional, Word.hold_eq_ok integrated,
    Word.hold_eq_ok sum, Word.hold_eq_ok differential, Word.hold_eq_ok output, Word.ok_bind]

/-- The regulator after a tick that regulates, as long as nothing leaves its word. -/
def regulated (r : Regulator) (setpoint clicks : Int8) : Regulator :=
  let error := setpoint.toInt * 4 - clicks.toInt
  let change := error - r.error
  match r.law with
  | .pd =>
    { r with error, output := max (-bound) (min bound (r.output + error * 3 + change * 4)) }
  | .pid =>
    let integral := (r.integral * 63).tdiv 64 + error
    { r with
      error, integral
      output := max (-bound) (min bound (error * 8 + integral * 8 + change * 16)) }

theorem law_regulated (r : Regulator) (setpoint clicks : Int8) :
    (r.regulated setpoint clicks).law = r.law := by
  unfold regulated
  cases r.law with
  | pd | pid => rfl

theorem Tame.natAbs_change_le (h : r.Tame reach) (he : error.natAbs ≤ errorBound) :
    (error - r.error).natAbs ≤ 2 * errorBound := by
  have hp := h.error
  omega

theorem holds_error (hn : isNeutral setpoint = false) (clicks : Int8) :
    int32.Holds (setpoint.toInt * 4 - clicks.toInt) := by
  have he := natAbs_error_le hn clicks
  unfold errorBound at he
  exact int32_holds (by omega)

theorem Tame.holds_change (h : r.Tame reach) (hn : isNeutral setpoint = false) (clicks : Int8) :
    int32.Holds (setpoint.toInt * 4 - clicks.toInt - r.error) := by
  have hc := h.natAbs_change_le (natAbs_error_le hn clicks)
  unfold errorBound at hc
  exact int32_holds (by omega)

theorem Tame.update_eq (h : r.Tame reach)
    (hw : r.law = .pid → r.integral.natAbs ≤ widestReach) (hn : isNeutral setpoint = false)
    (clicks : Int8) : r.update setpoint clicks = .ok (r.regulated setpoint clicks) := by
  have he := natAbs_error_le hn clicks
  have hc := h.natAbs_change_le he
  unfold Regulator.update regulated
  simp only [Word.hold_eq_ok (holds_error hn clicks), Word.hold_eq_ok (h.holds_change hn clicks),
    Word.ok_bind]
  cases hlaw : r.law with
  | pd => simp only [incremental_eq h he hc, Word.ok_bind, Word.pure_eq_ok]
  | pid =>
    have hi := hw hlaw
    have hl := natAbs_integral_le (Nat.le_max_left settledReach r.integral.natAbs)
      (Nat.le_max_right ..) he
    have hm : max settledReach r.integral.natAbs ≤ widestReach := Nat.max_le.2 ⟨by decide, hi⟩
    simp only [leak_eq hi he, positional_eq (Nat.le_trans hl hm) he hc, Word.ok_bind,
      Word.pure_eq_ok]

theorem Tame.regulated (h : r.Tame reach) (low : settledReach ≤ reach)
    (hn : isNeutral setpoint = false) (clicks : Int8) :
    (r.regulated setpoint clicks).Tame reach := by
  have he := natAbs_error_le hn clicks
  have hi := h.integral
  obtain ⟨law, previous, integral, output⟩ := r
  cases law with
  | pd => exact ⟨he, hi, clipped _⟩
  | pid => exact ⟨he, natAbs_integral_le low hi he, clipped _⟩

/-- A tick of a tame regulator completes and leaves it tame. -/
theorem Tame.tick (h : r.Tame reach) (low : settledReach ≤ reach) (high : reach ≤ widestReach)
    (setpoint clicks : Int8) :
    ∃ next duty, r.tick setpoint clicks = .ok (next, duty) ∧ next.Tame reach := by
  unfold Regulator.tick
  cases hn : isNeutral setpoint with
  | true => exact ⟨r, 0, rfl, h⟩
  | false =>
    rw [h.update_eq (fun _ => Nat.le_trans h.integral high) hn clicks]
    exact ⟨_, _, rfl, h.regulated low hn clicks⟩

/-- A correction of zero leaves the memory alone. -/
theorem Tame.fold_zero (h : r.Tame reach) (high : reach ≤ widestReach) : r.fold 0 = r := by
  have hi := h.integral
  unfold widestReach at high
  have hh : int32.Holds r.integral := int32_holds (by omega)
  unfold fold
  rw [Int.add_zero, Word.clamp_eq_self hh]

end OmniDrive.Regulator
