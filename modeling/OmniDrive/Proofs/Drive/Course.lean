import OmniDrive.Drive.Ramp

/-! The course of a ramp in closed form: where every wheel is after any number of ticks.
Aiming, jumping and ticking lead from courses to courses, so no ramp ever overflows. -/
namespace OmniDrive

/-- A speed that no wheel is asked to exceed. -/
def InLimit (speed : Int8) : Prop := -100 ≤ speed.toInt ∧ speed.toInt ≤ 100

instance (speed : Int8) : Decidable (InLimit speed) := inferInstanceAs (Decidable (_ ∧ _))

theorem inLimit_clampSpeed (speed : Int8) : InLimit (clampSpeed speed) := by
  unfold InLimit clampSpeed
  split
  · decide
  · rename_i low
    split
    · decide
    · rename_i high
      rw [Int8.lt_iff_toInt_lt] at low high
      exact ⟨Int.not_lt.1 low, Int.not_lt.1 high⟩

theorem clampSpeed_of_inLimit {speed : Int8} (h : InLimit speed) : clampSpeed speed = speed := by
  unfold clampSpeed
  have low : ¬ speed < -100 := by
    rw [Int8.lt_iff_toInt_lt]
    exact Int.not_lt.2 h.1
  have high : ¬ 100 < speed := by
    rw [Int8.lt_iff_toInt_lt]
    exact Int.not_lt.2 h.2
  rw [if_neg low, if_neg high]

theorem map_clampSpeed_eq {speeds : Wheels Int8} (h : ∀ i, InLimit (speeds.get i)) :
    speeds.map clampSpeed = speeds := by
  apply Wheels.ext_get
  intro i
  rw [Wheels.get_map, clampSpeed_of_inLimit (h i)]

theorem inLimit_map_clampSpeed (speeds : Wheels Int8) (i : Fin 3) :
    InLimit ((speeds.map clampSpeed).get i) := by
  rw [Wheels.get_map]
  exact inLimit_clampSpeed _

theorem inLimit_zero : InLimit 0 := by decide

namespace Ramp

open Word (int32)

def way (start target : Int8) : Nat := (target.toInt - start.toInt).natAbs

/-- The change of the position in each tick of a course. -/
def pace (start target : Int8) (total : Nat) : Int :=
  if total = 0 then 0 else ((target.toInt - start.toInt) * 65536).tdiv total

def height (start target : Int8) (total advances : Nat) : Int :=
  start.toInt * 65536 + advances * pace start target total

/-- One wheel after some ticks of its course. The last tick leaves the position as it was. -/
def Wheel.course (start target : Int8) (total ticks : Nat) : Wheel where
  current := if ticks < total then Int8.ofInt (height start target total ticks / 65536) else target
  target
  position := height start target total (min ticks (total - 1))
  increment := pace start target total

/-- The ticks that a course takes: the farthest way of a wheel. -/
def span (starts targets : Wheels Int8) : Nat := (Wheels.zipWith way starts targets).greatest

/-- The ramp that left `starts` for `targets` some ticks ago. -/
def course (starts targets : Wheels Int8) (ticks : Nat) : Ramp where
  wheels := Wheels.zipWith (fun s t => Wheel.course s t (span starts targets) ticks) starts targets
  total := span starts targets
  elapsed := min ticks (span starts targets)

/-- A ramp on a course within the limit. -/
inductive OnCourse : Ramp → Prop
  | mk {starts targets : Wheels Int8} (ticks : Nat) : (∀ i, InLimit (starts.get i)) →
    (∀ i, InLimit (targets.get i)) → OnCourse (course starts targets ticks)

theorem way_le_span (starts targets : Wheels Int8) (i : Fin 3) :
    way (starts.get i) (targets.get i) ≤ span starts targets := by
  have h := (Wheels.zipWith way starts targets).get_le_greatest i
  rwa [Wheels.get_zipWith] at h

theorem way_self (speed : Int8) : way speed speed = 0 := by
  unfold way
  omega

theorem span_self (speeds : Wheels Int8) : span speeds speeds = 0 := by
  simp only [span, Wheels.zipWith, way_self, Wheels.greatest, Nat.max_self]

theorem way_le {start : Int8} (target : Int8) (hs : InLimit start) :
    way start target ≤ 100 + target.toInt.natAbs := by
  obtain ⟨_, _⟩ := hs
  unfold way
  omega

theorem eq_of_way_eq_zero {start target : Int8} (h : way start target = 0) : start = target := by
  apply Int8.toInt_inj.1
  unfold way at h
  omega

theorem height_succ (start target : Int8) (total advances : Nat) :
    height start target total (advances + 1) =
      height start target total advances + pace start target total := by
  simp only [height, Int.natCast_add, Int.add_mul, Int.cast_ofNat_Int, Int.one_mul, Int.add_assoc]

/-- While a course lasts, no wheel has gone farther than to its target. -/
theorem advance_between (start target : Int8) {total ticks : Nat} (hk : ticks ≤ total) :
    (start.toInt ≤ target.toInt → 0 ≤ ticks * pace start target total ∧
      ticks * pace start target total ≤ (target.toInt - start.toInt) * 65536) ∧
    (target.toInt ≤ start.toInt → ticks * pace start target total ≤ 0 ∧
      (target.toInt - start.toInt) * 65536 ≤ ticks * pace start target total) := by
  unfold pace
  split
  · rename_i hz
    have : ticks = 0 := by omega
    subst this
    constructor <;> intro _ <;> constructor <;> omega
  · have hk' : (ticks : Int) ≤ total := by exact_mod_cast hk
    have hk0 : (0 : Int) ≤ ticks := Int.natCast_nonneg ticks
    constructor <;> intro hd
    · have h0 := Int.tdiv_nonneg (show 0 ≤ (target.toInt - start.toInt) * 65536 by omega)
        (Int.natCast_nonneg total)
      have h1 := Int.mul_tdiv_self_le (k := (total : Int))
        (show 0 ≤ (target.toInt - start.toInt) * 65536 by omega)
      exact ⟨Int.mul_nonneg hk0 h0, Int.le_trans (Int.mul_le_mul_of_nonneg_right hk' h0) h1⟩
    · have h0 := Int.tdiv_nonneg (show 0 ≤ (start.toInt - target.toInt) * 65536 by omega)
        (Int.natCast_nonneg total)
      have h1 := Int.mul_tdiv_self_le (k := (total : Int))
        (show 0 ≤ (start.toInt - target.toInt) * 65536 by omega)
      have h2 := Int.le_trans (Int.mul_le_mul_of_nonneg_right hk' h0) h1
      have h3 := Int.mul_nonneg hk0 h0
      rw [show (target.toInt - start.toInt) * 65536 = -((start.toInt - target.toInt) * 65536) by
        omega, Int.neg_tdiv, Int.mul_neg]
      omega

/-- On its way a wheel stays between start and target, rounded down. -/
theorem floor_between (start target : Int8) {total ticks : Nat} (hk : ticks ≤ total) :
    min start.toInt target.toInt ≤ height start target total ticks / 65536 ∧
      height start target total ticks / 65536 ≤ max start.toInt target.toInt := by
  obtain ⟨up, down⟩ := advance_between start target hk
  unfold height
  rcases Int.le_total start.toInt target.toInt with hd | hd
  · obtain ⟨_, _⟩ := up hd
    omega
  · obtain ⟨_, _⟩ := down hd
    omega

theorem floor_inLimit {start target : Int8} {total ticks : Nat} (hs : InLimit start)
    (ht : InLimit target) (hk : ticks ≤ total) :
    -100 ≤ height start target total ticks / 65536 ∧
      height start target total ticks / 65536 ≤ 100 := by
  obtain ⟨_, _⟩ := floor_between start target hk
  obtain ⟨_, _⟩ := hs
  obtain ⟨_, _⟩ := ht
  omega

namespace Wheel

theorem course_inLimit {start target : Int8} (hs : InLimit start) (ht : InLimit target)
    (total ticks : Nat) : InLimit (course start target total ticks).current := by
  unfold course
  dsimp only
  split
  · rename_i hk
    obtain ⟨low, high⟩ := floor_inLimit hs ht (Nat.le_of_lt hk)
    unfold InLimit
    rw [Int8.toInt_ofInt_of_le (by omega) (by omega)]
    exact ⟨low, high⟩
  · exact ht

/-- At the start of its course a wheel has the speed that it left with. -/
theorem course_zero {start target : Int8} {total : Nat} (h : way start target ≤ total) :
    course start target total 0 =
      ⟨start, target, start.toInt * 65536, pace start target total⟩ := by
  have hh : height start target total 0 = start.toInt * 65536 := by
    simp only [height, Int.natCast_zero, Int.zero_mul, Int.add_zero]
  have hc : (if 0 < total then Int8.ofInt (height start target total 0 / 65536) else target) =
      start := by
    split
    · rw [hh, Int.mul_ediv_cancel _ (by decide), Int8.ofInt_toInt]
    · exact (eq_of_way_eq_zero (by omega)).symm
  unfold course
  rw [hc, Nat.zero_min, hh]

theorem aim_eq {w : Wheel} {target : Int8} {total : Nat} (hs : InLimit w.current)
    (ht : InLimit target) (h : way w.current target ≤ total) :
    w.aim total target = .ok (course w.current target total 0) := by
  obtain ⟨_, _⟩ := hs
  obtain ⟨_, _⟩ := ht
  have h1 : int32.Holds (target.toInt - w.current.toInt) := by
    constructor <;> simp only [int32] <;> omega
  have h2 : int32.Holds (w.current.toInt * 65536) := by
    constructor <;> simp only [int32] <;> omega
  have h3 : int32.Holds ((target.toInt - w.current.toInt) * 65536) := by
    constructor <;> simp only [int32] <;> omega
  rw [course_zero h]
  simp only [aim, Word.hold_eq_ok h1, Word.hold_eq_ok h2, Word.hold_eq_ok h3, Word.ok_bind,
    Word.pure_eq_ok, pace]

theorem jump_eq (speed : Int8) :
    jump speed = .ok (course (clampSpeed speed) (clampSpeed speed) 0 0) := by
  obtain ⟨_, _⟩ := inLimit_clampSpeed speed
  have h : int32.Holds ((clampSpeed speed).toInt * 65536) := by
    constructor <;> simp only [int32] <;> omega
  rw [course_zero (Nat.le_of_eq (way_self _))]
  simp only [jump, Word.hold_eq_ok h, Word.ok_bind, Word.pure_eq_ok, pace, if_true]

/-- A tick before the last one goes one step on. -/
theorem advance_course {start target : Int8} {total ticks : Nat} (hs : InLimit start)
    (ht : InLimit target) (hk : ticks + 1 < total) :
    (course start target total ticks).advance = .ok (course start target total (ticks + 1)) := by
  have hp := (height_succ start target total ticks).symm
  obtain ⟨_, _⟩ := floor_inLimit hs ht (Nat.le_of_lt hk)
  have h : int32.Holds (height start target total (ticks + 1)) := by
    constructor <;> simp only [int32] <;> omega
  have hm : min ticks (total - 1) = ticks := by omega
  have hm' : min (ticks + 1) (total - 1) = ticks + 1 := by omega
  simp only [advance, course, hm, hm', hp, Word.hold_eq_ok h, Word.ok_bind, Word.pure_eq_ok,
    if_pos hk]

theorem arrive_course {start target : Int8} {total ticks : Nat} (hk : ticks + 1 = total) :
    (course start target total ticks).arrive = course start target total (ticks + 1) := by
  have hm : min ticks (total - 1) = min (ticks + 1) (total - 1) := by omega
  simp only [arrive, course, hm, if_neg (Nat.not_lt.2 (Nat.le_of_eq hk.symm))]

/-- After its last tick a wheel stays where it is. -/
theorem course_done {start target : Int8} {total ticks : Nat} (hk : total ≤ ticks) :
    course start target total (ticks + 1) = course start target total ticks := by
  have hm : min (ticks + 1) (total - 1) = min ticks (total - 1) := by omega
  simp only [course, hm, if_neg (Nat.not_lt.2 hk), if_neg (Nat.not_lt.2 (Nat.le_succ_of_le hk))]

end Wheel

@[simp] theorem targets_course (starts targets : Wheels Int8) (ticks : Nat) :
    (course starts targets ticks).targets = targets := rfl

@[simp] theorem total_course (starts targets : Wheels Int8) (ticks : Nat) :
    (course starts targets ticks).total = span starts targets := rfl

@[simp] theorem elapsed_course (starts targets : Wheels Int8) (ticks : Nat) :
    (course starts targets ticks).elapsed = min ticks (span starts targets) := rfl

theorem get_wheels_course (starts targets : Wheels Int8) (ticks : Nat) (i : Fin 3) :
    (course starts targets ticks).wheels.get i =
      Wheel.course (starts.get i) (targets.get i) (span starts targets) ticks :=
  Wheels.get_zipWith ..

theorem get_speeds (r : Ramp) (i : Fin 3) : r.speeds.get i = (r.wheels.get i).current :=
  Wheels.get_map ..

theorem speeds_course_zero (starts targets : Wheels Int8) :
    (course starts targets 0).speeds = starts := by
  apply Wheels.ext_get
  intro i
  rw [get_speeds, get_wheels_course, Wheel.course_zero (way_le_span starts targets i)]

theorem speeds_course_of_span_le {starts targets : Wheels Int8} {ticks : Nat}
    (h : span starts targets ≤ ticks) : (course starts targets ticks).speeds = targets := by
  apply Wheels.ext_get
  intro i
  rw [get_speeds, get_wheels_course]
  exact if_neg (Nat.not_lt.2 h)

/-- One tick leads from each point of a course to the next. -/
theorem tick_course {starts targets : Wheels Int8} (ticks : Nat)
    (hs : ∀ i, InLimit (starts.get i)) (ht : ∀ i, InLimit (targets.get i)) :
    (course starts targets ticks).tick = .ok (course starts targets (ticks + 1)) := by
  unfold tick
  rw [total_course, elapsed_course]
  split
  · rename_i ended
    have hk : span starts targets ≤ ticks := by omega
    have hm : min (ticks + 1) (span starts targets) = min ticks (span starts targets) := by omega
    simp only [Word.pure_eq_ok, course, Wheel.course_done hk, hm]
  · rename_i before
    have hm : min ticks (span starts targets) = ticks := by omega
    have hm' : min (ticks + 1) (span starts targets) = ticks + 1 := by omega
    rw [hm]
    split
    · rename_i last
      have hw : (course starts targets ticks).wheels.map Wheel.arrive =
          (course starts targets (ticks + 1)).wheels := by
        apply Wheels.ext_get
        intro i
        rw [Wheels.get_map, get_wheels_course, get_wheels_course, Wheel.arrive_course last]
      rw [hw]
      simp only [Word.pure_eq_ok, course, hm']
    · rename_i early
      have hw : (course starts targets ticks).wheels.mapM Wheel.advance =
          .ok (course starts targets (ticks + 1)).wheels := by
        apply Wheels.mapM_eq_ok
        intro i
        rw [get_wheels_course, get_wheels_course]
        exact Wheel.advance_course (hs i) (ht i) (by omega)
      rw [hw]
      simp only [Word.ok_bind, Word.pure_eq_ok, course, hm']

/-- Aiming begins a course from the present speeds to the clamped targets. -/
theorem aim_eq {r : Ramp} (h : ∀ i, InLimit (r.speeds.get i)) (targets : Wheels Int8) :
    r.aim targets = .ok (course r.speeds (targets.map clampSpeed) 0) := by
  have hd : r.distance (targets.map clampSpeed) = span r.speeds (targets.map clampSpeed) := rfl
  have hw : (Wheels.zipWith
      (fun (w : Wheel) t => w.aim (span r.speeds (targets.map clampSpeed)) t)
      r.wheels (targets.map clampSpeed)).mapM id =
        .ok (course r.speeds (targets.map clampSpeed) 0).wheels := by
    apply Wheels.mapM_eq_ok
    intro i
    have hi := way_le_span r.speeds (targets.map clampSpeed) i
    have hl := h i
    rw [get_speeds] at hi hl
    rw [get_wheels_course, Wheels.get_zipWith, get_speeds]
    rw [Wheels.get_map] at hi ⊢
    exact Wheel.aim_eq hl (inLimit_clampSpeed _) hi
  unfold aim
  simp only [hd, hw, Word.ok_bind, Word.pure_eq_ok, course, Nat.zero_min]

def steady (speeds : Wheels Int8) : Ramp := course speeds speeds 0

theorem jump_eq (speeds : Wheels Int8) : jump speeds = .ok (steady (speeds.map clampSpeed)) := by
  have hw : speeds.mapM Wheel.jump = .ok (steady (speeds.map clampSpeed)).wheels := by
    apply Wheels.mapM_eq_ok
    intro i
    rw [steady, get_wheels_course, span_self, Wheels.get_map]
    exact Wheel.jump_eq _
  unfold jump
  simp only [hw, Word.ok_bind, Word.pure_eq_ok, steady, course, span_self, Nat.zero_min]

theorem atRest_eq : atRest = steady (Wheels.fill 0) := by decide

namespace OnCourse

theorem steady {speeds : Wheels Int8} (h : ∀ i, InLimit (speeds.get i)) :
    OnCourse (Ramp.steady speeds) := .mk 0 h h

theorem speeds_inLimit {r : Ramp} (h : OnCourse r) (i : Fin 3) : InLimit (r.speeds.get i) := by
  obtain ⟨ticks, hs, ht⟩ := h
  rw [get_speeds, get_wheels_course]
  exact Wheel.course_inLimit (hs i) (ht i) _ _

/-- A ramp that has done all of its ticks is at its targets. -/
theorem speeds_eq_targets {r : Ramp} (h : OnCourse r) (hd : r.total ≤ r.elapsed) :
    r.speeds = r.targets := by
  obtain ⟨ticks, hs, ht⟩ := h
  rw [total_course, elapsed_course] at hd
  exact speeds_course_of_span_le (by omega)

/-- A ramp to a stop takes at most a hundred ticks. -/
theorem total_le_of_targets_eq_zero {r : Ramp} (h : OnCourse r)
    (hz : r.targets = Wheels.fill 0) : r.total ≤ 100 := by
  obtain ⟨ticks, hs, ht⟩ := h
  rw [targets_course] at hz
  subst hz
  apply Wheels.greatest_le
  intro i
  rw [Wheels.get_zipWith, Wheels.get_fill]
  exact way_le 0 (hs i)

/-- A tick succeeds and goes one step on toward the same targets. -/
theorem tick {r : Ramp} (h : OnCourse r) : ∃ next, r.tick = .ok next ∧ OnCourse next ∧
    next.targets = r.targets ∧ next.total = r.total ∧ next.elapsed = min (r.elapsed + 1) r.total := by
  obtain ⟨ticks, hs, ht⟩ := h
  refine ⟨_, tick_course ticks hs ht, .mk (ticks + 1) hs ht, rfl, rfl, ?_⟩
  simp only [elapsed_course, total_course]
  omega

end OnCourse

end Ramp

end OmniDrive
