import Mathlib.Data.List.Forall2
import OmniDrive.Proofs.Motor.Regulation
import OmniDrive.Proofs.Run

/-! Forward and reverse. The opposite of a sequence of setpoints and clicks keeps the memory of a
regulator at its opposite: truncation, clipping and the leak are odd. Only the duty is rounded down
both ways, so that going backward it is one beyond the opposite unless the output is a whole duty. -/
namespace OmniDrive.Regulator

/-- A setpoint, and the clicks that were measured. -/
structure Call where
  setpoint : Int8
  clicks : Int8
  deriving DecidableEq, Repr

namespace Call

/-- The same the other way around. -/
def reversed (call : Call) : Call := ⟨-call.setpoint, -call.clicks⟩

/-- The least byte, which has no opposite, does not occur. -/
def IsReversible (call : Call) : Prop := call.setpoint ≠ -128 ∧ call.clicks ≠ -128

instance (call : Call) : Decidable call.IsReversible := inferInstanceAs (Decidable (_ ∧ _))

/-- The setpoint is zero, or beyond the speed limit either way. -/
def IsIdle (call : Call) : Prop := call.setpoint = 0 ∨ 100 < call.setpoint.toInt.natAbs

instance (call : Call) : Decidable call.IsIdle := inferInstanceAs (Decidable (_ ∨ _))

end Call

/-- Ask for one duty. -/
def perform (r : Regulator) (call : Call) : Act Notice (Regulator × Int8) :=
  liftM (r.tick call.setpoint call.clicks)

abbrev Moment := Act.Moment Regulator Call Notice Int8

/-- The memory of the one is the opposite of the other's. -/
structure Opposes (forward reverse : Regulator) : Prop where
  law : reverse.law = forward.law
  error : reverse.error = -forward.error
  integral : reverse.integral = -forward.integral
  output : reverse.output = -forward.output

/-- The output and the duty keep their bounds. -/
structure Moment.Bounded (m : Moment) : Prop where
  output : -8128 ≤ m.after.output ∧ m.after.output ≤ 8128
  duty : -127 ≤ m.result.toInt ∧ m.result.toInt ≤ 127

/-- What the opposite of a call does. -/
structure Moment.Mirrors (forward reverse : Moment) : Prop where
  operation : reverse.operation = forward.operation.reversed
  memory : forward.after.Opposes reverse.after
  idle : forward.operation.IsIdle → forward.result = 0 ∧ reverse.result = 0
  duty : reverse.result.toInt =
    if forward.operation.IsIdle ∨ 64 ∣ forward.after.output then -forward.result.toInt
    else -forward.result.toInt - 1

variable {r s : Regulator} {reach : Nat} {setpoint clicks : Int8} {call : Call}

theorem isNeutral_iff : isNeutral call.setpoint = true ↔ call.IsIdle := by
  unfold isNeutral Call.IsIdle
  rw [Bool.or_eq_true, beq_iff_eq, decide_eq_true_iff]

theorem isNeutral_of_not_isIdle (h : ¬ call.IsIdle) : isNeutral call.setpoint = false :=
  Bool.eq_false_iff.2 (mt isNeutral_iff.1 h)

/-- An opposite setpoint is idle if the setpoint is. -/
theorem Call.IsReversible.isIdle_reversed (h : call.IsReversible) :
    call.reversed.IsIdle ↔ call.IsIdle := by
  have zero : call.setpoint = 0 ↔ call.setpoint.toInt = 0 := Int8.toInt_inj.symm
  have zero' : -call.setpoint = 0 ↔ (-call.setpoint).toInt = 0 := Int8.toInt_inj.symm
  unfold IsIdle reversed
  rw [zero, zero', Word.toInt_neg h.1, Int.natAbs_neg, Int.neg_eq_zero]

/-- What a tick makes of a tame regulator, and the duty. -/
def answer (r : Regulator) (call : Call) : Regulator × Int8 :=
  if call.IsIdle then (r, 0)
  else (r.regulated call.setpoint call.clicks, (r.regulated call.setpoint call.clicks).duty)

theorem answer_of_isIdle (h : call.IsIdle) (r : Regulator) : r.answer call = (r, 0) := if_pos h

theorem answer_of_not_isIdle (h : ¬ call.IsIdle) (r : Regulator) : r.answer call =
    (r.regulated call.setpoint call.clicks, (r.regulated call.setpoint call.clicks).duty) :=
  if_neg h

theorem Tame.perform_eq (h : r.Tame settledReach) (call : Call) :
    r.perform call = Act.done [] (r.answer call) := by
  have completes : r.tick call.setpoint call.clicks = .ok (r.answer call) := by
    unfold Regulator.tick
    by_cases idle : call.IsIdle
    · rw [answer_of_isIdle idle, if_pos (isNeutral_iff.2 idle)]
      rfl
    · have wide := Nat.le_trans h.integral (show settledReach ≤ widestReach by decide)
      rw [answer_of_not_isIdle idle, if_neg (mt isNeutral_iff.1 idle),
        h.update_eq (fun _ => wide) (isNeutral_of_not_isIdle idle)]
      rfl
  unfold perform
  rw [completes, Act.lift_ok]

theorem Tame.answer (h : r.Tame settledReach) (call : Call) :
    (r.answer call).1.Tame settledReach := by
  by_cases idle : call.IsIdle
  · rwa [answer_of_isIdle idle]
  · rw [answer_of_not_isIdle idle]
    exact h.regulated (Nat.le_refl _) (isNeutral_of_not_isIdle idle) _

theorem Opposes.tame (h : r.Opposes s) (hr : r.Tame reach) : s.Tame reach where
  error := by
    rw [h.error, Int.natAbs_neg]
    exact hr.error
  integral := by
    rw [h.integral, Int.natAbs_neg]
    exact hr.integral
  output := by
    have := hr.output
    rw [h.output]
    omega

/-- Clipping is odd. -/
theorem clipped_neg (output : Int) :
    max (-bound) (min bound (-output)) = -max (-bound) (min bound output) := by
  unfold bound
  omega

/-- Under either law the memory after the opposite of a call is the opposite. -/
theorem Opposes.regulated (h : r.Opposes s) (hs : setpoint ≠ -128) (hc : clicks ≠ -128) :
    (r.regulated setpoint clicks).Opposes (s.regulated (-setpoint) (-clicks)) := by
  obtain ⟨_, previous, integral, output⟩ := r
  obtain ⟨law, _, _, _⟩ := s
  obtain ⟨hl, he, hi, ho⟩ := h
  dsimp only at hl he hi ho
  subst hl he hi ho
  have error : (-setpoint).toInt * 4 - (-clicks).toInt = -(setpoint.toInt * 4 - clicks.toInt) := by
    rw [Word.toInt_neg hs, Word.toInt_neg hc]
    omega
  unfold Regulator.regulated
  dsimp only
  rw [error]
  generalize setpoint.toInt * 4 - clicks.toInt = error
  cases law with
  | pd =>
    refine ⟨rfl, rfl, rfl, ?_⟩
    dsimp only
    rw [← clipped_neg]
    congr 2
    omega
  | pid =>
    have leaked : (-integral * 63).tdiv 64 + -error = -((integral * 63).tdiv 64 + error) := by
      rw [Int.neg_mul, Int.neg_tdiv, Int.neg_add]
    refine ⟨rfl, rfl, leaked, ?_⟩
    dsimp only
    rw [leaked, ← clipped_neg]
    congr 2
    omega

theorem Opposes.answer (h : r.Opposes s) (hc : call.IsReversible) :
    (r.answer call).1.Opposes (s.answer call.reversed).1 := by
  by_cases idle : call.IsIdle
  · rwa [answer_of_isIdle idle, answer_of_isIdle (hc.isIdle_reversed.2 idle)]
  · rw [answer_of_not_isIdle idle, answer_of_not_isIdle (mt hc.isIdle_reversed.1 idle)]
    exact h.regulated hc.1 hc.2

/-- The duty is rounded down whatever the sign. -/
theorem Opposes.duty (h : r.Opposes s) (hr : r.Tame reach) :
    s.duty.toInt = if 64 ∣ r.output then -r.duty.toInt else -r.duty.toInt - 1 := by
  rw [toInt_duty hr.output, toInt_duty (h.tame hr).output, h.output]
  split <;> omega

/-- The moment of a call on a regulator. -/
def momentOf (r : Regulator) (call : Call) : Moment :=
  ⟨r, call, [], (r.answer call).2, (r.answer call).1⟩

theorem bounded_momentOf (h : r.Tame settledReach) (call : Call) :
    (r.momentOf call).Bounded where
  output := (h.answer call).output
  duty := by
    have tame := h.answer call
    have small : (r.answer call).2.toInt.natAbs ≤ 127 := by
      by_cases idle : call.IsIdle
      · rw [answer_of_isIdle idle]
        exact Nat.zero_le _
      · rw [answer_of_not_isIdle idle] at tame ⊢
        exact duty_bound tame.output
    change -127 ≤ (r.answer call).2.toInt ∧ (r.answer call).2.toInt ≤ 127
    omega

theorem Opposes.mirrors (h : r.Opposes s) (hr : r.Tame settledReach) (hc : call.IsReversible) :
    (r.momentOf call).Mirrors (s.momentOf call.reversed) where
  operation := rfl
  memory := h.answer hc
  idle := by
    intro (idle : call.IsIdle)
    change (r.answer call).2 = 0 ∧ (s.answer call.reversed).2 = 0
    rw [answer_of_isIdle idle, answer_of_isIdle (hc.isIdle_reversed.2 idle)]
    exact ⟨rfl, rfl⟩
  duty := by
    have memory := h.answer hc
    have tame := hr.answer call
    change (s.answer call.reversed).2.toInt = if call.IsIdle ∨ 64 ∣ (r.answer call).1.output
      then -(r.answer call).2.toInt else -(r.answer call).2.toInt - 1
    by_cases idle : call.IsIdle
    · rw [if_pos (.inl idle), answer_of_isIdle idle,
        answer_of_isIdle (hc.isIdle_reversed.2 idle)]
      rfl
    · rw [answer_of_not_isIdle idle] at memory tame ⊢
      rw [answer_of_not_isIdle (mt hc.isIdle_reversed.1 idle)] at memory ⊢
      rw [memory.duty tame]
      exact if_congr (or_iff_right idle).symm rfl rfl

/-- Two regulators whose memories are opposite stay so over opposite calls. -/
theorem Opposes.run (h : r.Opposes s) (hr : r.Tame settledReach) {calls : List Call}
    (hc : ∀ call ∈ calls, call.IsReversible) : ∃ moments last mirrored mirroredLast,
      Act.run perform r calls = .ok (moments, last) ∧
      Act.run perform s (calls.map Call.reversed) = .ok (mirrored, mirroredLast) ∧
      List.Forall₂ Moment.Mirrors moments mirrored := by
  induction calls generalizing r s with
  | nil => exact ⟨[], r, [], s, rfl, rfl, .nil⟩
  | cons call calls ih =>
    obtain ⟨here, later⟩ := List.forall_mem_cons.1 hc
    obtain ⟨moments, last, mirrored, mirroredLast, forward, reverse, mirrors⟩ :=
      ih (h.answer here) (hr.answer call) later
    exact ⟨r.momentOf call :: moments, last, s.momentOf call.reversed :: mirrored, mirroredLast,
      Act.run_cons (hr.perform_eq call) forward,
      Act.run_cons ((h.tame hr).perform_eq call.reversed) reverse, .cons (h.mirrors hr here) mirrors⟩

/-- Over every sequence of calls a new regulator completes and keeps its output and its duty within
their bounds. The opposite sequence, if there is one, gives the opposite memory after every call; its
duty is the opposite one if the setpoint was idle or the output is a whole duty, and one less
otherwise. -/
theorem reversed_calls_mirror (law : Law) (calls : List Call) :
    ∃ moments last, Act.run perform (initial law) calls = .ok (moments, last) ∧
      moments.map Act.Moment.operation = calls ∧ (∀ m ∈ moments, Moment.Bounded m) ∧
      ((∀ call ∈ calls, call.IsReversible) → ∃ mirrored mirroredLast,
        Act.run perform (initial law) (calls.map Call.reversed) = .ok (mirrored, mirroredLast) ∧
          List.Forall₂ Moment.Mirrors moments mirrored) := by
  have step (past : List Moment) (r : Regulator) (call : Call) (h : r.Tame settledReach) :
      ∃ events duty after, r.perform call = Act.done events (after, duty) ∧
        after.Tame settledReach :=
    ⟨[], _, _, h.perform_eq call, h.answer call⟩
  have start := tame_initial law settledReach
  obtain ⟨moments, last, run, ho, -, kept⟩ := Act.run_keeps step calls [] (initial law) start
  refine ⟨moments, last, run, ho, fun m mem => ?_, fun reversible => ?_⟩
  · obtain ⟨earlier, later, rfl⟩ := List.append_of_mem mem
    obtain ⟨before, happens, -⟩ := kept earlier m later rfl
    rw [happens.eq (before.perform_eq m.operation)]
    exact bounded_momentOf before m.operation
  · have opposite : (initial law).Opposes (initial law) := ⟨rfl, rfl, rfl, rfl⟩
    obtain ⟨_, _, mirrored, mirroredLast, forward, reverse, mirrors⟩ :=
      opposite.run start reversible
    cases run.symm.trans forward
    exact ⟨mirrored, mirroredLast, reverse, mirrors⟩

/-- Full speed, a setpoint beyond the limit, clicks of a wheel that runs away, and no setpoint. -/
theorem reversed_calls_mirror_hasty :
    let calls : List Call := [⟨100, 0⟩, ⟨101, 5⟩, ⟨-3, 127⟩, ⟨0, -7⟩, ⟨1, -127⟩]
    (∀ call ∈ calls, call.IsReversible) ∧ ∃ moments last mirrored mirroredLast,
      Act.run perform (initial .pid) calls = .ok (moments, last) ∧
      Act.run perform (initial .pid) (calls.map Call.reversed) = .ok (mirrored, mirroredLast) ∧
      List.Forall₂ Moment.Mirrors moments mirrored := by
  intro calls
  have reversible : ∀ call ∈ calls, call.IsReversible := by decide
  obtain ⟨moments, last, run, -, -, mirror⟩ := reversed_calls_mirror .pid calls
  obtain ⟨mirrored, mirroredLast, reverse, mirrors⟩ := mirror reversible
  exact ⟨reversible, moments, last, mirrored, mirroredLast, run, reverse, mirrors⟩

end OmniDrive.Regulator
