import Mathlib.Data.List.Chain
import OmniDrive.Proofs.Motor.Protection
import OmniDrive.Proofs.Run

/-! Sequences of calls on a current limiter. The correction is held to the present setpoint only
while too much current flows. At a moderate current, one that was built up under a larger setpoint
stays, and it can pull a smaller one past zero. -/
namespace OmniDrive.CurrentLimiter

open Word (int8)

/-- A setpoint to be limited, and the current that was measured. -/
structure Call where
  setpoint : Int8
  current : UInt8
  deriving DecidableEq, Repr

namespace Call

def size (call : Call) : Nat := call.setpoint.toInt.natAbs

/-- More current than the limiter regulates to. -/
def IsOver (call : Call) : Prop := 25 < call.current.toNat

instance (call : Call) : Decidable call.IsOver := inferInstanceAs (Decidable (_ < _))

/-- The later call does not come with a smaller setpoint at a moderate current. -/
def Sustains (call later : Call) : Prop := later.IsOver ∨ call.size ≤ later.size

instance : DecidableRel Sustains := fun _ _ => inferInstanceAs (Decidable (_ ∨ _))

end Call

/-- Limit one setpoint. -/
def perform (l : CurrentLimiter) (call : Call) : Act Notice (CurrentLimiter × Limited) :=
  liftM (l.pass call.setpoint call.current)

abbrev Moment := Act.Moment CurrentLimiter Call Notice Limited

namespace Moment

/-- The correction that the current alone would leave. -/
def leftover (m : Moment) : Int := m.before.correction + (25 - m.operation.current.toNat)

/-- The result lies between zero and the setpoint, both included. -/
def TowardZero (m : Moment) : Prop :=
  0 ≤ m.result.setpoint.toInt ∧ m.result.setpoint.toInt ≤ m.operation.setpoint.toInt ∨
    m.operation.setpoint.toInt ≤ m.result.setpoint.toInt ∧ m.result.setpoint.toInt ≤ 0

instance (m : Moment) : Decidable m.TowardZero := inferInstanceAs (Decidable (_ ∨ _))

end Moment

/-- What a call does with its setpoint. -/
structure Moment.Pulls (m : Moment) : Prop where
  bounded : m.after.Within 128
  exact : m.result.setpoint.toInt = m.operation.setpoint.toInt + m.result.folded
  within_iff : m.after.Within m.operation.size ↔
    m.operation.IsOver ∨ -32 * (m.operation.size : Int) ≤ m.leftover
  towardZero_iff : m.TowardZero ↔
    m.operation.IsOver ∨ -32 * (m.operation.size + 1 : Int) < m.leftover
  pastZero : ¬ m.TowardZero → m.result.setpoint.toInt =
    if 0 ≤ m.operation.setpoint.toInt then m.operation.setpoint.toInt - -m.leftover / 32
    else m.operation.setpoint.toInt + -m.leftover / 32

variable {l : CurrentLimiter} {call : Call} {size : Nat}

theorem perform_eq (h : l.Within 128) (call : Call) :
    l.perform call = Act.done [] (⟨l.corrected call.setpoint call.current⟩,
      ⟨Int8.ofInt (int8.clamp (call.setpoint.toInt + l.pull call.setpoint call.current)),
        l.pull call.setpoint call.current⟩) := by
  unfold perform
  rw [pass_eq h, Act.lift_ok]

/-- The correction after a call is what the current alone would leave, held to zero and, while too
much current flows, to the setpoint. -/
theorem corrected_eq (l : CurrentLimiter) (call : Call) :
    l.corrected call.setpoint call.current =
      if call.IsOver then max (l.correction + (25 - call.current.toNat)) (-32 * call.size)
      else min (l.correction + (25 - call.current.toNat)) 0 := by
  unfold corrected limit scale
  by_cases excess : call.IsOver
  · rw [if_pos excess, if_pos (show (25 : Int) - call.current.toNat < 0 by
      unfold Call.IsOver at excess
      omega)]
    unfold Call.size
    omega
  · rw [if_neg excess, if_neg (show ¬ (25 : Int) - call.current.toNat < 0 by
      unfold Call.IsOver at excess
      omega)]

/-- The correction is added toward zero. -/
theorem pull_eq (h : l.Within 128) (call : Call) :
    l.pull call.setpoint call.current =
      if 0 ≤ call.setpoint.toInt then -(-l.corrected call.setpoint call.current / 32)
      else -l.corrected call.setpoint call.current / 32 := by
  obtain ⟨-, high⟩ := corrected_within h (Word.natAbs_toInt_le call.setpoint) call.current
  have sign : (0 : Int8) ≤ call.setpoint ↔ 0 ≤ call.setpoint.toInt := Int8.le_iff_toInt_le
  unfold pull
  rw [tdiv_scale_eq high]
  simp only [sign]
  split
  · exact Int.mul_one _
  · rw [Int.mul_neg_one, Int.neg_neg]

theorem toInt_limited (h : l.Within 128) (call : Call) :
    (Int8.ofInt (int8.clamp
      (call.setpoint.toInt + l.pull call.setpoint call.current))).toInt =
        call.setpoint.toInt + l.pull call.setpoint call.current := by
  obtain ⟨low, high⟩ := corrected_within h (Word.natAbs_toInt_le call.setpoint) call.current
  have least := call.setpoint.le_toInt
  have greatest := call.setpoint.toInt_lt
  unfold scale at low
  dsimp only at low high
  have holds : int8.Holds (call.setpoint.toInt + l.pull call.setpoint call.current) := by
    rw [pull_eq h]
    constructor <;> simp only [int8] <;> split <;> omega
  rw [Word.clamp_eq_self holds]
  exact Int8.toInt_ofInt_of_le holds.1 (Int.lt_add_one_of_le holds.2)

/-- The moment of a call on a limiter. -/
def momentOf (l : CurrentLimiter) (call : Call) : Moment where
  before := l
  operation := call
  events := []
  result := ⟨Int8.ofInt (int8.clamp (call.setpoint.toInt + l.pull call.setpoint call.current)),
    l.pull call.setpoint call.current⟩
  after := ⟨l.corrected call.setpoint call.current⟩

theorem toInt_setpoint_momentOf (h : l.Within 128) (call : Call) :
    (l.momentOf call).result.setpoint.toInt =
      if 0 ≤ call.setpoint.toInt then
        call.setpoint.toInt - -l.corrected call.setpoint call.current / 32
      else call.setpoint.toInt + -l.corrected call.setpoint call.current / 32 := by
  refine (toInt_limited h call).trans ?_
  rw [pull_eq h]
  split <;> omega

/-- The result lies toward zero exactly as long as the correction is not a whole step larger than
the setpoint. -/
theorem towardZero_momentOf (h : l.Within 128) (call : Call) :
    (l.momentOf call).TowardZero ↔
      -32 * (call.size + 1 : Int) < l.corrected call.setpoint call.current := by
  obtain ⟨-, high⟩ := corrected_within h (Word.natAbs_toInt_le call.setpoint) call.current
  have result := toInt_setpoint_momentOf h call
  unfold Moment.TowardZero
  rw [result]
  change _ ∧ _ ≤ call.setpoint.toInt ∨ call.setpoint.toInt ≤ _ ∧ _ ↔ _
  dsimp only at high
  unfold Call.size
  split <;> omega

theorem within_momentOf_iff (h : l.Within 128) (call : Call) :
    (l.momentOf call).after.Within call.size ↔
      call.IsOver ∨ -32 * (call.size : Int) ≤ (l.momentOf call).leftover := by
  obtain ⟨low, high⟩ := h
  change Within call.size ⟨l.corrected call.setpoint call.current⟩ ↔ call.IsOver ∨
    -32 * (call.size : Int) ≤ l.correction + (25 - call.current.toNat)
  unfold Within scale
  dsimp only
  rw [corrected_eq]
  split
  · simp only [*, true_or, iff_true]
    unfold Call.IsOver at *
    omega
  · simp only [*, false_or]
    omega

theorem towardZero_momentOf_iff (h : l.Within 128) (call : Call) :
    (l.momentOf call).TowardZero ↔
      call.IsOver ∨ -32 * (call.size + 1 : Int) < (l.momentOf call).leftover := by
  rw [towardZero_momentOf h, corrected_eq]
  change _ ↔ call.IsOver ∨
    -32 * (call.size + 1 : Int) < l.correction + (25 - call.current.toNat)
  split
  · simp only [*, true_or, iff_true]
    omega
  · simp only [*, false_or]
    omega

/-- A setpoint is pulled past zero by what a moderate current leaves. -/
theorem toInt_setpoint_of_past (h : l.Within 128) (past : ¬ (l.momentOf call).TowardZero) :
    (l.momentOf call).result.setpoint.toInt =
      if 0 ≤ call.setpoint.toInt then
        call.setpoint.toInt - -(l.momentOf call).leftover / 32
      else call.setpoint.toInt + -(l.momentOf call).leftover / 32 := by
  obtain ⟨moderate, far⟩ := not_or.1 (mt (towardZero_momentOf_iff h call).2 past)
  have result := toInt_setpoint_momentOf h call
  rw [corrected_eq, if_neg moderate] at result
  have left : min (l.correction + (25 - call.current.toNat)) 0 = (l.momentOf call).leftover := by
    change ¬ -32 * (call.size + 1 : Int) < l.correction + (25 - call.current.toNat) at far
    change _ = l.correction + (25 - (call.current.toNat : Int))
    omega
  rwa [left] at result

theorem pulls_momentOf (h : l.Within 128) (call : Call) : (l.momentOf call).Pulls where
  bounded := corrected_within h (Word.natAbs_toInt_le call.setpoint) call.current
  exact := toInt_limited h call
  within_iff := within_momentOf_iff h call
  towardZero_iff := towardZero_momentOf_iff h call
  pastZero := toInt_setpoint_of_past h

/-- A correction within the setpoint leaves the result between zero and it. -/
theorem towardZero_of_within (h : l.Within 128)
    (hw : (l.momentOf call).after.Within call.size) : (l.momentOf call).TowardZero := by
  rw [towardZero_momentOf h]
  obtain ⟨low, -⟩ := hw
  change -(call.size : Int) * 32 ≤ l.corrected call.setpoint call.current at low
  omega

/-- The size of the last setpoint; none is the smallest. -/
def lastSize (past : List Moment) : Nat := (past.getLast?.map fun m => m.operation.size).getD 0

/-- What a run keeps: the correction is bounded, and as long as no setpoint has shrunk at a moderate
current it is held to the last one. -/
structure Held (past : List Moment) (l : CurrentLimiter) : Prop where
  bounded : l.Within 128
  within : (past.map Act.Moment.operation).IsChain Call.Sustains → l.Within (lastSize past)

theorem held_initial : Held [] initial := by
  have none_left (size : Nat) : initial.Within size := by
    unfold Within scale initial
    dsimp only
    omega
  exact ⟨none_left 128, fun _ => none_left _⟩

variable {past : List Moment}

theorem eq_momentOf {m : Moment} (h : m.before.Within 128) (hm : m.Happens perform) :
    m = m.before.momentOf m.operation :=
  hm.eq (perform_eq h m.operation)

/-- A call that sustains the run before it is over the limit or finds no larger setpoint. -/
theorem isOver_or_lastSize_le {m : Moment}
    (hc : ((past ++ [m]).map Act.Moment.operation).IsChain Call.Sustains) :
    m.operation.IsOver ∨ lastSize past ≤ m.operation.size := by
  rw [List.map_append, List.isChain_append] at hc
  obtain ⟨-, -, joint⟩ := hc
  unfold lastSize
  cases hl : past.getLast? with
  | none => exact .inr (Nat.zero_le _)
  | some last =>
    refine joint last.operation ?_ m.operation rfl
    rw [List.getLast?_map, hl]
    rfl

theorem Held.within_after (h : Held past l)
    (hc : ((past ++ [l.momentOf call]).map Act.Moment.operation).IsChain Call.Sustains) :
    (l.momentOf call).after.Within call.size := by
  apply (pulls_momentOf h.bounded call).within_iff.2
  rcases isOver_or_lastSize_le hc with excess | larger
  · exact .inl excess
  · rw [List.map_append, List.isChain_append] at hc
    obtain ⟨low, -⟩ := (h.within hc.1).mono larger
    by_cases excess : call.IsOver
    · exact .inl excess
    · right
      change -32 * (call.size : Int) ≤ l.correction + (25 - call.current.toNat)
      change -(call.size : Int) * 32 ≤ l.correction at low
      unfold Call.IsOver at excess
      omega

theorem Held.step (past : List Moment) (l : CurrentLimiter) (call : Call) (h : Held past l) :
    ∃ events result after, l.perform call = Act.done events (after, result) ∧
      Held (past ++ [⟨l, call, events, result, after⟩]) after := by
  refine ⟨[], _, _, perform_eq h.bounded call, (pulls_momentOf h.bounded call).bounded, ?_⟩
  intro chain
  have within := h.within_after chain
  rwa [lastSize, List.getLast?_concat]

/-- Over every sequence of calls, with any setpoints and any currents, the limiter completes. The
correction is between zero and the present setpoint, and so is the result, exactly unless a moderate
current leaves too much of an earlier correction; then the setpoint is pulled past zero by the rest.
Where no setpoint shrinks at a moderate current, neither ever happens. -/
theorem pulls_toward_zero_iff (calls : List Call) :
    ∃ moments last, Act.run perform initial calls = .ok (moments, last) ∧
      moments.map Act.Moment.operation = calls ∧ (∀ m ∈ moments, Moment.Pulls m) ∧
      (calls.IsChain Call.Sustains → ∀ m ∈ moments,
        m.after.Within m.operation.size ∧ Moment.TowardZero m) := by
  obtain ⟨moments, last, hr, ho, -, hk⟩ := Act.run_keeps Held.step calls [] initial held_initial
  have at_moment : ∀ m ∈ moments, Moment.Pulls m ∧ (calls.IsChain Call.Sustains →
      m.after.Within m.operation.size ∧ Moment.TowardZero m) := by
    intro m mem
    obtain ⟨earlier, later, rfl⟩ := List.append_of_mem mem
    obtain ⟨before, happens, -⟩ := hk earlier m later rfl
    have same := eq_momentOf before.bounded happens
    rw [same]
    refine ⟨pulls_momentOf before.bounded m.operation, fun chain => ?_⟩
    have front : ((earlier ++ [m]).map Act.Moment.operation).IsChain Call.Sustains := by
      rw [← ho, List.append_cons, List.map_append] at chain
      exact chain.left_of_append
    rw [same] at front
    have within := before.within_after front
    exact ⟨within, towardZero_of_within before.bounded within⟩
  exact ⟨moments, last, hr, ho, fun m mem => (at_moment m mem).1,
    fun chain m mem => (at_moment m mem).2 chain⟩

/-- A setpoint that grows, and one that shrinks under too much current. -/
theorem pulls_toward_zero_sustained :
    let calls : List Call := [⟨60, 255⟩, ⟨-100, 25⟩, ⟨0, 26⟩, ⟨5, 0⟩]
    calls.IsChain Call.Sustains ∧ ∃ moments last,
      Act.run perform initial calls = .ok (moments, last) ∧
        ∀ m ∈ moments, m.after.Within m.operation.size ∧ Moment.TowardZero m := by
  intro calls
  have chain : calls.IsChain Call.Sustains := by decide
  obtain ⟨moments, last, hr, -, -, hs⟩ := pulls_toward_zero_iff calls
  exact ⟨chain, moments, last, hr, hs chain⟩

/-- Not every setpoint is pulled toward zero only: one of zero is pulled to minus seven by what was
built up under a hundred. -/
theorem zero_setpoint_pulled_past : ¬ ∀ calls : List Call, ∃ moments last,
    Act.run perform initial calls = .ok (moments, last) ∧
      ∀ m ∈ moments, m.after.Within m.operation.size ∧ Moment.TowardZero m := by
  intro toward
  obtain ⟨moments, last, hr, hm⟩ := toward [⟨100, 255⟩, ⟨0, 25⟩]
  have run : Act.run perform initial [⟨100, 255⟩, ⟨0, 25⟩] =
      .ok ([⟨⟨0⟩, ⟨100, 255⟩, [], ⟨93, -7⟩, ⟨-230⟩⟩, ⟨⟨-230⟩, ⟨0, 25⟩, [], ⟨-7, -7⟩, ⟨-230⟩⟩],
        ⟨-230⟩) := rfl
  cases hr.symm.trans run
  have past := (hm _ (List.mem_cons_of_mem _ List.mem_cons_self)).2
  exact absurd past (by decide)

end OmniDrive.CurrentLimiter
