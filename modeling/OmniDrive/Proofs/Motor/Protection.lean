import OmniDrive.Motor.Protection

/-! What the limiters do with a setpoint. Both always complete on what a motor can hand them. -/
namespace OmniDrive

namespace CurrentLimiter

open Word (int8 int16)

/-- The correction after a measurement, as long as nothing saturates. -/
def corrected (l : CurrentLimiter) (setpoint : Int8) (current : UInt8) : Int :=
  if limit - current.toNat < 0 then
    max (l.correction + (limit - current.toNat)) (-(setpoint.toInt.natAbs : Int) * scale)
  else min (l.correction + (limit - current.toNat)) 0

/-- The correction as it is added to the setpoint. -/
def pull (l : CurrentLimiter) (setpoint : Int8) (current : UInt8) : Int :=
  (l.corrected setpoint current).tdiv scale * if 0 ≤ setpoint then 1 else -1

/-- The correction stays between zero and what cancels a setpoint of the given size. -/
def Within (size : Nat) (l : CurrentLimiter) : Prop :=
  -(size : Int) * scale ≤ l.correction ∧ l.correction ≤ 0

variable {l : CurrentLimiter} {size : Nat}

theorem Within.mono {larger : Nat} (h : l.Within size) (hs : size ≤ larger) :
    l.Within larger := by
  obtain ⟨low, high⟩ := h
  unfold Within scale at *
  omega

theorem corrected_within (h : l.Within size) {setpoint : Int8}
    (hs : setpoint.toInt.natAbs ≤ size) (current : UInt8) :
    Within size ⟨l.corrected setpoint current⟩ := by
  obtain ⟨low, high⟩ := h
  unfold Within corrected limit scale at *
  dsimp only
  split <;> constructor <;> omega

theorem tdiv_scale_eq {correction : Int} (h : correction ≤ 0) :
    correction.tdiv scale = -(-correction / 32) := by
  have hn := Int.neg_tdiv (-correction) scale
  rw [Int.neg_neg] at hn
  rw [hn, Int.tdiv_eq_ediv_of_nonneg (Int.neg_nonneg_of_nonpos h)]
  rfl

theorem natAbs_tdiv_scale_le {correction : Int} (h : Within size ⟨correction⟩) :
    (correction.tdiv scale).natAbs ≤ size := by
  obtain ⟨low, high⟩ := h
  unfold scale at *
  dsimp only at low high
  rw [Int.natAbs_tdiv]
  change correction.natAbs / 32 ≤ size
  omega

theorem natAbs_pull_le (h : l.Within size) {setpoint : Int8}
    (hs : setpoint.toInt.natAbs ≤ size) (current : UInt8) :
    (l.pull setpoint current).natAbs ≤ size := by
  have hc := natAbs_tdiv_scale_le (corrected_within h hs current)
  unfold pull
  rw [Int.natAbs_mul]
  split
  · rwa [Int.natAbs_one, Nat.mul_one]
  · rwa [Int.natAbs_neg, Int.natAbs_one, Nat.mul_one]

theorem correct_eq (h : l.Within 128) (setpoint : Int8) (current : UInt8) :
    l.correct setpoint current = .ok (l.corrected setpoint current) := by
  obtain ⟨low, high⟩ := h
  have hc := current.toNat_lt
  have hs := Word.natAbs_toInt_le setpoint
  unfold scale at low
  have he : int16.Holds (limit - current.toNat) := by
    constructor <;> simp only [int16, limit] <;> omega
  have hsum : int16.Holds (l.correction + (limit - current.toNat)) := by
    constructor <;> simp only [int16, limit] <;> omega
  have hf : int16.Holds (-(setpoint.toInt.natAbs : Int) * scale) := by
    constructor <;> simp only [int16, scale] <;> omega
  simp only [correct, corrected, Word.hold_eq_ok he, Word.clamp_eq_self hsum, Word.hold_eq_ok hf,
    Word.ok_bind, Word.pure_eq_ok]
  split
  · rfl
  · rfl

theorem pass_eq (h : l.Within 128) (setpoint : Int8) (current : UInt8) :
    l.pass setpoint current = .ok (⟨l.corrected setpoint current⟩,
      ⟨Int8.ofInt (int8.clamp (setpoint.toInt + l.pull setpoint current)),
        l.pull setpoint current⟩) := by
  have hs := Word.natAbs_toInt_le setpoint
  have hp := natAbs_pull_le h hs current
  have hf : int16.Holds (l.pull setpoint current) := by
    constructor <;> simp only [int16] <;> omega
  have hsum : int16.Holds (setpoint.toInt + l.pull setpoint current) := by
    constructor <;> simp only [int16] <;> omega
  unfold pull at hf hsum ⊢
  simp only [pass, correct_eq h, Word.hold_eq_ok hf, Word.hold_eq_ok hsum, Word.ok_bind,
    Word.pure_eq_ok]

end CurrentLimiter

namespace PowerLimiter

open Word (uint32)

def estimate (p : PowerLimiter) (current bus : UInt8) : Nat :=
  (p.record current).total / 100 * bus.toNat

def after (p : PowerLimiter) (current bus : UInt8) : PowerLimiter :=
  { p.record current with
    power := p.estimate current bus
    decay := if tripPower < p.estimate current bus then hold
      else if p.isTripped then p.decay - 1 else p.decay }

theorem foldl_add_le {peak : Nat} {currents : List UInt8} (h : ∀ c ∈ currents, c.toNat ≤ peak)
    (sum : Nat) :
    currents.foldl (fun sum current => sum + current.toNat) sum ≤ sum + peak * currents.length := by
  induction currents generalizing sum with
  | nil => exact Nat.le_refl _
  | cons current currents ih =>
    obtain ⟨first, rest⟩ := List.forall_mem_cons.1 h
    have further := ih rest (sum + current.toNat)
    rw [List.foldl_cons, List.length_cons, Nat.mul_succ]
    omega

/-- No current above `peak` is remembered. -/
def Below (peak : Nat) (p : PowerLimiter) : Prop := ∀ current ∈ p.history, current.toNat ≤ peak

theorem Below.total_le {peak : Nat} {p : PowerLimiter} (h : p.Below peak) :
    p.total ≤ peak * 100 := by
  have sum := foldl_add_le (fun c hc => h c (Vector.mem_toList_iff.1 hc)) 0
  rwa [Vector.length_toList, Nat.zero_add] at sum

theorem total_le (p : PowerLimiter) : p.total ≤ 25500 := by
  have below : p.Below 255 := fun current _ => Nat.le_of_lt_succ current.toNat_lt
  exact below.total_le

theorem isTripped_iff (p : PowerLimiter) : p.isTripped = true ↔ 0 < p.decay.toNat := by
  rw [isTripped, decide_eq_true_iff, UInt8.lt_iff_toNat_lt]
  rfl

/-- Too much power starts the countdown anew; otherwise it goes on. -/
theorem toNat_decay_after (p : PowerLimiter) (current bus : UInt8) :
    (p.after current bus).decay.toNat =
      if tripPower < p.estimate current bus then 255 else p.decay.toNat - 1 := by
  unfold after
  dsimp only
  split
  · rfl
  · split
    · have positive := p.isTripped_iff.1 (by assumption)
      have one : (1 : UInt8).toNat = 1 := rfl
      rw [UInt8.toNat_sub_of_le _ _ (UInt8.le_iff_toNat_le.2 (one ▸ positive)), one]
    · have zero := mt p.isTripped_iff.2 (by assumption)
      omega

/-- A trip is reported unless the output is off already. -/
def tripNotices (p : PowerLimiter) (current bus : UInt8) : List Notice :=
  if tripPower < p.estimate current bus ∧ p.isTripped = false then
    [.powerTripped (p.estimate current bus) ((p.record current).total / 100) bus]
  else []

/-- The setpoint passes unless the power is too high or has been so lately. -/
theorem pass_eq (p : PowerLimiter) (setpoint : Int8) (current bus : UInt8) :
    p.pass setpoint current bus = Act.done (p.tripNotices current bus) (p.after current bus,
      if tripPower < p.estimate current bus ∨ p.isTripped then 0 else setpoint) := by
  have ht := (p.record current).total_le
  have hb := bus.toNat_lt
  have hsum : uint32.Holds ((p.record current).total : Nat) := by
    constructor <;> simp only [uint32] <;> omega
  have hpower : p.estimate current bus ≤ 255 * 255 :=
    Nat.mul_le_mul (Nat.div_le_of_le_mul ht) (Nat.le_of_lt_succ hb)
  have hp : uint32.Holds (p.estimate current bus : Nat) := by
    constructor <;> simp only [uint32] <;> omega
  have same (power : Nat) : PowerLimiter.isTripped { p.record current with power } = p.isTripped :=
    rfl
  unfold estimate at hp
  unfold pass
  simp only [Word.count_eq_ok hsum, Word.count_eq_ok hp, Act.lift_ok, Act.silent_bind, same]
  by_cases trips : tripPower < p.estimate current bus
  · have cut : tripPower < (p.record current).total / 100 * bus.toNat := trips
    rw [if_pos cut, if_pos (Or.inl trips), after, if_pos trips]
    cases tripped : p.isTripped with
    | false =>
      have reported : p.tripNotices current bus = [.powerTripped _ _ bus] :=
        if_pos ⟨trips, tripped⟩
      rw [reported]
      exact Act.emit_bind _ _ rfl
    | true =>
      have silent : p.tripNotices current bus = [] :=
        if_neg fun h => Bool.false_ne_true (h.2.symm.trans tripped)
      rw [silent]
      rfl
  · have uncut : ¬ tripPower < (p.record current).total / 100 * bus.toNat := trips
    have silent : p.tripNotices current bus = [] := if_neg fun h => trips h.1
    rw [if_neg uncut, after, if_neg trips, silent]
    cases p.isTripped with
    | false =>
      rw [if_neg (not_or.2 ⟨trips, nofun⟩)]
      rfl
    | true =>
      rw [if_pos (Or.inr rfl)]
      rfl

end PowerLimiter

end OmniDrive
