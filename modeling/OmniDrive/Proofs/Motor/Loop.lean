import OmniDrive.Motor.Basic
import OmniDrive.Proofs.Motor.Protection

/-! One tick of a motor controller from its parts, and the states that packets and ticks lead to. -/
namespace OmniDrive

namespace Regulator

/-- The duty of a bounded output is its high part. -/
theorem toInt_duty {r : Regulator} (h : -bound ≤ r.output ∧ r.output ≤ bound) :
    r.duty.toInt = r.output / 64 := by
  unfold bound at h
  unfold duty
  exact Int8.toInt_ofInt_of_le (by omega) (by omega)

theorem duty_bound {r : Regulator} (h : -bound ≤ r.output ∧ r.output ≤ bound) :
    r.duty.toInt.natAbs ≤ 127 := by
  rw [toInt_duty h]
  unfold bound at h
  omega

theorem clipped (output : Int) :
    -bound ≤ max (-bound) (min bound output) ∧ max (-bound) (min bound output) ≤ bound := by
  unfold bound
  omega

theorem output_bound {r next : Regulator} {setpoint clicks : Int8}
    (h : r.update setpoint clicks = .ok next) : -bound ≤ next.output ∧ next.output ≤ bound := by
  obtain ⟨law, error, integral, output⟩ := r
  obtain ⟨_, -, h⟩ := Word.bind_eq_ok h
  obtain ⟨_, -, h⟩ := Word.bind_eq_ok h
  cases law with
  | pd =>
    obtain ⟨output, -, h⟩ := Word.bind_eq_ok h
    obtain rfl := Except.ok.inj h
    exact clipped output
  | pid =>
    obtain ⟨integral, -, h⟩ := Word.bind_eq_ok h
    obtain ⟨output, -, h⟩ := Word.bind_eq_ok h
    obtain rfl := Except.ok.inj h
    exact clipped output

/-- No regulator asks for more than the bridge can drive both ways. -/
theorem tick_bound {r next : Regulator} {setpoint clicks duty : Int8}
    (h : r.tick setpoint clicks = .ok (next, duty)) : duty.toInt.natAbs ≤ 127 := by
  unfold tick at h
  split at h
  · cases h
    decide
  · obtain ⟨updated, hu, h⟩ := Word.bind_eq_ok h
    cases h
    exact duty_bound (output_bound hu)

end Regulator

theorem BridgeDriver.natAbs_symmetric_le (speed : Int8) :
    (symmetric speed).toInt.natAbs ≤ 127 := by
  have low := speed.le_toInt
  have high := speed.toInt_lt
  unfold symmetric
  split
  · decide
  · rename_i hs
    rw [Int8.lt_iff_toInt_lt] at hs
    have : (-127 : Int8).toInt = -127 := rfl
    omega

namespace Motor

theorem request_bound {m : Motor} {regulator : Regulator} {clicks wanted : Int8}
    (h : m.request clicks = .ok (regulator, wanted)) : wanted.toInt.natAbs ≤ 127 := by
  unfold request at h
  split at h
  · exact Regulator.tick_bound h
  · cases h
    exact BridgeDriver.natAbs_symmetric_le _

/-- The setpoint that the current limiter makes of a wanted duty. -/
def limited (m : Motor) (wanted : Int8) (current : UInt8) : Int8 :=
  Int8.ofInt (Word.int8.clamp (wanted.toInt + m.currentLimiter.pull wanted current))

/-- A setpoint from which nothing is taken. -/
theorem limited_of_pull_eq_zero {m : Motor} {wanted : Int8} {current : UInt8}
    (h : m.currentLimiter.pull wanted current = 0) : m.limited wanted current = wanted := by
  have low := wanted.le_toInt
  have high := wanted.toInt_lt
  have holds : Word.int8.Holds wanted.toInt := by
    constructor <;> simp only [Word.int8] <;> omega
  rw [limited, h, Int.add_zero, Word.clamp_eq_self holds, Int8.ofInt_toInt]

/-- The power limiter switches the output off in this tick. -/
def IsCut (m : Motor) (current : UInt8) : Prop :=
  PowerLimiter.tripPower < m.powerLimiter.estimate current m.busVoltage ∨ m.powerLimiter.isTripped

instance (m : Motor) (current : UInt8) : Decidable (m.IsCut current) :=
  inferInstanceAs (Decidable (_ ∨ _))

def asked (m : Motor) (wanted : Int8) (current : UInt8) : Int8 :=
  if m.IsCut current then 0 else m.limited wanted current

/-- The controller after a tick in which the regulator wanted a duty. -/
def ticked (m : Motor) (regulator : Regulator) (wanted : Int8) (measured : Measurement) : Motor :=
  { m with
    driver := (m.driver.drive (m.asked wanted measured.current)).1
    currentLimiter := ⟨m.currentLimiter.corrected wanted measured.current⟩
    powerLimiter := m.powerLimiter.after measured.current m.busVoltage
    regulator := regulator.fold (m.currentLimiter.pull wanted measured.current)
    duty := (m.driver.response (m.asked wanted measured.current)).1
    measured }

/-- A tick completes once the regulator does. -/
theorem tick_eq {m : Motor} (h : m.currentLimiter.Within 128) {measured : Measurement}
    {regulator : Regulator} {wanted : Int8}
    (hr : m.request measured.clicks = .ok (regulator, wanted)) :
    ∃ notices, m.tick measured = Act.done notices (m.ticked regulator wanted measured,
      (m.driver.response (m.asked wanted measured.current)).2) := by
  refine ⟨m.powerLimiter.tripNotices measured.current m.busVoltage, ?_⟩
  unfold tick
  rw [hr, Act.lift_ok, Act.silent_bind]
  dsimp only
  rw [CurrentLimiter.pass_eq h, Act.lift_ok, Act.silent_bind]
  exact Act.bind_pure_eq_done (PowerLimiter.pass_eq ..) _

/-- What packets and ticks make of a new controller. -/
inductive Reachable : Motor → Prop
  | initial (law : Regulator.Law) : Reachable (initial law)
  | exchange {m after : Motor} {packet : MotorBytes} {notices : List Notice} {reply : MotorReply} :
    Reachable m → m.exchange packet = Act.done notices (after, reply) → Reachable after
  | tick {m after : Motor} {measured : Measurement} {notices : List Notice}
    {writes : List BridgeWrite} :
    Reachable m → m.tick measured = Act.done notices (after, writes) → Reachable after

/-- A packet changes no more than what is latched. -/
theorem exchange_changes {m after : Motor} {packet : MotorBytes} {notices : List Notice}
    {reply : MotorReply} (h : m.exchange packet = Act.done notices (after, reply)) :
    ∃ mode setpoint busVoltage, after = { m with mode, setpoint, busVoltage } := by
  unfold exchange latch at h
  dsimp only at h
  split at h
  · cases h
    exact ⟨_, _, _, rfl⟩
  · split at h
    · cases h
      exact ⟨_, _, _, rfl⟩
    · cases h
      exact ⟨m.mode, m.setpoint, m.busVoltage, rfl⟩

theorem request_of_tick {m after : Motor} {measured : Measurement} {notices : List Notice}
    {writes : List BridgeWrite} (h : m.tick measured = Act.done notices (after, writes)) :
    ∃ regulator wanted, m.request measured.clicks = .ok (regulator, wanted) := by
  unfold tick at h
  cases hr : m.request measured.clicks with
  | error e =>
    rw [hr] at h
    cases h
  | ok asked => exact ⟨asked.1, asked.2, rfl⟩

/-- No limiter holds back more than the largest duty. -/
theorem Reachable.currentLimiter {m : Motor} (h : m.Reachable) : m.currentLimiter.Within 127 := by
  induction h with
  | initial law => exact ⟨show -(127 : Int) * 32 ≤ 0 by decide, Int.le_refl _⟩
  | exchange _ he ih =>
    obtain ⟨_, _, _, rfl⟩ := exchange_changes he
    exact ih
  | @tick m after measured notices writes _ ht ih =>
    obtain ⟨regulator, wanted, hr⟩ := request_of_tick ht
    obtain ⟨_, he⟩ := tick_eq (ih.mono (by decide)) hr
    cases ht.symm.trans he
    exact CurrentLimiter.corrected_within ih (request_bound hr) _

end Motor

end OmniDrive
