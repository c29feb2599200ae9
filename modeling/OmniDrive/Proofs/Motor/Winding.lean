import OmniDrive.Proofs.Motor.Correction
import OmniDrive.Proofs.Motor.Regulation

/-! Arithmetic in the control loop of a motor, over any packets and ticks. All of it stays in its
words with one exception: ticks that do not regulate wind the integral up without a leak, and the
leak of an integral that is wound too far overflows. -/
namespace OmniDrive

namespace Regulator

open Word (int32)

/-- The leak of the integral can no longer be computed. -/
def IsWound (r : Regulator) : Prop := r.law = .pid ∧ widestReach < r.integral.natAbs

instance (r : Regulator) : Decidable r.IsWound := inferInstanceAs (Decidable (_ ∧ _))

variable {r next : Regulator} {reach : Nat} {setpoint clicks duty : Int8}

theorem leak_fault (h : widestReach < r.integral.natAbs) (error : Int) :
    r.leak error = .error .overflow := by
  have wide : ¬ int32.Holds (r.integral * 63) := by
    unfold widestReach at h
    simp only [Word.Holds, int32]
    omega
  unfold leak
  rw [Word.hold, if_neg wide]
  rfl

theorem Tame.update_fault (h : r.Tame reach) (hw : r.IsWound) (hn : isNeutral setpoint = false)
    (clicks : Int8) : r.update setpoint clicks = .error .overflow := by
  unfold update
  simp only [Word.hold_eq_ok (holds_error hn clicks), Word.hold_eq_ok (h.holds_change hn clicks),
    Word.ok_bind, hw.1, leak_fault hw.2]
  rfl

/-- A tick that is to regulate completes unless the regulator is wound. -/
theorem Tame.tick_eq (h : r.Tame reach) (hn : isNeutral setpoint = false) (clicks : Int8) :
    r.tick setpoint clicks =
      if r.IsWound then .error .overflow
      else .ok (r.regulated setpoint clicks, (r.regulated setpoint clicks).duty) := by
  unfold Regulator.tick
  rw [if_neg (Bool.not_eq_true _ ▸ hn)]
  split
  · rw [h.update_fault (by assumption) hn]
    rfl
  · rename_i slack
    rw [h.update_eq (fun pid => Nat.le_of_not_lt fun wide => slack ⟨pid, wide⟩) hn]
    rfl

/-- The farthest that a correction of the current limiter moves the integral. -/
def foldBound : Nat := 127

/-- The integral that leaks, in one tick, what the greatest error and the greatest correction add to
it. -/
def foldedReach : Nat := 41857

theorem natAbs_clamp_le (z : Int) : (int32.clamp z).natAbs ≤ min z.natAbs 2147483648 := by
  simp only [Word.clamp, int32]
  omega

/-- No fold leaves the word of the integral. -/
theorem Tame.fold (h : r.Tame reach) (correction : Int) : (r.fold correction).Tame 2147483648 :=
  ⟨h.error, Nat.le_trans (natAbs_clamp_le _) (Nat.min_le_right ..), h.output⟩

theorem natAbs_fold_le (r : Regulator) {correction : Int} (hc : correction.natAbs ≤ foldBound) :
    (r.fold correction).integral.natAbs ≤ r.integral.natAbs + foldBound := by
  have clamped := natAbs_clamp_le (r.integral + correction)
  unfold Regulator.fold
  dsimp only
  omega

/-- From the folded reach on, a tick that regulates and folds leads no farther. -/
theorem natAbs_fold_regulated_le (hl : r.law = .pid) (low : foldedReach ≤ reach)
    (hi : r.integral.natAbs ≤ reach) (hn : isNeutral setpoint = false) (clicks : Int8)
    {correction : Int} (hc : correction.natAbs ≤ foldBound) :
    ((r.regulated setpoint clicks).fold correction).integral.natAbs ≤ reach := by
  have he := natAbs_error_le hn clicks
  have leaked := natAbs_leaked r.integral
  have folded := (r.regulated setpoint clicks).natAbs_fold_le hc
  have integral : (r.regulated setpoint clicks).integral =
      (r.integral * 63).tdiv 64 + (setpoint.toInt * 4 - clicks.toInt) := by
    unfold regulated
    rw [hl]
  rw [integral] at folded
  unfold foldedReach at low
  unfold errorBound at he
  unfold foldBound at folded
  omega

end Regulator

namespace Motor

/-- A packet from the host, or a tick with what is sampled in it. -/
inductive Operation
  | packet (bytes : MotorBytes)
  | tick (measured : Measurement)

/-- What an operation gives back. -/
inductive Outcome
  | reply (reply : MotorReply)
  | writes (writes : List BridgeWrite)

def perform (m : Motor) : Operation → Act Notice (Motor × Outcome)
  | .packet bytes => do
    let (m, reply) ← m.exchange bytes
    return (m, .reply reply)
  | .tick measured => do
    let (m, writes) ← m.tick measured
    return (m, .writes writes)

abbrev Moment := Act.Moment Motor Operation Notice Outcome

/-- The latched mode and setpoint ask for regulation. -/
def Regulates (m : Motor) : Prop := m.mode = .velocity ∧ Regulator.isNeutral m.setpoint = false

instance (m : Motor) : Decidable m.Regulates := inferInstanceAs (Decidable (_ ∧ _))

/-- A wound regulator is asked to regulate. -/
def IsOverwound (m : Motor) : Prop := m.Regulates ∧ m.regulator.IsWound

/-- The ticks that did not regulate. -/
def slackTicks (past : List Moment) : Nat :=
  past.countP fun m => match m.operation with
    | .tick _ => ¬ m.before.Regulates
    | .packet _ => false

/-- In a tick in which the regulator wants a duty, every narrowing keeps its value and no byte
wraps. -/
structure Keeps (m : Motor) (regulator : Regulator) (wanted : Int8) (measured : Measurement) :
    Prop where
  duty : m.Regulates → wanted.toInt = regulator.output / 64
  limited : (m.limited wanted measured.current).toInt =
    wanted.toInt + m.currentLimiter.pull wanted measured.current
  decay : (m.powerLimiter.after measured.current m.busVoltage).decay.toNat =
    if PowerLimiter.tripPower < m.powerLimiter.estimate measured.current m.busVoltage then 255
    else m.powerLimiter.decay.toNat - 1
  compare : (BridgeDriver.compareValue (m.asked wanted measured.current).toInt.natAbs).toNat =
    if 127 ≤ (m.asked wanted measured.current).toInt.natAbs then 255
    else 2 * (m.asked wanted measured.current).toInt.natAbs

/-- A tick finds a motor that is not overwound, completes, and keeps every value. -/
def Moment.Exact (m : Moment) : Prop :=
  ∀ measured, m.operation = .tick measured → ¬ m.before.IsOverwound ∧ ∃ regulator wanted,
    m.before.request measured.clicks = .ok (regulator, wanted) ∧
    m.after = m.before.ticked regulator wanted measured ∧
    m.before.Keeps regulator wanted measured

variable {m after : Motor} {reach : Nat} {measured : Measurement} {regulator : Regulator}
  {wanted : Int8}

theorem perform_packet (m : Motor) (bytes : MotorBytes) :
    ∃ notices mode setpoint busVoltage, m.perform (.packet bytes) =
      Act.done notices ({ m with mode, setpoint, busVoltage }, .reply m.reply) := by
  simp only [perform, exchange, latch]
  split
  · exact ⟨_, _, _, _, rfl⟩
  · split
    · exact ⟨_, _, _, _, rfl⟩
    · exact ⟨_, _, _, _, rfl⟩

/-- A tick completes once the regulator does. -/
theorem perform_tick (h : m.currentLimiter.Within 128)
    (hr : m.request measured.clicks = .ok (regulator, wanted)) :
    ∃ notices writes, m.perform (.tick measured) =
      Act.done notices (m.ticked regulator wanted measured, .writes writes) := by
  obtain ⟨notices, ht⟩ := tick_eq h hr
  exact ⟨notices, _, Act.bind_pure_eq_done ht fun r => (r.1, Outcome.writes r.2)⟩

/-- A tick finds nothing to regulate, regulates, or is overwound. -/
theorem request_cases (h : m.regulator.Tame reach) (clicks : Int8) :
    (¬ m.Regulates ∧ ∃ wanted, m.request clicks = .ok (m.regulator, wanted)) ∨
    (m.Regulates ∧ ¬ m.regulator.IsWound ∧
      m.request clicks = .ok (m.regulator.regulated m.setpoint clicks,
        (m.regulator.regulated m.setpoint clicks).duty)) ∨
    (m.IsOverwound ∧ m.request clicks = .error .overflow) := by
  unfold request
  cases hm : m.mode with
  | voltage => exact .inl ⟨fun regulates => (nomatch hm.symm.trans regulates.1), _, rfl⟩
  | velocity =>
    cases hn : Regulator.isNeutral m.setpoint with
    | true =>
      refine .inl ⟨fun regulates => (nomatch hn.symm.trans regulates.2), 0, ?_⟩
      exact if_pos hn
    | false =>
      right
      have regulates : m.Regulates := ⟨hm, hn⟩
      dsimp only
      rw [h.tick_eq hn]
      split
      · exact .inr ⟨⟨regulates, by assumption⟩, rfl⟩
      · exact .inl ⟨regulates, by assumption, rfl⟩

/-- An overwound motor cannot go on. -/
theorem perform_fault (h : m.regulator.Tame reach) (hw : m.IsOverwound) (measured : Measurement) :
    m.perform (.tick measured) = Act.fault .overflow := by
  rcases request_cases h measured.clicks with ⟨slack, -⟩ | ⟨-, slack, -⟩ | ⟨-, hr⟩
  · exact absurd hw.1 slack
  · exact absurd hw.2 slack
  · simp only [perform, tick, hr]
    rfl

/-- The bounds that a run keeps. Those of the integral hold of the law with an integral only, and
grow with every tick that does not regulate. -/
structure InBounds (law : Regulator.Law) (past : List Moment) (m : Motor) : Prop where
  same : m.regulator.law = law
  limiter : m.currentLimiter.Within 127
  tame : m.regulator.Tame 2147483648
  integral : law = .pid → m.regulator.integral.natAbs ≤
    Regulator.foldedReach + Regulator.foldBound * slackTicks past

variable {law : Regulator.Law} {past : List Moment}

theorem inBounds_initial (law : Regulator.Law) : InBounds law [] (initial law) where
  same := rfl
  limiter := (Reachable.initial law).currentLimiter
  tame := Regulator.tame_initial law _
  integral _ := Nat.zero_le _

theorem toNat_compareValue (magnitude : Nat) :
    (BridgeDriver.compareValue magnitude).toNat =
      if 127 ≤ magnitude then 255 else 2 * magnitude := by
  unfold BridgeDriver.compareValue
  split
  · rfl
  · rw [Nat.toUInt8, UInt8.toNat_ofNat']
    omega

theorem InBounds.keeps (h : InBounds law past m)
    (hr : m.request measured.clicks = .ok (regulator, wanted)) :
    m.Keeps regulator wanted measured where
  duty := by
    intro regulates
    rcases request_cases h.tame measured.clicks with ⟨slack, -⟩ | ⟨-, -, he⟩ | ⟨-, he⟩
    · exact absurd regulates slack
    · cases hr.symm.trans he
      exact Regulator.toInt_duty (h.tame.regulated (by decide) regulates.2 _).output
    · cases hr.symm.trans he
  limited := CurrentLimiter.toInt_limited (h.limiter.mono (by decide)) ⟨wanted, measured.current⟩
  decay := PowerLimiter.toNat_decay_after ..
  compare := toNat_compareValue _

theorem slackTicks_append (past : List Moment) (m : Moment) :
    slackTicks (past ++ [m]) = slackTicks past + slackTicks [m] := List.countP_append

/-- A tick that completes finds no overwound motor. -/
theorem InBounds.tick {m : Moment} (h : InBounds law past m.before) (hm : m.Happens perform)
    {measured : Measurement} (ho : m.operation = .tick measured) :
    ¬ m.before.IsOverwound ∧ ∃ regulator wanted,
      m.before.request measured.clicks = .ok (regulator, wanted) ∧
      m.after = m.before.ticked regulator wanted measured := by
  have happens : m.before.perform (.tick measured) = Act.done m.events (m.after, m.result) :=
    ho ▸ hm
  have slack : ¬ m.before.IsOverwound := by
    intro wound
    cases happens.symm.trans (perform_fault h.tame wound measured)
  refine ⟨slack, ?_⟩
  have request : ∃ regulator wanted, m.before.request measured.clicks = .ok (regulator, wanted) := by
    rcases request_cases h.tame measured.clicks with ⟨-, wanted, hr⟩ | ⟨-, -, hr⟩ | ⟨wound, -⟩
    · exact ⟨_, _, hr⟩
    · exact ⟨_, _, hr⟩
    · exact absurd wound slack
  obtain ⟨regulator, wanted, hr⟩ := request
  obtain ⟨_, _, done⟩ := perform_tick (h.limiter.mono (by decide)) hr
  exact ⟨regulator, wanted, hr, hm.after_eq ho done⟩

/-- The regulator that a tick leaves to the fold. -/
theorem InBounds.request (h : InBounds law past m)
    (hr : m.request measured.clicks = .ok (regulator, wanted)) :
    regulator.law = law ∧ regulator.Tame 2147483648 := by
  rcases request_cases h.tame measured.clicks with ⟨-, _, he⟩ | ⟨regulates, -, he⟩ | ⟨-, he⟩
  · cases hr.symm.trans he
    exact ⟨h.same, h.tame⟩
  · cases hr.symm.trans he
    rw [Regulator.law_regulated]
    exact ⟨h.same, h.tame.regulated (by decide) regulates.2 _⟩
  · cases hr.symm.trans he

/-- What a tick makes of the integral. -/
theorem InBounds.integral_ticked (h : InBounds law past m) (hl : law = .pid)
    (hr : m.request measured.clicks = .ok (regulator, wanted)) :
    (m.ticked regulator wanted measured).regulator.integral.natAbs ≤ Regulator.foldedReach +
      Regulator.foldBound * (slackTicks past + if m.Regulates then 0 else 1) := by
  have pull : (m.currentLimiter.pull wanted measured.current).natAbs ≤ Regulator.foldBound :=
    CurrentLimiter.natAbs_pull_le h.limiter (request_bound hr) _
  have reach := h.integral hl
  change (regulator.fold (m.currentLimiter.pull wanted measured.current)).integral.natAbs ≤ _
  rcases request_cases h.tame measured.clicks with ⟨slack, _, he⟩ | ⟨regulates, -, he⟩ | ⟨-, he⟩
  · cases hr.symm.trans he
    have further := m.regulator.natAbs_fold_le pull
    rw [if_neg slack, Nat.mul_succ]
    omega
  · cases hr.symm.trans he
    rw [if_pos regulates, Nat.add_zero]
    exact Regulator.natAbs_fold_regulated_le (h.same.trans hl) (Nat.le_add_right ..) reach
      regulates.2 _ pull
  · cases hr.symm.trans he

theorem InBounds.step (past : List Moment) (m : Moment) (h : InBounds law past m.before)
    (hm : m.Happens perform) : InBounds law (past ++ [m]) m.after := by
  cases ho : m.operation with
  | packet bytes =>
    obtain ⟨_, mode, setpoint, busVoltage, done⟩ := m.before.perform_packet bytes
    rw [hm.after_eq ho done]
    refine ⟨h.same, h.limiter, h.tame, fun pid => ?_⟩
    rw [slackTicks_append]
    exact Nat.le_trans (h.integral pid) (by
      unfold Regulator.foldBound
      omega)
  | tick measured =>
    obtain ⟨-, regulator, wanted, hr, after⟩ := h.tick hm ho
    obtain ⟨same, tame⟩ := h.request hr
    have slack : slackTicks [m] = if m.before.Regulates then 0 else 1 := by
      unfold slackTicks
      rw [List.countP_singleton, ho]
      by_cases regulates : m.before.Regulates
      · simp [regulates]
      · simp [regulates]
    rw [after]
    refine ⟨same, ?_, tame.fold _, fun pid => ?_⟩
    · exact CurrentLimiter.corrected_within h.limiter (request_bound hr) _
    · rw [slackTicks_append, slack]
      exact h.integral_ticked pid hr

theorem InBounds.exact {m : Moment} (h : InBounds law past m.before) (hm : m.Happens perform) :
    Moment.Exact m := by
  intro measured ho
  obtain ⟨slack, regulator, wanted, hr, after⟩ := h.tick hm ho
  exact ⟨slack, regulator, wanted, hr, after, h.keeps hr⟩

/-- Only a tick of an overwound motor fails. -/
theorem InBounds.fault (h : InBounds law past m) {operation : Operation} {f : Fault}
    (hf : m.perform operation = Act.fault f) :
    m.IsOverwound ∧ f = .overflow ∧ ∃ measured, operation = .tick measured := by
  cases operation with
  | packet bytes =>
    obtain ⟨_, _, _, _, done⟩ := m.perform_packet bytes
    cases hf.symm.trans done
  | tick measured =>
    have completes (regulator wanted) :
        m.request measured.clicks = .ok (regulator, wanted) → False := by
      intro hr
      obtain ⟨_, _, done⟩ := perform_tick (h.limiter.mono (by decide)) hr
      cases hf.symm.trans done
    rcases request_cases h.tame measured.clicks with ⟨-, wanted, hr⟩ | ⟨-, -, hr⟩ | ⟨wound, -⟩
    · exact (completes _ _ hr).elim
    · exact (completes _ _ hr).elim
    · cases hf.symm.trans (perform_fault h.tame wound measured)
      exact ⟨wound, rfl, measured, rfl⟩

/-- Winding the integral up that far takes many ticks that do not regulate. -/
theorem InBounds.lt_slackTicks (h : InBounds law past m) (hw : m.IsOverwound) :
    law = .pid ∧ 268072 < slackTicks past := by
  obtain ⟨-, pid, far⟩ := hw
  have same := h.same.symm.trans pid
  have reach := h.integral same
  unfold Regulator.foldedReach Regulator.foldBound at reach
  unfold Regulator.widestReach at far
  exact ⟨same, by omega⟩

/-- Over all packets and ticks, of any number and in any order, everything stays in its word until a
tick is to regulate by the law with an integral and finds it wound up too far. That takes more than
268072 ticks that did not regulate. The law without an integral never gets there. -/
theorem exact_until_overwound (law : Regulator.Law) (operations : List Operation) :
    ∃ moments last rest, operations = moments.map Act.Moment.operation ++ rest ∧
      Act.run perform (initial law) (moments.map Act.Moment.operation) = .ok (moments, last) ∧
      (∀ m ∈ moments, Moment.Exact m) ∧
      (rest = [] ∨ ∃ measured later, rest = .tick measured :: later ∧ law = .pid ∧
        last.IsOverwound ∧ 268072 < slackTicks moments ∧
        Act.run perform (initial law) operations = .error .overflow) := by
  obtain ⟨moments, last, rest, ho, hr, hl, hk, hs⟩ :=
    Act.run_until InBounds.step operations [] (initial law) (inBounds_initial law)
  refine ⟨moments, last, rest, ho, hr, ?_, hs.imp_right ?_⟩
  · intro m mem
    obtain ⟨earlier, later, rfl⟩ := List.append_of_mem mem
    obtain ⟨before, happens⟩ := hk earlier m later rfl
    exact before.exact happens
  · rintro ⟨operation, later, f, rfl, hf, hrun⟩
    obtain ⟨wound, rfl, measured, rfl⟩ := hl.fault hf
    obtain ⟨pid, many⟩ := hl.lt_slackTicks wound
    exact ⟨measured, later, rfl, pid, wound, many, hrun⟩

/-- The motor has been driven by the greatest raw duty for so many ticks, all of them with far too
much current. -/
structure Overdriven (ticks : Nat) (m : Motor) : Prop where
  law : m.regulator.law = .pid
  mode : m.mode = .voltage
  setpoint : m.setpoint = 127
  correction : m.currentLimiter.correction = -min (230 * (ticks : Int)) 4064
  tame : m.regulator.Tame 2147483648
  integral : m.regulator.integral ≤ max (-2147483648) (min 0 (2286 - 127 * (ticks : Int)))

variable {ticks : Nat}

theorem Overdriven.corrected (h : m.Overdriven ticks) :
    m.currentLimiter.corrected 127 255 = -min (230 * (ticks + 1 : Int)) 4064 := by
  change (if (25 : Int) - 255 < 0 then max (m.currentLimiter.correction + (25 - 255)) (-127 * 32)
    else _) = _
  rw [if_pos (by decide), h.correction]
  omega

theorem Overdriven.pull (h : m.Overdriven ticks) :
    m.currentLimiter.pull 127 255 = -(min (230 * (ticks + 1 : Int)) 4064 / 32) := by
  unfold CurrentLimiter.pull
  rw [h.corrected, if_pos (by decide), Int.mul_one, CurrentLimiter.tdiv_scale_eq (by omega),
    Int.neg_neg]

/-- From the eighteenth tick on the limiter takes all of the duty back and folds it into the
integral. -/
theorem Overdriven.tick (h : m.Overdriven ticks) :
    ∃ notices writes after, m.perform (.tick ⟨0, 255, 30⟩) = Act.done notices (after, writes) ∧
      after.Overdriven (ticks + 1) := by
  have limiter : m.currentLimiter.Within 128 := by
    unfold CurrentLimiter.Within CurrentLimiter.scale
    rw [h.correction]
    omega
  have request : m.request 0 = .ok (m.regulator, 127) := by
    unfold request
    rw [h.mode, h.setpoint]
    rfl
  obtain ⟨notices, writes, done⟩ : ∃ notices writes, m.perform (.tick ⟨0, 255, 30⟩) =
      Act.done notices (m.ticked m.regulator 127 ⟨0, 255, 30⟩, .writes writes) :=
    perform_tick limiter request
  refine ⟨notices, _, _, done, h.law, h.mode, h.setpoint, h.corrected, h.tame.fold _, ?_⟩
  have integral := h.integral
  change max (-2147483648) (min 2147483647 (m.regulator.integral +
    m.currentLimiter.pull 127 255)) ≤ _
  rw [h.pull]
  omega

theorem Overdriven.run (h : m.Overdriven ticks) (further : Nat) :
    ∃ moments last, Act.run perform m (List.replicate further (.tick ⟨0, 255, 30⟩)) =
      .ok (moments, last) ∧ last.Overdriven (ticks + further) := by
  induction further generalizing m ticks with
  | zero => exact ⟨[], m, rfl, h⟩
  | succ further ih =>
    obtain ⟨notices, writes, after, done, ha⟩ := h.tick
    obtain ⟨moments, last, hr, hl⟩ := ih ha
    refine ⟨_, last, Act.run_cons done hr, ?_⟩
    rwa [Nat.add_right_comm, Nat.add_assoc] at hl

/-- A velocity after that many ticks cannot be regulated. -/
theorem Overdriven.fault (h : m.Overdriven ticks) (many : 268421 ≤ ticks) :
    Act.run perform m [.packet #v[0x7A, 1, 0, 0, 0], .tick ⟨0, 0, 30⟩] = .error .overflow := by
  let latched : Motor := { m with mode := .velocity, setpoint := 1, busVoltage := 0 }
  have wound : latched.IsOverwound := by
    refine ⟨⟨rfl, rfl⟩, h.law, ?_⟩
    have integral := h.integral
    change Regulator.widestReach < m.regulator.integral.natAbs
    unfold Regulator.widestReach
    omega
  have packet : m.perform (.packet #v[0x7A, 1, 0, 0, 0]) = Act.done [] (latched, .reply m.reply) :=
    rfl
  have tick : latched.perform (.tick ⟨0, 0, 30⟩) = Act.fault .overflow :=
    perform_fault (m := latched) h.tame wound _
  simp only [Act.run, packet, Act.done, Act.outcome, tick, Word.ok_bind]
  rfl

/-- Full raw duty and far too much current for a while, then a velocity. -/
def windUp : List Operation :=
  [.packet #v[0x7B, 127, 0, 0, 0]] ++ (List.replicate 268421 (.tick ⟨0, 255, 30⟩) ++
    [.packet #v[0x7A, 1, 0, 0, 0], .tick ⟨0, 0, 30⟩])

/-- Not every run stays in its words: after 268421 ticks with far too much current the integral is
wound up so far that the next velocity cannot be regulated. -/
theorem overflow_after_overcurrent : ¬ ∀ (law : Regulator.Law) (operations : List Operation),
    ∃ moments last, Act.run perform (initial law) operations = .ok (moments, last) := by
  intro completes
  obtain ⟨_, _, completed⟩ := completes .pid windUp
  have driven : Overdriven 0
      { initial .pid with mode := .voltage, setpoint := 127, busVoltage := 0 } :=
    ⟨rfl, rfl, rfl, rfl, Regulator.tame_initial .pid _, by decide⟩
  obtain ⟨moments, last, hr, wound⟩ := driven.run 268421
  have latched : Act.run perform (initial .pid) [.packet #v[0x7B, 127, 0, 0, 0]] =
      .ok (_, { initial .pid with mode := .voltage, setpoint := 127, busVoltage := 0 }) := rfl
  have faulted := wound.fault (by decide)
  rw [windUp, Act.run_append_of_ok latched, Act.run_append_of_ok hr, faulted] at completed
  cases completed

end Motor

end OmniDrive
