import Mathlib.Tactic.Choose
import OmniDrive.Bench.Bus
import OmniDrive.Drive.Basic
import OmniDrive.Proofs.Motor.Calm

/-! The axles of the bench under packets of a controller. A wheel follows half the duty and never
overtakes it, so its clicks fit their byte; the current that the bench measures stays so low that
the motors stay calm. -/
namespace OmniDrive

theorem Bridge.natAbs_netDuty_le (b : Bridge) : b.netDuty.natAbs ≤ 255 := by
  have forward := b.dutyA.toNat_lt
  have reverse := b.dutyB.toNat_lt
  unfold netDuty
  split <;> omega

theorem Motor.latch_motorPacket (m : Motor) (mode : DriveMode) (speed : Int8) (bus : UInt8) :
    m.latch (motorPacket mode speed bus) =
      Act.done [] { m with mode, setpoint := speed, busVoltage := bus } := by
  have setpoint : (motorPacket mode speed bus).setpoint = speed := Int8.toInt8_toUInt8 speed
  unfold latch
  rw [setpoint]
  cases mode with
  | velocity | voltage => rfl

namespace Bench

namespace Wheel

open Word (int8 int16 uint8)

/-- A quarter of the way does not lead beyond its end. -/
theorem quarter_le (near far : Int) : min near far ≤ near + (far - near).tdiv 4 ∧
    near + (far - near).tdiv 4 ≤ max near far := by
  -- the quotient is truncated toward zero, which only shortens the way
  have hq : (far - near).tdiv 4 = (far - near) / 4 ∨
      (far - near < 0 ∧ (far - near).tdiv 4 = (far - near) / 4 + 1) := by
    rw [Int.tdiv_eq_ediv]
    split
    · exact .inl (Int.add_zero _)
    · rename_i h
      exact .inr ⟨Int.not_le.1 fun hn => h (.inl hn), rfl⟩
  omega

/-- The wheel is no faster than the full duty can make it. -/
def Slow (w : Wheel) : Prop := -127 ≤ w.clicks ∧ w.clicks ≤ 127

theorem slow_atRest : Slow ⟨0⟩ := ⟨by decide, by decide⟩

variable {w : Wheel} {netDuty : Int}

theorem Slow.step (h : w.Slow) (hd : netDuty.natAbs ≤ 255) :
    ∃ after, w.step netDuty = .ok after ∧ after.Slow := by
  obtain ⟨low, high⟩ := h
  have half : (netDuty.tdiv 2).natAbs ≤ 127 := by
    rw [Int.natAbs_tdiv]
    change netDuty.natAbs / 2 ≤ 127
    omega
  obtain ⟨behind, ahead⟩ := quarter_le w.clicks (netDuty.tdiv 2)
  have way : int16.Holds (netDuty.tdiv 2 - w.clicks) := by
    constructor <;> simp only [int16] <;> omega
  have clicks : int16.Holds (w.clicks + (netDuty.tdiv 2 - w.clicks).tdiv 4) := by
    constructor <;> simp only [int16] <;> omega
  refine ⟨⟨w.clicks + (netDuty.tdiv 2 - w.clicks).tdiv 4⟩, ?_, ?_⟩
  · simp only [Wheel.step, Word.hold_eq_ok way, Word.hold_eq_ok clicks, Word.ok_bind,
      Word.pure_eq_ok]
  · constructor <;> dsimp only <;> omega

/-- What is measured at a slow wheel: its clicks as they are, and a current that grows with the
duty. -/
theorem Slow.measure (h : w.Slow) (hd : netDuty.natAbs ≤ 255) :
    ∃ measured, w.measure netDuty = .ok measured ∧ measured.clicks.toInt = w.clicks ∧
      measured.current.toNat = netDuty.natAbs / 20 + 2 := by
  obtain ⟨low, high⟩ := h
  have narrow : (netDuty.natAbs / 20).toUInt8.toNat = netDuty.natAbs / 20 := by
    rw [Nat.toUInt8, UInt8.toNat_ofNat', Nat.mod_eq_of_lt (by omega)]
  have drawn : uint8.Holds ((netDuty.natAbs / 20 + 2 : Nat) : Int) := by
    constructor <;> simp only [uint8] <;> omega
  have fits : int8.Holds w.clicks := by
    constructor <;> simp only [int8] <;> omega
  refine ⟨⟨Int8.ofInt w.clicks, (netDuty.natAbs / 20 + 2).toUInt8, 200⟩, ?_, ?_, ?_⟩
  · simp only [Wheel.measure, narrow, Word.count_eq_ok drawn, Word.clamp_eq_self fits,
      Word.ok_bind, Word.pure_eq_ok]
  · exact Int8.toInt_ofInt_of_le (by omega) (by omega)
  · rw [Nat.toUInt8, UInt8.toNat_ofNat', Nat.mod_eq_of_lt (by omega)]

end Wheel

namespace Axle

/-- The current that the full duty draws. -/
def fullCurrent : Nat := 14

/-- The axle draws no more than `peak`, which its motor can bear, and its wheel is slow. -/
structure Calm (peak : Nat) (a : Axle) : Prop where
  motor : a.motor.Calm peak
  drawn : a.netDuty.natAbs / 20 + 2 ≤ peak
  slow : a.wheel.Slow

/-- Nothing on the axle is at its limit. -/
structure Unharmed (a : Axle) : Prop where
  slow : a.wheel.Slow
  current : a.motor.measured.current.toNat ≤ fullCurrent
  uncorrected : a.motor.currentLimiter.correction = 0
  untripped : a.motor.powerLimiter.isTripped = false

variable {a : Axle} {peak : Nat}

theorem calm_initial (law : Regulator.Law) : (initial law).Calm 2 where
  motor := Motor.calm_initial law 2
  drawn := by
    change BridgeDriver.initial.bridge.netDuty.natAbs / 20 + 2 ≤ 2
    decide
  slow := Wheel.slow_atRest

theorem unharmed_initial (law : Regulator.Law) : (initial law).Unharmed where
  slow := Wheel.slow_atRest
  current := Nat.zero_le _
  uncorrected := rfl
  untripped := rfl

/-- What shows of an exchange. -/
structure Exchanged (a after : Axle) (mode : DriveMode) (speed : Int8) : Prop where
  calm : after.Calm fullCurrent
  unharmed : after.Unharmed
  clicks : after.motor.measured.clicks.toInt = a.wheel.clicks
  /-- The bridge is asked for what the packet wants. -/
  driven : ∃ regulator wanted,
    Motor.request { a.motor with mode, setpoint := speed } after.motor.measured.clicks =
        .ok (regulator, wanted) ∧
      after.motor.driver = (a.motor.driver.drive wanted).1

/-- An exchange with a calm axle completes and leaves it calm. -/
theorem Calm.exchange (h : a.Calm peak) (hp : peak ≤ fullCurrent) {bus : UInt8}
    (hv : peak * bus.toNat ≤ 2000) (mode : DriveMode) (speed : Int8) :
    ∃ notices after reply, a.exchange (motorPacket mode speed bus) =
        Act.done notices (after, reply) ∧ a.Exchanged after mode speed := by
  have moderate : peak ≤ 25 := Nat.le_trans hp (by decide)
  obtain ⟨measured, hm, clicks, current⟩ := h.slow.measure a.motor.driver.bridge.natAbs_netDuty_le
  have drawn : measured.current.toNat ≤ peak := current ▸ h.drawn
  obtain ⟨regulator, wanted, notices, motor, writes, hr, ht, calm, hmeasured, driver⟩ :=
    (h.motor.latched mode speed bus).tick moderate hv drawn
  obtain ⟨wheel, hw, slow⟩ := h.slow.step motor.driver.bridge.natAbs_netDuty_le
  have full : (Axle.netDuty ⟨motor, wheel⟩).natAbs / 20 + 2 ≤ fullCurrent := by
    have duty := motor.driver.bridge.natAbs_netDuty_le
    unfold netDuty fullCurrent
    dsimp only
    omega
  refine ⟨notices, ⟨motor, wheel⟩, a.motor.reply, ?_, ?_⟩
  · have ran : run ⟨{ a.motor with mode, setpoint := speed, busVoltage := bus }, a.wheel⟩ =
        Act.done notices ⟨motor, wheel⟩ := by
      unfold run netDuty
      dsimp only
      rw [hm, Act.lift_ok, Act.silent_bind, ← List.append_nil notices]
      refine Act.bind_eq_done ht ?_
      simp only [hw, Act.lift_ok, Act.silent_bind, Act.pure_eq_done]
    exact Act.bind_eq_done (Act.bind_pure_eq_done (a.motor.latch_motorPacket mode speed bus) _)
      (Act.bind_pure_eq_done ran _)
  · exact {
      calm := ⟨calm.mono hp, full, slow⟩
      unharmed := ⟨slow, hmeasured ▸ Nat.le_trans drawn hp, calm.uncorrected, calm.untripped⟩
      clicks := hmeasured ▸ clicks
      driven := ⟨_, wanted, hmeasured ▸ hr, driver⟩ }

end Axle

variable {b : Bench} {peak : Nat}

/-- A round completes once the exchange with every axle does. -/
theorem exchange_done {round : Round} {P : Fin 3 → Axle → Prop}
    (h : ∀ i, ∃ notices axle reply,
      (b.axles.get i).exchange (round.motors.get i) = Act.done notices (axle, reply) ∧ P i axle) :
    ∃ notices after motors, b.exchange round = Act.done notices (after, ⟨powerReply, motors⟩) ∧
      ∀ i, P i (after.axles.get i) := by
  choose notices axle reply exchanged holds using h
  have turn (b' : Bench) (i : Fin 3) (same : b'.axles.get i = b.axles.get i) :
      b'.exchangeMotor i (round.motors.get i) =
        Act.done (notices i) ({ b' with axles := b'.axles.set (axle i) i }, reply i) := by
    unfold exchangeMotor
    rw [same]
    exact Act.bind_pure_eq_done (exchanged i) _
  let order := orderIn round.power.toList
  have first := turn ⟨b.axles, order⟩ 0 rfl
  have second := turn ⟨b.axles.set (axle 0) 0, order⟩ 1 rfl
  have third := turn ⟨(b.axles.set (axle 0) 0).set (axle 1) 1, order⟩ 2 rfl
  refine ⟨_, _, ⟨reply 0, reply 1, reply 2⟩,
    Act.bind_eq_done first (Act.bind_eq_done second (Act.bind_pure_eq_done third _)), fun i => ?_⟩
  match i with
  | 0 => exact holds 0
  | 1 => exact holds 1
  | 2 => exact holds 2

end Bench

/-- The setpoint that a drive sends to a wheel. -/
def Drive.asks (d : Drive) (i : Fin 3) : Int8 := if d.isHeld then 0 else d.ramp.speeds.get i

theorem Drive.asks_eq_zero {d : Drive} (h : d.driveEnabled = false) (i : Fin 3) :
    d.asks i = 0 := by
  unfold asks isHeld
  rw [h]
  rfl

theorem Drive.get_round (d : Drive) (i : Fin 3) :
    d.round.motors.get i = motorPacket d.mode (d.asks i) d.replies.power.voltage :=
  Wheels.get_map _ _ i

/-- Packets with this supply voltage find the axles calm: it is low for the currents that the motors
remember. -/
def Bench.Bears (b : Bench) (voltage : UInt8) : Prop :=
  ∃ peak, peak ≤ Axle.fullCurrent ∧ peak * voltage.toNat ≤ 2000 ∧ ∀ i, (b.axles.get i).Calm peak

/-- The first packets carry the highest voltage, but no current has flowed yet. -/
theorem Bench.bears_initial (law : Regulator.Law) :
    (Bench.initial law).Bears PowerReply.initial.voltage := by
  refine ⟨2, by decide, by decide, fun i => ?_⟩
  rw [Bench.initial, Wheels.get_fill]
  exact Axle.calm_initial law

theorem Bench.bears_of_calm {b : Bench} (h : ∀ i, (b.axles.get i).Calm Axle.fullCurrent) :
    b.Bears powerReply.voltage :=
  ⟨Axle.fullCurrent, Nat.le_refl _, by decide, h⟩

/-- A round of a drive completes on axles that bear its voltage, and leaves them calm. -/
theorem Bench.exchange_round {b : Bench} {d : Drive} (h : b.Bears d.replies.power.voltage) :
    ∃ notices after motors, b.exchange d.round = Act.done notices (after, ⟨powerReply, motors⟩) ∧
      ∀ i, (b.axles.get i).Exchanged (after.axles.get i) d.mode (d.asks i) := by
  obtain ⟨peak, low, supply, calm⟩ := h
  refine exchange_done
    (P := fun i after => (b.axles.get i).Exchanged after d.mode (d.asks i)) fun i => ?_
  rw [d.get_round]
  exact (calm i).exchange low supply d.mode (d.asks i)

end OmniDrive
