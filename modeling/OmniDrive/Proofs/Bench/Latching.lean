import OmniDrive.Proofs.Bench.Axles
import OmniDrive.Proofs.Run

/-! What goes over the wires of the bench. A motor latches the packet as it was sent and runs on it at
once; its reply was ready before, so it tells what the motor's last tick measured and drove, and not
what this one does. -/
namespace OmniDrive

/-- What a motor reports comes over the wires as it was. -/
theorem MotorReply.report_ofReport (m : MotorReport) : (ofReport m).report = m := by
  obtain ⟨voltage, clicks, current, temperature⟩ := m
  change MotorReport.mk voltage.toUInt8.toInt8 clicks.toUInt8.toInt8 current temperature = _
  rw [Int8.toInt8_toUInt8, Int8.toInt8_toUInt8]

/-- Nothing among the notices reports a reply of the power controller. -/
def Aligned (notices : List Notice) : Prop := ∀ fault, Notice.misaligned fault ∉ notices

theorem aligned_nil : Aligned [] := fun _ => List.not_mem_nil

theorem aligned_singleton {notice : Notice} (h : ∀ fault, notice ≠ .misaligned fault) :
    Aligned [notice] := fun fault hm => h fault (List.mem_singleton.1 hm).symm

theorem Aligned.append {first later : List Notice} (h : Aligned first) (hl : Aligned later) :
    Aligned (first ++ later) :=
  fun fault hm => (List.mem_append.1 hm).elim (h fault) (hl fault)

theorem PowerLimiter.aligned_tripNotices (p : PowerLimiter) (current bus : UInt8) :
    Aligned (p.tripNotices current bus) := by
  unfold tripNotices
  split
  · exact aligned_singleton nofun
  · exact aligned_nil

namespace Motor

/-- What the next reply will tell. -/
def shown (m : Motor) : MotorReport :=
  ⟨m.duty, m.measured.clicks, m.measured.current, m.measured.temperature⟩

/-- A tick in its steps: the duty that the latched mode asks for goes through both limiters to the
driver, which drives `duty`. -/
inductive Responds (m : Motor) (measured : Measurement) (after : Motor) (duty : Int8) : Prop
  | intro {regulator : Regulator} {currentLimiter : CurrentLimiter} {powerLimiter : PowerLimiter}
    {wanted speed : Int8} {limited : Limited} {notices : List Notice} {writes : List BridgeWrite}
    (request : m.request measured.clicks = .ok (regulator, wanted))
    (limit : m.currentLimiter.pass wanted measured.current = .ok (currentLimiter, limited))
    (guard : m.powerLimiter.pass limited.setpoint measured.current m.busVoltage =
      Act.done notices (powerLimiter, speed))
    (drive : m.driver.drive speed = (after.driver, duty, writes))
    (tick : m.tick measured = Act.done notices (after, writes))

/-- A tick keeps what it measured and what it drove, and leaves alone what was latched. -/
theorem responds_of_tick {m after : Motor} {measured : Measurement} {notices : List Notice}
    {writes : List BridgeWrite} (h : m.tick measured = Act.done notices (after, writes)) :
    (m.Responds measured after after.duty ∧ after.measured = measured) ∧
      (after.mode = m.mode ∧ after.setpoint = m.setpoint ∧ after.busVoltage = m.busVoltage) ∧
      Aligned notices := by
  have tick := h
  obtain ⟨⟨regulator, wanted⟩, hr, h⟩ := Act.exists_of_lift_bind_eq_done h
  obtain ⟨⟨currentLimiter, limited⟩, hl, h⟩ := Act.exists_of_lift_bind_eq_done h
  obtain ⟨passed, ⟨powerLimiter, speed⟩, _, hp, h, said⟩ := Act.exists_of_bind_eq_done h
  cases h
  rw [List.append_nil] at said
  subst said
  refine ⟨⟨.intro hr hl hp rfl tick, rfl⟩, ⟨rfl, rfl, rfl⟩, ?_⟩
  rw [PowerLimiter.pass_eq] at hp
  cases hp
  exact m.powerLimiter.aligned_tripNotices _ _

end Motor

namespace Bench

namespace Axle

variable {a after : Axle} {mode : DriveMode} {speed : Int8} {bus : UInt8} {notices : List Notice}
  {reply : MotorReply}

/-- One period of an axle under what its motor has latched by the end of it: the motor ticks with
what is measured at the wheel, and the wheel turns. In `told` stands what the tick was given as
measured and the duty that it drove. -/
inductive Ran (a after : Axle) : MotorReport → Prop
  | intro {measured : Measurement} {duty : Int8}
    (measure : a.wheel.measure a.netDuty = .ok measured)
    (tick : Motor.Responds { a.motor with
      mode := after.motor.mode
      setpoint := after.motor.setpoint
      busVoltage := after.motor.busVoltage } measured after.motor duty)
    (turn : a.wheel.step after.netDuty = .ok after.wheel) :
    Ran a after ⟨duty, measured.clicks, measured.current, measured.temperature⟩

/-- What the exchange of a packet for a reply shows. -/
structure Latched (a after : Axle) (reply : MotorReply) (mode : DriveMode) (speed : Int8)
    (bus : UInt8) : Prop where
  mode : after.motor.mode = mode
  setpoint : after.motor.setpoint = speed
  busVoltage : after.motor.busVoltage = bus
  /-- The reply is from before the exchange. -/
  report : reply.report = a.motor.shown
  /-- What the next reply will tell is what this period measures and drives. -/
  ran : a.Ran after after.motor.shown

/-- A period that completes has gone through its steps. -/
theorem exists_of_run (h : a.run = Act.done notices after) : ∃ measured writes,
    a.wheel.measure a.netDuty = .ok measured ∧
      a.motor.tick measured = Act.done notices (after.motor, writes) ∧
      a.wheel.step after.netDuty = .ok after.wheel := by
  obtain ⟨measured, hm, h⟩ := Act.exists_of_lift_bind_eq_done h
  obtain ⟨_, ⟨motor, writes⟩, _, ht, h, said⟩ := Act.exists_of_bind_eq_done h
  obtain ⟨wheel, hw, h⟩ := Act.exists_of_lift_bind_eq_done h
  cases h
  rw [said, List.append_nil]
  exact ⟨measured, writes, hm, ht, hw⟩

theorem latched_of_exchange
    (h : a.exchange (motorPacket mode speed bus) = Act.done notices (after, reply)) :
    a.Latched after reply mode speed bus ∧ Aligned notices := by
  obtain ⟨_, ⟨motor, told⟩, _, hx, h, said⟩ := Act.exists_of_bind_eq_done h
  have exchanged : a.motor.exchange (motorPacket mode speed bus) = Act.done []
      ({ a.motor with mode, setpoint := speed, busVoltage := bus }, a.motor.reply) :=
    Act.bind_pure_eq_done (a.motor.latch_motorPacket mode speed bus) _
  obtain ⟨_, ran, _, hr, h, ran_said⟩ := Act.exists_of_bind_eq_done h
  cases h
  cases exchanged.symm.trans hx
  obtain ⟨measured, _, measure, ht, turn⟩ := exists_of_run hr
  obtain ⟨⟨responds, kept⟩, ⟨hm, hs, hb⟩, aligned⟩ := Motor.responds_of_tick ht
  have period : a.Ran after ⟨after.motor.duty, measured.clicks, measured.current,
      measured.temperature⟩ := by
    refine .intro measure ?_ turn
    rw [hm, hs, hb]
    exact responds
  rw [← kept] at period
  rw [said, ran_said, List.nil_append, List.append_nil]
  exact ⟨⟨hm, hs, hb, MotorReply.report_ofReport _, period⟩, aligned⟩

end Axle

variable {b after : Bench} {notices : List Notice} {replies : Replies}

theorem exists_of_exchangeMotor {i : Fin 3} {packet : MotorBytes} {reply : MotorReply}
    (h : b.exchangeMotor i packet = Act.done notices (after, reply)) :
    ∃ axle, (b.axles.get i).exchange packet = Act.done notices (axle, reply) ∧
      after = { b with axles := b.axles.set axle i } := by
  obtain ⟨_, ⟨axle, told⟩, _, hx, h, said⟩ := Act.exists_of_bind_eq_done h
  cases h
  rw [said, List.append_nil]
  exact ⟨axle, hx, rfl⟩

/-- A completed round is an exchange with each axle, one after the other. -/
theorem exists_of_exchange {round : Round} (h : b.exchange round = Act.done notices (after, replies)) :
    ∃ said : Wheels (List Notice), notices = said.first ++ (said.second ++ said.third) ∧
      after.chargingDisabled = orderIn round.power.toList ∧ replies.power = powerReply ∧
      ∀ i, (b.axles.get i).exchange (round.motors.get i) =
        Act.done (said.get i) (after.axles.get i, replies.motors.get i) := by
  obtain ⟨first, ⟨_, _⟩, _, h0, h, said⟩ := Act.exists_of_bind_eq_done h
  obtain ⟨second, ⟨_, _⟩, _, h1, h, later⟩ := Act.exists_of_bind_eq_done h
  obtain ⟨third, ⟨_, _⟩, _, h2, h, last⟩ := Act.exists_of_bind_eq_done h
  cases h
  obtain ⟨_, x0, rfl⟩ := exists_of_exchangeMotor h0
  obtain ⟨_, x1, rfl⟩ := exists_of_exchangeMotor h1
  obtain ⟨_, x2, rfl⟩ := exists_of_exchangeMotor h2
  refine ⟨⟨first, second, third⟩, ?_, rfl, rfl, fun i => ?_⟩
  · rw [said, later, last, List.append_nil]
  · match i with
    | 0 => exact x0
    | 1 => exact x1
    | 2 => exact x2

/-- What the charger is ordered to do is what the drive has decided. -/
theorem orderIn_powerPacket (charging : Bool) :
    orderIn (powerPacket charging).toList = !charging := by
  cases charging with
  | false | true => rfl

/-- Every motor latches what a drive asks of it, and the drive hears what it showed before. -/
theorem latched_of_round {d : Drive} (h : b.exchange d.round = Act.done notices (after, replies)) :
    after.chargingDisabled = (!d.chargingEnabled) ∧ Aligned notices ∧
      ∀ i, (b.axles.get i).Latched (after.axles.get i) (replies.motors.get i) d.mode (d.asks i)
        d.replies.power.voltage := by
  obtain ⟨said, rfl, charging, -, exchanged⟩ := exists_of_exchange h
  have latched (i : Fin 3) : (b.axles.get i).Latched (after.axles.get i) (replies.motors.get i)
      d.mode (d.asks i) d.replies.power.voltage ∧ Aligned (said.get i) := by
    have exchange := exchanged i
    rw [d.get_round] at exchange
    exact Axle.latched_of_exchange exchange
  refine ⟨charging.trans (orderIn_powerPacket _), ?_, fun i => (latched i).1⟩
  exact (latched 0).2.append ((latched 1).2.append (latched 2).2)

end Bench

end OmniDrive
