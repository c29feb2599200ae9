import OmniDrive.Proofs.Telemetry.Fields

/-! Decoding a report's frame gives back what the frame carries: every field, and of readings and
error word the bits that travel. -/
namespace OmniDrive

def SensorReport.carried (s : SensorReport) : SensorReport where
  accel := s.accel.map (· &&& 0xFFF)
  mag := s.mag.map (· &&& 0x3FF)
  gyro := s.gyro &&& 0x3FF
  irDistance := s.irDistance.map (· &&& 0x3FF)
  light := s.light.map (· &&& 0x3FF)
  thermal := s.thermal
  irLight := s.irLight.map (· &&& 0x3FF)

/-- The report up to the widths that travel. -/
def Report.carried (r : Report) : Report :=
  { r with sensors := r.sensors.carried, errorFlags := r.errorFlags &&& 0xFFFFFF }

/-- No reading is wider than its nominal width. -/
structure SensorReport.Fits (s : SensorReport) : Prop where
  accel : ∀ axis ∈ s.accel, axis.toNat < 2 ^ 12
  mag : ∀ axis ∈ s.mag, axis.toNat < 2 ^ 10
  gyro : s.gyro.toNat < 2 ^ 10
  irDistance : ∀ reading ∈ s.irDistance, reading.toNat < 2 ^ 10
  light : ∀ reading ∈ s.light, reading.toNat < 2 ^ 10
  irLight : ∀ reading ∈ s.irLight, reading.toNat < 2 ^ 10

/-- No field of the report is wider than what travels of it. -/
structure Report.Fits (r : Report) : Prop where
  sensors : r.sensors.Fits
  errorFlags : r.errorFlags.toNat < 2 ^ 24

namespace Telemetry

theorem and_flags_eq_self_iff (flags : UInt32) :
    flags &&& 0xFFFFFF = flags ↔ flags.toNat < 2 ^ 24 := by
  have hm : (flags &&& 0xFFFFFF).toNat = flags.toNat % 2 ^ 24 := by
    rw [UInt32.toNat_and]
    exact Nat.and_two_pow_sub_one_eq_mod _ 24
  rw [← UInt32.toNat_inj, hm]
  omega

theorem map_eq_self_iff {n : Nat} {f : UInt16 → UInt16} {P : UInt16 → Prop}
    (h : ∀ reading, f reading = reading ↔ P reading) (readings : Vector UInt16 n) :
    readings.map f = readings ↔ ∀ reading ∈ readings, P reading := by
  constructor
  · intro he reading hr
    obtain ⟨i, hi, rfl⟩ := Vector.getElem_of_mem hr
    have := congrArg (fun v => v[i]) he
    rw [Vector.getElem_map] at this
    exact (h _).1 this
  · intro hp
    apply Vector.ext
    intro i hi
    rw [Vector.getElem_map]
    exact (h _).2 (hp _ (Vector.getElem_mem hi))

theorem and_ten_eq_self_iff (reading : UInt16) :
    reading &&& 0x3FF = reading ↔ reading.toNat < 2 ^ 10 := and_mask_eq_self_iff rfl reading

theorem map_ten_eq_self_iff {n : Nat} (readings : Vector UInt16 n) :
    readings.map (· &&& 0x3FF) = readings ↔ ∀ reading ∈ readings, reading.toNat < 2 ^ 10 :=
  map_eq_self_iff and_ten_eq_self_iff readings

theorem map_twelve_eq_self_iff {n : Nat} (readings : Vector UInt16 n) :
    readings.map (· &&& 0xFFF) = readings ↔ ∀ reading ∈ readings, reading.toNat < 2 ^ 12 :=
  map_eq_self_iff (and_mask_eq_self_iff rfl) readings

/-- Behind a group of bytes stands the next one. -/
theorem drop_next {bytes front rest : List UInt8} {skipped length : Nat}
    (h : bytes.drop skipped = front ++ rest) (hl : front.length = length) :
    bytes.drop (skipped + length) = rest := by
  rw [← List.drop_drop, h]
  exact List.drop_left' hl

end Telemetry

open Telemetry

theorem SensorReport.carried_eq_self_iff (s : SensorReport) : s.carried = s ↔ s.Fits := by
  obtain ⟨accel, mag, gyro, irDistance, light, thermal, irLight⟩ := s
  constructor
  · intro h
    injection h with ha hm hg hi hl _ hr
    exact ⟨(map_twelve_eq_self_iff accel).1 ha, (map_ten_eq_self_iff mag).1 hm,
      (and_ten_eq_self_iff gyro).1 hg, (map_ten_eq_self_iff irDistance).1 hi,
      (map_ten_eq_self_iff light).1 hl, (map_ten_eq_self_iff irLight).1 hr⟩
  · intro h
    have ha := (map_twelve_eq_self_iff accel).2 h.accel
    have hm := (map_ten_eq_self_iff mag).2 h.mag
    have hg := (and_ten_eq_self_iff gyro).2 h.gyro
    have hi := (map_ten_eq_self_iff irDistance).2 h.irDistance
    have hl := (map_ten_eq_self_iff light).2 h.light
    have hr := (map_ten_eq_self_iff irLight).2 h.irLight
    unfold carried
    dsimp only
    rw [ha, hm, hg, hi, hl, hr]

theorem Report.carried_eq_self_iff (r : Report) : r.carried = r ↔ r.Fits := by
  obtain ⟨power, motors, sensors, errorFlags, commandRead, status⟩ := r
  constructor
  · intro h
    injection h with _ _ hs hf _ _
    exact ⟨sensors.carried_eq_self_iff.1 hs, (and_flags_eq_self_iff errorFlags).1 hf⟩
  · intro h
    have hs := sensors.carried_eq_self_iff.2 h.sensors
    have hf := (and_flags_eq_self_iff errorFlags).2 h.errorFlags
    unfold carried
    dsimp only
    rw [hs, hf]

theorem SensorReport.length_toBytes (s : SensorReport) : s.toBytes.length = 54 := by
  simp [toBytes, Acceleration.toBytes, Heading.toBytes, TenBit.length_toBytes,
    Thermal.length_toBytes]

theorem SensorReport.ofBytes_toBytes (s : SensorReport) (rest : List UInt8) :
    ofBytes (s.toBytes ++ rest) = s.carried := by
  have d0 : (s.toBytes ++ rest).drop 0 = Acceleration.toBytes s.accel ++
      (Heading.toBytes s.mag s.gyro ++ (TenBit.toBytes s.irDistance ++ (TenBit.toBytes s.light ++
        (Thermal.toBytes s.thermal ++ (TenBit.toBytes s.irLight ++ rest))))) := by
    simp only [List.drop_zero, toBytes, List.append_assoc]
  have d5 := drop_next d0 (rfl : _ = 5)
  have d10 := drop_next d5 (rfl : _ = 5)
  have d23 := drop_next d10 (TenBit.length_toBytes _)
  have d28 := drop_next d23 (TenBit.length_toBytes _)
  have d44 := drop_next d28 (Thermal.length_toBytes _)
  rw [List.drop_zero] at d0
  unfold ofBytes carried
  rw [d5, d10, d23, d28, d44, d0, Acceleration.ofBytes_toBytes, Heading.magOfBytes_toBytes,
    Heading.gyroOfBytes_toBytes, TenBit.ofBytes_toBytes, TenBit.ofBytes_toBytes,
    Thermal.ofBytes_toBytes, TenBit.ofBytes_toBytes]

namespace Telemetry

theorem ofPayload_payload (r : Report) : ofPayload (payload r) = r.carried := by
  have d0 : (payload r).drop 0 = r.power.toBytes ++ (r.motors.first.toBytes ++
      (r.motors.second.toBytes ++ (r.motors.third.toBytes ++ (r.sensors.toBytes ++
        ([r.power.chargeState] ++ (errorBytes r.errorFlags ++
          [r.commandRead.toUInt8, r.status.toByte])))))) := by
    simp only [List.drop_zero, payload, Wheels.toList, List.flatMap_cons, List.flatMap_nil,
      List.append_assoc, List.append_nil]
  have d5 := drop_next d0 (rfl : _ = 5)
  have d9 := drop_next d5 (rfl : _ = 4)
  have d13 := drop_next d9 (rfl : _ = 4)
  have d17 := drop_next d13 (rfl : _ = 4)
  have d71 := drop_next d17 r.sensors.length_toBytes
  have d72 := drop_next d71 (rfl : _ = 1)
  have d75 := drop_next d72 (rfl : _ = 3)
  have hc : (byteAt (payload r) 75 != 0) = r.commandRead := by
    rw [show (75 : Nat) = 0 + 5 + 4 + 4 + 4 + 54 + 1 + 3 + 0 from rfl, ← byteAt_drop, d75]
    cases r.commandRead <;> rfl
  have hs : StatusBits.ofByte (byteAt (payload r) 76) = r.status := by
    rw [show (76 : Nat) = 0 + 5 + 4 + 4 + 4 + 54 + 1 + 3 + 1 from rfl, ← byteAt_drop, d75]
    exact StatusBits.ofByte_toByte r.status
  rw [List.drop_zero] at d0
  unfold ofPayload Report.carried
  rw [d5, d9, d13, d17, d72, MotorReport.ofBytes_toBytes, MotorReport.ofBytes_toBytes,
    MotorReport.ofBytes_toBytes, SensorReport.ofBytes_toBytes, errorsOfBytes_errorBytes, hc, hs, d0]
  rfl

theorem decode_encode_eq (r : Report) : decode (encode r) = .ok r.carried := by
  have hb : (header ++ payload r).length = 81 := by
    rw [List.length_append, length_payload]
    rfl
  have ht : (encode r).take 81 = header ++ payload r := List.take_left' hb
  have hh : (encode r).take 4 = header := rfl
  have h81 := byteAt_behind (header ++ payload r)
    (Checksum.wire (Checksum.ofBytes (header ++ payload r))) 0
  have h82 := byteAt_behind (header ++ payload r)
    (Checksum.wire (Checksum.ofBytes (header ++ payload r))) 1
  rw [hb] at h81 h82
  have hw : Checksum.ofWire (byteAt (encode r) 81) (byteAt (encode r) 82) =
      Checksum.ofBytes (header ++ payload r) := by
    change Checksum.ofWire (byteAt (stamp _) (81 + 0)) (byteAt (stamp _) (81 + 1)) = _
    unfold stamp
    rw [h81, h82]
    exact Checksum.ofWire_wire _
  unfold decode
  rw [if_neg fun h => h (length_encode r), if_neg fun h => h hh]
  dsimp only
  rw [ht, hw, if_neg fun h => h rfl]
  exact congrArg _ (ofPayload_payload r)

/-- Decoding undoes encoding up to the widths that travel, and undoes it fully exactly for reports
without a wider field. -/
theorem decode_encode (r : Report) : decode (encode r) = .ok r.carried ∧
    (decode (encode r) = .ok r ↔ r.Fits) := by
  have h := decode_encode_eq r
  refine ⟨h, ?_⟩
  rw [h, ← Report.carried_eq_self_iff]
  exact ⟨Except.ok.inj, congrArg _⟩

end Telemetry

end OmniDrive
