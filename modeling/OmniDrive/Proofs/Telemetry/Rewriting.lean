import OmniDrive.Proofs.Telemetry.RoundTrip

/-! What was read from a payload is written back as it stood there, but for the bits that no group
reads: behind short groups, in the repeated charge state and in flag bytes. -/
namespace OmniDrive.Telemetry

theorem take_eq_map_byteAt {bytes : List UInt8} {n : Nat} (h : n ≤ bytes.length) :
    bytes.take n = (List.range n).map (byteAt bytes) := by
  apply List.ext_getElem
  · rw [List.length_take, List.length_map, List.length_range, Nat.min_eq_left h]
  · intro i hi _
    have hb : i < bytes.length := by
      rw [List.length_take] at hi
      omega
    rw [List.getElem_take, List.getElem_map, List.getElem_range, byteAt,
      List.getD_eq_getElem?_getD, List.getElem?_eq_getElem hb]
    rfl

theorem byteAt_take {bytes : List UInt8} {n position : Nat} (h : position < n) :
    byteAt (bytes.take n) position = byteAt bytes position := by
  unfold byteAt
  rw [List.getD_eq_getElem?_getD, List.getElem?_take_of_lt h]
  rfl

theorem byteAt_append {bytes : List UInt8} (behind : List UInt8) {position : Nat}
    (h : position < bytes.length) : byteAt (bytes ++ behind) position = byteAt bytes position := by
  rw [byteAt_front behind h, ← byteAt_front [] h, List.append_nil]

/-- A stretch of bytes is two parts on end if its front is the one and its back the other. -/
theorem append_eq_stretch_iff {front back bytes : List UInt8} {skipped n m : Nat}
    (hf : front.length = n) (hn : skipped + n ≤ bytes.length) :
    front ++ back = (bytes.drop skipped).take (n + m) ↔
      front = (bytes.drop skipped).take n ∧ back = (bytes.drop (skipped + n)).take m := by
  have hl : front.length = ((bytes.drop skipped).take n).length := by
    rw [hf, List.length_take, List.length_drop, Nat.min_eq_left (by omega)]
  rw [List.take_add, List.drop_drop]
  constructor
  · intro h
    exact List.append_inj h hl
  · rintro ⟨rfl, rfl⟩
    rfl

namespace TenBit

theorem high_join (upper shared : UInt8) {place : Nat} (h : place < 4) :
    high (join upper shared place) = upper := by
  have hu := upper.toNat_lt
  apply UInt8.toNat_inj.1
  rw [toNat_high, toNat_join _ _ h]
  omega

theorem mod_join (upper shared : UInt8) {place : Nat} (h : place < 4) :
    (join upper shared place).toNat % 4 = shared.toNat / 4 ^ (3 - place) % 4 := by
  rw [toNat_join _ _ h]
  omega

theorem pack_eq_iff (a b c d : UInt16) (byte : UInt8) : pack a b c d = byte ↔
    a.toNat % 4 = byte.toNat / 64 % 4 ∧ b.toNat % 4 = byte.toNat / 16 % 4 ∧
      c.toNat % 4 = byte.toNat / 4 % 4 ∧ d.toNat % 4 = byte.toNat / 1 % 4 := by
  have hb := byte.toNat_lt
  rw [← UInt8.toNat_inj, toNat_pack]
  omega

/-- The low bits that were read from shared bytes are written back to the same places. -/
theorem packs_eq_iff {readings : List UInt16} {n : Nat} (hn : readings.length = n)
    {shared : List UInt8} (hl : shared.length = (n + 3) / 4)
    (h : ∀ (i : Nat) (hi : i < readings.length),
      readings[i].toNat % 4 = (byteAt shared (i / 4)).toNat / 4 ^ (3 - i % 4) % 4) :
    packs readings = shared ↔
      n % 4 = 0 ∨ (byteAt shared (n / 4)).toNat % 4 ^ (4 - n % 4) = 0 := by
  -- As `packs` goes: four readings at a time, and at the end a short group.
  fun_induction packs readings generalizing n shared with
  | case1 =>
    obtain rfl : 0 = n := hn
    obtain rfl := List.length_eq_zero_iff.1 hl
    exact iff_of_true rfl (.inl rfl)
  | case2 a =>
    obtain rfl : 1 = n := hn
    obtain ⟨byte, rfl⟩ := List.length_eq_one_iff.1 hl
    have ha : a.toNat % 4 = byte.toNat / 64 % 4 := h 0 Nat.one_pos
    change [pack a 0 0 0] = [byte] ↔ 1 = 0 ∨ byte.toNat % 64 = 0
    rw [List.singleton_inj, pack_eq_iff, UInt16.toNat_zero]
    omega
  | case3 a b =>
    obtain rfl : 2 = n := hn
    obtain ⟨byte, rfl⟩ := List.length_eq_one_iff.1 hl
    have ha : a.toNat % 4 = byte.toNat / 64 % 4 := h 0 Nat.two_pos
    have hb : b.toNat % 4 = byte.toNat / 16 % 4 := h 1 Nat.one_lt_two
    change [pack a b 0 0] = [byte] ↔ 2 = 0 ∨ byte.toNat % 16 = 0
    rw [List.singleton_inj, pack_eq_iff, UInt16.toNat_zero]
    omega
  | case4 a b c =>
    obtain rfl : 3 = n := hn
    obtain ⟨byte, rfl⟩ := List.length_eq_one_iff.1 hl
    have ha : a.toNat % 4 = byte.toNat / 64 % 4 := h 0 (by decide : 0 < 3)
    have hb : b.toNat % 4 = byte.toNat / 16 % 4 := h 1 (by decide : 1 < 3)
    have hc : c.toNat % 4 = byte.toNat / 4 % 4 := h 2 (by decide : 2 < 3)
    change [pack a b c 0] = [byte] ↔ 3 = 0 ∨ byte.toNat % 4 = 0
    rw [List.singleton_inj, pack_eq_iff, UInt16.toNat_zero]
    omega
  | case5 a b c d readings ih =>
    obtain rfl : readings.length + 4 = n := hn
    obtain ⟨byte, shared, rfl⟩ : ∃ byte rest, shared = byte :: rest :=
      List.exists_cons_of_length_pos (by omega)
    have early {i : Nat} (hi : i < 4) : i < readings.length + 4 := Nat.lt_add_left _ hi
    have ha : a.toNat % 4 = byte.toNat / 64 % 4 := h 0 (early (by decide))
    have hb : b.toNat % 4 = byte.toNat / 16 % 4 := h 1 (early (by decide))
    have hc : c.toNat % 4 = byte.toNat / 4 % 4 := h 2 (early (by decide))
    have hd : d.toNat % 4 = byte.toNat / 1 % 4 := h 3 (early (by decide))
    have hp : pack a b c d = byte := by
      rw [pack_eq_iff]
      omega
    have hs : shared.length = (readings.length + 3) / 4 := by
      rw [List.length_cons] at hl
      omega
    have next := ih rfl hs fun i hi => by
      have hi4 := h (i + 4) (Nat.add_lt_add_right hi 4)
      rwa [show (i + 4) / 4 = i / 4 + 1 by omega, show (i + 4) % 4 = i % 4 by omega] at hi4
    have hm : (readings.length + 4) % 4 = readings.length % 4 := by omega
    have hq : (readings.length + 4) / 4 = readings.length / 4 + 1 := by omega
    rw [hp, List.cons_inj_right, next, hm, hq]
    rfl

theorem getElem_ofBytes {n : Nat} (bytes : List UInt8) {i : Nat} (h : i < n) :
    (ofBytes n bytes)[i] = join (byteAt bytes i) (byteAt bytes (n + i / 4)) (i % 4) :=
  Vector.getElem_ofFn ..

/-- A group is written back as it was read if no bit stood behind those of its last reading. -/
theorem toBytes_ofBytes_iff {n : Nat} {bytes : List UInt8} (h : n + (n + 3) / 4 ≤ bytes.length) :
    toBytes (ofBytes n bytes) = bytes.take (n + (n + 3) / 4) ↔
      n % 4 = 0 ∨ (byteAt bytes (n + n / 4)).toNat % 4 ^ (4 - n % 4) = 0 := by
  have hn : n ≤ bytes.length := by omega
  have hu : (ofBytes n bytes).toList.map high = bytes.take n := by
    rw [take_eq_map_byteAt hn]
    apply List.ext_getElem
    · rw [List.length_map, List.length_map, Vector.length_toList, List.length_range]
    · intro i hi _
      rw [List.length_map, Vector.length_toList] at hi
      rw [List.getElem_map, List.getElem_map, Vector.getElem_toList, List.getElem_range,
        getElem_ofBytes bytes hi, high_join _ _ (Nat.mod_lt i (by decide))]
  have hs : ((bytes.drop n).take ((n + 3) / 4)).length = (n + 3) / 4 := by
    rw [List.length_take, List.length_drop]
    omega
  have shared {k : Nat} (hk : k < (n + 3) / 4) :
      byteAt ((bytes.drop n).take ((n + 3) / 4)) k = byteAt bytes (n + k) := by
    rw [byteAt_take hk, byteAt_drop]
  have hr : (ofBytes n bytes).toList.length = n := Vector.length_toList
  have low := packs_eq_iff hr hs fun i hi => by
    rw [Vector.length_toList] at hi
    rw [Vector.getElem_toList, getElem_ofBytes bytes hi, mod_join _ _ (Nat.mod_lt i (by decide)),
      shared (by omega)]
  unfold toBytes
  rw [hu, List.take_add, List.append_cancel_left_eq, low]
  by_cases hm : n % 4 = 0
  · exact iff_of_true (.inl hm) (.inl hm)
  · rw [shared (by omega)]

end TenBit

namespace Acceleration

theorem half_lt (byte : UInt8) : (byte >>> 4).toNat < 16 := by
  rw [toNat_shiftRight_nibble]
  exact Nat.div_lt_of_lt_mul byte.toNat_lt

theorem rest_lt (byte : UInt8) : (byte &&& 0x0F).toNat < 16 := by
  rw [toNat_and_nibble]
  exact Nat.mod_lt _ (by decide)

/-- Nothing is lost of three axes but what the unused half of the last byte held. -/
theorem toBytes_ofBytes_iff {bytes : List UInt8} (h : 5 ≤ bytes.length) :
    toBytes (ofBytes bytes) = bytes.take 5 ↔ byteAt bytes 4 &&& 0x0F = 0 := by
  have axis (value : UInt16) {upper nibble : UInt8} (hn : nibble.toNat < 16)
      (hv : value = upper.toUInt16 <<< 4 ||| nibble.toUInt16) :
      (value >>> 4).toUInt8 = upper ∧ value.toNat % 16 = nibble.toNat := by
    have hj := toNat_join upper hn
    have hu := upper.toNat_lt
    rw [← hv] at hj
    refine ⟨UInt8.toNat_inj.1 ?_, by omega⟩
    rw [toNat_upper]
    omega
  obtain ⟨u0, n0⟩ := axis (ofBytes bytes)[0] (half_lt _) rfl
  obtain ⟨u1, n1⟩ := axis (ofBytes bytes)[1] (rest_lt _) rfl
  obtain ⟨u2, n2⟩ := axis (ofBytes bytes)[2] (half_lt _) rfl
  rw [toNat_shiftRight_nibble] at n0 n2
  rw [toNat_and_nibble] at n1
  have shared : (((ofBytes bytes)[0] &&& 0x0F) <<< 4 ||| ((ofBytes bytes)[1] &&& 0x0F)).toUInt8 =
      byteAt bytes 3 := by
    rw [← UInt8.toNat_inj, toNat_nibbles, n0, n1]
    omega
  have last := toNat_nibbles (ofBytes bytes)[2] 0
  rw [UInt16.zero_and, UInt16.or_zero, n2, UInt16.toNat_zero] at last
  rw [take_eq_map_byteAt h, ← UInt8.toNat_inj, toNat_and_nibble]
  unfold toBytes
  rw [u0, u1, u2, shared]
  change [byteAt bytes 0, byteAt bytes 1, byteAt bytes 2, byteAt bytes 3, _] =
    [byteAt bytes 0, byteAt bytes 1, byteAt bytes 2, byteAt bytes 3, byteAt bytes 4] ↔ _
  simp only [List.cons_inj_right]
  rw [List.singleton_inj, ← UInt8.toNat_inj, last, UInt8.toNat_zero]
  omega

end Acceleration

namespace Heading

theorem toBytes_ofBytes {bytes : List UInt8} (h : 5 ≤ bytes.length) :
    toBytes (magOfBytes bytes) (gyroOfBytes bytes) = bytes.take 5 := by
  have axis {i : Nat} (hi : i < 3) : (magOfBytes bytes)[i] =
      TenBit.join (byteAt bytes i) (byteAt bytes 4) i := Vector.getElem_ofFn ..
  have high {i : Nat} (hi : i < 3) : TenBit.high (magOfBytes bytes)[i] = byteAt bytes i := by
    rw [axis hi, TenBit.high_join _ _ (Nat.lt_succ_of_lt hi)]
  have centred : TenBit.high (gyroOfBytes bytes) - 128 = byteAt bytes 3 := by
    unfold gyroOfBytes
    rw [TenBit.high_join _ _ (by decide), UInt8.add_sub_cancel]
  have low : TenBit.pack (magOfBytes bytes)[0] (magOfBytes bytes)[1] (magOfBytes bytes)[2]
      (gyroOfBytes bytes) = byteAt bytes 4 := by
    rw [TenBit.pack_eq_iff, axis, axis, axis, gyroOfBytes]
    exact ⟨TenBit.mod_join _ _ (by decide), TenBit.mod_join _ _ (by decide),
      TenBit.mod_join _ _ (by decide), TenBit.mod_join _ _ (by decide)⟩
  unfold toBytes
  rw [take_eq_map_byteAt h, high, high, high, centred, low]
  rfl

end Heading

namespace Thermal

/-- Words that were read from pairs of bytes are written back to the same pairs. -/
theorem flatMap_pairs {bytes : List UInt8} {n : Nat} (h : 2 * n ≤ bytes.length) :
    ((List.range n).map fun i =>
      Checksum.ofWire (byteAt bytes (2 * i + 1)) (byteAt bytes (2 * i))).flatMap
        (fun (reading : UInt16) => [reading.toUInt8, (reading >>> 8).toUInt8]) =
      bytes.take (2 * n) := by
  induction n with
  | zero => rfl
  | succ n ih =>
    have hd : 2 ≤ (bytes.drop (2 * n)).length := by
      rw [List.length_drop]
      omega
    have pair : (bytes.drop (2 * n)).take 2 = [byteAt bytes (2 * n), byteAt bytes (2 * n + 1)] := by
      rw [take_eq_map_byteAt hd]
      change [byteAt _ 0, byteAt _ 1] = _
      rw [byteAt_drop, byteAt_drop]
      rfl
    rw [List.range_succ, List.map_append, List.flatMap_append, ih (by omega), Nat.mul_succ,
      List.take_add, pair]
    simp only [List.map_singleton, List.flatMap_singleton, Checksum.high_ofWire,
      Checksum.low_ofWire]

theorem toBytes_ofBytes {bytes : List UInt8} (h : 16 ≤ bytes.length) :
    toBytes (ofBytes bytes) = bytes.take 16 := by
  rw [← flatMap_pairs (n := 8) h]
  unfold toBytes
  congr 1

end Thermal

theorem toNat_errorsOfBytes (bytes : List UInt8) : (errorsOfBytes bytes).toNat =
    65536 * (byteAt bytes 0).toNat + 256 * (byteAt bytes 1).toNat + (byteAt bytes 2).toNat := by
  have h := three_bytes (byteAt bytes 0).toNat_lt (byteAt bytes 1).toNat_lt
    (byteAt bytes 2).toNat_lt
  unfold errorsOfBytes
  simp only [UInt32.toNat_or, UInt32.toNat_shiftLeft, UInt8.toNat_toUInt32]
  exact h

theorem errorBytes_errorsOfBytes {bytes : List UInt8} (h : 3 ≤ bytes.length) :
    errorBytes (errorsOfBytes bytes) = bytes.take 3 := by
  have hn := toNat_errorsOfBytes bytes
  have h0 := (byteAt bytes 0).toNat_lt
  have h1 := (byteAt bytes 1).toNat_lt
  have h2 := (byteAt bytes 2).toNat_lt
  have e0 : (errorsOfBytes bytes >>> 16).toUInt8 = byteAt bytes 0 := by
    apply UInt8.toNat_inj.1
    rw [UInt32.toNat_toUInt8, UInt32.toNat_shiftRight, Nat.shiftRight_eq_div_pow]
    change _ / 65536 % 256 = _
    omega
  have e1 : (errorsOfBytes bytes >>> 8).toUInt8 = byteAt bytes 1 := by
    apply UInt8.toNat_inj.1
    rw [UInt32.toNat_toUInt8, UInt32.toNat_shiftRight, Nat.shiftRight_eq_div_pow]
    change _ / 256 % 256 = _
    omega
  have e2 : (errorsOfBytes bytes).toUInt8 = byteAt bytes 2 := by
    apply UInt8.toNat_inj.1
    rw [UInt32.toNat_toUInt8]
    omega
  unfold errorBytes
  rw [take_eq_map_byteAt h, e0, e1, e2]
  rfl

/-- The flag is sent as zero or one; every other byte reads as one. -/
theorem toUInt8_ne_zero_iff (byte : UInt8) : (byte != 0).toUInt8 = byte ↔ byte = 0 ∨ byte = 1 := by
  by_cases h0 : byte = 0
  · subst h0
    exact iff_of_true rfl (.inl rfl)
  · have ht : (byte != 0) = true := bne_iff_ne.2 h0
    rw [ht]
    exact ⟨fun h => .inr h.symm, fun h => (h.resolve_left h0).symm⟩

end OmniDrive.Telemetry

namespace OmniDrive

open Telemetry

theorem PowerReport.toBytes_ofBytes {bytes : List UInt8} (h : 5 ≤ bytes.length) :
    (ofBytes bytes).toBytes = bytes.take 5 :=
  (take_eq_map_byteAt h).symm

theorem MotorReport.toBytes_ofBytes {bytes : List UInt8} (h : 4 ≤ bytes.length) :
    (ofBytes bytes).toBytes = bytes.take 4 := by
  rw [take_eq_map_byteAt h]
  unfold toBytes ofBytes
  dsimp only
  rw [UInt8.toUInt8_toInt8, UInt8.toUInt8_toInt8]
  rfl

/-- Of the status byte only the three flags are read. -/
theorem StatusBits.toByte_ofByte_iff (byte : UInt8) :
    (ofByte byte).toByte = byte ↔ byte &&& 0x3E = 0 := by
  have all : ∀ n : Fin 256, (ofByte ⟨⟨n⟩⟩).toByte = ⟨⟨n⟩⟩ ↔ (⟨⟨n⟩⟩ : UInt8) &&& 0x3E = 0 := by
    decide +kernel
  exact all byte.toFin

/-- Sensor readings lose the unused half bytes behind accelerometer and distances. -/
theorem SensorReport.toBytes_ofBytes_iff {bytes : List UInt8} (h : 54 ≤ bytes.length) :
    (ofBytes bytes).toBytes = bytes.take 54 ↔
      byteAt bytes 4 &&& 0x0F = 0 ∧ byteAt bytes 22 &&& 0x0F = 0 := by
  have room {skipped n : Nat} (hn : skipped + n ≤ 54) : skipped + n ≤ bytes.length :=
    Nat.le_trans hn h
  have behind {skipped n : Nat} (hn : skipped + n ≤ 54) : n ≤ (bytes.drop skipped).length := by
    rw [List.length_drop]
    omega
  have accel := Acceleration.toBytes_ofBytes_iff (room (by decide : 0 + 5 ≤ 54))
  have heading := Heading.toBytes_ofBytes (behind (by decide : 5 + 5 ≤ 54))
  have distance : TenBit.toBytes (TenBit.ofBytes 10 (bytes.drop 10)) = (bytes.drop 10).take 13 ↔
      byteAt bytes 22 &&& 0x0F = 0 := by
    rw [← UInt8.toNat_inj, Acceleration.toNat_and_nibble]
    refine (TenBit.toBytes_ofBytes_iff (n := 10) (behind (by decide : 10 + 13 ≤ 54))).trans ?_
    rw [byteAt_drop]
    exact ⟨fun h => h.resolve_left (by decide), .inr⟩
  have light :=
    (TenBit.toBytes_ofBytes_iff (n := 4) (behind (by decide : 23 + 5 ≤ 54))).2 (.inl rfl)
  have thermal := Thermal.toBytes_ofBytes (behind (by decide : 28 + 16 ≤ 54))
  have irLight :=
    (TenBit.toBytes_ofBytes_iff (n := 8) (behind (by decide : 44 + 10 ≤ 54))).2 (.inl rfl)
  have whole : bytes.take 54 = (bytes.drop 0).take (5 + (5 + (13 + (5 + (16 + 10))))) := rfl
  unfold toBytes ofBytes
  dsimp only
  rw [whole]
  simp only [List.append_assoc]
  rw [append_eq_stretch_iff (n := 5) rfl (room (by decide : 0 + 5 ≤ 54)), List.drop_zero, accel,
    append_eq_stretch_iff (n := 5) rfl (room (by decide : 5 + 5 ≤ 54)),
    append_eq_stretch_iff (TenBit.length_toBytes _) (room (by decide : 10 + 13 ≤ 54)), distance,
    append_eq_stretch_iff (TenBit.length_toBytes _) (room (by decide : 23 + 5 ≤ 54)),
    append_eq_stretch_iff (Thermal.length_toBytes _) (room (by decide : 28 + 16 ≤ 54))]
  exact ⟨fun h => ⟨h.1, h.2.2.1⟩, fun h => ⟨h.1, heading, h.2, light, thermal, irLight⟩⟩

namespace Telemetry

/-- A payload is written back as it was read if nothing stands where nothing is read. -/
theorem payload_ofPayload_iff {bytes : List UInt8} (h : bytes.length = 77) :
    payload (ofPayload bytes) = bytes ↔
      byteAt bytes 21 &&& 0x0F = 0 ∧ byteAt bytes 39 &&& 0x0F = 0 ∧
        byteAt bytes 71 = byteAt bytes 1 ∧ (byteAt bytes 75 = 0 ∨ byteAt bytes 75 = 1) ∧
        byteAt bytes 76 &&& 0x3E = 0 := by
  have room {skipped n : Nat} (hn : skipped + n ≤ 77) : skipped + n ≤ bytes.length := h ▸ hn
  have behind {skipped n : Nat} (hn : skipped + n ≤ 77) : n ≤ (bytes.drop skipped).length := by
    rw [List.length_drop]
    omega
  have power := PowerReport.toBytes_ofBytes (room (by decide : 0 + 5 ≤ 77))
  have first := MotorReport.toBytes_ofBytes (behind (by decide : 5 + 4 ≤ 77))
  have second := MotorReport.toBytes_ofBytes (behind (by decide : 9 + 4 ≤ 77))
  have third := MotorReport.toBytes_ofBytes (behind (by decide : 13 + 4 ≤ 77))
  have sensors := SensorReport.toBytes_ofBytes_iff (behind (by decide : 17 + 54 ≤ 77))
  have repeated : [byteAt bytes 1] = (bytes.drop 71).take 1 ↔ byteAt bytes 71 = byteAt bytes 1 := by
    rw [take_eq_map_byteAt (behind (by decide : 71 + 1 ≤ 77))]
    change [_] = [byteAt _ 0] ↔ _
    rw [byteAt_drop, List.singleton_inj]
    exact eq_comm
  have errors := errorBytes_errorsOfBytes (behind (by decide : 72 + 3 ≤ 77))
  have flags : [(byteAt bytes 75 != 0).toUInt8, (StatusBits.ofByte (byteAt bytes 76)).toByte] =
      (bytes.drop 75).take 2 ↔
        (byteAt bytes 75 = 0 ∨ byteAt bytes 75 = 1) ∧ byteAt bytes 76 &&& 0x3E = 0 := by
    rw [take_eq_map_byteAt (behind (by decide : 75 + 2 ≤ 77))]
    change [_, _] = [byteAt _ 0, byteAt _ 1] ↔ _
    rw [byteAt_drop, byteAt_drop, List.cons.injEq, List.singleton_inj]
    exact and_congr (toUInt8_ne_zero_iff _) (StatusBits.toByte_ofByte_iff _)
  have whole : bytes = (bytes.drop 0).take (5 + (4 + (4 + (4 + (54 + (1 + (3 + 2))))))) :=
    (List.take_of_length_le (Nat.le_of_eq h)).symm
  rw [byteAt_drop, byteAt_drop] at sensors
  unfold payload ofPayload
  dsimp only
  simp only [Wheels.toList, List.flatMap_cons, List.flatMap_nil, List.append_assoc, List.append_nil]
  conv => lhs; rhs; rw [whole]
  rw [append_eq_stretch_iff (n := 5) rfl (room (by decide : 0 + 5 ≤ 77)),
    append_eq_stretch_iff (n := 4) rfl (room (by decide : 5 + 4 ≤ 77)),
    append_eq_stretch_iff (n := 4) rfl (room (by decide : 9 + 4 ≤ 77)),
    append_eq_stretch_iff (n := 4) rfl (room (by decide : 13 + 4 ≤ 77)),
    append_eq_stretch_iff (SensorReport.length_toBytes _) (room (by decide : 17 + 54 ≤ 77)),
    sensors, append_eq_stretch_iff (n := 1) rfl (room (by decide : 71 + 1 ≤ 77)),
    append_eq_stretch_iff (n := 3) rfl (room (by decide : 72 + 3 ≤ 77))]
  constructor
  · rintro ⟨-, -, -, -, hs, hc, -, hf⟩
    exact ⟨hs.1, hs.2, repeated.1 hc, flags.1 hf⟩
  · rintro ⟨ha, hi, hc, hf⟩
    exact ⟨power, first, second, third, ⟨ha, hi⟩, repeated.2 hc, errors, flags.2 hf⟩

/-- Nothing behind its 77 bytes has a part in reading a payload. -/
theorem ofPayload_append {bytes : List UInt8} (h : bytes.length = 77) (behind : List UInt8) :
    ofPayload (bytes ++ behind) = ofPayload bytes := by
  unfold ofPayload PowerReport.ofBytes MotorReport.ofBytes SensorReport.ofBytes
    Acceleration.ofBytes Heading.magOfBytes Heading.gyroOfBytes TenBit.ofBytes Thermal.ofBytes
    errorsOfBytes
  simp (disch := omega) only [List.drop_drop, byteAt_drop, byteAt_append]

theorem TenBit.toNat_join_lt (upper shared : UInt8) {place : Nat} (h : place < 4) :
    (join upper shared place).toNat < 2 ^ 10 := by
  have hu := upper.toNat_lt
  rw [toNat_join _ _ h]
  omega

theorem TenBit.ofBytes_lt {n : Nat} (bytes : List UInt8) :
    ∀ reading ∈ ofBytes n bytes, reading.toNat < 2 ^ 10 := by
  intro reading hr
  obtain ⟨i, hi, rfl⟩ := Vector.getElem_of_mem hr
  rw [getElem_ofBytes bytes hi]
  exact toNat_join_lt _ _ (Nat.mod_lt i (by decide))

theorem Heading.magOfBytes_lt (bytes : List UInt8) :
    ∀ axis ∈ magOfBytes bytes, axis.toNat < 2 ^ 10 := by
  intro axis ha
  obtain ⟨i, hi, rfl⟩ := Vector.getElem_of_mem ha
  unfold magOfBytes
  rw [Vector.getElem_ofFn]
  exact TenBit.toNat_join_lt _ _ (Nat.lt_succ_of_lt hi)

theorem Acceleration.ofBytes_lt (bytes : List UInt8) :
    ∀ axis ∈ ofBytes bytes, axis.toNat < 2 ^ 12 := by
  have joined (upper : UInt8) {nibble : UInt8} (hn : nibble.toNat < 16) :
      (upper.toUInt16 <<< 4 ||| nibble.toUInt16).toNat < 2 ^ 12 := by
    have hu := upper.toNat_lt
    rw [toNat_join upper hn]
    omega
  intro axis ha
  unfold ofBytes at ha
  simp only [Vector.mem_mk, List.mem_toArray, List.mem_cons, List.not_mem_nil, or_false] at ha
  rcases ha with rfl | rfl | rfl
  · exact joined _ (half_lt _)
  · exact joined _ (rest_lt _)
  · exact joined _ (half_lt _)

/-- What was read from a payload is no wider than what travels. -/
theorem fits_ofPayload (bytes : List UInt8) : (ofPayload bytes).Fits where
  sensors :=
    { accel := Acceleration.ofBytes_lt _
      mag := Heading.magOfBytes_lt _
      gyro := TenBit.toNat_join_lt _ _ (by decide)
      irDistance := TenBit.ofBytes_lt _
      light := TenBit.ofBytes_lt _
      irLight := TenBit.ofBytes_lt _ }
  errorFlags := by
    have h0 := (byteAt (bytes.drop 72) 0).toNat_lt
    have h1 := (byteAt (bytes.drop 72) 1).toNat_lt
    have h2 := (byteAt (bytes.drop 72) 2).toNat_lt
    change (errorsOfBytes (bytes.drop 72)).toNat < 2 ^ 24
    rw [toNat_errorsOfBytes]
    omega

end Telemetry

end OmniDrive
