import Mathlib.Algebra.Group.Nat.Defs
import OmniDrive.Telemetry.Frame

/-! Every group of a telemetry payload is read back up to the width that travels, whatever follows
it in the payload. -/
namespace OmniDrive.Telemetry

theorem or_of_lt {low : Nat} (high places : Nat) (h : low < 2 ^ places) :
    high * 2 ^ places ||| low = high * 2 ^ places + low := by
  rw [← Nat.shiftLeft_eq, Nat.shiftLeft_add_eq_or_of_lt h]

theorem toNat_and_mask {mask : UInt16} {width : Nat} (h : mask.toNat = 2 ^ width - 1)
    (reading : UInt16) : (reading &&& mask).toNat = reading.toNat % 2 ^ width := by
  rw [UInt16.toNat_and, h, Nat.and_two_pow_sub_one_eq_mod]

/-- A mask of low bits changes no reading that fits under it, and every other. -/
theorem and_mask_eq_self_iff {mask : UInt16} {width : Nat} (h : mask.toNat = 2 ^ width - 1)
    (reading : UInt16) : reading &&& mask = reading ↔ reading.toNat < 2 ^ width := by
  rw [← UInt16.toNat_inj, toNat_and_mask h]
  exact ⟨fun he => he ▸ Nat.mod_lt _ (Nat.two_pow_pos width), Nat.mod_eq_of_lt⟩

theorem byteAt_front {front : List UInt8} (rest : List UInt8) {position : Nat}
    (h : position < front.length) : byteAt (front ++ rest) position = front[position] := by
  unfold byteAt
  rw [List.getD_eq_getElem?_getD, List.getElem?_append_left h, List.getElem?_eq_getElem h]
  rfl

theorem byteAt_behind (front rest : List UInt8) (position : Nat) :
    byteAt (front ++ rest) (front.length + position) = byteAt rest position := by
  unfold byteAt
  rw [List.getD_eq_getElem?_getD, List.getElem?_append_right (Nat.le_add_right ..),
    Nat.add_sub_cancel_left]
  rfl

theorem byteAt_drop (bytes : List UInt8) (skipped position : Nat) :
    byteAt (bytes.drop skipped) position = byteAt bytes (skipped + position) := by
  unfold byteAt
  rw [List.getD_eq_getElem?_getD, List.getElem?_drop]
  rfl

namespace TenBit

theorem toNat_high (reading : UInt16) : (high reading).toNat = reading.toNat / 4 % 256 := by
  unfold high
  rw [UInt16.toNat_toUInt8, UInt16.toNat_shiftRight, Nat.shiftRight_eq_div_pow]
  rfl

theorem toNat_low (reading : UInt16) : (low reading).toNat = reading.toNat % 4 := by
  have hm : reading.toNat &&& 3 = reading.toNat % 4 := Nat.and_two_pow_sub_one_eq_mod _ 2
  unfold low
  rw [UInt16.toNat_toUInt8, UInt16.toNat_and]
  change (reading.toNat &&& 3) % 256 = _
  omega

/-- Four two-bit numbers side by side. -/
theorem quarters {a b c d : Nat} (ha : a < 4) (hb : b < 4) (hc : c < 4) (hd : d < 4) :
    a <<< 6 % 256 ||| b <<< 4 % 256 ||| c <<< 2 % 256 ||| d = 64 * a + 16 * b + 4 * c + d := by
  have sa : a <<< 6 % 256 = a * 64 := by rw [Nat.shiftLeft_eq]; omega
  have sb : b <<< 4 % 256 = b * 16 := by rw [Nat.shiftLeft_eq]; omega
  have sc : c <<< 2 % 256 = c * 4 := by rw [Nat.shiftLeft_eq]; omega
  have h1 : a * 64 ||| b * 16 = a * 64 + b * 16 := or_of_lt a 6 (by omega)
  have h2 : (a * 4 + b) * 16 ||| c * 4 = (a * 4 + b) * 16 + c * 4 := or_of_lt _ 4 (by omega)
  have h3 : (a * 16 + b * 4 + c) * 4 ||| d = (a * 16 + b * 4 + c) * 4 + d := or_of_lt _ 2 hd
  calc a <<< 6 % 256 ||| b <<< 4 % 256 ||| c <<< 2 % 256 ||| d
    _ = a * 64 ||| b * 16 ||| c * 4 ||| d := by rw [sa, sb, sc]
    _ = (a * 4 + b) * 16 ||| c * 4 ||| d := by
      rw [h1, show a * 64 + b * 16 = (a * 4 + b) * 16 by omega]
    _ = (a * 16 + b * 4 + c) * 4 ||| d := by
      rw [h2, show (a * 4 + b) * 16 + c * 4 = (a * 16 + b * 4 + c) * 4 by omega]
    _ = 64 * a + 16 * b + 4 * c + d := by
      rw [h3]
      omega

theorem toNat_pack (a b c d : UInt16) : (pack a b c d).toNat =
    64 * (a.toNat % 4) + 16 * (b.toNat % 4) + 4 * (c.toNat % 4) + d.toNat % 4 := by
  unfold pack
  simp only [UInt8.toNat_or, UInt8.toNat_shiftLeft, toNat_low]
  have four (n : Nat) : n % 4 < 4 := Nat.mod_lt _ (by decide)
  exact quarters (four _) (four _) (four _) (four _)

theorem toNat_join (upper shared : UInt8) {place : Nat} (h : place < 4) :
    (join upper shared place).toNat = 4 * upper.toNat + shared.toNat / 4 ^ (3 - place) % 4 := by
  have hu := upper.toNat_lt
  have ht : shared.toNat >>> (2 * (3 - place)) &&& 3 = shared.toNat / 4 ^ (3 - place) % 4 := by
    rw [Nat.shiftRight_eq_div_pow, Nat.pow_mul]
    exact Nat.and_two_pow_sub_one_eq_mod _ 2
  have hs : upper.toNat <<< 2 % 65536 = upper.toNat * 2 ^ 2 := by
    rw [Nat.shiftLeft_eq]
    omega
  have hp : (6 - 2 * place).toUInt8.toNat % 8 = 2 * (3 - place) := by
    rw [Nat.toUInt8, UInt8.toNat_ofNat']
    omega
  unfold join
  simp only [UInt16.toNat_or, UInt16.toNat_shiftLeft, UInt8.toNat_toUInt16, UInt8.toNat_and,
    UInt8.toNat_shiftRight, hp]
  change upper.toNat <<< 2 % 65536 ||| (shared.toNat >>> (2 * (3 - place)) &&& 3) = _
  have hl : shared.toNat / 4 ^ (3 - place) % 4 < 2 ^ 2 := Nat.mod_lt _ (by decide)
  rw [ht, hs, or_of_lt _ 2 hl]
  omega

/-- Both parts of a reading put together are its low ten bits. -/
theorem join_high {reading : UInt16} {shared : UInt8} {place : Nat} (h : place < 4)
    (hs : shared.toNat / 4 ^ (3 - place) % 4 = reading.toNat % 4) :
    join (high reading) shared place = reading &&& 0x3FF := by
  apply UInt16.toNat_inj.1
  have hm := toNat_and_mask (by decide : (0x3FF : UInt16).toNat = 2 ^ 10 - 1) reading
  rw [toNat_join _ _ h, hs, toNat_high, hm]
  omega

theorem pack_place (a b c d : UInt16) {place : Nat} (h : place < 4) :
    (pack a b c d).toNat / 4 ^ (3 - place) % 4 = [a, b, c, d][place].toNat % 4 := by
  rw [toNat_pack]
  match place with
  | 0 => change _ / 64 % 4 = a.toNat % 4; omega
  | 1 => change _ / 16 % 4 = b.toNat % 4; omega
  | 2 => change _ / 4 % 4 = c.toNat % 4; omega
  | 3 => change _ / 1 % 4 = d.toNat % 4; omega

/-- The low bits of each reading are found at its place in its group's byte. -/
theorem packs_place (readings : List UInt16) (rest : List UInt8) {i : Nat}
    (h : i < readings.length) :
    (byteAt (packs readings ++ rest) (i / 4)).toNat / 4 ^ (3 - i % 4) % 4 =
      readings[i].toNat % 4 := by
  -- As `packs` goes: four readings at a time, and at the end a short group.
  fun_induction packs readings generalizing i with
  | case1 => exact absurd h (Nat.not_lt_zero i)
  | case2 a =>
    match i, h with
    | 0, _ => exact pack_place a 0 0 0 (Nat.zero_lt_succ 3)
  | case3 a b =>
    match i, h with
    | 0, _ => exact pack_place a b 0 0 (Nat.zero_lt_succ 3)
    | 1, _ => exact pack_place a b 0 0 (by decide : 1 < 4)
  | case4 a b c =>
    match i, h with
    | 0, _ => exact pack_place a b c 0 (Nat.zero_lt_succ 3)
    | 1, _ => exact pack_place a b c 0 (by decide : 1 < 4)
    | 2, _ => exact pack_place a b c 0 (by decide : 2 < 4)
  | case5 a b c d readings ih =>
    match i, h with
    | 0, _ => exact pack_place a b c d (Nat.zero_lt_succ 3)
    | 1, _ => exact pack_place a b c d (by decide : 1 < 4)
    | 2, _ => exact pack_place a b c d (by decide : 2 < 4)
    | 3, _ => exact pack_place a b c d (by decide : 3 < 4)
    | i + 4, h =>
      have hd : (i + 4) / 4 = i / 4 + 1 := by omega
      have hm : (i + 4) % 4 = i % 4 := by omega
      rw [hd, hm]
      exact ih (Nat.lt_of_add_lt_add_right h)

/-- A group of readings is read back up to its low ten bits. -/
theorem ofBytes_toBytes {n : Nat} (readings : Vector UInt16 n) (rest : List UInt8) :
    ofBytes n (toBytes readings ++ rest) = readings.map (· &&& 0x3FF) := by
  apply Vector.ext
  intro i hi
  have hl : (readings.toList.map high).length = n := by
    rw [List.length_map, Vector.length_toList]
  have hu : byteAt (toBytes readings ++ rest) i = high readings[i] := by
    unfold toBytes
    rw [List.append_assoc, byteAt_front _ (by rwa [hl])]
    simp only [List.getElem_map, Vector.getElem_toList]
  have hs : byteAt (toBytes readings ++ rest) (n + i / 4) =
      byteAt (packs readings.toList ++ rest) (i / 4) := by
    have hb := byteAt_behind (readings.toList.map high) (packs readings.toList ++ rest) (i / 4)
    rw [hl] at hb
    unfold toBytes
    rwa [List.append_assoc]
  have hp := packs_place readings.toList rest (i := i) (by rwa [Vector.length_toList])
  rw [Vector.getElem_toList] at hp
  unfold ofBytes
  rw [Vector.getElem_ofFn, Vector.getElem_map, hu, hs]
  exact join_high (Nat.mod_lt i (by decide)) hp

end TenBit

namespace Acceleration

theorem toNat_join (upper : UInt8) {nibble : UInt8} (hn : nibble.toNat < 16) :
    (upper.toUInt16 <<< 4 ||| nibble.toUInt16).toNat = 16 * upper.toNat + nibble.toNat := by
  have hu := upper.toNat_lt
  have hs : upper.toNat <<< 4 % 65536 = upper.toNat * 2 ^ 4 := by
    rw [Nat.shiftLeft_eq]
    omega
  simp only [UInt16.toNat_or, UInt16.toNat_shiftLeft, UInt8.toNat_toUInt16]
  change upper.toNat <<< 4 % 65536 ||| nibble.toNat = _
  rw [hs, or_of_lt _ 4 hn]
  omega

theorem join_nibble {axis : UInt16} {upper nibble : UInt8}
    (hu : upper.toNat = axis.toNat / 16 % 256) (hn : nibble.toNat = axis.toNat % 16) :
    upper.toUInt16 <<< 4 ||| nibble.toUInt16 = axis &&& 0xFFF := by
  have hm := toNat_and_mask (by decide : (0xFFF : UInt16).toNat = 2 ^ 12 - 1) axis
  apply UInt16.toNat_inj.1
  rw [toNat_join upper (by omega), hm]
  omega

theorem toNat_upper (axis : UInt16) : (axis >>> 4).toUInt8.toNat = axis.toNat / 16 % 256 := by
  rw [UInt16.toNat_toUInt8, UInt16.toNat_shiftRight, Nat.shiftRight_eq_div_pow]
  rfl

theorem toNat_nibbles (a b : UInt16) :
    (((a &&& 0x0F) <<< 4) ||| (b &&& 0x0F)).toUInt8.toNat =
      16 * (a.toNat % 16) + b.toNat % 16 := by
  have nibble (n : Nat) : n &&& 15 = n % 16 := Nat.and_two_pow_sub_one_eq_mod _ 4
  simp only [UInt16.toNat_toUInt8, UInt16.toNat_or, UInt16.toNat_shiftLeft, UInt16.toNat_and]
  change ((a.toNat &&& 15) <<< 4 % 65536 ||| (b.toNat &&& 15)) % 256 = _
  rw [nibble, nibble]
  have hs : (a.toNat % 16) <<< 4 % 65536 = a.toNat % 16 * 2 ^ 4 := by
    rw [Nat.shiftLeft_eq]
    omega
  rw [hs, or_of_lt _ 4 (by omega)]
  omega

theorem toNat_shiftRight_nibble (byte : UInt8) : (byte >>> 4).toNat = byte.toNat / 16 := by
  rw [UInt8.toNat_shiftRight, Nat.shiftRight_eq_div_pow]
  rfl

theorem toNat_and_nibble (byte : UInt8) : (byte &&& 0x0F).toNat = byte.toNat % 16 := by
  rw [UInt8.toNat_and]
  exact Nat.and_two_pow_sub_one_eq_mod _ 4

theorem ofBytes_toBytes (axes : Vector UInt16 3) (rest : List UInt8) :
    ofBytes (toBytes axes ++ rest) = axes.map (· &&& 0xFFF) := by
  have h3 : (byteAt (toBytes axes ++ rest) 3).toNat =
      16 * (axes[0].toNat % 16) + axes[1].toNat % 16 := toNat_nibbles axes[0] axes[1]
  have h4 : (byteAt (toBytes axes ++ rest) 4).toNat = 16 * (axes[2].toNat % 16) := by
    have h := toNat_nibbles axes[2] 0
    rwa [UInt16.zero_and, UInt16.or_zero] at h
  apply Vector.ext
  intro i hi
  rw [Vector.getElem_map]
  obtain rfl | rfl | rfl : i = 0 ∨ i = 1 ∨ i = 2 := by omega
  · refine join_nibble (toNat_upper _) ?_
    rw [toNat_shiftRight_nibble, h3]
    omega
  · refine join_nibble (toNat_upper _) ?_
    rw [toNat_and_nibble, h3]
    omega
  · refine join_nibble (toNat_upper _) ?_
    rw [toNat_shiftRight_nibble, h4]
    omega

end Acceleration

namespace Heading

theorem magOfBytes_toBytes (mag : Vector UInt16 3) (gyro : UInt16) (rest : List UInt8) :
    magOfBytes (toBytes mag gyro ++ rest) = mag.map (· &&& 0x3FF) := by
  apply Vector.ext
  intro i hi
  unfold magOfBytes
  rw [Vector.getElem_ofFn, Vector.getElem_map]
  match i with
  | 0 => exact TenBit.join_high (Nat.zero_lt_succ 3) (TenBit.pack_place _ _ _ gyro (Nat.zero_lt_succ 3))
  | 1 => exact TenBit.join_high (by decide : 1 < 4) (TenBit.pack_place _ _ _ gyro (by decide : 1 < 4))
  | 2 => exact TenBit.join_high (by decide : 2 < 4) (TenBit.pack_place _ _ _ gyro (by decide : 2 < 4))

/-- Centring the gyroscope's upper bits on zero wraps around and back. -/
theorem gyroOfBytes_toBytes (mag : Vector UInt16 3) (gyro : UInt16) (rest : List UInt8) :
    gyroOfBytes (toBytes mag gyro ++ rest) = gyro &&& 0x3FF := by
  have hc : byteAt (toBytes mag gyro ++ rest) 3 + 128 = TenBit.high gyro :=
    UInt8.sub_add_cancel ..
  unfold gyroOfBytes
  rw [hc]
  exact TenBit.join_high (by decide) (TenBit.pack_place mag[0] mag[1] mag[2] gyro (by decide : 3 < 4))

end Heading

namespace Thermal

theorem byteAt_pairs (readings : List UInt16) (rest : List UInt8) {i : Nat}
    (h : i < readings.length) :
    let pairs := readings.flatMap fun (reading : UInt16) =>
      [reading.toUInt8, (reading >>> 8).toUInt8]
    byteAt (pairs ++ rest) (2 * i) = readings[i].toUInt8 ∧
      byteAt (pairs ++ rest) (2 * i + 1) = (readings[i] >>> 8).toUInt8 := by
  induction readings generalizing i with
  | nil => exact absurd h (Nat.not_lt_zero i)
  | cons reading readings ih =>
    match i, h with
    | 0, _ => exact ⟨rfl, rfl⟩
    | i + 1, h => exact ih (Nat.lt_of_succ_lt_succ h)

theorem ofBytes_toBytes (readings : Vector UInt16 8) (rest : List UInt8) :
    ofBytes (toBytes readings ++ rest) = readings := by
  apply Vector.ext
  intro i hi
  obtain ⟨h0, h1⟩ := byteAt_pairs readings.toList rest (i := i) (by rwa [Vector.length_toList])
  rw [Vector.getElem_toList] at h0 h1
  unfold ofBytes toBytes
  rw [Vector.getElem_ofFn, h0, h1]
  exact Checksum.ofWire_wire _

end Thermal

theorem three_bytes {a b c : Nat} (ha : a < 256) (hb : b < 256) (hc : c < 256) :
    a <<< 16 % 4294967296 ||| b <<< 8 % 4294967296 ||| c = 65536 * a + 256 * b + c := by
  have sa : a <<< 16 % 4294967296 = a * 65536 := by rw [Nat.shiftLeft_eq]; omega
  have sb : b <<< 8 % 4294967296 = b * 256 := by rw [Nat.shiftLeft_eq]; omega
  have h1 : a * 65536 ||| b * 256 = a * 65536 + b * 256 := or_of_lt a 16 (by omega)
  have h2 : (a * 256 + b) * 256 ||| c = (a * 256 + b) * 256 + c := or_of_lt _ 8 hc
  calc a <<< 16 % 4294967296 ||| b <<< 8 % 4294967296 ||| c
    _ = a * 65536 ||| b * 256 ||| c := by rw [sa, sb]
    _ = (a * 256 + b) * 256 ||| c := by
      rw [h1, show a * 65536 + b * 256 = (a * 256 + b) * 256 by omega]
    _ = 65536 * a + 256 * b + c := by
      rw [h2]
      omega

theorem toNat_shifted (flags places : UInt32) : (flags >>> places).toUInt8.toUInt32.toNat =
    flags.toNat / 2 ^ (places.toNat % 32) % 256 := by
  rw [UInt8.toNat_toUInt32, UInt32.toNat_toUInt8, UInt32.toNat_shiftRight,
    Nat.shiftRight_eq_div_pow]

/-- The error word is read back up to its low 24 bits. -/
theorem errorsOfBytes_errorBytes (flags : UInt32) (rest : List UInt8) :
    errorsOfBytes (errorBytes flags ++ rest) = flags &&& 0xFFFFFF := by
  have hm : flags.toNat &&& 16777215 = flags.toNat % 16777216 :=
    Nat.and_two_pow_sub_one_eq_mod _ 24
  have h0 : (flags >>> 16).toUInt8.toUInt32.toNat = flags.toNat / 65536 % 256 :=
    toNat_shifted flags 16
  have h1 : (flags >>> 8).toUInt8.toUInt32.toNat = flags.toNat / 256 % 256 := toNat_shifted flags 8
  have h2 : flags.toUInt8.toUInt32.toNat = flags.toNat % 256 := by
    rw [UInt8.toNat_toUInt32, UInt32.toNat_toUInt8]
  have byte (n : Nat) : n % 256 < 256 := Nat.mod_lt _ (by decide)
  apply UInt32.toNat_inj.1
  change ((flags >>> 16).toUInt8.toUInt32 <<< 16 ||| (flags >>> 8).toUInt8.toUInt32 <<< 8 |||
    flags.toUInt8.toUInt32).toNat = _
  simp only [UInt32.toNat_or, UInt32.toNat_shiftLeft, UInt32.toNat_and, h0, h1, h2]
  refine (three_bytes (byte _) (byte _) (byte _)).trans ?_
  change _ = flags.toNat &&& 16777215
  rw [hm]
  omega

end OmniDrive.Telemetry

namespace OmniDrive

theorem MotorReport.ofBytes_toBytes (m : MotorReport) (rest : List UInt8) :
    ofBytes (m.toBytes ++ rest) = m := by
  obtain ⟨voltage, clicks, current, temperature⟩ := m
  change (⟨voltage.toUInt8.toInt8, clicks.toUInt8.toInt8, current, temperature⟩ : MotorReport) = _
  rw [Int8.toInt8_toUInt8, Int8.toInt8_toUInt8]

theorem StatusBits.ofByte_toByte (s : StatusBits) : ofByte s.toByte = s := by
  obtain ⟨charging, drive, monitor⟩ := s
  cases charging <;> cases drive <;> cases monitor <;> decide

end OmniDrive
