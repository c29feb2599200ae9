import OmniDrive.Checksum
import OmniDrive.Command.Basic
import OmniDrive.Hex
import OmniDrive.Telemetry.Report

/-! The telemetry frame: header, 77 payload bytes in fixed order and the checksum of all before it.
Ten-bit readings travel as their upper eight bits; the low two bits of four readings share a byte
behind each group. Every group is written by `toBytes` and read back by `ofBytes`. -/
namespace OmniDrive

namespace Telemetry

def frameLength : Nat := 83

/-- The byte at a position; zero beyond the end. -/
def byteAt (bytes : List UInt8) (position : Nat) : UInt8 := bytes.getD position 0

namespace TenBit

/-- The upper eight of ten bits. -/
def high (reading : UInt16) : UInt8 := (reading >>> 2).toUInt8

def low (reading : UInt16) : UInt8 := (reading &&& 3).toUInt8

/-- The low two bits of four readings, the first on top. -/
def pack (a b c d : UInt16) : UInt8 :=
  (low a <<< 6) ||| (low b <<< 4) ||| (low c <<< 2) ||| low d

/-- One byte of low bits for every four readings; a short last group counts as filled with zeros. -/
def packs : List UInt16 → List UInt8
  | [] => []
  | [a] => [pack a 0 0 0]
  | [a, b] => [pack a b 0 0]
  | [a, b, c] => [pack a b c 0]
  | a :: b :: c :: d :: rest => pack a b c d :: packs rest

theorem length_packs : (readings : List UInt16) →
    (packs readings).length = (readings.length + 3) / 4
  | [] => rfl
  | [_] => by simp [packs]
  | [_, _] => by simp [packs]
  | [_, _, _] => by simp [packs]
  | a :: b :: c :: d :: rest => by
    simp only [packs, List.length_cons, length_packs rest]
    omega

/-- The reading with the given upper bits whose low bits are at the given place of a shared byte. -/
def join (upper shared : UInt8) (place : Nat) : UInt16 :=
  (upper.toUInt16 <<< 2) ||| ((shared >>> (6 - 2 * place).toUInt8) &&& 3).toUInt16

/-- A group of readings: the upper bits of all, then the shared bytes. -/
def toBytes {n : Nat} (readings : Vector UInt16 n) : List UInt8 :=
  readings.toList.map high ++ packs readings.toList

theorem length_toBytes {n : Nat} (readings : Vector UInt16 n) :
    (toBytes readings).length = n + (n + 3) / 4 := by
  simp [toBytes, length_packs]

/-- The group of `n` readings at the front of a byte string. -/
def ofBytes (n : Nat) (bytes : List UInt8) : Vector UInt16 n :=
  Vector.ofFn fun i => join (byteAt bytes i) (byteAt bytes (n + i / 4)) (i % 4)

end TenBit

namespace Acceleration

/-- The upper eight of twelve bits for each axis, then the low nibbles in two bytes. -/
def toBytes (axes : Vector UInt16 3) : List UInt8 :=
  [(axes[0] >>> 4).toUInt8, (axes[1] >>> 4).toUInt8, (axes[2] >>> 4).toUInt8,
    (((axes[0] &&& 0x0F) <<< 4) ||| (axes[1] &&& 0x0F)).toUInt8,
    ((axes[2] &&& 0x0F) <<< 4).toUInt8]

def ofBytes (bytes : List UInt8) : Vector UInt16 3 := #v[
    (byteAt bytes 0).toUInt16 <<< 4 ||| (byteAt bytes 3 >>> 4).toUInt16,
    (byteAt bytes 1).toUInt16 <<< 4 ||| (byteAt bytes 3 &&& 0x0F).toUInt16,
    (byteAt bytes 2).toUInt16 <<< 4 ||| (byteAt bytes 4 >>> 4).toUInt16]

end Acceleration

namespace Heading

/-- Magnetometer axes and gyroscope as one group of ten-bit readings; the gyroscope's upper bits
are centred on zero. -/
def toBytes (mag : Vector UInt16 3) (gyro : UInt16) : List UInt8 :=
  [TenBit.high mag[0], TenBit.high mag[1], TenBit.high mag[2], TenBit.high gyro - 128,
    TenBit.pack mag[0] mag[1] mag[2] gyro]

def magOfBytes (bytes : List UInt8) : Vector UInt16 3 :=
  Vector.ofFn fun i => TenBit.join (byteAt bytes i) (byteAt bytes 4) i

def gyroOfBytes (bytes : List UInt8) : UInt16 :=
  TenBit.join (byteAt bytes 3 + 128) (byteAt bytes 4) 3

end Heading

namespace Thermal

/-- Sixteen bits each, low byte first. -/
def toBytes (readings : Vector UInt16 8) : List UInt8 :=
  readings.toList.flatMap fun (reading : UInt16) => [reading.toUInt8, (reading >>> 8).toUInt8]

def ofBytes (bytes : List UInt8) : Vector UInt16 8 :=
  Vector.ofFn fun i => Checksum.ofWire (byteAt bytes (2 * i + 1)) (byteAt bytes (2 * i))

theorem length_toBytes (readings : Vector UInt16 8) : (toBytes readings).length = 16 := by
  have pairs (l : List UInt16) :
      (l.flatMap fun (reading : UInt16) => [reading.toUInt8, (reading >>> 8).toUInt8]).length
        = 2 * l.length := by
    induction l with
    | nil => rfl
    | cons reading rest ih =>
      simp only [List.flatMap_cons, List.length_append, ih, List.length_cons, List.length_nil]
      omega
  unfold toBytes
  rw [pairs, Vector.length_toList]

end Thermal

end Telemetry

open Telemetry

namespace PowerReport

def toBytes (p : PowerReport) : List UInt8 :=
  [p.voltage, p.chargeState, p.bat40, p.bat160, p.bat280]

def ofBytes (bytes : List UInt8) : PowerReport :=
  ⟨byteAt bytes 0, byteAt bytes 1, byteAt bytes 2, byteAt bytes 3, byteAt bytes 4⟩

end PowerReport

namespace MotorReport

def toBytes (m : MotorReport) : List UInt8 :=
  [m.voltage.toUInt8, m.clicks.toUInt8, m.current, m.temperature]

def ofBytes (bytes : List UInt8) : MotorReport :=
  ⟨(byteAt bytes 0).toInt8, (byteAt bytes 1).toInt8, byteAt bytes 2, byteAt bytes 3⟩

end MotorReport

namespace SensorReport

def toBytes (s : SensorReport) : List UInt8 :=
  Acceleration.toBytes s.accel ++ Heading.toBytes s.mag s.gyro ++ TenBit.toBytes s.irDistance
    ++ TenBit.toBytes s.light ++ Thermal.toBytes s.thermal ++ TenBit.toBytes s.irLight

def ofBytes (bytes : List UInt8) : SensorReport where
  accel := Acceleration.ofBytes bytes
  mag := Heading.magOfBytes (bytes.drop 5)
  gyro := Heading.gyroOfBytes (bytes.drop 5)
  irDistance := TenBit.ofBytes 10 (bytes.drop 10)
  light := TenBit.ofBytes 4 (bytes.drop 23)
  thermal := Thermal.ofBytes (bytes.drop 28)
  irLight := TenBit.ofBytes 8 (bytes.drop 44)

end SensorReport

namespace StatusBits

/-- Charging in the top bit, drive below it, the monitor in the last bit. -/
def toByte (s : StatusBits) : UInt8 :=
  (s.chargingEnabled.toUInt8 <<< 7) ||| (s.driveEnabled.toUInt8 <<< 6) ||| s.monitorOk.toUInt8

def ofByte (byte : UInt8) : StatusBits :=
  ⟨byte &&& 0x80 != 0, byte &&& 0x40 != 0, byte &&& 0x01 != 0⟩

end StatusBits

namespace Telemetry

/-- The low 24 bits, high byte first. -/
def errorBytes (flags : UInt32) : List UInt8 :=
  [(flags >>> 16).toUInt8, (flags >>> 8).toUInt8, flags.toUInt8]

def errorsOfBytes (bytes : List UInt8) : UInt32 :=
  ((byteAt bytes 0).toUInt32 <<< 16) ||| ((byteAt bytes 1).toUInt32 <<< 8)
    ||| (byteAt bytes 2).toUInt32

/-- Everything between header and checksum. The charge state is sent a second time in the unused
top byte of the error word. -/
def payload (r : Report) : List UInt8 :=
  r.power.toBytes ++ r.motors.toList.flatMap MotorReport.toBytes ++ r.sensors.toBytes
    ++ [r.power.chargeState] ++ errorBytes r.errorFlags
    ++ [r.commandRead.toUInt8, r.status.toByte]

/-- The report in a payload; the repeated charge state is not looked at. -/
def ofPayload (bytes : List UInt8) : Report where
  power := PowerReport.ofBytes bytes
  motors := ⟨MotorReport.ofBytes (bytes.drop 5), MotorReport.ofBytes (bytes.drop 9),
    MotorReport.ofBytes (bytes.drop 13)⟩
  sensors := SensorReport.ofBytes (bytes.drop 17)
  errorFlags := errorsOfBytes (bytes.drop 72)
  commandRead := byteAt bytes 75 != 0
  status := StatusBits.ofByte (byteAt bytes 76)

def stamp (body : List UInt8) : List UInt8 := body ++ Checksum.wire (Checksum.ofBytes body)

def encode (r : Report) : List UInt8 := stamp (header ++ payload r)

theorem length_payload (r : Report) : (payload r).length = 77 := by
  simp [payload, PowerReport.toBytes, MotorReport.toBytes, Wheels.toList, SensorReport.toBytes,
    Acceleration.toBytes, Heading.toBytes, TenBit.length_toBytes, Thermal.length_toBytes,
    errorBytes]

theorem length_encode (r : Report) : (encode r).length = frameLength := by
  simp [encode, stamp, header, length_payload, Checksum.wire, frameLength]

/-- Why a byte string is not a telemetry frame. -/
inductive Error
  | length (got : Nat)
  | header (got : List UInt8)
  | checksum (computed received : UInt16)
  deriving DecidableEq, Repr

def Error.message : Error → String
  | length got => "Frame length " ++ toString got ++ " does not match expected 83"
  | header got => "Invalid frame header: " ++ Hex.bytes got
  | checksum computed received =>
    "CRC mismatch: computed 0x" ++ Hex.word computed ++ ", received 0x" ++ Hex.word received

/-- The report in a frame. Length, header and checksum are looked at in this order, and the first
that is wrong is the reason for refusal. -/
def decode (frame : List UInt8) : Except Error Report :=
  if frame.length ≠ frameLength then .error (.length frame.length)
  else if frame.take 4 ≠ OmniDrive.header then .error (.header (frame.take 4))
  else
    let body := frame.take 81
    let computed := Checksum.ofBytes body
    let received := Checksum.ofWire (byteAt frame 81) (byteAt frame 82)
    if computed ≠ received then .error (.checksum computed received)
    else .ok (ofPayload (body.drop 4))

end Telemetry

end OmniDrive
