/-! The sixteen-bit frame checksum: generator `x^16 + x^12 + x^5 + 1`, zero start value,
most significant bit first. Bytes are folded in by table. -/
namespace OmniDrive

namespace Checksum

/-- The generator without its leading term. -/
def generator : UInt16 := 0x1021

/-- Shift the register by one place; the generator is subtracted when a one falls out. -/
def shiftBit (register : UInt16) : UInt16 :=
  if register &&& 0x8000 = 0 then register <<< 1 else (register <<< 1) ^^^ generator

/-- Shift the register by the eight places of one byte. -/
def shiftByte (register : UInt16) : UInt16 :=
  shiftBit (shiftBit (shiftBit (shiftBit (shiftBit (shiftBit (shiftBit (shiftBit register)))))))

/-- What each value of the outgoing byte contributes to the shifted register. -/
def table : Vector UInt16 256 := Vector.ofFn fun i => shiftByte (i.val.toUInt16 <<< 8)

def update (register : UInt16) (byte : UInt8) : UInt16 :=
  let outgoing := (register >>> 8).toUInt8 ^^^ byte
  table.get ⟨outgoing.toNat, outgoing.toNat_lt⟩ ^^^ (register <<< 8)

def fold (register : UInt16) (bytes : List UInt8) : UInt16 := bytes.foldl update register

def ofBytes (bytes : List UInt8) : UInt16 := fold 0 bytes

/-- The register before the first byte and after every byte. -/
def trace (bytes : List UInt8) : List UInt16 := go 0 bytes
where
  go (register : UInt16) : List UInt8 → List UInt16
    | [] => [register]
    | byte :: rest => register :: go (update register byte) rest

/-- A checksum as it travels, high byte first. -/
def wire (checksum : UInt16) : List UInt8 := [(checksum >>> 8).toUInt8, checksum.toUInt8]

def ofWire (high low : UInt8) : UInt16 := (high.toUInt16 <<< 8) ||| low.toUInt16

theorem fold_append (register : UInt16) (front back : List UInt8) :
    fold register (front ++ back) = fold (fold register front) back :=
  List.foldl_append

theorem toNat_ofWire (high low : UInt8) :
    (ofWire high low).toNat = high.toNat * 256 + low.toNat := by
  have below := high.toNat_lt
  have fits : high.toNat <<< 8 % 65536 = high.toNat <<< 8 := by
    rw [Nat.shiftLeft_eq]
    omega
  rw [ofWire, UInt16.toNat_or, UInt16.toNat_shiftLeft, UInt8.toNat_toUInt16, UInt8.toNat_toUInt16]
  change high.toNat <<< 8 % 65536 ||| low.toNat = _
  rw [fits, ← Nat.shiftLeft_add_eq_or_of_lt low.toNat_lt, Nat.shiftLeft_eq]

theorem ofWire_wire (checksum : UInt16) :
    ofWire (checksum >>> 8).toUInt8 checksum.toUInt8 = checksum := by
  have below := checksum.toNat_lt
  apply UInt16.toNat_inj.1
  rw [toNat_ofWire, UInt16.toNat_toUInt8, UInt16.toNat_toUInt8, UInt16.toNat_shiftRight,
    Nat.shiftRight_eq_div_pow]
  change checksum.toNat / 256 % 256 * 256 + checksum.toNat % 256 = checksum.toNat
  omega

theorem high_ofWire (high low : UInt8) : (ofWire high low >>> 8).toUInt8 = high := by
  have hh := high.toNat_lt
  have hl := low.toNat_lt
  apply UInt8.toNat_inj.1
  rw [UInt16.toNat_toUInt8, UInt16.toNat_shiftRight, toNat_ofWire, Nat.shiftRight_eq_div_pow]
  change (high.toNat * 256 + low.toNat) / 256 % 256 = high.toNat
  omega

theorem low_ofWire (high low : UInt8) : (ofWire high low).toUInt8 = low := by
  have hl := low.toNat_lt
  apply UInt8.toNat_inj.1
  rw [UInt16.toNat_toUInt8, toNat_ofWire]
  omega

theorem wire_ofWire (high low : UInt8) : wire (ofWire high low) = [high, low] := by
  rw [wire, high_ofWire, low_ofWire]

theorem wire_inj {a b : UInt16} : wire a = wire b ↔ a = b := by
  constructor
  · intro h
    injection h with hh hl
    injection hl with hl
    rw [← ofWire_wire a, hh, hl, ofWire_wire]
  · rintro rfl
    rfl

end Checksum

end OmniDrive
