/-! Upper-case hexadecimal of fixed width. -/
namespace OmniDrive

namespace Hex

/-- The digit of a value below sixteen. -/
def digit (value : Nat) : Char :=
  if value < 10 then Char.ofNat (48 + value) else Char.ofNat (55 + value)

/-- The low `width` digits, most significant first. -/
def digits : Nat → Nat → List Char
  | 0, _ => []
  | width + 1, value => digits width (value / 16) ++ [digit (value % 16)]

/-- A value in two digits. -/
def byte (value : UInt8) : String := String.ofList (digits 2 value.toNat)

/-- A value in four digits. -/
def word (value : UInt16) : String := String.ofList (digits 4 value.toNat)

/-- A value in at least six digits, up to the eight it may have. -/
def flags (value : UInt32) : String :=
  let width := if value < 0x1000000 then 6 else if value < 0x10000000 then 7 else 8
  String.ofList (digits width value.toNat)

/-- Bytes between brackets, in two digits each. -/
def bytes (values : List UInt8) : String :=
  "[" ++ ", ".intercalate (values.map byte) ++ "]"

end Hex

end OmniDrive
