import OmniDrive.Json.Basic

/-! Compact JSON text: no blanks, members in order, only what must be escaped is. -/
namespace OmniDrive

namespace Json

/-- The decimal digits of a number. -/
def natDigits (n : Nat) : List Char :=
  if n < 10 then [Char.ofNat (48 + n)] else natDigits (n / 10) ++ [Char.ofNat (48 + n % 10)]

/-- An integer in decimal. -/
def intDigits (z : Int) : List Char :=
  if z < 0 then '-' :: natDigits z.natAbs else natDigits z.natAbs

def hexDigit (value : Nat) : Char :=
  if value < 10 then Char.ofNat (48 + value) else Char.ofNat (87 + value)

/-- A code unit as an escape. -/
def unitEscape (code : Nat) : List Char :=
  ['\\', 'u', hexDigit (code / 4096 % 16), hexDigit (code / 256 % 16), hexDigit (code / 16 % 16),
    hexDigit (code % 16)]

/-- A character within a string. -/
def charEscape (c : Char) : List Char :=
  if c = '"' then ['\\', '"']
  else if c = '\\' then ['\\', '\\']
  else if c.toNat < 32 then unitEscape c.toNat
  else [c]

def Piece.write : Piece → List Char
  | .char c => charEscape c
  | .unit code => unitEscape code

/-- A string between quotes. -/
def writeText (t : Text) : List Char := '"' :: t.flatMap Piece.write ++ ['"']

mutual
/-- The text of a value. -/
def write : Json → List Char
  | null => ['n', 'u', 'l', 'l']
  | bool true => ['t', 'r', 'u', 'e']
  | bool false => ['f', 'a', 'l', 's', 'e']
  | integer z => intDigits z
  | real digits => digits
  | string text => writeText text
  | array [] => ['[', ']']
  | array (item :: items) => '[' :: write item ++ writeItems items
  | object [] => ['{', '}']
  | object ((name, value) :: members) =>
    '{' :: writeText name ++ ':' :: write value ++ writeMembers members
/-- What follows the first item of an array. -/
def writeItems : List Json → List Char
  | [] => [']']
  | item :: items => ',' :: write item ++ writeItems items
/-- What follows the first member of an object. -/
def writeMembers : List (Text × Json) → List Char
  | [] => ['}']
  | (name, value) :: members => ',' :: writeText name ++ ':' :: write value ++ writeMembers members
end

/-- The compact text of a value. -/
def render (j : Json) : String := String.ofList j.write

end Json

end OmniDrive
