/-! JSON values as written: strings keep their escaped code units, and numbers other than plain
integers keep their digits. -/
namespace OmniDrive

namespace Json

/-- One piece of a string. -/
inductive Piece
  | char (c : Char)
  /-- A code unit of sixteen bits, written as an escape. -/
  | unit (code : Nat)
  deriving DecidableEq, Repr

/-- A string as written. -/
abbrev Text := List Piece

namespace Text

def ofString (s : String) : Text := s.toList.map .char

/-- The character of two surrogate code units. -/
def paired (high low : Nat) : Char :=
  Char.ofNat (0x10000 + (high - 0xD800) * 0x400 + (low - 0xDC00))

def isHigh (code : Nat) : Bool := 0xD800 ≤ code && code < 0xDC00

def isLow (code : Nat) : Bool := 0xDC00 ≤ code && code < 0xE000

/-- The characters of a string. Surrogates must come in pairs; a lone one stands for no
character. -/
def characters : Text → Option (List Char)
  | [] => some []
  | .char c :: rest => (c :: ·) <$> characters rest
  | .unit high :: .unit low :: rest =>
    if isHigh high then
      if isLow low then (paired high low :: ·) <$> characters rest else none
    else if isLow high then none
    else (Char.ofNat high :: ·) <$> characters (.unit low :: rest)
  | .unit code :: rest =>
    if isHigh code || isLow code then none else (Char.ofNat code :: ·) <$> characters rest

/-- The string that the pieces stand for. -/
def string? (t : Text) : Option String := String.ofList <$> characters t

theorem characters_map_char (cs : List Char) : characters (cs.map .char) = some cs := by
  induction cs with
  | nil => rfl
  | cons c cs ih => simp [characters, ih]

@[simp] theorem string?_ofString (s : String) : string? (ofString s) = some s := by
  simp [string?, ofString, characters_map_char]

end Text

end Json

/-- A JSON value. -/
inductive Json
  | null
  | bool (b : Bool)
  /-- A number written as an integer, other than minus zero. -/
  | integer (z : Int)
  /-- Any other number, as written. -/
  | real (digits : List Char)
  | string (text : Json.Text)
  | array (items : List Json)
  /-- The members in the order in which they are written. -/
  | object (members : List (Json.Text × Json))
  deriving Inhabited

end OmniDrive
