import OmniDrive.Json.Basic

/-! Reading JSON text. Every function reads from the front and gives back what is left. -/
namespace OmniDrive

namespace Json

/-- The four characters that may stand between tokens. -/
def isBlank (c : Char) : Bool := c == ' ' || c == '\n' || c == '\t' || c == '\r'

def skipBlank (input : List Char) : List Char := input.dropWhile isBlank

def isDigit (c : Char) : Bool := '0' ≤ c && c ≤ '9'

def digitValue (c : Char) : Nat := c.toNat - 48

/-- The number that decimal digits spell. -/
def ofDigits (digits : List Char) : Nat := digits.foldl (fun n c => 10 * n + digitValue c) 0

def hexValue (c : Char) : Option Nat :=
  if isDigit c then some (c.toNat - 48)
  else if 'a' ≤ c && c ≤ 'f' then some (c.toNat - 87)
  else if 'A' ≤ c && c ≤ 'F' then some (c.toNat - 55)
  else none

/-- The code unit of four hexadecimal digits. -/
def codeUnit (a b c d : Char) : Option Nat := do
  return 4096 * (← hexValue a) + 256 * (← hexValue b) + 16 * (← hexValue c) + (← hexValue d)

/-- The character that a short escape stands for. -/
def shortEscape (c : Char) : Option Char :=
  if c = '"' ∨ c = '\\' ∨ c = '/' then some c
  else if c = 'b' then some '\x08'
  else if c = 'f' then some '\x0c'
  else if c = 'n' then some '\n'
  else if c = 'r' then some '\r'
  else if c = 't' then some '\t'
  else none

/-- The rest of a string behind its opening quote. -/
def readText : List Char → Option (Text × List Char)
  | [] => none
  | '"' :: rest => some ([], rest)
  | '\\' :: 'u' :: a :: b :: c :: d :: rest => do
    let code ← codeUnit a b c d
    let (text, rest) ← readText rest
    return (.unit code :: text, rest)
  | '\\' :: c :: rest => do
    let escaped ← shortEscape c
    let (text, rest) ← readText rest
    return (.char escaped :: text, rest)
  | c :: rest =>
    if c.toNat < 32 ∨ c = '\\' then none
    else do
      let (text, rest) ← readText rest
      return (.char c :: text, rest)

/-- Digits, at least one. -/
def readDigits (input : List Char) : Option (List Char × List Char) :=
  match input.takeWhile isDigit with
  | [] => none
  | digits => some (digits, input.dropWhile isDigit)

/-- The digits before the point: a zero alone, or digits that do not begin with one. -/
def readWhole : List Char → Option (List Char × List Char)
  | '0' :: rest => some (['0'], rest)
  | input => readDigits input

/-- The digits behind the point, if there is one. -/
def readFraction : List Char → Option (List Char × List Char)
  | '.' :: rest => do
    let (digits, rest) ← readDigits rest
    return ('.' :: digits, rest)
  | input => some ([], input)

/-- The exponent, if there is one. -/
def readExponent : List Char → Option (List Char × List Char)
  | 'e' :: rest => signed 'e' rest
  | 'E' :: rest => signed 'E' rest
  | input => some ([], input)
where
  signed (mark : Char) : List Char → Option (List Char × List Char)
    | '+' :: rest => do
      let (digits, rest) ← readDigits rest
      return (mark :: '+' :: digits, rest)
    | '-' :: rest => do
      let (digits, rest) ← readDigits rest
      return (mark :: '-' :: digits, rest)
    | input => do
      let (digits, rest) ← readDigits input
      return (mark :: digits, rest)

/-- The value of a number written with the given parts. -/
def ofNumber (negative : Bool) (whole fraction exponent : List Char) : Json :=
  let lexeme := (if negative then ['-'] else []) ++ whole ++ fraction ++ exponent
  if fraction ≠ [] ∨ exponent ≠ [] then .real lexeme
  else if negative then
    if ofDigits whole = 0 then .real lexeme else .integer (-(ofDigits whole : Int))
  else .integer (ofDigits whole)

def readNumber (input : List Char) : Option (Json × List Char) := do
  let (negative, rest) := match input with
    | '-' :: rest => (true, rest)
    | _ => (false, input)
  let (whole, rest) ← readWhole rest
  let (fraction, rest) ← readFraction rest
  let (exponent, rest) ← readExponent rest
  return (ofNumber negative whole fraction exponent, rest)

/-- The name of a member and the colon behind it. -/
def readName (input : List Char) : Option (Text × List Char) :=
  match skipBlank input with
  | '"' :: rest => do
    let (name, rest) ← readText rest
    match skipBlank rest with
    | ':' :: rest => some (name, rest)
    | _ => none
  | _ => none

mutual
/-- A value, nested at most as deep as the first argument allows. -/
def readValue : Nat → List Char → Option (Json × List Char)
  | 0, _ => none
  | fuel + 1, input =>
    match skipBlank input with
    | 'n' :: 'u' :: 'l' :: 'l' :: rest => some (.null, rest)
    | 't' :: 'r' :: 'u' :: 'e' :: rest => some (.bool true, rest)
    | 'f' :: 'a' :: 'l' :: 's' :: 'e' :: rest => some (.bool false, rest)
    | '"' :: rest => do
      let (text, rest) ← readText rest
      return (.string text, rest)
    | '[' :: rest =>
      match skipBlank rest with
      | ']' :: rest => some (.array [], rest)
      | rest => do
        let (item, rest) ← readValue fuel rest
        let (items, rest) ← readItems fuel rest
        return (.array (item :: items), rest)
    | '{' :: rest =>
      match skipBlank rest with
      | '}' :: rest => some (.object [], rest)
      | rest => do
        let (name, rest) ← readName rest
        let (value, rest) ← readValue fuel rest
        let (members, rest) ← readMembers fuel rest
        return (.object ((name, value) :: members), rest)
    | rest => readNumber rest
/-- What follows an item of an array. -/
def readItems : Nat → List Char → Option (List Json × List Char)
  | 0, _ => none
  | fuel + 1, input =>
    match skipBlank input with
    | ']' :: rest => some ([], rest)
    | ',' :: rest => do
      let (item, rest) ← readValue fuel rest
      let (items, rest) ← readItems fuel rest
      return (item :: items, rest)
    | _ => none
/-- What follows a member of an object. -/
def readMembers : Nat → List Char → Option (List (Text × Json) × List Char)
  | 0, _ => none
  | fuel + 1, input =>
    match skipBlank input with
    | '}' :: rest => some ([], rest)
    | ',' :: rest => do
      let (name, rest) ← readName rest
      let (value, rest) ← readValue fuel rest
      let (members, rest) ← readMembers fuel rest
      return ((name, value) :: members, rest)
    | _ => none
end

/-- The value of a text that holds nothing else. Two steps per character are always enough. -/
def parse (text : String) : Option Json := do
  let input := text.toList
  let (value, rest) ← readValue (2 * input.length + 2) input
  if skipBlank rest = [] then some value else none

end Json

end OmniDrive
