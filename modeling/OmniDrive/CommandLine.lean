import OmniDrive.Motor.Regulator

/-! Settings of a session and the command line that gives them.
An option's value is judged only when the next known option is met or the line ends; until then an
unknown argument takes precedence. -/
namespace OmniDrive

structure Settings where
  port : String
  baudrate : UInt32
  loopHz : UInt64
  publish : Bool
  law : Regulator.Law
  deriving DecidableEq, Repr

namespace Settings

def usual : Settings := ⟨"/dev/ttyUSB0", 115200, 100, true, .pd⟩

/-- The length of a control period in microseconds; no rate is the slowest one. -/
def tickPeriod (s : Settings) : Nat := 1000000 / max s.loopHz.toNat 1

end Settings

namespace CommandLine

/-- Why a command line gives no settings. -/
inductive Refusal
  | unknownArgument
  /-- An option or switch given twice. -/
  | repeated
  /-- An option without a value, or a law that does not exist. -/
  | invalidValue
  /-- Not a number, or one out of range. -/
  | invalidNumber
  /-- A switch with a value. -/
  | needlessValue
  | help
  | version
  deriving DecidableEq, Repr

inductive Valued
  | port
  | baudrate
  | loopHz
  | law
  deriving DecidableEq, Repr

inductive Switch
  | noPublish
  | help
  | version
  deriving DecidableEq, Repr

inductive Known
  | valued (o : Valued)
  | switch (s : Switch)
  deriving DecidableEq, Repr

def ofLong (name : List Char) : Option Known :=
  [("port", .valued .port), ("baudrate", .valued .baudrate), ("loop-hz", .valued .loopHz),
    ("law", .valued .law), ("no-publish", .switch .noPublish), ("help", .switch .help),
    ("version", .switch .version)].lookup (String.ofList name)

def ofShort (name : Char) : Option Known :=
  [('p', .valued .port), ('b', .valued .baudrate), ('h', .switch .help),
    ('V', .switch .version)].lookup name

structure Given where
  port : Option String
  baudrate : Option UInt32
  loopHz : Option UInt64
  law : Option Regulator.Law
  noPublish : Bool
  /-- The option met last, with its value once that has come. -/
  pending : Option (Valued × Option String)
  /-- Options have been ended. -/
  ended : Bool
  deriving DecidableEq, Repr

namespace Given

def nothing : Given := ⟨none, none, none, none, false, none, false⟩

end Given

/-- Decimal digits, at least one. -/
def natural? (digits : List Char) : Option Nat :=
  if digits ≠ [] ∧ digits.all Char.isDigit then
    some (digits.foldl (fun n c => 10 * n + (c.toNat - 48)) 0)
  else none

/-- A number below `bound`, which may have a sign; a minus is right only before zero, and only where
the number counts as signed. -/
def number? (bound : Nat) (signed : Bool) (text : String) : Option Nat := do
  let n ← match text.toList with
    | '+' :: digits => natural? digits
    | '-' :: digits => if signed then (natural? digits).filter (· = 0) else none
    | digits => natural? digits
  if n < bound then some n else none

/-- A value that has been given already must not come again. -/
def once {α : Type} : Option α → Except Refusal Unit
  | none => .ok ()
  | some _ => .error .repeated

/-- The value, or the refusal where there is none. -/
def orRefuse {α : Type} (refusal : Refusal) : Option α → Except Refusal α
  | some a => .ok a
  | none => .error refusal

def Given.store (g : Given) (o : Valued) (value : String) : Except Refusal Given :=
  match o with
  | .port => do
    once g.port
    return { g with port := some value }
  | .baudrate => do
    once g.baudrate
    let n ← orRefuse .invalidNumber (number? UInt32.size true value)
    return { g with baudrate := some n.toUInt32 }
  | .loopHz => do
    once g.loopHz
    let n ← orRefuse .invalidNumber (number? UInt64.size false value)
    return { g with loopHz := some n.toUInt64 }
  | .law => do
    once g.law
    let law ← orRefuse .invalidValue ([("pd", .pd), ("pid", .pid)].lookup value)
    return { g with law := some law }

/-- Judge the option met last. -/
def Given.resolve (g : Given) : Except Refusal Given :=
  match g.pending with
  | none => .ok g
  | some (_, none) => .error .invalidValue
  | some (o, some value) => { g with pending := none }.store o value

def Given.turnOn (g : Given) (s : Switch) : Except Refusal Given := do
  let g ← g.resolve
  match s with
  | .help => .error .help
  | .version => .error .version
  | .noPublish => if g.noPublish then .error .repeated else return { g with noPublish := true }

/-- React to an option, whose value may be attached. -/
def Given.meet (g : Given) (o : Valued) (attached : Option String) : Except Refusal Given := do
  let g ← g.resolve
  match attached with
  | some value => g.store o value
  | none => return { g with pending := some (o, none) }

/-- An argument behind two dashes: a name, and a value behind an equals sign. -/
def Given.long (g : Given) (text : List Char) : Except Refusal Given :=
  let name := text.takeWhile (· ≠ '=')
  let attached := match text.dropWhile (· ≠ '=') with
    | _ :: value => some (String.ofList value)
    | [] => none
  match ofLong name with
  | none => .error .unknownArgument
  | some (.valued o) => g.meet o attached
  | some (.switch s) => if attached.isSome then .error .needlessValue else g.turnOn s

/-- An argument behind one dash: a letter, and a value right behind it or behind an equals sign. -/
def Given.short (g : Given) (name : Char) (rest : List Char) : Except Refusal Given :=
  match ofShort name with
  | none => .error .unknownArgument
  | some (.switch s) => g.turnOn s
  | some (.valued o) => g.meet o <|
    match rest with
    | [] => none
    | '=' :: value => some (String.ofList value)
    | value => some (String.ofList value)

/-- An argument that is no option: the value that the last option waits for. -/
def Given.plain (g : Given) (argument : String) : Except Refusal Given :=
  match g.pending with
  | some (o, none) => .ok { g with pending := some (o, some argument) }
  | _ => .error .unknownArgument

def Given.take (g : Given) (argument : String) : Except Refusal Given :=
  if g.ended then .error .unknownArgument
  else match argument.toList with
    | ['-', '-'] => .ok { g with ended := true }
    | '-' :: '-' :: text => g.long text
    | '-' :: name :: rest => g.short name rest
    | _ => g.plain argument

def Given.settings (g : Given) : Settings where
  port := g.port.getD Settings.usual.port
  baudrate := g.baudrate.getD Settings.usual.baudrate
  loopHz := g.loopHz.getD Settings.usual.loopHz
  publish := !g.noPublish
  law := g.law.getD Settings.usual.law

def parse (arguments : List String) : Except Refusal Settings := do
  let given ← arguments.foldlM Given.take Given.nothing
  return (← given.resolve).settings

end CommandLine

end OmniDrive
