import OmniDrive.Command.Lights
import OmniDrive.Wheels

/-! Commands from the host and their bytes on the link.
A command is a header, a motor mode, three motion bytes, a lighting mode and, for custom
lighting only, sixteen colours. -/
namespace OmniDrive

/-- The four bytes that open every frame, in both directions. -/
def header : List UInt8 := [0xDE, 0xAD, 0xBE, 0xEF]

structure Command where
  motorMode : MotorMode
  lightMode : LightMode
  m1 : Int8
  m2 : Int8
  m3 : Int8
  /-- The colours that came along, for custom lighting. -/
  colours : Option Palette
  deriving DecidableEq, Repr

namespace Command

/-- The command that five bytes after a header carry, before any colours. -/
def ofBytes (motor m1 m2 m3 led : UInt8) : Command :=
  ⟨.ofByte motor, .ofByte led, m1.toInt8, m2.toInt8, m3.toInt8, none⟩

def withColours (c : Command) (colours : Palette) : Command :=
  { c with lightMode := .custom, colours := some colours }

/-- The three motion values: one for each wheel, or x, y and theta. -/
def motion (c : Command) : Wheels Int8 := ⟨c.m1, c.m2, c.m3⟩

/-- The colours that follow the five command bytes: black where custom lighting came without any. -/
def trailer (c : Command) : List UInt8 :=
  if c.lightMode = .custom then (c.colours.getD Palette.black).toBytes else []

def encode (c : Command) : List UInt8 :=
  header ++ [c.motorMode.toByte, c.m1.toUInt8, c.m2.toUInt8, c.m3.toUInt8, c.lightMode.toByte]
    ++ c.trailer

/-- An exit that its lighting mode confirms. -/
def IsConfirmedExit (c : Command) : Prop := c.motorMode = .exit ∧ c.lightMode = .exit

instance (c : Command) : Decidable c.IsConfirmedExit := inferInstanceAs (Decidable (_ ∧ _))

end Command

end OmniDrive
