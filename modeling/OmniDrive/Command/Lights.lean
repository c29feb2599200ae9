import OmniDrive.Command.Mode

/-! The sixteen lights: their colours, and the patterns they can show. -/
namespace OmniDrive

structure Colour where
  r : UInt8
  g : UInt8
  b : UInt8
  deriving DecidableEq, Repr, Inhabited

namespace Colour

def black : Colour := ⟨0, 0, 0⟩

def toBytes (colour : Colour) : List UInt8 := [colour.r, colour.g, colour.b]

/-- The colours in a byte string, three bytes each; an incomplete last one is left out. -/
def ofBytes : List UInt8 → List Colour
  | r :: g :: b :: rest => ⟨r, g, b⟩ :: ofBytes rest
  | _ => []

theorem length_flatMap_toBytes (colours : List Colour) :
    (colours.flatMap toBytes).length = 3 * colours.length := by
  induction colours with
  | nil => rfl
  | cons colour rest ih =>
    simp only [List.flatMap_cons, List.length_append, ih, toBytes, List.length_cons,
      List.length_nil]
    omega

theorem ofBytes_flatMap_toBytes (colours : List Colour) :
    ofBytes (colours.flatMap toBytes) = colours := by
  induction colours with
  | nil => rfl
  | cons colour rest ih => simp [toBytes, ofBytes, ih]

end Colour

/-- A colour for each of the sixteen lights. -/
abbrev Palette := Vector Colour 16

namespace Palette

def black : Palette := Vector.replicate 16 Colour.black

def toBytes (colours : Palette) : List UInt8 := colours.toList.flatMap Colour.toBytes

/-- Sixteen colours from a byte string; missing ones are black. -/
def ofBytes (bytes : List UInt8) : Palette :=
  Vector.ofFn fun i => (Colour.ofBytes bytes).getD i.val Colour.black

theorem length_toBytes (colours : Palette) : colours.toBytes.length = 48 := by
  unfold toBytes
  rw [Colour.length_flatMap_toBytes, Vector.length_toList]

theorem ofBytes_toBytes (colours : Palette) : ofBytes colours.toBytes = colours := by
  ext i h
  all_goals simp [ofBytes, toBytes, Colour.ofBytes_flatMap_toBytes]

end Palette

inductive LightPattern
  | clear
  | battery
  | ball
  | error
  | emergency
  | busy
  | custom (colours : Palette)
  /-- Shown in every period in which the charger is active. -/
  | chargeStatus
  /-- Shown when the host takes over. -/
  | machineInterface
  /-- Shown when the host hands control back. -/
  | userInterface
  deriving DecidableEq, Repr

namespace LightPattern

/-- The pattern that a command's lighting mode asks for, if it asks for one. Colours are shown
only where they came along. -/
def ofCommand? (mode : LightMode) (colours : Option Palette) : Option LightPattern :=
  match mode with
  | .clear => some clear
  | .battery => some battery
  | .ball => some ball
  | .error => some error
  | .emergency => some emergency
  | .busy => some busy
  | .none | .custom => colours.map custom
  | .exit | .unknown _ => none

end LightPattern

end OmniDrive
