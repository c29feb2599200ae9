import OmniDrive.Notice

/-! What a controller does to the outside besides sending packets. -/
namespace OmniDrive

inductive BoardCall
  | lights (pattern : LightPattern)
  | vref (on : Bool)
  | amplifier (on : Bool)
  deriving DecidableEq, Repr

inductive Event
  | notice (n : Notice)
  | board (call : BoardCall)
  deriving DecidableEq, Repr

end OmniDrive
