import OmniDrive.Telemetry.Frame

/-! Telemetry frames out of a stream of bytes that comes in pieces. Every window that opens with a
header is tried; a window that is refused costs one byte, an accepted one all of its bytes. -/
namespace OmniDrive

namespace Telemetry

/-- The input from its leftmost header on. -/
def seek : List UInt8 → Option (List UInt8)
  | [] => none
  | byte :: rest =>
    if (byte :: rest).take 4 = OmniDrive.header then some (byte :: rest) else seek rest

theorem length_seek_le {input found : List UInt8} (h : seek input = some found) :
    found.length ≤ input.length := by
  induction input with
  | nil => cases h
  | cons byte rest ih =>
    unfold seek at h
    split at h
    · cases h
      exact Nat.le_refl _
    · exact Nat.le_succ_of_le (ih h)

theorem seek_ne_nil {input found : List UInt8} (h : seek input = some found) :
    0 < found.length := by
  induction input with
  | nil => cases h
  | cons byte rest ih =>
    unfold seek at h
    split at h
    · cases h
      exact Nat.succ_pos _
    · exact ih h

/-- What a stretch of the stream held: reports, reasons for refusal, and the bytes that may still
become a frame. -/
structure Split where
  reports : List Report
  refused : List Error
  rest : List UInt8
  deriving DecidableEq, Repr

/-- Split a stretch of the stream. Without a header its last three bytes are kept, since they may
open one. -/
def split (input : List UInt8) : Split :=
  match _h : seek input with
  | none => ⟨[], [], input.drop (input.length - 3)⟩
  | some found =>
    if found.length < frameLength then ⟨[], [], found⟩
    else
      match decode (found.take frameLength) with
      | .ok report =>
        let later := split (found.drop frameLength)
        { later with reports := report :: later.reports }
      | .error reason =>
        let later := split (found.drop 1)
        { later with refused := reason :: later.refused }
termination_by input.length
decreasing_by
  · have := length_seek_le _h
    have := seek_ne_nil _h
    simp only [List.length_drop, frameLength]
    omega
  · have := length_seek_le _h
    have := seek_ne_nil _h
    simp only [List.length_drop]
    omega

end Telemetry

/-- A stream of telemetry being read: the bytes that may still become a frame. -/
structure Telemetry.Stream where
  held : List UInt8
  deriving DecidableEq, Repr

namespace Telemetry.Stream

def initial : Telemetry.Stream := ⟨[]⟩

def push (s : Telemetry.Stream) (bytes : List UInt8) : Telemetry.Stream × Telemetry.Split :=
  let result := Telemetry.split (s.held ++ bytes)
  (⟨result.rest⟩, result)

end Telemetry.Stream

end OmniDrive
