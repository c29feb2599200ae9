import Mathlib.Data.List.Basic
import OmniDrive.Proofs.Checksum.Detection
import OmniDrive.Proofs.Telemetry.RoundTrip

/-! Flipped bits in a telemetry frame. An accepted frame leaves no remainder, so that of a corrupted
one is the remainder of the flips. -/
namespace OmniDrive.Telemetry

open Checksum

theorem body_append_checksum {frame : List UInt8} (h : frame.length = frameLength) :
    frame.take 81 ++ [byteAt frame 81, byteAt frame 82] = frame := by
  have hd : (frame.drop 81).length = 2 := by
    rw [List.length_drop, h]
    rfl
  obtain ⟨high, low, he⟩ := List.length_eq_two.1 hd
  have hh : byteAt frame 81 = high := by
    rw [← byteAt_drop frame 81 0, he]
    rfl
  have hl : byteAt frame 82 = low := by
    rw [← byteAt_drop frame 81 1, he]
    rfl
  rw [hh, hl, ← he, List.take_append_drop]

theorem decode_inv {frame : List UInt8} {report : Report} (h : decode frame = .ok report) :
    frame.length = frameLength ∧ frame.take 4 = OmniDrive.header ∧
      ofBytes (frame.take 81) = ofWire (byteAt frame 81) (byteAt frame 82) ∧
      ofPayload ((frame.take 81).drop 4) = report := by
  unfold decode at h
  split at h
  · cases h
  · rename_i hl
    split at h
    · cases h
    · rename_i hh
      dsimp only at h
      split at h
      · cases h
      · rename_i hc
        exact ⟨Decidable.not_not.1 hl, Decidable.not_not.1 hh, Decidable.not_not.1 hc,
          Except.ok.inj h⟩

theorem residue_of_decode {frame : List UInt8} {report : Report}
    (h : decode frame = .ok report) : residue (bits frame) = 0 := by
  obtain ⟨hl, -, hc, -⟩ := decode_inv h
  rw [← body_append_checksum hl, residue_stamped, hc, UInt16.xor_self]

/-- The frame with some of its bits flipped. -/
def corrupt (frame flips : List UInt8) : List UInt8 := List.zipWith (· ^^^ ·) frame flips

theorem refused_of_noticed {frame flips : List UInt8} {report : Report}
    (h : decode frame = .ok report) (hl : flips.length = frameLength) (hn : Noticed (bits flips)) :
    ∃ reason, decode (corrupt frame flips) = .error reason := by
  have hb : (bits flips).length = 664 := by
    rw [length_bits, hl]
    rfl
  have hf : (bits frame).length = 664 := by
    rw [length_bits, (decode_inv h).1]
    rfl
  cases hd : decode (corrupt frame flips) with
  | error reason => exact ⟨reason, rfl⟩
  | ok other =>
    have hr := residue_of_decode hd
    rw [corrupt, bits_zipWith_xor, residue_zipWith_xor (hf.trans hb.symm), residue_of_decode h,
      UInt16.zero_xor] at hr
    exact absurd hr (hn.residue_ne_zero (Nat.le_of_eq hb))

/-- A corrupted frame is refused, be it a report's own or any other that is accepted. -/
theorem decode_corrupt (flips : List UInt8) (hl : flips.length = frameLength)
    (hn : Noticed (bits flips)) :
    (∀ frame report, decode frame = .ok report →
      ∃ reason, decode (corrupt frame flips) = .error reason) ∧
    ∀ r, ∃ reason, decode (corrupt (encode r) flips) = .error reason :=
  ⟨fun _ _ h => refused_of_noticed h hl hn, fun r => refused_of_noticed (decode_encode_eq r) hl hn⟩

/-- One flip at the end of the body and one at the start of the checksum. -/
def flipsAcross : List UInt8 := List.replicate 80 0 ++ [0x01, 0x80, 0x00]

theorem decode_corrupt_across :
    flipsAcross.length = frameLength ∧ Noticed (bits flipsAcross) ∧
      (∀ frame report, decode frame = .ok report →
        ∃ reason, decode (corrupt frame flipsAcross) = .error reason) ∧
      ∀ r, ∃ reason, decode (corrupt (encode r) flipsAcross) = .error reason := by
  have hl : flipsAcross.length = frameLength := rfl
  have hn : Noticed (bits flipsAcross) := .pair (by decide +kernel)
  exact ⟨hl, hn, decode_corrupt flipsAcross hl hn⟩

end OmniDrive.Telemetry
