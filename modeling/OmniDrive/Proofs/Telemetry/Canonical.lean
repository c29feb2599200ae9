import OmniDrive.Proofs.Telemetry.Corruption
import OmniDrive.Proofs.Telemetry.Rewriting

/-! Which byte strings are telemetry frames, why any other is refused, and which frames the encoder
writes: those in which every bit that no field reads is as the encoder leaves it. -/
namespace OmniDrive.Telemetry

/-- A byte string of full length that begins with the header and ends in the checksum of all bytes
before it, high byte first. -/
structure IsFrame (frame : List UInt8) : Prop where
  length : frame.length = 83
  header : [0xDE, 0xAD, 0xBE, 0xEF] <+: frame
  checksum : frame.drop 81 = Checksum.wire (Checksum.ofBytes (frame.take 81))

/-- The first of length, header and checksum that is wrong is the reason for refusal. -/
inductive Refused (frame : List UInt8) : Error → Prop
  | length : frame.length ≠ 83 → Refused frame (.length frame.length)
  | header : frame.length = 83 → ¬ [0xDE, 0xAD, 0xBE, 0xEF] <+: frame →
      Refused frame (.header (frame.take 4))
  | checksum (received : UInt16) : frame.length = 83 → [0xDE, 0xAD, 0xBE, 0xEF] <+: frame →
      frame.drop 81 = Checksum.wire received → received ≠ Checksum.ofBytes (frame.take 81) →
      Refused frame (.checksum (Checksum.ofBytes (frame.take 81)) received)

/-- Every bit that decoding does not look at is the one that encoding writes there. -/
structure Canonical (frame : List UInt8) : Prop where
  accel : byteAt frame 25 &&& 0x0F = 0
  irDistance : byteAt frame 43 &&& 0x0F = 0
  chargeState : byteAt frame 75 = byteAt frame 5
  commandRead : byteAt frame 79 = 0 ∨ byteAt frame 79 = 1
  status : byteAt frame 80 &&& 0x3E = 0

variable {frame : List UInt8} {report : Report} {reason : Error}

theorem drop_eq_wire_iff (h : frame.length = 83) (checksum : UInt16) :
    frame.drop 81 = Checksum.wire checksum ↔
      Checksum.ofWire (byteAt frame 81) (byteAt frame 82) = checksum := by
  have hd : frame.drop 81 = [byteAt frame 81, byteAt frame 82] := by
    have hs := (body_append_checksum h).trans (List.take_append_drop 81 frame).symm
    exact (List.append_cancel_left hs).symm
  rw [hd, ← Checksum.wire_ofWire, Checksum.wire_inj]

theorem decode_eq_ok_iff :
    decode frame = .ok report ↔ IsFrame frame ∧ ofPayload ((frame.take 81).drop 4) = report := by
  constructor
  · intro h
    obtain ⟨hl, hh, hc, hr⟩ := decode_inv h
    exact ⟨⟨hl, List.prefix_iff_eq_take.2 hh.symm, (drop_eq_wire_iff hl _).2 hc.symm⟩, hr⟩
  · rintro ⟨⟨hl, hh, hc⟩, rfl⟩
    have hh := List.prefix_iff_eq_take.1 hh
    have hc := (drop_eq_wire_iff hl _).1 hc
    unfold decode
    rw [if_neg fun h => h hl, if_neg fun h => h hh.symm]
    exact if_neg fun h => h hc.symm

theorem decode_eq_error_iff : decode frame = .error reason ↔ Refused frame reason := by
  constructor
  · intro h
    unfold decode at h
    split at h
    case isTrue hl =>
      cases h
      exact .length hl
    case isFalse hl =>
      have hl := Decidable.not_not.1 hl
      split at h
      case isTrue hh =>
        cases h
        exact .header hl fun hp => hh (List.prefix_iff_eq_take.1 hp).symm
      case isFalse hh =>
        have hp := List.prefix_iff_eq_take.2 (Decidable.not_not.1 hh).symm
        dsimp only at h
        split at h
        case isTrue hc =>
          cases h
          exact .checksum _ hl hp ((drop_eq_wire_iff hl _).2 rfl) (Ne.symm hc)
        case isFalse => cases h
  · intro h
    unfold decode
    cases h with
    | length hl => exact if_pos hl
    | header hl hh =>
      rw [if_neg fun h => h hl]
      exact if_pos fun h => hh (List.prefix_iff_eq_take.2 h.symm)
    | checksum received hl hh hr hc =>
      have hr := (drop_eq_wire_iff hl _).1 hr
      rw [if_neg fun h => h hl, if_neg fun h => h (List.prefix_iff_eq_take.1 hh).symm, hr]
      exact if_pos hc.symm

/-- A frame is its payload with header and checksum put on. -/
theorem IsFrame.stamp_payload (h : IsFrame frame) :
    stamp (OmniDrive.header ++ (frame.take 81).drop 4) = frame := by
  have hb : OmniDrive.header ++ (frame.take 81).drop 4 = frame.take 81 := by
    have hh : OmniDrive.header = (frame.take 81).take 4 := by
      rw [List.take_take]
      exact List.prefix_iff_eq_take.1 h.header
    rw [hh, List.take_append_drop]
  rw [hb, stamp, ← h.checksum, List.take_append_drop]

theorem stamp_inj {a b : List UInt8} (h : a.length = b.length) : stamp a = stamp b ↔ a = b :=
  ⟨fun he => List.append_inj_left he h, congrArg stamp⟩

theorem IsFrame.length_payload (h : IsFrame frame) : ((frame.take 81).drop 4).length = 77 := by
  rw [List.length_drop, List.length_take, h.length]
  rfl

/-- Of a frame's bits encoding changes those that decoding did not look at, and the checksum with
them. -/
theorem IsFrame.encode_ofPayload_iff (h : IsFrame frame) :
    encode (ofPayload ((frame.take 81).drop 4)) = frame ↔ Canonical frame := by
  have at_payload {position : Nat} (hp : 4 + position < 81) :
      byteAt ((frame.take 81).drop 4) position = byteAt frame (4 + position) := by
    rw [byteAt_drop, byteAt_take hp]
  have hl : (OmniDrive.header ++ payload (ofPayload ((frame.take 81).drop 4))).length =
      (OmniDrive.header ++ (frame.take 81).drop 4).length := by
    rw [List.length_append, List.length_append, Telemetry.length_payload, h.length_payload]
  conv => lhs; rhs; rw [← h.stamp_payload]
  rw [encode, stamp_inj hl, List.append_cancel_left_eq, payload_ofPayload_iff h.length_payload,
    at_payload (by decide), at_payload (by decide), at_payload (by decide), at_payload (by decide),
    at_payload (by decide), at_payload (by decide)]
  constructor
  · rintro ⟨ha, hd, hc, hr, hs⟩
    exact ⟨ha, hd, hc, hr, hs⟩
  · rintro ⟨ha, hd, hc, hr, hs⟩
    exact ⟨ha, hd, hc, hr, hs⟩

/-- Frames are accepted and all else is refused for its first fault. What is read from a frame lies
within it, is read again from its own encoding, and has the frame as its encoding exactly if the
frame is canonical. -/
theorem encode_decode (frame : List UInt8) :
    ((∃ report, decode frame = .ok report) ↔ IsFrame frame) ∧
    (∀ reason, decode frame = .error reason ↔ Refused frame reason) ∧
    ∀ report, decode frame = .ok report →
      (∀ behind, ofPayload ((frame.take 81).drop 4 ++ behind) = report) ∧
      decode (encode report) = .ok report ∧ (encode report = frame ↔ Canonical frame) := by
  refine ⟨⟨?_, ?_⟩, fun reason => decode_eq_error_iff, ?_⟩
  · rintro ⟨report, h⟩
    exact (decode_eq_ok_iff.1 h).1
  · intro h
    exact ⟨_, decode_eq_ok_iff.2 ⟨h, rfl⟩⟩
  · intro report h
    obtain ⟨hf, rfl⟩ := decode_eq_ok_iff.1 h
    refine ⟨ofPayload_append hf.length_payload, ?_, hf.encode_ofPayload_iff⟩
    rw [decode_encode_eq, (Report.carried_eq_self_iff _).2 (fits_ofPayload _)]

end OmniDrive.Telemetry
