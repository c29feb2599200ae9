import OmniDrive.Proofs.Command.Noise

/-! Frames in a row. The mode bytes with a meaning of their own are no bytes of a header, so between
plain frames a header begins nowhere but at the start of a frame, and a decoder that is between two
commands anywhere in such a stream finds every frame that begins from there on. -/
namespace OmniDrive

/-- The modes with a meaning of their own. -/
def MotorMode.IsListed : MotorMode → Prop
  | .unknown _ => False
  | _ => True

def LightMode.IsListed : LightMode → Prop
  | .unknown _ => False
  | _ => True

instance : DecidablePred MotorMode.IsListed
  | .wheelSpace | .xyThetaSpace | .wheelVoltage | .exit | .enableCharging | .disableCharging
  | .enableVref | .disableVref | .enableAmp | .disableAmp => .isTrue trivial
  | .unknown _ => .isFalse not_false

instance : DecidablePred LightMode.IsListed
  | .none | .clear | .battery | .ball | .error | .emergency | .busy | .custom | .exit =>
    .isTrue trivial
  | .unknown _ => .isFalse not_false

theorem MotorMode.ofByte_toByte {mode : MotorMode} (h : mode.IsListed) :
    ofByte mode.toByte = mode := by
  cases mode with
  | unknown byte => exact h.elim
  | _ => rfl

theorem LightMode.ofByte_toByte {mode : LightMode} (h : mode.IsListed) :
    ofByte mode.toByte = mode := by
  cases mode with
  | unknown byte => exact h.elim
  | _ => rfl

theorem MotorMode.toByte_lt {mode : MotorMode} (h : mode.IsListed) : mode.toByte < 0x80 := by
  cases mode with
  | unknown byte => exact h.elim
  | _ => decide

theorem LightMode.toByte_lt {mode : LightMode} (h : mode.IsListed) : mode.toByte < 0x80 := by
  cases mode with
  | unknown byte => exact h.elim
  | _ => decide

/-- The bytes of a header are all in the upper half, the listed modes in the lower one. -/
theorem ne_of_mem_header {byte mode : UInt8} (hb : byte ∈ header) (hm : mode < 0x80) :
    byte ≠ mode := by
  have upper : ∀ b ∈ header, (0x80 : UInt8) ≤ b := by simp [header]
  exact (UInt8.ne_of_lt (UInt8.lt_of_lt_of_le hm (upper byte hb))).symm

namespace Command

/-- Both modes have a meaning of their own and no colours follow. -/
structure IsPlain (c : Command) : Prop where
  motor : c.motorMode.IsListed
  light : c.lightMode.IsListed
  uncoloured : c.lightMode ≠ .custom

instance (c : Command) : Decidable c.IsPlain :=
  decidable_of_iff (c.motorMode.IsListed ∧ c.lightMode.IsListed ∧ c.lightMode ≠ .custom)
    ⟨fun h => ⟨h.1, h.2.1, h.2.2⟩, fun h => ⟨h.motor, h.light, h.uncoloured⟩⟩

/-- The command without colours. -/
def bare (c : Command) : Command := { c with colours := none }

variable {c : Command} {sent : List Command}

theorem IsPlain.received_eq (h : c.IsPlain) : c.received = c.bare := by
  obtain ⟨motor, light, m1, m2, m3, colours⟩ := c
  unfold received bare
  rw [MotorMode.ofByte_toByte h.motor, LightMode.ofByte_toByte h.light, if_neg h.uncoloured]

theorem IsPlain.ne_unknown (h : c.IsPlain) (byte : UInt8) : c.lightMode ≠ .unknown byte := by
  intro hl
  have := h.light
  rw [hl] at this
  exact this

theorem IsPlain.encode_eq (h : c.IsPlain) : c.encode = [0xDE, 0xAD, 0xBE, 0xEF, c.motorMode.toByte,
    c.m1.toUInt8, c.m2.toUInt8, c.m3.toUInt8, c.lightMode.toByte] := by
  rw [encode, trailer, if_neg h.uncoloured]
  rfl

theorem IsPlain.length_encode (h : c.IsPlain) : c.encode.length = 9 := by
  rw [h.encode_eq]
  rfl

theorem length_frames (h : ∀ c ∈ sent, c.IsPlain) :
    (sent.flatMap encode).length = 9 * sent.length := by
  induction sent with
  | nil => rfl
  | cons c sent ih =>
    rw [List.flatMap_cons, List.length_append, (h c List.mem_cons_self).length_encode,
      ih fun d hd => h d (List.mem_cons_of_mem c hd), List.length_cons]
    omega

theorem allIn_nil : allIn [] = [] := allIn_of_next?_eq_none rfl

theorem allIn_encode (h : c.IsPlain) (more : List UInt8) :
    allIn (c.encode ++ more) = c.bare :: allIn more := by
  have hn : next? (c.encode ++ more) = some (c.bare, more) := by
    rw [← h.received_eq, ← body?_encode (h.ne_unknown _) more]
    exact next?_header _
  exact allIn_of_next?_eq_some hn

theorem allIn_frames_append (h : ∀ c ∈ sent, c.IsPlain) (more : List UInt8) :
    allIn (sent.flatMap encode ++ more) = sent.map bare ++ allIn more := by
  induction sent with
  | nil => rfl
  | cons c sent ih =>
    rw [List.flatMap_cons, List.append_assoc, allIn_encode (h c List.mem_cons_self),
      ih fun d hd => h d (List.mem_cons_of_mem c hd)]
    rfl

theorem allIn_frames (h : ∀ c ∈ sent, c.IsPlain) : allIn (sent.flatMap encode) = sent.map bare := by
  have hf := allIn_frames_append h []
  rwa [List.append_nil, allIn_nil, List.append_nil] at hf

/-- Noise in front of frames holds no command and hides none. -/
theorem allIn_noise {noise : List UInt8} (hn : ¬ header <:+: noise) (h : ∀ c ∈ sent, c.IsPlain) :
    allIn (noise ++ sent.flatMap encode) = sent.map bare := by
  cases sent with
  | nil =>
    have hs : next? (noise ++ []) = none := by
      rw [List.append_nil, next?, Telemetry.seek_eq_none_iff.2 hn]
      rfl
    exact allIn_of_next?_eq_none hs
  | cons c sent =>
    rw [← allIn_frames h]
    refine allIn_eq_of_next?_eq ?_
    have hs := Telemetry.seek_noise hn ((c.encode ++ sent.flatMap encode).drop 4)
    rw [next?, next?]
    exact congrArg (Option.bind · _) (hs.trans (Telemetry.seek_header _).symm)

/-- A frame whose header is damaged holds no header at all. -/
theorem IsPlain.not_header_infix_set (h : c.IsPlain) (k : Fin 4) {value : UInt8}
    (hv : value ≠ header.get k) : ¬ header <:+: c.encode.set k value := by
  have hm := MotorMode.toByte_lt h.motor
  have hd : 0xDE ≠ c.motorMode.toByte := ne_of_mem_header (by decide) hm
  have ha : 0xAD ≠ c.motorMode.toByte := ne_of_mem_header (by decide) hm
  have he : 0xEF ≠ c.lightMode.toByte :=
    ne_of_mem_header (by decide) (LightMode.toByte_lt h.light)
  rw [h.encode_eq]
  replace hv := Ne.symm hv
  have h3 : ((3 : Fin 4) : Nat) = 3 := rfl
  match k with
  | 0 | 1 | 2 | 3 => simp_all [header, List.infix_cons_iff]

theorem IsPlain.not_header_infix_drop (h : c.IsPlain) {n : Nat} (hn : 0 < n) :
    ¬ header <:+: c.encode.drop n := by
  have hs : (c.encode.set 0 0).drop n = c.encode.drop n := List.drop_set_of_lt hn
  rw [← hs]
  exact fun hi => h.not_header_infix_set 0 (by decide) (hi.trans (List.drop_suffix ..).isInfix)

/-- From any place in a stream of frames, the frames that begin from there on are found, and
nothing else. -/
theorem allIn_drop_frames (h : ∀ c ∈ sent, c.IsPlain) (n : Nat) :
    allIn ((sent.flatMap encode).drop n) = (sent.drop ((n + 8) / 9)).map bare := by
  induction sent generalizing n with
  | nil =>
    rw [List.flatMap_nil, List.drop_nil, List.drop_nil]
    exact allIn_nil
  | cons c sent ih =>
    have hc := h c List.mem_cons_self
    have hs : ∀ d ∈ sent, d.IsPlain := fun d hd => h d (List.mem_cons_of_mem c hd)
    have hl := hc.length_encode
    rw [List.flatMap_cons]
    by_cases start : n = 0
    · subst start
      exact allIn_frames h
    · by_cases inside : n < 9
      · have hd : (n + 8) / 9 = 1 := by omega
        rw [hd, List.drop_append_of_le_length (by omega), List.drop_succ_cons, List.drop_zero]
        exact allIn_noise (hc.not_header_infix_drop (Nat.pos_of_ne_zero start)) hs
      · have hd : (n + 8) / 9 = (n - 9 + 8) / 9 + 1 := by omega
        have hn : n = c.encode.length + (n - 9) := by omega
        rw [hd, List.drop_succ_cons, ← ih hs (n - 9), hn, List.drop_length_add_append, ← hn]

end Command

/-- However frames in a row are cut and fed, the decoder completes their commands and keeps no byte
back. -/
theorem Decoder.takeAll_frames (limit : Nat) {sent : List Command} {pieces : List Feed.Piece}
    (h : ∀ c ∈ sent, c.IsPlain)
    (hp : pieces.flatMap Feed.Piece.bytes = sent.flatMap Command.encode) :
    ∃ calls last, Feed.takeAll ⟨ofLimit limit, []⟩ pieces = .ok (calls, last) ∧
      (calls.flatMap fun call => completed call.notices) = sent.map Command.bare ∧
      last.held = [] := by
  obtain ⟨calls, last, he, -, whole⟩ :=
    Feed.takeAll_pass ⟨ofLimit limit, []⟩ (Nat.le_max_right ..) Nat.zero_lt_one pieces
  have none : ¬ header <:+: [] := by decide
  have quiet : ∀ s ∈ sent.map fun c => (c, ([] : List UInt8)),
      s.1.lightMode ≠ .unknown 0x07 ∧ ¬ header <:+: s.2 :=
    List.forall_mem_map.2 fun c hc => ⟨(h c hc).ne_unknown _, none⟩
  have stream : Command.amongNoise [] (sent.map fun c => (c, [])) = sent.flatMap Command.encode := by
    simp only [Command.amongNoise, List.nil_append, List.flatMap_map, List.append_nil]
  obtain ⟨after, desyncs, read⟩ := Phase.exists_pass_amongNoise 0 [] _ none quiet
  rw [stream, ← hp] at read
  obtain ⟨hc, -, -, hheld⟩ := Pass.mk.inj (whole.symm.trans read)
  refine ⟨calls, last, he, hc.trans ?_, hheld⟩
  rw [List.map_map]
  exact List.map_congr_left fun c hc => (h c hc).received_eq

end OmniDrive
