import OmniDrive.Proofs.Command.Feeding

/-! Commands among noise. Noise that holds no header cannot make one together with the frames around
it, so each frame is read where it stands, whatever its own bytes are. -/
namespace OmniDrive

namespace Command

/-- The command as it is read from its frame: the modes by their bytes, and colours with custom
lighting only, black where none came along. -/
def received (c : Command) : Command where
  motorMode := .ofByte c.motorMode.toByte
  lightMode := .ofByte c.lightMode.toByte
  m1 := c.m1
  m2 := c.m2
  m3 := c.m3
  colours := if c.lightMode = .custom then some (c.colours.getD Palette.black) else none

/-- Noise, then frames with the noise behind each of them. -/
def amongNoise (noise : List UInt8) (sent : List (Command × List UInt8)) : List UInt8 :=
  noise ++ sent.flatMap fun s => s.1.encode ++ s.2

theorem toByte_eq_seven_iff (mode : LightMode) :
    mode.toByte = 0x07 ↔ mode = .custom ∨ mode = .unknown 0x07 := by
  cases mode <;> simp [LightMode.toByte]

/-- Behind its header a frame is read as one command, and nothing of what follows is. -/
theorem body?_encode {c : Command} (h : c.lightMode ≠ .unknown 0x07) (more : List UInt8) :
    body? ((c.encode ++ more).drop 4) = some (c.received, more) := by
  obtain ⟨motor, light, m1, m2, m3, colours⟩ := c
  have hb : ((encode ⟨motor, light, m1, m2, m3, colours⟩) ++ more).drop 4 =
      motor.toByte :: m1.toUInt8 :: m2.toUInt8 :: m3.toUInt8 :: light.toByte ::
        (trailer ⟨motor, light, m1, m2, m3, colours⟩ ++ more) := rfl
  rw [hb]
  by_cases hl : light = .custom
  · subst hl
    have ht : trailer ⟨motor, .custom, m1, m2, m3, colours⟩ = (colours.getD Palette.black).toBytes :=
      rfl
    have h48 := Palette.length_toBytes (colours.getD Palette.black)
    have hlen : 48 ≤ ((colours.getD Palette.black).toBytes ++ more).length := by
      rw [List.length_append, h48]
      omega
    simp only [body?, ht, LightMode.toByte, if_true, if_pos hlen, List.take_left' h48,
      List.drop_left' h48, Palette.ofBytes_toBytes]
    simp [received, withColours, ofBytes, LightMode.ofByte, LightMode.toByte]
  · have hne : light.toByte ≠ 0x07 := fun he => ((toByte_eq_seven_iff light).1 he).elim hl h
    have ht : trailer ⟨motor, light, m1, m2, m3, colours⟩ = [] := if_neg hl
    simp only [body?, ht, if_neg hne, List.nil_append]
    simp [received, ofBytes, hl]

end Command

namespace Decoder

namespace Phase

/-- A header is found from within any part of another one. -/
theorem exists_pass_header_append (matched : Fin 4) (more : List UInt8) :
    ∃ desyncs, (header matched).pass (OmniDrive.header ++ more) =
      (command.pass more).behind [] desyncs := by
  by_cases hm : matched = 0
  · subst hm
    exact ⟨0, (pass_header_append more).trans (Pass.behind_nil _).symm⟩
  · have hb : 0xDE ≠ OmniDrive.header.get matched := by
      match matched, hm with
      | 1, _ | 2, _ | 3, _ => decide
    have hp := pass_header_cons matched 0xDE (0xAD :: 0xBE :: 0xEF :: more)
    rw [matchHeader_of_ne hm hb, pass_broken] at hp
    refine ⟨1, hp.trans ?_⟩
    exact congrArg (Pass.behind · [] 1) (pass_header_append more)

/-- A frame is taken whole, wherever in a header the bytes before it ended. -/
theorem exists_pass_encode (matched : Fin 4) {c : Command} (h : c.lightMode ≠ .unknown 0x07)
    (more : List UInt8) : ∃ desyncs, (header matched).pass (c.encode ++ more) =
      ((header 0).pass more).behind [c.received] desyncs := by
  have he : c.encode ++ more = OmniDrive.header ++ (c.encode ++ more).drop 4 := rfl
  obtain ⟨desyncs, hp⟩ := exists_pass_header_append matched ((c.encode ++ more).drop 4)
  have hc := pass_command ((c.encode ++ more).drop 4)
  rw [Command.body?_encode h] at hc
  refine ⟨desyncs, ?_⟩
  rw [he, hp, hc, Pass.behind_behind]
  rfl

/-- What is matched of a header is always an end of what has been read. -/
theorem exists_matchHeader_eq (matched : Fin 4) (byte : UInt8)
    (h : ¬ OmniDrive.header <:+: OmniDrive.header.take matched ++ [byte]) :
    ∃ (next : Fin 4) (desync : Bool), matchHeader matched byte = ⟨header next, none, desync⟩ ∧
      OmniDrive.header.take next <:+ OmniDrive.header.take matched ++ [byte] := by
  by_cases hb : byte = OmniDrive.header.get matched
  · subst hb
    match matched with
    | 0 => exact ⟨1, false, rfl, List.suffix_refl _⟩
    | 1 => exact ⟨2, false, rfl, List.suffix_refl _⟩
    | 2 => exact ⟨3, false, rfl, List.suffix_refl _⟩
    | 3 => exact absurd (List.infix_refl _) h
  · have broken : ∃ desync, matchHeader matched byte =
        ⟨header (if byte = 0xDE then 1 else 0), none, desync⟩ := by
      by_cases hm : matched = 0
      · subst hm
        exact ⟨false, rfl⟩
      · exact ⟨true, matchHeader_of_ne hm hb⟩
    obtain ⟨desync, he⟩ := broken
    by_cases first : byte = 0xDE
    · subst first
      exact ⟨1, desync, he, List.suffix_append ..⟩
    · rw [if_neg first] at he
      exact ⟨0, desync, he, List.nil_suffix⟩

/-- Noise completes no command and leaves at most a part of a header matched. -/
theorem exists_pass_noise (matched : Fin 4) (noise : List UInt8)
    (h : ¬ OmniDrive.header <:+: OmniDrive.header.take matched ++ noise) :
    ∃ (after : Fin 4) (desyncs : Nat), ∀ more,
      (header matched).pass (noise ++ more) = ((header after).pass more).behind [] desyncs := by
  induction noise generalizing matched with
  | nil => exact ⟨matched, 0, fun more => (Pass.behind_nil _).symm⟩
  | cons byte noise ih =>
    have hc : OmniDrive.header.take matched ++ byte :: noise =
        OmniDrive.header.take matched ++ [byte] ++ noise := List.append_cons ..
    rw [hc] at h
    obtain ⟨next, desync, he, hs⟩ := exists_matchHeader_eq matched byte fun hi =>
      h (hi.trans (List.prefix_append ..).isInfix)
    obtain ⟨front, hf⟩ := hs
    obtain ⟨after, desyncs, hp⟩ := ih next fun hi => h <| by
      rw [← hf, List.append_assoc]
      exact hi.trans (List.suffix_append ..).isInfix
    refine ⟨after, desync.toNat + desyncs, fun more => ?_⟩
    rw [List.cons_append, pass_header_cons, he, hp more, Pass.behind_behind]
    rfl

/-- A stream of frames among noise is taken to its last byte, and every frame in it is read. -/
theorem exists_pass_amongNoise (matched : Fin 4) (noise : List UInt8)
    (sent : List (Command × List UInt8))
    (hn : ¬ OmniDrive.header <:+: OmniDrive.header.take matched ++ noise)
    (hs : ∀ s ∈ sent, s.1.lightMode ≠ .unknown 0x07 ∧ ¬ OmniDrive.header <:+: s.2) :
    ∃ (after : Fin 4) (desyncs : Nat), (header matched).pass (Command.amongNoise noise sent) =
      ⟨sent.map fun s => s.1.received, desyncs, header after, []⟩ := by
  induction sent generalizing matched noise with
  | nil =>
    obtain ⟨after, desyncs, hp⟩ := exists_pass_noise matched noise hn
    have short : (header after).pass [] = ⟨[], 0, header after, []⟩ :=
      pass_of_short (Nat.zero_lt_succ 0)
    refine ⟨after, desyncs, (hp []).trans ?_⟩
    rw [short]
    rfl
  | cons s sent ih =>
    obtain ⟨hl, hsn⟩ := hs s List.mem_cons_self
    obtain ⟨found, before, hp⟩ := exists_pass_noise matched noise hn
    obtain ⟨broken, hf⟩ := exists_pass_encode found hl (Command.amongNoise s.2 sent)
    obtain ⟨after, desyncs, hr⟩ := ih 0 s.2 hsn fun t ht => hs t (List.mem_cons_of_mem _ ht)
    have split : Command.amongNoise noise (s :: sent) =
        noise ++ (s.1.encode ++ Command.amongNoise s.2 sent) := by
      simp only [Command.amongNoise, List.flatMap_cons, List.append_assoc]
    refine ⟨after, before + (broken + desyncs), ?_⟩
    rw [split, hp, hf, hr]
    rfl

end Phase

/-- However a stream of frames among noise is cut into pieces, whatever a call may consume and
however often the decoder is called, every byte is consumed and the calls complete exactly the
commands that were sent, as they are read from their frames, in order. Only a frame that announces
colours under an unlisted lighting mode is excluded, since it brings none. -/
theorem takeAll_amongNoise (limit : Nat) (noise : List UInt8)
    (sent : List (Command × List UInt8)) (pieces : List Feed.Piece)
    (hn : ¬ header <:+: noise)
    (hs : ∀ s ∈ sent, s.1.lightMode ≠ .unknown 0x07 ∧ ¬ header <:+: s.2)
    (hp : pieces.flatMap Feed.Piece.bytes = Command.amongNoise noise sent) :
    ∃ calls last, Feed.takeAll ⟨ofLimit limit, []⟩ pieces = .ok (calls, last) ∧
      (calls.flatMap fun call => completed call.notices) = (sent.map fun s => s.1.received) ∧
      (∀ call ∈ calls, call.decoded.command = (completed call.notices).getLast?) ∧
      last.held = [] ∧ ∃ matched, last.decoder.phase = .header matched := by
  obtain ⟨calls, last, he, returned, whole⟩ :=
    Feed.takeAll_pass ⟨ofLimit limit, []⟩ (Nat.le_max_right ..) Nat.zero_lt_one pieces
  obtain ⟨after, desyncs, read⟩ := Phase.exists_pass_amongNoise 0 noise sent hn hs
  rw [← hp] at read
  obtain ⟨hc, -, hphase, hheld⟩ := Pass.mk.inj (whole.symm.trans read)
  exact ⟨calls, last, he, hc, returned, hheld, after, hphase⟩

/-- Two frames that carry a header inside, in a command and in colours, with half headers around. -/
def disguised : List (Command × List UInt8) :=
  [(⟨.unknown 0x01, .unknown 0xEF, -34, -83, -66, none⟩, [0xDE, 0xAD, 0xBE]),
    (⟨.exit, .custom, 0, 0, 0, some ((Palette.black.set 3 ⟨0xDE, 0xAD, 0xBE⟩).set 4 ⟨0xEF, 0, 7⟩)⟩,
      [0xDE])]

theorem takeAll_disguised : ¬ header <:+: [0xDE, 0xAD] ∧
    (∀ s ∈ disguised, s.1.lightMode ≠ .unknown 0x07 ∧ ¬ header <:+: s.2) ∧
    ∃ calls last, Feed.takeAll ⟨ofLimit 0, []⟩
        [⟨(Command.amongNoise [0xDE, 0xAD] disguised).take 9, 2⟩,
          ⟨(Command.amongNoise [0xDE, 0xAD] disguised).drop 9, 0⟩] = .ok (calls, last) ∧
      (calls.flatMap fun call => completed call.notices) =
        (disguised.map fun s => s.1.received) ∧ last.held = [] := by
  have hn : ¬ header <:+: [0xDE, 0xAD] := by decide
  have hs : ∀ s ∈ disguised, s.1.lightMode ≠ .unknown 0x07 ∧ ¬ header <:+: s.2 := by decide
  obtain ⟨calls, last, he, hc, -, hh, -⟩ := takeAll_amongNoise 0 [0xDE, 0xAD] disguised
    [⟨(Command.amongNoise [0xDE, 0xAD] disguised).take 9, 2⟩,
      ⟨(Command.amongNoise [0xDE, 0xAD] disguised).drop 9, 0⟩] hn hs (by
        rw [List.flatMap_cons, List.flatMap_singleton, List.take_append_drop])
  exact ⟨hn, hs, calls, last, he, hc, hh⟩

end Decoder

end OmniDrive
