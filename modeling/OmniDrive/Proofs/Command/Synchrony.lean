import OmniDrive.Proofs.Command.Frames

/-! How a decoder finds back into a stream of frames. A stale phase swallows at most a command and
the sixteen colours it seems to announce. A stale part of a header costs less: if the stream
completes it, the command read behind it announces no colours. -/
namespace OmniDrive

namespace Command

/-- No command that is read behind the last byte of a header announces colours. -/
def Unlit (stream : List UInt8) : Prop :=
  ∀ i : Nat, stream[i]? = some 0xEF → stream[i + 5]? ≠ some 0x07

theorem Unlit.drop {stream : List UInt8} (h : Unlit stream) (n : Nat) : Unlit (stream.drop n) := by
  intro i hi
  rw [List.getElem?_drop] at hi ⊢
  rw [← Nat.add_assoc]
  exact h (n + i) hi

theorem getElem?_frames_ne {sent : List Command} (h : ∀ c ∈ sent, c.IsPlain) (i : Fin 4) :
    (sent.flatMap encode)[i.val]? ≠ some 0x07 := by
  cases sent with
  | nil => exact nofun
  | cons c sent =>
    rw [List.flatMap_cons, (h c List.mem_cons_self).encode_eq]
    match i with
    | 0 | 1 | 2 | 3 => exact fun he => absurd (Option.some.inj he) (by decide)

/-- Five bytes behind such a byte there is a lighting mode or the rest of a header. -/
theorem unlit_frames {sent : List Command} (h : ∀ c ∈ sent, c.IsPlain) :
    Unlit (sent.flatMap encode) := by
  induction sent with
  | nil => exact fun i hi => nomatch hi
  | cons c sent ih =>
    have hc := h c List.mem_cons_self
    have hs : ∀ d ∈ sent, d.IsPlain := fun d hd => h d (List.mem_cons_of_mem c hd)
    have hm : c.motorMode.toByte ≠ 0xEF :=
      (ne_of_mem_header (by decide) (MotorMode.toByte_lt hc.motor)).symm
    have hl : c.lightMode.toByte ≠ 0xEF :=
      (ne_of_mem_header (by decide) (LightMode.toByte_lt hc.light)).symm
    have h7 : c.lightMode.toByte ≠ 0x07 := fun he =>
      ((toByte_eq_seven_iff _).1 he).elim hc.uncoloured (hc.ne_unknown 0x07)
    intro i hi
    rw [List.flatMap_cons, hc.encode_eq] at hi ⊢
    match i with
    | 0 | 1 | 2 => exact absurd (Option.some.inj hi) (by decide)
    | 3 => exact fun he => h7 (Option.some.inj he)
    | 4 => exact absurd (Option.some.inj hi) hm
    | 5 => exact getElem?_frames_ne hs 1
    | 6 => exact getElem?_frames_ne hs 2
    | 7 => exact getElem?_frames_ne hs 3
    | 8 => exact absurd (Option.some.inj hi) hl
    | i + 9 => exact ih hs i hi

end Command

namespace Decoder.Phase

/-- Whatever follows the first `reach` bytes of the stream, at some place among them the decoder is
between two commands, with the `stale` ones completed. -/
def Settles (p : Phase) (held stream : List UInt8) (reach : Nat) : Prop :=
  ∃ n ≤ reach, ∃ stale, ∀ other, other.take reach = stream.take reach →
    (p.pass (held ++ other)).commands = stale ++ Command.allIn (other.drop n)

variable {p : Phase} {held stream : List UInt8} {reach : Nat}

theorem Settles.mono {further : Nat} (h : p.Settles held stream reach) (hr : reach ≤ further) :
    p.Settles held stream further := by
  obtain ⟨n, hn, stale, hs⟩ := h
  refine ⟨n, Nat.le_trans hn hr, stale, fun other ho => hs other ?_⟩
  have ht := congrArg (List.take reach) ho
  rwa [List.take_take, List.take_take, Nat.min_eq_left hr] at ht

theorem settles_between (stream : List UInt8) : (header 0).Settles [] stream 0 :=
  ⟨0, Nat.le_refl 0, [], fun other _ => (finds other).commands⟩

/-- A stream that ends before the phase has its bytes completes nothing. -/
theorem settles_of_short (hl : (held ++ stream).length < p.needed) (hr : stream.length < reach) :
    p.Settles held stream reach := by
  refine ⟨stream.length, Nat.le_of_lt hr, [], fun other ho => ?_⟩
  have he : other = stream := by
    rw [List.take_of_length_le (Nat.le_of_lt hr)] at ho
    rw [← ho]
    refine (List.take_of_length_le ?_).symm
    have := congrArg List.length ho
    rw [List.length_take] at this
    omega
  rw [he, pass_of_short hl, List.drop_length, Command.allIn_nil]
  rfl

/-- A step first, and what is known of the stream behind its chunk. -/
theorem Settles.step {front rest : List UInt8} {s : Step}
    (hl : (held ++ front).length = p.needed) (hs : p.step (held ++ front) = .ok s)
    (h : s.next.Settles [] rest reach) : p.Settles held (front ++ rest) (front.length + reach) := by
  obtain ⟨n, hn, stale, hc⟩ := h
  refine ⟨front.length + n, Nat.add_le_add_left hn _, s.command.toList ++ stale, fun other ho => ?_⟩
  have hf : other.take front.length = front := by
    have ht := congrArg (List.take front.length) ho
    rwa [List.take_take, List.take_take, Nat.min_eq_left (Nat.le_add_right ..),
      List.take_left] at ht
  have hd : (other.drop front.length).take reach = rest.take reach := by
    have ht := congrArg (List.drop front.length) ho
    rwa [List.drop_take, List.drop_take, Nat.add_sub_cancel_left, List.drop_left] at ht
  have hp := pass_append (held ++ front) hl hs (other.drop front.length)
  have he : front ++ other.drop front.length = other :=
    (congrArg (· ++ _) hf.symm).trans (List.take_append_drop ..)
  rw [List.append_assoc, he] at hp
  rw [hp, ← List.drop_drop, List.append_assoc, ← hc _ hd]
  rfl

theorem settles_lights (pending : Command) (stream : List UInt8) (h : held.length < 48) :
    (lights pending).Settles held stream 48 := by
  by_cases short : stream.length < 48 - held.length
  · refine settles_of_short ?_ (by omega)
    rw [List.length_append]
    change _ < 48
    omega
  · have hl : (held ++ stream.take (48 - held.length)).length = 48 := by
      rw [List.length_append, List.length_take]
      omega
    have hs := Settles.step (p := lights pending) hl (if_pos hl)
      (settles_between (stream.drop (48 - held.length)))
    rw [List.take_append_drop] at hs
    refine hs.mono ?_
    rw [List.length_take]
    omega

theorem step_command {chunk : List UInt8} (h : chunk.length = 5) :
    ∃ c, command.step chunk = .ok (finishCommand c) ∧
      (c.lightMode = .custom ↔ chunk[4]? = some 0x07) := by
  match chunk, h with
  | [motor, m1, m2, m3, led], _ =>
    refine ⟨.ofBytes motor m1 m2 m3 led, rfl, ?_⟩
    exact (ofByte_eq_custom_iff led).trans (Option.some_inj).symm

theorem settles_command (stream : List UInt8) (h : held.length < 5) :
    command.Settles held stream 53 := by
  by_cases short : stream.length < 5 - held.length
  · refine settles_of_short ?_ (by omega)
    rw [List.length_append]
    change _ < 5
    omega
  · have hl : (held ++ stream.take (5 - held.length)).length = 5 := by
      rw [List.length_append, List.length_take]
      omega
    obtain ⟨c, hc, -⟩ := step_command hl
    have hn : (finishCommand c).next.Settles [] (stream.drop (5 - held.length)) 48 := by
      unfold finishCommand
      split
      · exact settles_lights c _ (by decide)
      · exact (settles_between _).mono (by decide)
    have hs := Settles.step (p := command) hl hc hn
    rw [List.take_append_drop] at hs
    refine hs.mono ?_
    rw [List.length_take]
    omega

/-- A command that announces no colours is over after its five bytes. -/
theorem settles_command_of_unlit (h : stream[4]? ≠ some 0x07) : command.Settles [] stream 5 := by
  by_cases short : stream.length < 5
  · exact settles_of_short short short
  · have hl : ([] ++ stream.take 5).length = 5 := by
      rw [List.nil_append, List.length_take]
      omega
    obtain ⟨c, hc, hm⟩ := step_command hl
    rw [List.nil_append, List.getElem?_take_of_lt (by decide)] at hm
    have hf : finishCommand c = ⟨header 0, some c, false⟩ := if_neg fun hx => h (hm.1 hx)
    rw [hf] at hc
    have hs := Settles.step (p := command) hl hc (settles_between (stream.drop 5))
    rw [List.take_append_drop] at hs
    refine hs.mono ?_
    rw [List.length_take]
    omega

/-- A byte either continues a header or is looked at once more, as the first of one. -/
theorem settles_matched (matched : Fin 4) (hm : matched ≠ 0)
    (h : ∀ rest, stream = OmniDrive.header.get matched :: rest →
      (matchHeader matched (OmniDrive.header.get matched)).next.Settles [] rest reach) :
    (header matched).Settles [] stream (1 + reach) := by
  cases stream with
  | nil => exact settles_of_short (Nat.zero_lt_succ 0) (by rw [List.length_nil]; omega)
  | cons byte rest =>
    by_cases hb : byte = OmniDrive.header.get matched
    · subst hb
      have hs : (header matched).Settles [] ([OmniDrive.header.get matched] ++ rest) (1 + reach) :=
        Settles.step rfl rfl (h rest rfl)
      exact hs
    · refine ⟨0, Nat.zero_le _, [], fun other ho => ?_⟩
      rw [Nat.add_comm, List.take_succ_cons] at ho
      cases other with
      | nil => cases ho
      | cons first more =>
        rw [List.take_succ_cons] at ho
        obtain ⟨rfl, -⟩ := List.cons.inj ho
        rw [List.nil_append, pass_header_cons, matchHeader_of_ne hm hb, pass_broken]
        exact (finds _).commands

theorem settles_header (matched : Fin 4) (h : Command.Unlit stream) :
    (header matched).Settles [] stream 8 := by
  have last {s : List UInt8} (hs : Command.Unlit s) : (header 3).Settles [] s 6 := by
    refine settles_matched 3 (by decide) fun rest he => settles_command_of_unlit ?_
    have := hs 0
    rw [he] at this
    exact this rfl
  have third {s : List UInt8} (hs : Command.Unlit s) : (header 2).Settles [] s 7 := by
    refine settles_matched 2 (by decide) fun rest he => last ?_
    rw [he] at hs
    exact hs.drop 1
  match matched with
  | 0 => exact (settles_between stream).mono (by decide)
  | 1 =>
    refine settles_matched 1 (by decide) fun rest he => third ?_
    rw [he] at h
    exact h.drop 1
  | 2 => exact (third h).mono (by decide)
  | 3 => exact (last h).mono (by decide)

/-- From any phase, with any bytes still held, the decoder is between two commands at some place
among the first fifty-three bytes. -/
theorem settles (p : Phase) (hh : held.length < p.needed) (hu : Command.Unlit stream) :
    p.Settles held stream 53 := by
  cases p with
  | header matched =>
    obtain rfl := List.eq_nil_of_length_eq_zero (Nat.lt_one_iff.1 hh)
    exact (settles_header matched hu).mono (by decide)
  | command => exact settles_command stream hh
  | lights pending => exact (settles_lights pending stream hh).mono (by decide)

end Decoder.Phase

namespace Decoder

/-- Whatever phase a decoder is in and whatever bytes are held for it, it finds back into a stream
of plain frames that begins in the middle of one. What it completes are some `stale` commands, all
of them within the first fifty-three bytes of the stream, and then the last frames of the stream in
order, among them every one that begins behind those bytes. -/
theorem takeAll_synchronises (f : Feed) (hl : 48 ≤ f.decoder.limit) (hf : f.Drained)
    (sent : List Command) (hs : ∀ c ∈ sent, c.IsPlain) (cut : Nat) (pieces : List Feed.Piece)
    (hp : pieces.flatMap Feed.Piece.bytes = (sent.flatMap Command.encode).drop cut) :
    ∃ calls last stale synced early between, f.takeAll pieces = .ok (calls, last) ∧
      (∀ call ∈ calls, call.decoded.command = (completed call.notices).getLast?) ∧
      (calls.flatMap fun call => completed call.notices) = stale ++ synced.map Command.bare ∧
      f.takeAll [⟨(pieces.flatMap Feed.Piece.bytes).take 53, 0⟩] = .ok (early, between) ∧
      (stale <+: early.flatMap fun call => completed call.notices) ∧
      synced <:+ sent ∧
      ∀ front back, sent = front ++ back → cut + 53 ≤ (front.flatMap Command.encode).length →
        back <:+ synced := by
  obtain ⟨calls, last, he, returned, whole⟩ := f.takeAll_pass hl hf pieces
  obtain ⟨early, between, he', -, first⟩ :=
    f.takeAll_pass hl hf [⟨(pieces.flatMap Feed.Piece.bytes).take 53, 0⟩]
  rw [List.flatMap_singleton] at first
  have hu : Command.Unlit (pieces.flatMap Feed.Piece.bytes) := by
    rw [hp]
    exact (Command.unlit_frames hs).drop cut
  obtain ⟨n, hn, stale, settled⟩ := f.decoder.phase.settles hf hu
  have hc := settled _ rfl
  have hc' := settled ((pieces.flatMap Feed.Piece.bytes).take 53) (by rw [List.take_take, Nat.min_self])
  rw [whole, hp, List.drop_drop, Command.allIn_drop_frames hs] at hc
  rw [first] at hc'
  refine ⟨calls, last, stale, _, early, between, he, returned, hc, he', ⟨_, hc'.symm⟩,
    List.drop_suffix .., fun front back hsplit hfar => ?_⟩
  have hlen := Command.length_frames fun c hc => hs c (hsplit ▸ List.mem_append_left back hc)
  have hback : back = sent.drop front.length := by rw [hsplit, List.drop_left]
  rw [hback]
  exact List.drop_suffix_drop_left sent (by omega)

/-- Eight frames that read as colours once a header of theirs is taken for a command. -/
def luring : List Command :=
  (List.range 8).map fun i => ⟨.wheelSpace, .clear, 7, Int8.ofNat i, 0, none⟩

theorem takeAll_luring :
    48 ≤ usualLimit ∧ Feed.Drained ⟨⟨.command, usualLimit, 0⟩, []⟩ ∧ (∀ c ∈ luring, c.IsPlain) ∧
      ∃ calls last stale, Feed.takeAll ⟨⟨.command, usualLimit, 0⟩, []⟩
          [⟨(luring.flatMap Command.encode).drop 1, 0⟩] = .ok (calls, last) ∧
        (calls.flatMap fun call => completed call.notices) = stale ++ luring.drop 6 := by
  have hl : 48 ≤ usualLimit := by decide
  have hf : Feed.Drained ⟨⟨.command, usualLimit, 0⟩, []⟩ := Nat.zero_lt_succ 4
  have hs : ∀ c ∈ luring, c.IsPlain := by decide
  obtain ⟨calls, last, stale, synced, _, _, he, -, hc, -, -, -, hb⟩ :=
    takeAll_synchronises ⟨⟨.command, usualLimit, 0⟩, []⟩ hl hf luring hs 1
      [⟨(luring.flatMap Command.encode).drop 1, 0⟩] (List.flatMap_singleton ..)
  obtain ⟨more, hm⟩ := hb (luring.take 6) (luring.drop 6) (List.take_append_drop ..).symm (by decide)
  have hbare : (luring.drop 6).map Command.bare = luring.drop 6 := by decide
  rw [← hm, List.map_append, hbare, ← List.append_assoc] at hc
  exact ⟨hl, hf, hs, calls, last, _, he, hc⟩

end Decoder

end OmniDrive
