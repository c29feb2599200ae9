import OmniDrive.Proofs.Command.Frames
import OmniDrive.Proofs.Run

/-! What one call of the decoder may do: how much it consumes, where it stops, and what it waits
for or returns. Carried out with machine indices, where a position beyond the input, a chunk of
another length or a full counter would be a fault, a call does the same. -/
namespace OmniDrive

/-- A byte with a meaning of its own is kept as that, never as an unknown one. -/
def MotorMode.IsTold (mode : MotorMode) : Prop :=
  ∀ byte, mode = .unknown byte → ∀ known : MotorMode, known.IsListed → known.toByte ≠ byte

def LightMode.IsTold (mode : LightMode) : Prop :=
  ∀ byte, mode = .unknown byte → ∀ known : LightMode, known.IsListed → known.toByte ≠ byte

theorem MotorMode.isTold_ofByte (byte : UInt8) : (ofByte byte).IsTold := by
  intro unknown he known hk hb
  have same : byte = unknown := by rw [← toByte_ofByte byte, he]; rfl
  rw [same, ← hb, ofByte_toByte hk] at he
  rw [he] at hk
  exact hk

theorem LightMode.isTold_ofByte (byte : UInt8) : (ofByte byte).IsTold := by
  intro unknown he known hk hb
  have same : byte = unknown := by rw [← toByte_ofByte byte, he]; rfl
  rw [same, ← hb, ofByte_toByte hk] at he
  rw [he] at hk
  exact hk

/-- A command as it can come from a frame: colours with custom lighting and only with it, and modes
that are told from their bytes. -/
structure Command.IsFramed (c : Command) : Prop where
  coloured : c.colours.isSome ↔ c.lightMode = .custom
  motor : c.motorMode.IsTold
  light : c.lightMode.IsTold

namespace Decoder

open Act

/-- Colours are awaited for a command with custom lighting that has none yet. -/
def Phase.IsSound : Phase → Prop
  | lights pending => pending.lightMode = .custom ∧ pending.colours = none ∧
      pending.motorMode.IsTold ∧ pending.lightMode.IsTold
  | _ => True

namespace Phase

theorem finishCommand_sound (motor m1 m2 m3 led : UInt8) :
    (finishCommand (.ofBytes motor m1 m2 m3 led)).next.IsSound ∧
      ∀ c ∈ (finishCommand (.ofBytes motor m1 m2 m3 led)).command, c.IsFramed := by
  have motorTold := MotorMode.isTold_ofByte motor
  have lightTold := LightMode.isTold_ofByte led
  unfold finishCommand
  split
  · rename_i custom
    exact ⟨⟨custom, rfl, motorTold, lightTold⟩, fun c hc => nomatch hc⟩
  · rename_i other
    refine ⟨trivial, fun c hc => ?_⟩
    cases Option.mem_some.1 hc
    exact ⟨⟨nofun, fun h => absurd h other⟩, motorTold, lightTold⟩

theorem matchHeader_sound (matched : Fin 4) (byte : UInt8) :
    (matchHeader matched byte).next.IsSound ∧ (matchHeader matched byte).command = none := by
  unfold matchHeader matchHeader.broken
  split <;> (try split) <;> exact ⟨trivial, rfl⟩

/-- From a sound phase a chunk leads to a sound one, and a command that it completes is as in its
frame. -/
theorem IsSound.step {p : Phase} {chunk : List UInt8} {s : Step} (h : p.IsSound)
    (hs : p.step chunk = .ok s) : s.next.IsSound ∧ ∀ c ∈ s.command, c.IsFramed := by
  unfold Phase.step at hs
  split at hs
  · cases hs
    obtain ⟨sound, nothing⟩ := matchHeader_sound ‹Fin 4› ‹UInt8›
    exact ⟨sound, fun c hc => by rw [nothing] at hc; cases hc⟩
  · cases hs
    exact finishCommand_sound ..
  · split at hs
    · cases hs
      obtain ⟨custom, -, motorTold, lightTold⟩ := h
      refine ⟨trivial, fun c hc => ?_⟩
      cases Option.mem_some.1 hc
      exact ⟨⟨fun _ => custom, fun _ => rfl⟩, motorTold, lightTold⟩
    · cases hs
  · cases hs

end Phase

variable {d after : Decoder} {consumed : Nat} {found : Option Command} {rest chunk : List UInt8}
  {notices : List Notice} {decoded : Decoded} {s : Step}

theorem decodeFrom_of_ended (h : d.Ended consumed rest) :
    d.decodeFrom consumed found rest = done [] (d, ⟨found, consumed⟩) := by
  rw [decodeFrom]
  refine if_pos (h.imp_left fun short => ?_)
  rw [List.length_take]
  omega

theorem decodeFrom_append (hl : chunk.length = d.phase.needed)
    (fits : consumed + d.phase.needed ≤ d.limit) (hs : d.phase.step chunk = .ok s) :
    d.decodeFrom consumed found (chunk ++ rest) =
      (done (Decoder.notices s (consumed + d.phase.needed)) () >>= fun _ =>
        (d.advance s).decodeFrom (consumed + d.phase.needed) (s.command <|> found) rest) := by
  have goes_on : ¬ (chunk.length < d.phase.needed ∨ d.limit < consumed + d.phase.needed) := by
    omega
  rw [decodeFrom, List.take_left' hl, List.drop_left' hl, hs]
  simp only [if_neg goes_on, lift_ok, silent_bind]

/-- A call goes chunk by chunk until it has ended. -/
theorem decodeFrom_induction {motive : Decoder → Nat → List UInt8 → Prop}
    (ended : ∀ d consumed rest, d.Ended consumed rest → motive d consumed rest)
    (step : ∀ d consumed chunk rest s, chunk.length = d.phase.needed →
      consumed + d.phase.needed ≤ d.limit → d.phase.step chunk = .ok s →
      motive (d.advance s) (consumed + d.phase.needed) rest → motive d consumed (chunk ++ rest))
    (d : Decoder) (consumed : Nat) (rest : List UInt8) : motive d consumed rest := by
  induction hn : rest.length using Nat.strongRecOn generalizing d consumed rest with
  | _ n ih =>
    subst hn
    by_cases stop : d.Ended consumed rest
    · exact ended d consumed rest stop
    · obtain ⟨long, fits⟩ := not_or.1 stop
      have pos := d.phase.needed_pos
      have hl : (rest.take d.phase.needed).length = d.phase.needed := by
        rw [List.length_take]
        omega
      have shorter : (rest.drop d.phase.needed).length < rest.length := by
        rw [List.length_drop]
        omega
      obtain ⟨s, hs⟩ := Phase.exists_step_eq_ok hl
      rw [← List.take_append_drop d.phase.needed rest]
      exact step d consumed _ _ s hl (by omega) hs (ih _ shorter _ _ _ rfl)

/-- What a step and the rest of its call do, out of what the call does. -/
theorem exists_of_decodeFrom_append (hl : chunk.length = d.phase.needed)
    (fits : consumed + d.phase.needed ≤ d.limit) (hs : d.phase.step chunk = .ok s)
    (h : d.decodeFrom consumed found (chunk ++ rest) = done notices (after, decoded)) :
    ∃ later, notices = Decoder.notices s (consumed + d.phase.needed) ++ later ∧
      (d.advance s).decodeFrom (consumed + d.phase.needed) (s.command <|> found) rest =
        done later (after, decoded) := by
  rw [decodeFrom_append hl fits hs] at h
  obtain ⟨first, _, later, hfirst, hlater, he⟩ := exists_of_bind_eq_done h
  cases hfirst
  exact ⟨later, he, hlater⟩

/-- A call keeps its phase sound and completes commands as they are framed only. -/
theorem sound_of_decodeFrom (h : d.decodeFrom consumed found rest = done notices (after, decoded))
    (sound : d.phase.IsSound) : after.phase.IsSound ∧ ∀ c ∈ completed notices, c.IsFramed := by
  induction d, consumed, rest using decodeFrom_induction generalizing notices found with
  | ended d consumed rest stop =>
    cases (decodeFrom_of_ended stop).symm.trans h
    exact ⟨sound, fun c hc => nomatch hc⟩
  | step d consumed chunk rest s hl fits hs ih =>
    obtain ⟨later, rfl, hlater⟩ := exists_of_decodeFrom_append hl fits hs h
    obtain ⟨next, framed⟩ := sound.step hs
    obtain ⟨last, others⟩ := ih hlater next
    refine ⟨last, fun c hc => ?_⟩
    rw [completed_append, completed_notices] at hc
    exact (List.mem_append.1 hc).elim (fun here => framed c (Option.mem_toList.1 here)) (others c)

theorem le_limit_of_decodeFrom
    (h : d.decodeFrom consumed found rest = done notices (after, decoded))
    (within : consumed ≤ d.limit) : decoded.consumed ≤ d.limit := by
  induction d, consumed, rest using decodeFrom_induction generalizing notices found with
  | ended d consumed rest stop =>
    cases (decodeFrom_of_ended stop).symm.trans h
    exact within
  | step d consumed chunk rest s hl fits hs ih =>
    obtain ⟨later, rfl, hlater⟩ := exists_of_decodeFrom_append hl fits hs h
    exact ih hlater fits

/-- A call that has enough for its phase takes at least one chunk. -/
theorem consumed_pos (h : d.decode rest = done notices (after, decoded))
    (enough : d.phase.needed ≤ rest.length) (fits : d.phase.needed ≤ d.limit) :
    0 < decoded.consumed := by
  have hl : (rest.take d.phase.needed).length = d.phase.needed := List.length_take_of_le enough
  obtain ⟨s, hs⟩ := Phase.exists_step_eq_ok hl
  rw [decode, ← List.take_append_drop d.phase.needed rest] at h
  obtain ⟨later, -, hlater⟩ :=
    exists_of_decodeFrom_append hl (Nat.le_trans (Nat.le_of_eq (Nat.zero_add _)) fits) hs h
  obtain ⟨_, _, taken, he, -⟩ := (d.advance s).decodeFrom_done (0 + d.phase.needed)
    (s.command <|> none) (rest.drop d.phase.needed)
  cases he.symm.trans hlater
  have pos := d.phase.needed_pos
  simp only
  omega

/-- The bytes of the input between two positions, refused unless they lie in the input in order. -/
def slice (input : List UInt8) (first last : Nat) : Except Fault (List UInt8) :=
  if first ≤ last ∧ last ≤ input.length then .ok ((input.take last).drop first) else .error .range

theorem slice_length_append (front chunk back : List UInt8) :
    slice (front ++ chunk ++ back) front.length (front.length + chunk.length) = .ok chunk := by
  have ordered : front.length ≤ front.length + chunk.length ∧
      front.length + chunk.length ≤ (front ++ chunk ++ back).length := by
    simp only [List.length_append]
    omega
  rw [slice, if_pos ordered, ← List.length_append, List.take_left, List.drop_left]

/-- A call with machine indices into the whole input. It faults where what is left would be
negative, where a slice is out of range, where a chunk has another length than its phase takes, and
where the count of the headers given up leaves its word. -/
def decodeAt (d : Decoder) (input : List UInt8) (consumed : Nat) (found : Option Command) :
    Act Notice (Decoder × Decoded) :=
  if input.length < consumed then fault .overflow
  else if input.length - consumed < d.phase.needed ∨ d.limit < consumed + d.phase.needed then
    pure (d, ⟨found, consumed⟩)
  else do
    let position := consumed + d.phase.needed
    let chunk ← slice input consumed position
    let s ← d.phase.step chunk
    let desyncs ← Word.uint64.count (d.desyncs + s.desync.toNat)
    Act.done (Decoder.notices s position) ()
    decodeAt { d with phase := s.next, desyncs } input position (s.command <|> found)
termination_by input.length - consumed
decreasing_by
  have := d.phase.needed_pos
  omega

def decodeChecked (d : Decoder) (input : List UInt8) : Act Notice (Decoder × Decoded) :=
  d.decodeAt input 0 none

/-- A call never lowers the count of its desyncs. -/
theorem desyncs_le_of_decodeFrom
    (h : d.decodeFrom consumed found rest = done notices (after, decoded)) :
    d.desyncs ≤ after.desyncs := by
  obtain ⟨_, _, _, he, went, -⟩ := d.decodeFrom_done consumed found rest
  cases he.symm.trans h
  exact went.desyncs

/-- What is no greater than a count that fits its word fits as well. -/
theorem holds_of_le {least greatest : Nat} (h : least ≤ greatest)
    (hg : Word.uint64.Holds greatest) : Word.uint64.Holds least :=
  ⟨Int.natCast_nonneg least, Int.le_trans (Int.ofNat_le.2 h) hg.2⟩

/-- With indices a call does the same, as long as the count of its desyncs fits. -/
theorem decodeAt_eq (front : List UInt8) (hf : front.length = consumed)
    (h : d.decodeFrom consumed found rest = done notices (after, decoded))
    (countable : Word.uint64.Holds after.desyncs) :
    d.decodeAt (front ++ rest) consumed found = done notices (after, decoded) := by
  induction d, consumed, rest using decodeFrom_induction generalizing notices found front with
  | ended d consumed rest stop =>
    have inside : ¬ (front ++ rest).length < consumed := by
      rw [List.length_append]
      omega
    have left : (front ++ rest).length - consumed = rest.length := by
      rw [List.length_append]
      omega
    cases (decodeFrom_of_ended stop).symm.trans h
    rw [decodeAt, if_neg inside, left]
    exact if_pos stop
  | step d consumed chunk rest s hl fits hs ih =>
    obtain ⟨later, rfl, hlater⟩ := exists_of_decodeFrom_append hl fits hs h
    have inside : ¬ (front ++ (chunk ++ rest)).length < consumed := by
      rw [List.length_append]
      omega
    have goes_on : ¬ ((front ++ (chunk ++ rest)).length - consumed < d.phase.needed ∨
        d.limit < consumed + d.phase.needed) := by
      simp only [List.length_append]
      omega
    have sliced : slice (front ++ (chunk ++ rest)) consumed (consumed + d.phase.needed) =
        .ok chunk := by
      rw [← hf, ← hl, ← List.append_assoc]
      exact slice_length_append ..
    have counted : Word.uint64.count (d.desyncs + s.desync.toNat) =
        .ok (d.desyncs + s.desync.toNat) :=
      Word.count_eq_ok (holds_of_le (desyncs_le_of_decodeFrom hlater) countable)
    have reached : (front ++ chunk).length = consumed + d.phase.needed := by
      rw [List.length_append, hf, hl]
    have behind := ih (front ++ chunk) reached hlater
    rw [List.append_assoc] at behind
    rw [decodeAt, if_neg inside, if_neg goes_on]
    simp only [sliced, hs, counted, lift_ok, silent_bind]
    exact bind_eq_done rfl behind

theorem decodeChecked_eq (h : d.decode rest = done notices (after, decoded))
    (countable : Word.uint64.Holds after.desyncs) :
    d.decodeChecked rest = done notices (after, decoded) :=
  decodeAt_eq [] rfl h countable

/-- A run of calls never lowers the count either. -/
theorem desyncs_le_of_run {inputs : List (List UInt8)}
    {moments : List (Moment Decoder (List UInt8) Notice Decoded)} {last : Decoder}
    (h : run decode d inputs = .ok (moments, last)) : d.desyncs ≤ last.desyncs := by
  induction inputs generalizing d moments with
  | nil =>
    cases h
    exact Nat.le_refl _
  | cons input inputs ih =>
    obtain ⟨⟨events, after, decoded⟩, hp, h⟩ := Word.bind_eq_ok h
    obtain ⟨⟨later, final⟩, hr, h⟩ := Word.bind_eq_ok h
    cases h
    exact Nat.le_trans (desyncs_le_of_decodeFrom hp) (ih hr)

theorem run_decodeChecked {inputs : List (List UInt8)}
    {moments : List (Moment Decoder (List UInt8) Notice Decoded)} {last : Decoder}
    (h : run decode d inputs = .ok (moments, last)) (countable : Word.uint64.Holds last.desyncs) :
    run decodeChecked d inputs = .ok (moments, last) := by
  induction inputs generalizing d moments with
  | nil => exact h
  | cons input inputs ih =>
    obtain ⟨⟨events, after, decoded⟩, hp, h⟩ := Word.bind_eq_ok h
    obtain ⟨⟨later, final⟩, hr, h⟩ := Word.bind_eq_ok h
    cases h
    have fits := holds_of_le (desyncs_le_of_run hr) countable
    exact run_cons (decodeChecked_eq hp fits) (ih hr)

/-- What a call of a decoder with this limit keeps to. Of the commands that it completes it returns
the last one. -/
structure Bounded (limit : Nat) (m : Moment Decoder (List UInt8) Notice Decoded) : Prop where
  within : m.result.consumed ≤ min m.operation.length (max limit 48)
  stop : m.operation.length - m.result.consumed < m.after.phase.needed ∨
    max limit 48 < m.result.consumed + m.after.phase.needed
  progress : m.before.phase.needed ≤ m.operation.length → 1 ≤ m.result.consumed
  waiting : m.after.phase.IsSound
  framed : ∀ c ∈ completed m.events, c.IsFramed
  returned : ∀ c ∈ m.result.command, c.IsFramed

/-- What a decoder with this limit is after its calls. -/
structure Kept (limit : Nat) (past : List (Moment Decoder (List UInt8) Notice Decoded))
    (d : Decoder) : Prop where
  limit_eq : d.limit = max limit 48
  sound : d.phase.IsSound
  bounded : ∀ m ∈ past, Bounded limit m

theorem Kept.step {limit : Nat} (past : List (Moment Decoder (List UInt8) Notice Decoded))
    (d : Decoder) (input : List UInt8) (h : Kept limit past d) : ∃ notices decoded after,
      d.decode input = done notices (after, decoded) ∧
        Kept limit (past ++ [⟨d, input, notices, decoded, after⟩]) after := by
  obtain ⟨notices, after, taken, he, went, ended⟩ := d.decode_done input
  have limit_eq : after.limit = max limit 48 := went.limit.trans h.limit_eq
  have fits : d.phase.needed ≤ d.limit :=
    h.limit_eq ▸ Nat.le_trans d.phase.needed_le (Nat.le_max_right ..)
  obtain ⟨sound, framed⟩ := sound_of_decodeFrom he h.sound
  have limited : taken ≤ max limit 48 :=
    h.limit_eq ▸ le_limit_of_decodeFrom he (Nat.zero_le _)
  rw [Ended, List.length_drop, limit_eq] at ended
  have here : Bounded limit ⟨d, input, notices, ⟨(completed notices).getLast?, taken⟩, after⟩ :=
    ⟨Nat.le_min.2 ⟨went.within, limited⟩, ended, fun enough => consumed_pos he enough fits, sound,
      framed, fun c hc => framed c (List.mem_of_getLast? hc)⟩
  refine ⟨notices, _, after, he, limit_eq, sound, fun m hm => ?_⟩
  exact (List.mem_append.1 hm).elim (h.bounded m) fun hm => List.mem_singleton.1 hm ▸ here

/-- Whatever was handed in before, a call completes within its bound, stops only where the rest is
too short or the bound forbids more, takes something where there is enough, and returns commands as
they are framed. No index, chunk or count faults until the desyncs leave their word. -/
theorem decode_bounded (limit : Nat) (inputs : List (List UInt8)) : ∃ moments last,
    run decode (ofLimit limit) inputs = .ok (moments, last) ∧
      moments.map Moment.operation = inputs ∧
      (∀ m ∈ moments, Bounded limit m) ∧
      (Word.uint64.Holds last.desyncs →
        run decodeChecked (ofLimit limit) inputs = .ok (moments, last)) := by
  have fresh : Kept limit [] (ofLimit limit) :=
    ⟨rfl, trivial, fun _ hm => absurd hm List.not_mem_nil⟩
  obtain ⟨moments, last, hr, ho, kept, -⟩ := run_keeps Kept.step inputs [] (ofLimit limit) fresh
  exact ⟨moments, last, hr, ho, kept.bounded, run_decodeChecked hr⟩

end Decoder

end OmniDrive
