import OmniDrive.Proofs.Command.Pass

/-! Feeding a decoder piece by piece. However a stream is cut, whatever a call may consume and
however often the decoder is called, it completes the commands of the stream and ends where one
uninterrupted pass ends. -/
namespace OmniDrive.Decoder

/-- The commands that were completed, by the notices about them. -/
def completed (notices : List Notice) : List Command :=
  notices.filterMap fun
    | .commandDecoded c => some c
    | _ => none

theorem completed_append (front back : List Notice) :
    completed (front ++ back) = completed front ++ completed back := List.filterMap_append

theorem completed_notices (s : Step) (position : Nat) :
    completed (notices s position) = s.command.toList := by
  unfold notices completed
  rw [List.filterMap_append]
  cases s.desync <;> cases s.command <;> rfl

/-- What a call that has consumed `taken` bytes of its input did to the decoder. -/
structure Went (d : Decoder) (input : List UInt8) (taken : Nat) (notices : List Notice)
    (after : Decoder) : Prop where
  limit : after.limit = d.limit
  within : taken ≤ input.length
  desyncs : d.desyncs ≤ after.desyncs
  pass (more : List UInt8) : d.phase.pass (input ++ more) =
    (after.phase.pass (input.drop taken ++ more)).behind (completed notices)
      (after.desyncs - d.desyncs)

theorem Went.none (d : Decoder) (input : List UInt8) : d.Went input 0 [] d where
  limit := rfl
  within := Nat.zero_le _
  desyncs := Nat.le_refl _
  pass more := by rw [Nat.sub_self, List.drop_zero]; exact (Pass.behind_nil _).symm

/-- A step before a call. -/
theorem Went.step {d after : Decoder} {chunk rest : List UInt8} {s : Step} {taken : Nat}
    {later : List Notice} (hl : chunk.length = d.phase.needed) (hs : d.phase.step chunk = .ok s)
    (h : (d.advance s).Went rest taken later after) (position : Nat) :
    d.Went (chunk ++ rest) (d.phase.needed + taken) (notices s position ++ later) after where
  limit := h.limit
  within := by
    have := h.within
    rw [List.length_append]
    omega
  desyncs := Nat.le_trans (Nat.le_add_right ..) h.desyncs
  pass more := by
    have hd : d.desyncs + s.desync.toNat ≤ after.desyncs := h.desyncs
    have hsum : s.desync.toNat + (after.desyncs - (d.desyncs + s.desync.toNat)) =
        after.desyncs - d.desyncs := by omega
    have hp : s.next.pass (rest ++ more) = (after.phase.pass (rest.drop taken ++ more)).behind
        (completed later) (after.desyncs - (d.desyncs + s.desync.toNat)) := h.pass more
    rw [List.append_assoc, Phase.pass_append chunk hl hs, hp, Pass.behind_behind, hsum,
      completed_append, completed_notices, ← hl, List.drop_length_add_append]

/-- A call ends where the rest is too short for the phase or the limit forbids its chunk. -/
def Ended (d : Decoder) (consumed : Nat) (rest : List UInt8) : Prop :=
  rest.length < d.phase.needed ∨ d.limit < consumed + d.phase.needed

/-- A call always completes; it returns the last command that it completed. -/
theorem decodeFrom_done (d : Decoder) (consumed : Nat) (found : Option Command)
    (rest : List UInt8) : ∃ notices after taken,
      d.decodeFrom consumed found rest =
        Act.done notices (after, ⟨(completed notices).getLast?.or found, consumed + taken⟩) ∧
      d.Went rest taken notices after ∧ after.Ended (consumed + taken) (rest.drop taken) := by
  induction hn : rest.length using Nat.strongRecOn generalizing d consumed found rest with
  | _ n ih =>
    subst hn
    rw [decodeFrom]
    by_cases hstop : (rest.take d.phase.needed).length < d.phase.needed ∨
        d.limit < consumed + d.phase.needed
    · refine ⟨[], d, 0, if_pos hstop, .none d rest, ?_⟩
      rw [List.length_take] at hstop
      rw [List.drop_zero]
      exact hstop.imp (by omega) id
    · obtain ⟨hlong, hfit⟩ := not_or.1 hstop
      have hpos := d.phase.needed_pos
      have hl : (rest.take d.phase.needed).length = d.phase.needed := by
        rw [List.length_take] at hlong ⊢
        omega
      obtain ⟨s, hs⟩ := Phase.exists_step_eq_ok hl
      have hlt : (rest.drop d.phase.needed).length < rest.length := by
        rw [List.length_drop]
        rw [List.length_take] at hlong
        omega
      obtain ⟨later, after, taken, he, hw, hend⟩ := ih _ hlt (d.advance s)
        (consumed + d.phase.needed) (s.command <|> found) (rest.drop d.phase.needed) rfl
      have hw' := hw.step hl hs (consumed + d.phase.needed)
      rw [List.take_append_drop] at hw'
      refine ⟨_, after, d.phase.needed + taken, ?_, hw', ?_⟩
      · have hc : (completed (notices s (consumed + d.phase.needed) ++ later)).getLast?.or found =
            (completed later).getLast?.or (s.command <|> found) := by
          rw [completed_append, completed_notices, List.getLast?_append, Option.or_assoc]
          cases s.command <;> rfl
        simp only [if_neg hstop, hs, Act.lift_ok, Act.silent_bind]
        rw [hc, ← Nat.add_assoc]
        exact Act.bind_eq_done rfl he
      · rw [← Nat.add_assoc, ← List.drop_drop]
        exact hend

theorem decode_done (d : Decoder) (input : List UInt8) : ∃ notices after taken,
    d.decode input = Act.done notices (after, ⟨(completed notices).getLast?, taken⟩) ∧
      d.Went input taken notices after ∧ after.Ended taken (input.drop taken) := by
  obtain ⟨notices, after, taken, he, hw, hend⟩ := d.decodeFrom_done 0 none input
  rw [Nat.zero_add, Option.or_none] at he
  rw [Nat.zero_add] at hend
  exact ⟨notices, after, taken, he, hw, hend⟩

/-- A call of the decoder: what it logged and what it returned. -/
structure Call where
  notices : List Notice
  decoded : Decoded

/-- A decoder with the bytes that were handed in and not yet consumed. -/
structure Feed where
  decoder : Decoder
  held : List UInt8

namespace Feed

/-- Call the decoder once and drop what it consumed. -/
def call (f : Feed) : Except Fault (Call × Feed) := do
  let (notices, decoder, decoded) ← (f.decoder.decode f.held).outcome
  return (⟨notices, decoded⟩, ⟨decoder, f.held.drop decoded.consumed⟩)

/-- What a stretch of calls did, with the bytes that were appended in its course. -/
structure Took (f : Feed) (appended : List UInt8) (calls : List Call) (last : Feed) : Prop where
  limit : last.decoder.limit = f.decoder.limit
  desyncs : f.decoder.desyncs ≤ last.decoder.desyncs
  returned : ∀ call ∈ calls, call.decoded.command = (completed call.notices).getLast?
  pass (more : List UInt8) : f.decoder.phase.pass (f.held ++ appended ++ more) =
    (last.decoder.phase.pass (last.held ++ more)).behind
      (calls.flatMap fun call => completed call.notices)
      (last.decoder.desyncs - f.decoder.desyncs)

theorem Took.nothing (f : Feed) : f.Took [] [] f where
  limit := rfl
  desyncs := Nat.le_refl _
  returned := fun _ h => absurd h List.not_mem_nil
  pass more := by rw [List.append_nil, Nat.sub_self]; exact (Pass.behind_nil _).symm

theorem Took.append (f : Feed) (bytes : List UInt8) :
    f.Took bytes [] { f with held := f.held ++ bytes } where
  limit := rfl
  desyncs := Nat.le_refl _
  returned := fun _ h => absurd h List.not_mem_nil
  pass more := by rw [Nat.sub_self]; exact (Pass.behind_nil _).symm

theorem Took.trans {f g h : Feed} {bytes bytes' : List UInt8} {calls calls' : List Call}
    (first : f.Took bytes calls g) (second : g.Took bytes' calls' h) :
    f.Took (bytes ++ bytes') (calls ++ calls') h where
  limit := second.limit.trans first.limit
  desyncs := Nat.le_trans first.desyncs second.desyncs
  returned := fun call hc => (List.mem_append.1 hc).elim (first.returned call) (second.returned call)
  pass more := by
    have h1 := first.desyncs
    have h2 := second.desyncs
    have hsum : (g.decoder.desyncs - f.decoder.desyncs) +
        (h.decoder.desyncs - g.decoder.desyncs) = h.decoder.desyncs - f.decoder.desyncs := by omega
    have hb : f.held ++ (bytes ++ bytes') ++ more = f.held ++ bytes ++ (bytes' ++ more) := by
      simp only [List.append_assoc]
    rw [hb, first.pass, ← List.append_assoc, second.pass, Pass.behind_behind, hsum,
      List.flatMap_append]

/-- A call completes; the rest it leaves is too short, or the limit stopped it. -/
theorem call_done (f : Feed) : ∃ call after, f.call = .ok (call, after) ∧
    f.Took [] [call] after ∧ call.decoded.consumed ≤ f.held.length ∧
    after.held = f.held.drop call.decoded.consumed ∧
    after.decoder.Ended call.decoded.consumed after.held := by
  obtain ⟨notices, after, taken, he, hw, hend⟩ := f.decoder.decode_done f.held
  refine ⟨⟨notices, (completed notices).getLast?, taken⟩, ⟨after, f.held.drop taken⟩, ?_, ?_,
    hw.within, rfl, hend⟩
  · simp only [call, he, Act.outcome, Act.done, Word.ok_bind, Word.pure_eq_ok]
  · refine ⟨hw.limit, hw.desyncs, ?_, fun more => ?_⟩
    · intro call hc
      rw [List.mem_singleton.1 hc]
    · rw [List.append_nil, hw.pass more]
      simp only [List.flatMap_cons, List.flatMap_nil, List.append_nil]

/-- What a decoder did, by what it returned. -/
theorem took_of_decode {d after : Decoder} {held : List UInt8} {call : Call}
    (h : d.decode held = Act.done call.notices (after, call.decoded)) :
    Took ⟨d, held⟩ [] [call] ⟨after, held.drop call.decoded.consumed⟩ ∧
      call.decoded.consumed ≤ held.length ∧
      after.Ended call.decoded.consumed (held.drop call.decoded.consumed) := by
  obtain ⟨first, ended, he, took, hle, hheld, hend⟩ := call_done ⟨d, held⟩
  have hc : Feed.call ⟨d, held⟩ = .ok (call, ⟨after, held.drop call.decoded.consumed⟩) := by
    simp only [Feed.call, h, Act.outcome, Act.done, Word.ok_bind, Word.pure_eq_ok]
  obtain ⟨rfl, rfl⟩ := Prod.mk.inj (Except.ok.inj (hc.symm.trans he))
  exact ⟨took, hle, hend⟩

theorem length_held_lt {f after : Feed} {c : Call} (h : f.call = .ok (c, after))
    (hc : c.decoded.consumed ≠ 0) : after.held.length < f.held.length := by
  obtain ⟨call, next, he, _, hle, hh, _⟩ := f.call_done
  rw [h] at he
  cases he
  rw [hh, List.length_drop]
  omega

/-- Call the decoder until a call consumes nothing. -/
def drain (f : Feed) : Except Fault (List Call × Feed) :=
  match _h : f.call with
  | .error e => .error e
  | .ok (first, after) =>
    if _hc : first.decoded.consumed = 0 then .ok ([first], after)
    else after.drain.map fun (later, last) => (first :: later, last)
termination_by f.held.length
decreasing_by exact length_held_lt _h _hc

/-- Call the decoder a number of times. -/
def calls (f : Feed) : Nat → Except Fault (List Call × Feed)
  | 0 => .ok ([], f)
  | n + 1 => do
    let (first, after) ← f.call
    let (later, last) ← after.calls n
    return (first :: later, last)

/-- A piece of a stream, and how often the decoder is called beyond need after it. -/
structure Piece where
  bytes : List UInt8
  extraCalls : Nat

/-- Append a piece, call the decoder until a call consumes nothing, and go on calling it. -/
def take (f : Feed) (piece : Piece) : Except Fault (List Call × Feed) := do
  let (needed, drained) ← drain { f with held := f.held ++ piece.bytes }
  let (extra, last) ← drained.calls piece.extraCalls
  return (needed ++ extra, last)

/-- Take the pieces of a stream in order. -/
def takeAll (f : Feed) : List Piece → Except Fault (List Call × Feed)
  | [] => .ok ([], f)
  | piece :: later => do
    let (first, after) ← f.take piece
    let (rest, last) ← after.takeAll later
    return (first ++ rest, last)

/-- The rest is too short for the phase. -/
def Drained (f : Feed) : Prop := f.held.length < f.decoder.phase.needed

/-- A call on a drained decoder changes nothing. -/
theorem call_of_drained {f : Feed} (h : f.Drained) : f.call = .ok (⟨[], ⟨none, 0⟩⟩, f) := by
  have hs : (f.held.take f.decoder.phase.needed).length < f.decoder.phase.needed := by
    rw [List.length_take]
    exact Nat.lt_of_le_of_lt (Nat.min_le_right ..) h
  have he : f.decoder.decode f.held = Act.done [] (f.decoder, ⟨none, 0⟩) := by
    rw [decode, decodeFrom]
    exact if_pos (.inl hs)
  simp only [call, he, Act.outcome, Act.done, Word.ok_bind, Word.pure_eq_ok, List.drop_zero]

theorem calls_of_drained {f : Feed} (h : f.Drained) (n : Nat) :
    f.calls n = .ok (List.replicate n ⟨[], ⟨none, 0⟩⟩, f) := by
  induction n with
  | zero => rfl
  | succ n ih =>
    simp only [calls, call_of_drained h, ih, Word.ok_bind, Word.pure_eq_ok, List.replicate_succ]

/-- Calls on a drained decoder count as nothing done. -/
theorem took_of_drained (f : Feed) (n : Nat) :
    f.Took [] (List.replicate n ⟨[], ⟨none, 0⟩⟩) f where
  limit := rfl
  desyncs := Nat.le_refl _
  returned := fun call hc => by rw [List.eq_of_mem_replicate hc]; rfl
  pass more := by
    have hn : (List.replicate n (⟨[], ⟨none, 0⟩⟩ : Call)).flatMap
        (fun call => completed call.notices) = [] := by
      rw [List.flatMap_eq_nil_iff]
      intro call hc
      rw [List.eq_of_mem_replicate hc]
      rfl
    rw [List.append_nil, Nat.sub_self, hn]
    exact (Pass.behind_nil _).symm

/-- Calling until nothing is consumed ends, and leaves less than the phase needs. -/
theorem drain_done (f : Feed) (hl : 48 ≤ f.decoder.limit) : ∃ calls last,
    f.drain = .ok (calls, last) ∧ f.Took [] calls last ∧ last.Drained := by
  induction hn : f.held.length using Nat.strongRecOn generalizing f with
  | _ n ih =>
    subst hn
    obtain ⟨first, after, he, ht, _, _, hend⟩ := f.call_done
    rw [drain]
    split
    · rename_i he'
      rw [he] at he'
      cases he'
    · rename_i he'
      rw [he] at he'
      cases he'
      by_cases hc : first.decoded.consumed = 0
      · refine ⟨[first], after, dif_pos hc, ht, hend.resolve_right ?_⟩
        rw [hc, ht.limit]
        have := after.decoder.phase.needed_le
        omega
      · obtain ⟨later, last, hd, ht', hdr⟩ :=
          ih _ (length_held_lt he hc) after (ht.limit ▸ hl) rfl
        refine ⟨first :: later, last, ?_, ht.trans ht', hdr⟩
        rw [dif_neg hc, hd]
        rfl

theorem take_done (f : Feed) (hl : 48 ≤ f.decoder.limit) (piece : Piece) : ∃ calls last,
    f.take piece = .ok (calls, last) ∧ f.Took piece.bytes calls last ∧ last.Drained := by
  obtain ⟨calls, last, he, ht, hdr⟩ := drain_done { f with held := f.held ++ piece.bytes } hl
  refine ⟨calls ++ List.replicate piece.extraCalls ⟨[], ⟨none, 0⟩⟩, last, ?_, ?_, hdr⟩
  · simp only [take, he, calls_of_drained hdr, Word.ok_bind, Word.pure_eq_ok]
  · have := ((Took.append f piece.bytes).trans ht).trans (took_of_drained last piece.extraCalls)
    rwa [List.append_nil, List.append_nil, List.nil_append] at this

theorem takeAll_done (f : Feed) (hl : 48 ≤ f.decoder.limit) (hf : f.Drained)
    (pieces : List Piece) : ∃ calls last, f.takeAll pieces = .ok (calls, last) ∧
      f.Took (pieces.flatMap Piece.bytes) calls last ∧ last.Drained := by
  induction pieces generalizing f with
  | nil => exact ⟨[], f, rfl, .nothing f, hf⟩
  | cons piece later ih =>
    obtain ⟨calls, after, he, ht, hdr⟩ := f.take_done hl piece
    obtain ⟨calls', last, he', ht', hdr'⟩ := ih after (ht.limit ▸ hl) hdr
    refine ⟨calls ++ calls', last, ?_, ht.trans ht', hdr'⟩
    simp only [takeAll, he, he', Word.ok_bind, Word.pure_eq_ok]

/-- Feeding a stream in pieces does what one pass over what was held and the stream does. -/
theorem takeAll_pass (f : Feed) (hl : 48 ≤ f.decoder.limit) (hf : f.Drained)
    (pieces : List Piece) : ∃ calls last, f.takeAll pieces = .ok (calls, last) ∧
      (∀ call ∈ calls, call.decoded.command = (completed call.notices).getLast?) ∧
      f.decoder.phase.pass (f.held ++ pieces.flatMap Piece.bytes) =
        ⟨calls.flatMap fun call => completed call.notices,
          last.decoder.desyncs - f.decoder.desyncs, last.decoder.phase, last.held⟩ := by
  obtain ⟨calls, last, he, ht, hdr⟩ := f.takeAll_done hl hf pieces
  refine ⟨calls, last, he, ht.returned, ?_⟩
  have hp := ht.pass []
  rw [List.append_nil, List.append_nil, Phase.pass_of_short hdr] at hp
  rw [hp]
  simp only [Pass.behind, List.append_nil, Nat.add_zero]

/-- What was completed on the front of a stream is the front of the stream's commands. -/
theorem Took.completed_prefix {d : Decoder} {bytes stream : List UInt8} {calls : List Call}
    {last : Feed} (h : Took ⟨d, []⟩ bytes calls last) (hd : d.phase = .header 0)
    (hs : bytes <+: stream) :
    (calls.flatMap fun call => completed call.notices) <+: Command.allIn stream := by
  obtain ⟨more, rfl⟩ := hs
  have hp : d.phase.pass (bytes ++ more) = _ := h.pass more
  rw [hd] at hp
  rw [← (Phase.finds _).commands, hp]
  exact List.prefix_append ..

/-- Once the rest is too short for the phase, all commands of the stream so far are completed. -/
theorem Took.completed_eq {d : Decoder} {bytes : List UInt8} {calls : List Call} {last : Feed}
    (h : Took ⟨d, []⟩ bytes calls last) (hd : d.phase = .header 0) (hl : last.Drained) :
    (calls.flatMap fun call => completed call.notices) = Command.allIn bytes := by
  have hp := h.pass []
  rw [List.append_nil, List.append_nil, Phase.pass_of_short hl] at hp
  change d.phase.pass bytes = _ at hp
  rw [hd] at hp
  rw [← (Phase.finds _).commands, hp]
  exact (List.append_nil _).symm

/-- A call that leaves too little for the phase completes what the calls before it have left. -/
theorem Took.catchUp {d : Decoder} {bytes : List UInt8} {calls : List Call} {call : Call}
    {f last : Feed} (h : Took ⟨d, []⟩ bytes calls f) (hd : d.phase = .header 0)
    (took : f.Took [] [call] last) (hl : last.Drained) :
    Took ⟨d, []⟩ bytes (calls ++ [call]) last ∧
      (calls.flatMap fun call => completed call.notices) ++ completed call.notices =
        Command.allIn bytes := by
  have all := h.trans took
  rw [List.append_nil] at all
  have whole := all.completed_eq hd hl
  rw [List.flatMap_append, List.flatMap_singleton] at whole
  exact ⟨all, whole⟩

end Feed

/-- One call that may consume the whole stream is an uninterrupted pass. -/
theorem decode_whole (stream : List UInt8) : ∃ notices whole taken,
    (ofLimit stream.length).decode stream =
      Act.done notices (whole, ⟨(completed notices).getLast?, taken⟩) ∧
      (Phase.header 0).pass stream =
        ⟨completed notices, whole.desyncs, whole.phase, stream.drop taken⟩ := by
  obtain ⟨notices, whole, taken, he, hw, hend⟩ := (ofLimit stream.length).decode_done stream
  refine ⟨notices, whole, taken, he, ?_⟩
  have hshort : (stream.drop taken).length < whole.phase.needed := by
    rcases hend with hs | hlim
    · exact hs
    · have hmax : whole.limit = max stream.length 48 := hw.limit
      have := hw.within
      rw [List.length_drop]
      omega
  have hp := hw.pass []
  rw [List.append_nil, List.append_nil, Phase.pass_of_short hshort] at hp
  refine hp.trans ?_
  simp only [Pass.behind, List.append_nil, Nat.add_zero]
  rfl

/-- However a stream is cut into pieces, whatever a call may consume and however often the decoder
is called, the calls complete the commands of the stream in order, each returns the last one it
completed, and the decoder ends where one uninterrupted pass ends: in the same phase, with the same
bytes left over and with a desync for each false start of a header. -/
theorem takeAll_completes_allIn (limit : Nat) (pieces : List Feed.Piece) :
    ∃ calls last, Feed.takeAll ⟨ofLimit limit, []⟩ pieces = .ok (calls, last) ∧
      (calls.flatMap fun call => completed call.notices) =
        Command.allIn (pieces.flatMap Feed.Piece.bytes) ∧
      (∀ call ∈ calls, call.decoded.command = (completed call.notices).getLast?) ∧
      last.decoder.desyncs = Command.falseStartsIn (pieces.flatMap Feed.Piece.bytes) ∧
      ∃ notices whole decoded,
        (ofLimit (pieces.flatMap Feed.Piece.bytes).length).decode
            (pieces.flatMap Feed.Piece.bytes) = Act.done notices (whole, decoded) ∧
          last.decoder.phase = whole.phase ∧ last.decoder.desyncs = whole.desyncs ∧
          last.held = (pieces.flatMap Feed.Piece.bytes).drop decoded.consumed := by
  obtain ⟨calls, last, he, ht, hdr⟩ :=
    Feed.takeAll_done ⟨ofLimit limit, []⟩ (Nat.le_max_right ..) Nat.zero_lt_one pieces
  obtain ⟨notices, whole, taken, hd, hwhole⟩ := decode_whole (pieces.flatMap Feed.Piece.bytes)
  obtain ⟨hc, hf⟩ := Phase.finds (pieces.flatMap Feed.Piece.bytes)
  have hp := ht.pass []
  rw [List.append_nil, List.append_nil, Phase.pass_of_short hdr] at hp
  have hp' : (Phase.header 0).pass (pieces.flatMap Feed.Piece.bytes) =
      ⟨calls.flatMap fun call => completed call.notices, last.decoder.desyncs,
        last.decoder.phase, last.held⟩ := by
    refine Eq.trans ?_ (hp.trans ?_)
    · rfl
    · simp only [Pass.behind, List.append_nil, Nat.add_zero]
      rfl
  rw [hp'] at hc hf hwhole
  injection hwhole with _ hdes hphase hheld
  exact ⟨calls, last, he, hc, ht.returned, hf, notices, whole, _, hd, hphase, hdes, hheld⟩

end OmniDrive.Decoder
