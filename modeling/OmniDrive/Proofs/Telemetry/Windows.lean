import OmniDrive.Proofs.Telemetry.Pieces

/-! Which frames of a telemetry stream are read. From the left, every window that is a frame and
does not overlap the one read before it is; how the stream is cut makes no difference. -/
namespace OmniDrive.Telemetry

def windowAt (stream : List UInt8) (position : Nat) : List UInt8 :=
  (stream.drop position).take frameLength

/-- All bytes of the window are there, and they are a frame. -/
structure IsFrameAt (stream : List UInt8) (position : Nat) : Prop where
  whole : position + frameLength ≤ stream.length
  accepted : ∃ report, decode (windowAt stream position) = .ok report

/-- The positions, from `start` on, of the leftmost frame, of the leftmost one behind that, and so
on. -/
inductive Greedy (stream : List UInt8) : Nat → List Nat → Prop
  | done {start : Nat} (absent : ∀ q, start ≤ q → ¬ IsFrameAt stream q) : Greedy stream start []
  | next {start position : Nat} {later : List Nat} (le : start ≤ position)
      (frame : IsFrameAt stream position)
      (first : ∀ q, start ≤ q → q < position → ¬ IsFrameAt stream q)
      (rest : Greedy stream (position + frameLength) later) :
      Greedy stream start (position :: later)

variable {stream : List UInt8} {start : Nat}

theorem Greedy.unique {positions others : List Nat} (h : Greedy stream start positions)
    (ho : Greedy stream start others) : positions = others := by
  induction h generalizing others with
  | done absent =>
    cases ho with
    | done => rfl
    | next le frame => exact absurd frame (absent _ le)
  | @next start position later le frame first rest ih =>
    cases ho with
    | done absent => exact absurd frame (absent _ le)
    | @next _ other _ le' frame' first' rest' =>
      have he : position = other := by
        refine Nat.le_antisymm (Nat.le_of_not_lt fun h => ?_) (Nat.le_of_not_lt fun h => ?_)
        · exact first other le' h frame'
        · exact first' position le h frame
      subst he
      rw [ih rest']

/-- Positions at which there is no frame may be put in front. -/
theorem Greedy.skip {early : Nat} {positions : List Nat} (h : Greedy stream start positions)
    (hle : early ≤ start) (hn : ∀ q, early ≤ q → q < start → ¬ IsFrameAt stream q) :
    Greedy stream early positions := by
  cases h with
  | done absent =>
    refine .done fun q hq => ?_
    rcases Nat.lt_or_ge q start with h | h
    · exact hn q hq h
    · exact absent q h
  | next le frame first rest =>
    refine .next (Nat.le_trans hle le) frame (fun q hq hlt => ?_) rest
    rcases Nat.lt_or_ge q start with h | h
    · exact hn q hq h
    · exact first q h hlt

theorem IsFrameAt.header {q : Nat} (h : IsFrameAt stream q) (hq : start ≤ q) :
    OmniDrive.header <+: (stream.drop start).drop (q - start) := by
  obtain ⟨report, hd⟩ := h.accepted
  rw [List.drop_drop, Nat.add_sub_cancel' hq]
  exact header_prefix_of_decode hd

theorem not_isFrameAt_of_seek_eq_none (h : seek (stream.drop start) = none) {q : Nat}
    (hq : start ≤ q) : ¬ IsFrameAt stream q := fun hf =>
  seek_eq_none_iff.1 h ((hf.header hq).isInfix.trans (List.drop_suffix ..).isInfix)

/-- No frame is in front of the leftmost header. -/
theorem exists_position_of_seek_eq_some {found : List UInt8}
    (h : seek (stream.drop start) = some found) : ∃ position, start ≤ position ∧
      found = stream.drop position ∧ OmniDrive.header <+: found ∧
      ∀ q, start ≤ q → q < position → ¬ IsFrameAt stream q := by
  obtain ⟨n, rfl, hp, hj⟩ := exists_drop_of_seek_eq_some h
  refine ⟨start + n, Nat.le_add_right .., List.drop_drop, hp, fun q hq hlt hf => ?_⟩
  exact hj (q - start) (by omega) (hf.header hq)

/-- What a stretch of the stream holds are the frames at the greedy positions. -/
theorem greedy_split (stream : List UInt8) (start : Nat) : ∃ positions,
    Greedy stream start positions ∧
      (split (stream.drop start)).reports.map Except.ok =
        positions.map fun p => decode (windowAt stream p) := by
  generalize hi : stream.drop start = input
  induction input using split.induct generalizing start with
  | case1 input hs =>
    subst hi
    refine ⟨[], .done fun q hq => not_isFrameAt_of_seek_eq_none hs hq, ?_⟩
    rw [split_of_seek_eq_none hs]
    rfl
  | case2 input found hs hl =>
    subst hi
    obtain ⟨position, hle, rfl, hp, hn⟩ := exists_position_of_seek_eq_some hs
    refine ⟨[], .done fun q hq hf => ?_, ?_⟩
    · rcases Nat.lt_or_ge q position with hlt | hge
      · exact hn q hq hlt hf
      · have hw := hf.whole
        rw [List.length_drop] at hl
        omega
    · rw [split_found hs, split_short hp hl]
      rfl
  | case3 input found hs hl report hd ih =>
    subst hi
    obtain ⟨position, hle, rfl, hp, hn⟩ := exists_position_of_seek_eq_some hs
    obtain ⟨later, hg, hr⟩ := ih (position + frameLength) List.drop_drop.symm
    have hf : IsFrameAt stream position := by
      refine ⟨?_, report, hd⟩
      rw [List.length_drop] at hl
      change position + 83 ≤ _
      change ¬ _ < 83 at hl
      omega
    refine ⟨position :: later, .next hle hf hn hg, ?_⟩
    rw [split_found hs, split_accepted hd, List.map_cons, List.map_cons, ← hr, windowAt, hd]
  | case4 input found hs hl reason hd ih =>
    subst hi
    obtain ⟨position, hle, rfl, hp, hn⟩ := exists_position_of_seek_eq_some hs
    obtain ⟨positions, hg, hr⟩ := ih (position + 1) List.drop_drop.symm
    refine ⟨positions, hg.skip (Nat.le_succ_of_le hle) fun q hq hlt hf => ?_, ?_⟩
    · rcases Nat.lt_or_eq_of_le (Nat.le_of_lt_succ hlt) with hlt | rfl
      · exact hn q hq hlt hf
      · obtain ⟨report, ha⟩ := hf.accepted
        cases ha.symm.trans hd
    · rw [split_found hs, split_refused hp (Nat.le_of_not_lt hl) hd, ← hr]

/-- Of frames among noise, all and only these are read. -/
theorem reports_sent (lead : List UInt8) (sent : List (Report × List UInt8))
    (hl : ¬ OmniDrive.header <:+: lead) (hs : ∀ s ∈ sent, ¬ OmniDrive.header <:+: s.2) :
    (split (lead ++ sent.flatMap fun s => encode s.1 ++ s.2)).reports =
      sent.map fun s => s.1.carried := by
  induction sent generalizing lead with
  | nil =>
    rw [List.flatMap_nil, List.append_nil, split_of_seek_eq_none (seek_eq_none_iff.2 hl)]
    rfl
  | cons s later ih =>
    obtain ⟨report, gap⟩ := s
    obtain ⟨hg, hlater⟩ := List.forall_mem_cons.1 hs
    have he : decode ((encode report ++ (gap ++ later.flatMap fun s => encode s.1 ++ s.2)).take
        frameLength) = .ok report.carried := by
      rw [List.take_left' (length_encode report), decode_encode_eq]
    obtain ⟨more, hm⟩ := header_prefix_of_decode he
    rw [List.flatMap_cons, List.append_assoc, ← hm, split_found (seek_noise hl more), hm,
      split_accepted he, List.drop_left' (length_encode report), List.map_cons]
    exact congrArg _ (ih gap hg hlater)

/-- A stream is read as its greedy frames, however it is cut: what is left over is the same for
every cut, no piece leaves a whole frame's length over, and frames among noise all come out. -/
theorem Stream.pushAll_greedy (pieces : List (List UInt8)) :
    (∃ positions, Greedy pieces.flatten 0 positions ∧
      (∀ others, Greedy pieces.flatten 0 others → others = positions) ∧
      ((initial.pushAll pieces).2.flatMap Split.reports).map Except.ok =
        positions.map fun p => decode (windowAt pieces.flatten p)) ∧
    (∀ others : List (List UInt8), others.flatten = pieces.flatten →
      (initial.pushAll others).1.held = (initial.pushAll pieces).1.held) ∧
    (∀ front, front <+: pieces → (initial.pushAll front).1.held.length < frameLength) ∧
    ∀ (lead : List UInt8) (sent : List (Report × List UInt8)),
      ¬ OmniDrive.header <:+: lead → (∀ s ∈ sent, ¬ OmniDrive.header <:+: s.2) →
      pieces.flatten = lead ++ sent.flatMap (fun s => encode s.1 ++ s.2) →
      ((initial.pushAll pieces).2.flatMap Split.reports).map Except.ok =
        sent.map fun s => decode (encode s.1) := by
  obtain ⟨held, reports⟩ := pushAll_flatten pieces
  refine ⟨?_, fun others ho => ?_, fun front _ => ?_, fun lead sent hl hs he => ?_⟩
  · obtain ⟨positions, hg, hr⟩ := greedy_split pieces.flatten 0
    rw [reports]
    exact ⟨positions, hg, fun others ho => ho.unique hg, hr⟩
  · rw [held, (pushAll_flatten others).1, ho]
  · rw [(pushAll_flatten front).1]
    exact length_rest_lt _
  · rw [reports, he, push, initial, List.nil_append, reports_sent lead sent hl hs, List.map_map]
    exact List.map_congr_left fun s _ => (decode_encode_eq s.1).symm

/-- The supply readings spell a header. -/
def disguised : Report := { Report.zero with power := ⟨0xDE, 0xAD, 0xBE, 0xEF, 0⟩ }

/-- Two frames, begun headers around them. -/
def straggling : List UInt8 :=
  [0xDE, 0xAD] ++ [(disguised, [0xDE, 0xAD, 0xBE]), (Report.zero, [0xDE])].flatMap fun s =>
    encode s.1 ++ s.2

theorem Stream.pushAll_greedy_straggling :
    ((initial.pushAll [straggling.take 4, straggling.drop 4]).2.flatMap Split.reports).map
      Except.ok = [decode (encode disguised), decode (encode Report.zero)] :=
  (pushAll_greedy [straggling.take 4, straggling.drop 4]).2.2.2 [0xDE, 0xAD]
    [(disguised, [0xDE, 0xAD, 0xBE]), (Report.zero, [0xDE])] (by decide) (by decide) <| by
      rw [List.flatten_cons, List.flatten_singleton, List.take_append_drop]
      rfl

end OmniDrive.Telemetry
