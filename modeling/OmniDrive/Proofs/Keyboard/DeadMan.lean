import OmniDrive.Proofs.Command.Frames
import OmniDrive.Proofs.Keyboard.Orders
import OmniDrive.Proofs.Run

/-! Driving by keyboard, turn after turn. Whatever the keys and the clock do, every turn until the
operator quits sends one command, and none of them moves the base for longer than a movement key
stays fresh. -/
namespace OmniDrive.Keyboard

/-- A turn and the command that it sent. -/
structure Moment where
  turn : Turn
  command : Command

/-- The command asks every axis for the speed it was last given, and to stand still if it was given
none. -/
structure Heeds (start : Nat) (turns : List Turn) (c : Command) : Prop where
  given (a : Axis) (speed : Int) : Given start a turns speed → a.ofCommand c = speed
  rests (a : Axis) : (∀ speed, ¬ Given start a turns speed) → a.ofCommand c = 0

/-- The command is one for the body velocity alone, and asks for what the keys ask for. A turn that is
late stops all axes; one in time leaves those alone that no key drives in it. -/
structure Answers (start : Nat) (past : List Moment) (m : Moment) : Prop where
  mode : m.command.motorMode = .xyThetaSpace
  dark : m.command.lightMode = .none ∧ m.command.colours = none
  inTable (a : Axis) : place (past.map Moment.turn ++ [m.turn]) < a.speeds.length
  heeds : Heeds start (past.map Moment.turn ++ [m.turn]) m.command
  stops : IsLate start (past.map Moment.turn) m.turn → ∀ a : Axis, a.ofCommand m.command = 0
  keeps : ¬ IsLate start (past.map Moment.turn) m.turn → ∀ a : Axis,
    (∀ forward, ¬ m.turn.Steers a forward) → a.ofCommand m.command =
      (past.getLast?.map fun latest => a.ofCommand latest.command).getD 0

/-- What the operator's side remembers of the turns so far. -/
structure Tracks (start : Nat) (past : List Moment) (s : State) : Prop where
  gear : s.gear.index = place (past.map Moment.turn)
  moved : s.lastMove = lastMove start (past.map Moment.turn)
  heeds : Heeds start (past.map Moment.turn) s.command
  latest (a : Axis) : a.ofCommand s.command =
    (past.getLast?.map fun m => a.ofCommand m.command).getD 0

theorem Tracks.initial (start : Nat) : Tracks start [] (.initial start) where
  gear := rfl
  moved := rfl
  heeds.given a speed hg := absurd hg not_given_nil
  heeds.rests a _ := by cases a <;> rfl
  latest a := by cases a <;> rfl

theorem Axis.lt_length_speeds (a : Axis) (turns : List Turn) : place turns < a.speeds.length := by
  have := place_le turns
  cases a <;> exact Nat.lt_succ_of_le this

section Step

variable {start : Nat} {past : List Moment} {s : State} {t : Turn}

theorem Tracks.isLate_iff (h : Tracks start past s) : IsLate start (past.map Moment.turn) t ↔
    t.moved?.getD s.lastMove + State.patience < t.checked := by
  rw [IsLate, lastMove_concat, h.moved]
  rfl

theorem Tracks.settled_late (h : Tracks start past s)
    (late : IsLate start (past.map Moment.turn) t) (a : Axis) :
    a.ofCommand (s.settled t).command = 0 := State.settled_late (h.isLate_iff.1 late)

theorem Tracks.settled_inTime (h : Tracks start past s)
    (inTime : ¬ IsLate start (past.map Moment.turn) t) : s.settled t = s.obeyed t :=
  State.settled_inTime (mt h.isLate_iff.2 inTime)

theorem Tracks.heeds_settled (h : Tracks start past s) (t : Turn) :
    Heeds start (past.map Moment.turn ++ [t]) (s.settled t).command where
  given a speed hg := by
    obtain ⟨inTime, steers | straight⟩ := given_concat.1 hg
    · obtain ⟨forward, size, steers, lookup, hs⟩ := steers
      obtain ⟨size', lookup', value⟩ := State.steered (s := s) steers
      rw [h.gear, lookup] at lookup'
      cases lookup'
      rw [h.settled_inTime inTime, value, hs]
    · obtain ⟨straight, before⟩ := straight
      rw [h.settled_inTime inTime, State.unsteered straight]
      exact h.heeds.given a speed before
  rests a none := by
    by_cases late : IsLate start (past.map Moment.turn) t
    · exact h.settled_late late a
    · have straight : ∀ forward, ¬ t.Steers a forward := by
        intro forward steers
        obtain ⟨size, lookup, -⟩ := State.steered (s := s) steers
        rw [h.gear] at lookup
        exact none _ (given_concat.2 ⟨late, .inl ⟨forward, size, steers, lookup, rfl⟩⟩)
      rw [h.settled_inTime late, State.unsteered straight]
      exact h.heeds.rests a fun speed hg => none speed (given_concat.2 ⟨late, .inr ⟨straight, hg⟩⟩)

theorem Tracks.answers (h : Tracks start past s) (t : Turn) :
    Answers start past ⟨t, (s.settled t).command⟩ where
  mode := rfl
  dark := ⟨rfl, rfl⟩
  inTable a := a.lt_length_speeds _
  heeds := h.heeds_settled t
  stops := h.settled_late
  keeps inTime a straight := by
    rw [h.settled_inTime inTime, State.unsteered straight]
    exact h.latest a

/-- A turn is remembered, whatever telemetry comes in with it. -/
theorem Tracks.step (h : Tracks start past s) (t : Turn) (reader : Telemetry.Stream)
    (received : Nat) : Tracks start (past ++ [⟨t, (s.settled t).command⟩])
      { s.settled t with reader, received } where
  gear := by
    rw [List.map_append, List.map_singleton, place_concat, ← h.gear]
    exact s.index_settled t
  moved := by
    rw [List.map_append, List.map_singleton, lastMove_concat, ← h.moved]
    exact s.lastMove_settled t
  heeds := by
    rw [List.map_append, List.map_singleton]
    exact h.heeds_settled t
  latest a := by
    rw [List.getLast?_concat]
    rfl

end Step

/-- Where nothing fails, the command is written and the turn does not end the run. -/
theorem exchange_sound {t : Turn} (sound : t.IsSound) (s : State) (before : List Notice) :
    ∃ reader received notices, exchange s before t =
      ⟨{ s with reader, received }, some s.command.encode, notices, none⟩ := by
  obtain ⟨writes, bytes, reads⟩ := sound
  rw [exchange, writes, reads]
  by_cases nothing : bytes = []
  · exact ⟨s.reader, s.received, before ++ [], by simp [nothing]⟩
  · exact ⟨(s.listen bytes).1.reader, (s.listen bytes).1.received, before ++ (s.listen bytes).2,
      by simp [nothing, State.listen]⟩

theorem turn_eq (s : State) (t : Turn) : turn s t = match t.order? with
    | none => exchange (s.settled t) [] t
    | some (_, .quit) => ⟨s, none, [], some .quit⟩
    | some (time, order) => exchange (s.settled t) ((s.obey time order).announce order) t := by
  unfold turn State.settled State.obeyed
  change (match t.order? with | none => _ | some (_, .quit) => _ | some (time, order) => _) = _
  rcases t.order? with _ | ⟨time, order⟩
  · rfl
  · cases order <;> rfl

theorem turn_stays {t : Turn} (stays : ¬ t.Quits) (s : State) :
    ∃ before, turn s t = exchange (s.settled t) before t := by
  rw [Turn.quits_iff] at stays
  rw [turn_eq]
  rcases ho : t.order? with _ | ⟨time, order⟩
  · exact ⟨[], rfl⟩
  · cases order with
    | quit => exact absurd ⟨time, ho⟩ stays
    | _ => exact ⟨_, rfl⟩

theorem turn_quits {t : Turn} (quits : t.Quits) (s : State) :
    turn s t = ⟨s, none, [], some .quit⟩ := by
  obtain ⟨time, ho⟩ := Turn.quits_iff.1 quits
  rw [turn_eq, ho]

/-- Every turn until the operator quits sends one command, which answers the keys. -/
theorem Tracks.run_answers {start : Nat} (turns : List Turn) (sound : ∀ t ∈ turns, t.IsSound)
    {past : List Moment} {s : State} (h : Tracks start past s) :
    ∃ moments : List Moment,
      moments.map Moment.turn = turns.takeWhile (fun t => ¬ t.Quits) ∧
      (run s turns).frames = moments.map (fun m => m.command.encode) ∧
      (run s turns).ended = (if ∃ t ∈ turns, t.Quits then some .quit else none) ∧
      ∀ earlier m later, moments = earlier ++ m :: later → Answers start (past ++ earlier) m := by
  induction turns generalizing past s with
  | nil =>
    refine ⟨[], rfl, rfl, rfl, ?_⟩
    intro earlier m later hs
    simp at hs
  | cons t turns ih =>
    obtain ⟨here, there⟩ := List.forall_mem_cons.1 sound
    by_cases quits : t.Quits
    · refine ⟨[], ?_, ?_, ?_, ?_⟩
      · simp [quits]
      · simp [run, turn_quits quits]
      · simp [run, turn_quits quits, quits]
      · intro earlier m later hs
        simp at hs
    · obtain ⟨before, ht⟩ := turn_stays quits s
      obtain ⟨reader, received, notices, hx⟩ := exchange_sound here (s.settled t) before
      rw [hx] at ht
      -- The rest runs with this turn in the past, so it is judged by all the turns before it.
      obtain ⟨moments, hm, hf, he, ha⟩ := ih there (h.step t reader received)
      refine ⟨⟨t, (s.settled t).command⟩ :: moments, ?_, ?_, ?_, ?_⟩
      · simp [quits, hm]
      · simp [run, ht, hf]
      · simp [run, ht, he, quits]
      · exact Act.forall_split_cons (h.answers t) ha

theorem Answers.isPlain {start : Nat} {past : List Moment} {m : Moment} (h : Answers start past m) :
    m.command.IsPlain where
  motor := by rw [h.mode]; trivial
  light := by rw [h.dark.1]; trivial
  uncoloured := by rw [h.dark.1]; decide

theorem Answers.bare_eq {start : Nat} {past : List Moment} {m : Moment}
    (h : Answers start past m) : m.command.bare = m.command := by
  rw [Command.bare, ← h.dark.2]

/-- Whatever the keys, their times and the telemetry, as long as nothing fails: every turn until the
operator quits sends one command, the turn in which he quits sends none, and each command answers the
keys up to it. A decoder completes exactly the commands that were sent. -/
theorem every_frame_answers_keys (start : Nat) (turns : List Turn)
    (sound : ∀ t ∈ turns, t.IsSound) : ∃ moments : List Moment,
      moments.map Moment.turn = turns.takeWhile (fun t => ¬ t.Quits) ∧
      (run (.initial start) turns).frames = moments.map (fun m => m.command.encode) ∧
      (run (.initial start) turns).ended =
        (if ∃ t ∈ turns, t.Quits then some .quit else none) ∧
      (∀ earlier m later, moments = earlier ++ m :: later → Answers start earlier m) ∧
      ∀ (limit : Nat) (pieces : List Decoder.Feed.Piece),
        pieces.flatMap Decoder.Feed.Piece.bytes = (run (.initial start) turns).frames.flatten →
        ∃ calls last, Decoder.Feed.takeAll ⟨.ofLimit limit, []⟩ pieces = .ok (calls, last) ∧
          (calls.flatMap fun call => Decoder.completed call.notices) = moments.map Moment.command ∧
          last.held = [] := by
  obtain ⟨moments, hm, hf, he, answers⟩ := (Tracks.initial start).run_answers turns sound
  refine ⟨moments, hm, hf, he, answers, fun limit pieces hp => ?_⟩
  have answered : ∀ m ∈ moments, ∃ earlier, Answers start earlier m := by
    intro m mem
    obtain ⟨earlier, later, split⟩ := List.append_of_mem mem
    exact ⟨_, answers earlier m later split⟩
  have plain : ∀ c ∈ moments.map Moment.command, c.IsPlain := by
    refine List.forall_mem_map.2 fun m mem => ?_
    obtain ⟨earlier, answer⟩ := answered m mem
    exact answer.isPlain
  have bare : (moments.map Moment.command).map Command.bare = moments.map Moment.command := by
    rw [List.map_map]
    refine List.map_congr_left fun m mem => ?_
    obtain ⟨earlier, answer⟩ := answered m mem
    exact answer.bare_eq
  have stream : pieces.flatMap Decoder.Feed.Piece.bytes =
      (moments.map Moment.command).flatMap Command.encode := by
    rw [hp, hf, List.flatMap_map, List.flatMap_def]
  obtain ⟨calls, last, taken, commands, held⟩ := Decoder.takeAll_frames limit plain stream
  exact ⟨calls, last, taken, commands.trans bare, held⟩

/-- To the front in the middle gear, around as well in the lowest one, and to the side; before that
the base stops, since no key is struck for long enough. -/
def errand : List Turn :=
  [(some ⟨.char 'r', .pressed, 10000000⟩, 10000001), (some ⟨.char 'w', .pressed, 30000000⟩, 30000001),
    (some ⟨.char 'f', .repeated, 50000000⟩, 50000001),
    (some ⟨.char 'x', .pressed, 60000000⟩, 60000001),
    (some ⟨.char 'w', .released, 160000000⟩, 160000000), (none, 160000001),
    (some ⟨.char 'd', .pressed, 300000000⟩, 300000009), (some ⟨.escape, .pressed, 310000000⟩, 0),
    (some ⟨.char 'w', .pressed, 320000000⟩, 320000000)].map
    fun (event, checked) => ⟨event, checked, none, .ok .nothing⟩

theorem errand_answers_keys : (∀ t ∈ errand, t.IsSound) ∧
    (run (.initial 0) errand).frames = ([(0, 0, 0), (40, 0, 0), (40, 0, 0), (40, 0, -10),
      (40, 0, -10), (0, 0, 0), (0, -15, 0)].map
        fun (x, y, theta) => Command.encode ⟨.xyThetaSpace, .none, x, y, theta, none⟩) ∧
    ∃ moments : List Moment, moments.length = 7 ∧
      (run (.initial 0) errand).frames = moments.map (fun m => m.command.encode) ∧
      (∀ earlier m later, moments = earlier ++ m :: later → Answers 0 earlier m) ∧
      (run (.initial 0) errand).ended = some .quit ∧
      ∃ calls last, Decoder.Feed.takeAll ⟨.ofLimit 0, []⟩
          [⟨(run (.initial 0) errand).frames.flatten, 1⟩] = .ok (calls, last) ∧
        (calls.flatMap fun call => Decoder.completed call.notices) = moments.map Moment.command := by
  have sound : ∀ t ∈ errand, t.IsSound := List.forall_mem_map.2 fun _ _ => ⟨rfl, [], rfl⟩
  obtain ⟨moments, hm, hf, -, answers, decodes⟩ := every_frame_answers_keys 0 errand sound
  have until_quit : moments.length = 7 := by
    rw [← List.length_map Moment.turn, hm]
    decide
  obtain ⟨calls, last, taken, commands, -⟩ := decodes 0 [⟨_, 1⟩] (List.flatMap_singleton ..)
  exact ⟨sound, by decide, moments, until_quit, hf, answers, by decide, calls, last, taken, commands⟩

end OmniDrive.Keyboard
