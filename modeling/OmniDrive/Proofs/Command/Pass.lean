import OmniDrive.Proofs.Command.Reading

/-! One uninterrupted pass of the decoder's phases over a stream. From between two commands it
completes the commands that the search for headers finds, and gives up the false starts. -/
namespace OmniDrive.Decoder

/-- What a pass over a stream did, and where it ran out of bytes. -/
structure Pass where
  commands : List Command
  desyncs : Nat
  phase : Phase
  rest : List UInt8

/-- A pass with something done before it. -/
def Pass.behind (p : Pass) (commands : List Command) (desyncs : Nat) : Pass :=
  { p with commands := commands ++ p.commands, desyncs := desyncs + p.desyncs }

theorem Pass.behind_nil (p : Pass) : p.behind [] 0 = p := by
  simp only [behind, List.nil_append, Nat.zero_add]

theorem Pass.behind_behind (p : Pass) (first second : List Command) (m n : Nat) :
    (p.behind second n).behind first m = p.behind (first ++ second) (m + n) := by
  simp only [behind, List.append_assoc, Nat.add_assoc]

/-- Take chunk after chunk until the rest is too short for the phase. -/
def Phase.pass (p : Phase) (stream : List UInt8) : Pass :=
  if stream.length < p.needed then ⟨[], 0, p, stream⟩
  else
    match p.step (stream.take p.needed) with
    | .error _ => ⟨[], 0, p, stream⟩
    | .ok s => (s.next.pass (stream.drop p.needed)).behind s.command.toList s.desync.toNat
termination_by stream.length
decreasing_by
  have := p.needed_pos
  rw [List.length_drop]
  omega

namespace Phase

theorem pass_of_short {p : Phase} {stream : List UInt8} (h : stream.length < p.needed) :
    p.pass stream = ⟨[], 0, p, stream⟩ := by
  rw [pass, if_pos h]

theorem pass_append {p : Phase} (chunk : List UInt8) {s : Step} (h : chunk.length = p.needed)
    (hs : p.step chunk = .ok s) (more : List UInt8) :
    p.pass (chunk ++ more) = (s.next.pass more).behind s.command.toList s.desync.toNat := by
  have hl : ¬ (chunk ++ more).length < p.needed := by
    rw [List.length_append]
    omega
  rw [pass, if_neg hl, ← h, List.take_left, List.drop_left, hs]

theorem pass_header_cons (matched : Fin 4) (byte : UInt8) (rest : List UInt8) :
    (header matched).pass (byte :: rest) = ((matchHeader matched byte).next.pass rest).behind
      (matchHeader matched byte).command.toList (matchHeader matched byte).desync.toNat :=
  pass_append (p := header matched) [byte] rfl rfl rest

/-- A byte that breaks a header is looked at once more, as the first one. -/
theorem pass_broken (byte : UInt8) (rest : List UInt8) :
    ((matchHeader.broken byte).next.pass rest).behind (matchHeader.broken byte).command.toList
      (matchHeader.broken byte).desync.toNat =
        ((header 0).pass (byte :: rest)).behind [] 1 := by
  rw [pass_header_cons 0 byte rest, Pass.behind_behind]
  rfl

/-- A pass finds the commands of a stream and its false starts. -/
structure Finds (stream : List UInt8) : Prop where
  commands : ((header 0).pass stream).commands = Command.allIn stream
  desyncs : ((header 0).pass stream).desyncs = Command.falseStartsIn stream

theorem not_header_prefix {byte : UInt8} (hb : byte ≠ 0xDE) (rest : List UInt8) :
    ¬ OmniDrive.header <+: byte :: rest :=
  fun hp => hb (List.cons_prefix_cons.1 hp).1.symm

/-- A byte that is not the first of a header changes neither side. -/
theorem finds_skip {byte : UInt8} {rest : List UInt8} (hb : byte ≠ 0xDE) (h : Finds rest) :
    Finds (byte :: rest) := by
  have hn := not_header_prefix hb rest
  have hp : (header 0).pass (byte :: rest) = (header 0).pass rest := by
    rw [pass_header_cons]
    simp only [matchHeader, if_neg hb]
    exact Pass.behind_nil _
  constructor
  · rw [hp, Command.allIn_cons hn]
    exact h.commands
  · rw [hp, Command.falseStartsIn_cons hn, if_neg fun hd => hb hd.1, Nat.zero_add]
    exact h.desyncs

theorem pass_matched (matched : Fin 4) (more : List UInt8) :
    (header 0).pass (OmniDrive.header.take matched ++ more) = (header matched).pass more := by
  match matched with
  | 0 => rfl
  | 1 => exact (pass_header_cons 0 0xDE more).trans (Pass.behind_nil _)
  | 2 =>
    refine (pass_header_cons 0 0xDE (0xAD :: more)).trans ((Pass.behind_nil _).trans ?_)
    exact (pass_header_cons 1 0xAD more).trans (Pass.behind_nil _)
  | 3 =>
    refine (pass_header_cons 0 0xDE (0xAD :: 0xBE :: more)).trans ((Pass.behind_nil _).trans ?_)
    refine (pass_header_cons 1 0xAD (0xBE :: more)).trans ((Pass.behind_nil _).trans ?_)
    exact (pass_header_cons 2 0xBE more).trans (Pass.behind_nil _)

theorem matchHeader_of_ne {matched : Fin 4} {byte : UInt8} (hm : matched ≠ 0)
    (hb : byte ≠ OmniDrive.header.get matched) :
    matchHeader matched byte = matchHeader.broken byte := by
  match matched with
  | 0 => exact absurd rfl hm
  | 1 | 2 | 3 => exact if_neg hb

/-- No header begins inside the matched part of a broken one. -/
theorem allIn_broken {matched : Fin 4} {byte : UInt8} (hm : matched ≠ 0)
    (hb : byte ≠ OmniDrive.header.get matched) (rest : List UInt8) :
    Command.allIn (OmniDrive.header.take matched ++ byte :: rest) = Command.allIn (byte :: rest) ∧
      Command.falseStartsIn (OmniDrive.header.take matched ++ byte :: rest) =
        1 + Command.falseStartsIn (byte :: rest) := by
  have skip {b : UInt8} (hne : b ≠ 0xDE) (more : List UInt8) :
      Command.allIn (b :: more) = Command.allIn more ∧
        Command.falseStartsIn (b :: more) = Command.falseStartsIn more := by
    have hn := not_header_prefix hne more
    rw [Command.allIn_cons hn, Command.falseStartsIn_cons hn, if_neg fun hd => hne hd.1,
      Nat.zero_add]
    exact ⟨rfl, rfl⟩
  have first (more : List UInt8) (hn : ¬ OmniDrive.header <+: 0xDE :: more)
      (hq : ¬ 0xDE :: more <+: OmniDrive.header) :
      Command.allIn (0xDE :: more) = Command.allIn more ∧
        Command.falseStartsIn (0xDE :: more) = 1 + Command.falseStartsIn more := by
    rw [Command.allIn_cons hn, Command.falseStartsIn_cons hn, if_pos ⟨rfl, hq⟩]
    exact ⟨rfl, rfl⟩
  match matched with
  | 0 => exact absurd rfl hm
  | 1 =>
    have hb' : byte ≠ 0xAD := hb
    refine first (byte :: rest) ?_ ?_
    · simp [OmniDrive.header, List.cons_prefix_cons, hb'.symm]
    · simp [OmniDrive.header, List.cons_prefix_cons, hb']
  | 2 =>
    have hb' : byte ≠ 0xBE := hb
    have hf := first (0xAD :: byte :: rest) (by simp [OmniDrive.header, List.cons_prefix_cons, hb'.symm])
      (by simp [OmniDrive.header, List.cons_prefix_cons, hb'])
    have h2 := skip (by decide : (0xAD : UInt8) ≠ 0xDE) (byte :: rest)
    exact ⟨hf.1.trans h2.1, hf.2.trans (congrArg (1 + ·) h2.2)⟩
  | 3 =>
    have hb' : byte ≠ 0xEF := hb
    have hf := first (0xAD :: 0xBE :: byte :: rest)
      (by simp [OmniDrive.header, List.cons_prefix_cons, hb'.symm])
      (by simp [OmniDrive.header, List.cons_prefix_cons, hb'])
    have h2 := skip (by decide : (0xAD : UInt8) ≠ 0xDE) (0xBE :: byte :: rest)
    have h3 := skip (by decide : (0xBE : UInt8) ≠ 0xDE) (byte :: rest)
    exact ⟨hf.1.trans (h2.1.trans h3.1), hf.2.trans (congrArg (1 + ·) (h2.2.trans h3.2))⟩

theorem finds_broken {matched : Fin 4} {byte : UInt8} {rest : List UInt8} (hm : matched ≠ 0)
    (hb : byte ≠ OmniDrive.header.get matched) (h : Finds (byte :: rest)) :
    Finds (OmniDrive.header.take matched ++ byte :: rest) := by
  obtain ⟨hc, hf⟩ := allIn_broken hm hb rest
  have hp : (header 0).pass (OmniDrive.header.take matched ++ byte :: rest) =
      ((header 0).pass (byte :: rest)).behind [] 1 := by
    rw [pass_matched, pass_header_cons, matchHeader_of_ne hm hb, pass_broken]
  constructor
  · rw [hp, hc]
    exact h.commands
  · rw [hp, hf]
    exact congrArg (1 + ·) h.desyncs

/-- A stream that ends inside a header. -/
theorem finds_pending (matched : Fin 4) : Finds (OmniDrive.header.take matched) := by
  have hp : (header 0).pass (OmniDrive.header.take matched) = ⟨[], 0, header matched, []⟩ := by
    have h := pass_matched matched []
    rw [List.append_nil] at h
    exact h.trans (pass_of_short (p := header matched) (Nat.zero_lt_succ 0))
  have hn : ∀ m : Fin 4, Command.next? (OmniDrive.header.take m) = none := by decide
  have hf : ∀ m : Fin 4, Command.falseStarts (OmniDrive.header.take m) = 0 := by decide
  constructor
  · rw [hp, Command.allIn_of_next?_eq_none (hn matched)]
  · rw [hp, Command.falseStartsIn_of_next?_eq_none (hn matched), hf]

theorem ofByte_eq_custom_iff (led : UInt8) : LightMode.ofByte led = .custom ↔ led = 0x07 := by
  constructor
  · intro h
    have hb := LightMode.toByte_ofByte led
    rw [h] at hb
    exact hb.symm
  · rintro rfl
    rfl

/-- Behind a header the phases take a command with all of its bytes, or wait for them. -/
theorem pass_command (bytes : List UInt8) :
    match Command.body? bytes with
    | none => (command.pass bytes).commands = [] ∧ (command.pass bytes).desyncs = 0
    | some (c, rest) => command.pass bytes = ((header 0).pass rest).behind [c] 0 := by
  match bytes with
  | motor :: m1 :: m2 :: m3 :: led :: rest =>
    have hp := pass_append (p := command) [motor, m1, m2, m3, led] rfl rfl rest
    by_cases hl : led = 0x07
    · have hs : finishCommand (.ofBytes motor m1 m2 m3 led) =
          ⟨lights (.ofBytes motor m1 m2 m3 led), none, false⟩ :=
        if_pos ((ofByte_eq_custom_iff led).2 hl)
      rw [hs] at hp
      by_cases h48 : 48 ≤ rest.length
      · have ht : (rest.take 48).length = 48 := List.length_take_of_le h48
        have hq := pass_append (p := lights (.ofBytes motor m1 m2 m3 led)) (rest.take 48) ht
          (if_pos ht) (rest.drop 48)
        rw [List.take_append_drop] at hq
        have hc : { Command.ofBytes motor m1 m2 m3 led with
            colours := some (Palette.ofBytes (rest.take 48)) } =
            (Command.ofBytes motor m1 m2 m3 led).withColours (Palette.ofBytes (rest.take 48)) := by
          rw [hl]
          rfl
        simp only [Command.body?, if_pos hl, if_pos h48]
        rw [← hc]
        exact hp.trans ((Pass.behind_nil _).trans hq)
      · simp only [Command.body?, if_pos hl, if_neg h48]
        have hq : (lights (.ofBytes motor m1 m2 m3 led)).pass rest = _ :=
          pass_of_short (Nat.not_le.1 h48)
        rw [hq] at hp
        have := hp.trans (Pass.behind_nil _)
        exact ⟨congrArg Pass.commands this, congrArg Pass.desyncs this⟩
    · have hs : finishCommand (.ofBytes motor m1 m2 m3 led) =
          ⟨header 0, some (.ofBytes motor m1 m2 m3 led), false⟩ :=
        if_neg fun h => hl ((ofByte_eq_custom_iff led).1 h)
      rw [hs] at hp
      simp only [Command.body?, if_neg hl]
      exact hp
  | [] | [_] | [_, _] | [_, _, _] | [_, _, _, _] =>
    rw [pass_of_short (by simp [needed])]
    exact ⟨rfl, rfl⟩

theorem pass_header_append (more : List UInt8) :
    (header 0).pass (OmniDrive.header ++ more) = command.pass more := by
  refine (pass_matched 3 (0xEF :: more)).trans ?_
  exact (pass_header_cons 3 0xEF more).trans (Pass.behind_nil _)

theorem finds_header {rest : List UInt8} (h : ∀ later : List UInt8, later.length < rest.length →
    Finds later) : Finds (OmniDrive.header ++ rest) := by
  have hp := pass_header_append rest
  have hc := pass_command rest
  have hn := Command.next?_header rest
  cases hb : Command.body? rest with
  | none =>
    rw [hb] at hc hn
    constructor
    · rw [hp, Command.allIn_of_next?_eq_none hn]
      exact hc.1
    · rw [hp, Command.falseStartsIn_of_next?_eq_none hn, Command.falseStarts_header]
      exact hc.2
  | some found =>
    obtain ⟨c, later⟩ := found
    rw [hb] at hc hn
    have ih := h later (Command.length_of_body?_eq_some hb)
    constructor
    · rw [hp, hc, Command.allIn_of_next?_eq_some hn]
      exact congrArg (c :: ·) ih.commands
    · rw [hp, hc, Command.falseStartsIn_of_next?_eq_some hn, Command.falseStarts_header]
      exact congrArg (0 + ·) ih.desyncs

/-- A list ends inside a pattern, goes on behind it, or leaves it at some place. -/
theorem pattern_cases {α : Type} [DecidableEq α] (pattern : List α) (l : List α) :
    (∃ i : Fin pattern.length, l = pattern.take i) ∨ (∃ rest, l = pattern ++ rest) ∨
      ∃ (i : Fin pattern.length) (a : α) (rest : List α),
        l = pattern.take i ++ a :: rest ∧ a ≠ pattern.get i := by
  induction pattern generalizing l with
  | nil => exact .inr (.inl ⟨l, rfl⟩)
  | cons p pattern ih =>
    cases l with
    | nil => exact .inl ⟨⟨0, Nat.zero_lt_succ _⟩, rfl⟩
    | cons a l =>
      by_cases ha : a = p
      · subst ha
        rcases ih l with ⟨i, hi⟩ | ⟨rest, hr⟩ | ⟨i, b, rest, hr, hb⟩
        · exact .inl ⟨i.succ, congrArg (a :: ·) hi⟩
        · exact .inr (.inl ⟨rest, congrArg (a :: ·) hr⟩)
        · exact .inr (.inr ⟨i.succ, b, rest, congrArg (a :: ·) hr, hb⟩)
      · exact .inr (.inr ⟨⟨0, Nat.zero_lt_succ _⟩, a, l, rfl, ha⟩)

/-- On every stream the phases find what the search for headers finds. -/
theorem finds (stream : List UInt8) : Finds stream := by
  induction h : stream.length using Nat.strongRecOn generalizing stream with
  | _ n ih =>
    subst h
    rcases pattern_cases OmniDrive.header stream with ⟨i, rfl⟩ | ⟨rest, rfl⟩ | ⟨i, b, rest, rfl, hb⟩
    · exact finds_pending i
    · refine finds_header fun later hl => ih later.length ?_ later rfl
      rw [List.length_append]
      omega
    · change Fin 4 at i
      by_cases hi : i = 0
      · subst hi
        exact finds_skip hb (ih rest.length (by simp) rest rfl)
      · have hpos : 0 < i.val := Nat.pos_of_ne_zero fun hz => hi (Fin.ext hz)
        have hlt : (b :: rest).length < (OmniDrive.header.take i ++ b :: rest).length := by
          have h4 : OmniDrive.header.length = 4 := rfl
          rw [List.length_append, List.length_take, h4]
          omega
        exact finds_broken hi hb (ih _ hlt _ rfl)

end Phase

end OmniDrive.Decoder
