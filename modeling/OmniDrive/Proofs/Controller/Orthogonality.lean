import OmniDrive.Proofs.Controller.Input
import Mathlib.Data.List.Forall2

/-! Lighting and motion do not interfere. What a command asks of the lights reaches neither the drive
nor the bus, and what it asks of the wheels and the switches reaches no light. They have the host's
exit in common, which takes both halves of a command. -/
namespace OmniDrive

namespace Command

/-- The same command but for its lighting; exits are confirmed in both or in neither. -/
structure SameMotion (f g : Command) : Prop where
  mode : g.motorMode = f.motorMode
  motion : g.motion = f.motion
  exit : g.IsConfirmedExit ↔ f.IsConfirmedExit

/-- The same command but for its motion; exits are confirmed in both or in neither. -/
structure SameLighting (f g : Command) : Prop where
  mode : g.lightMode = f.lightMode
  colours : g.colours = f.colours
  exit : g.IsConfirmedExit ↔ f.IsConfirmedExit

variable {f g : Command}

@[refl] theorem SameMotion.refl (f : Command) : f.SameMotion f := ⟨rfl, rfl, Iff.rfl⟩

@[refl] theorem SameLighting.refl (f : Command) : f.SameLighting f := ⟨rfl, rfl, Iff.rfl⟩

end Command

/-- The pattern that a call on the board shows. -/
def BoardCall.pattern? : BoardCall → Option LightPattern
  | .lights pattern => some pattern
  | .vref _ | .amplifier _ => none

namespace Controller

/-- The patterns that calls on the board show, in order. -/
def patterns (calls : List BoardCall) : List LightPattern := calls.filterMap BoardCall.pattern?

/-- The calls that switch the reference or the amplifier, in order. -/
def switchings (calls : List BoardCall) : List BoardCall :=
  calls.filter fun call => call.pattern?.isNone

@[simp] theorem patterns_append (first later : List BoardCall) :
    patterns (first ++ later) = patterns first ++ patterns later := List.filterMap_append ..

@[simp] theorem switchings_append (first later : List BoardCall) :
    switchings (first ++ later) = switchings first ++ switchings later := List.filter_append ..

/-- The same operation, but for a command that is applied; the commands are related by `R`. -/
inductive Operation.Applying (R : Command → Command → Prop) : Operation → Operation → Prop
  | same (operation : Operation) : Applying R operation operation
  | apply {f g : Command} : R f g → Applying R (.apply f) (.apply g)

/-- The moments send and switch the same, and leave the same controller behind. -/
structure Moment.MovesAlike (m n : Moment) : Prop where
  round : n.result = m.result
  switchings : switchings (calls n.events) = switchings (calls m.events)
  after : n.after = m.after

/-- The moments show the same patterns. -/
def Moment.ShowsAlike (m n : Moment) : Prop := patterns (calls n.events) = patterns (calls m.events)

variable {c o : Controller} {f g : Command}

theorem driven_sameMotion (h : f.SameMotion g) (d : Drive) : driven d g = driven d f := by
  obtain ⟨mode, light, m1, m2, m3, colours⟩ := f
  obtain ⟨hm, hv, -⟩ := h
  cases hm
  cases hv
  rfl

theorem applied_sameMotion (h : f.SameMotion g) (c : Controller) : c.applied g = c.applied f := by
  simp only [applied, obeyed, h.exit, h.mode, driven_sameMotion h]

@[simp] theorem switchings_lighting (f : Command) : switchings (lighting f) = [] := by
  unfold lighting switchings
  cases LightPattern.ofCommand? f.lightMode f.colours with
  | none => rfl
  | some pattern => rfl

theorem switchings_asked (c : Controller) (f : Command) :
    switchings (c.asked f) = if c.running then switchings (switches f) else [] := by
  unfold asked
  split
  · split
    · simp
    · simp
  · rfl

theorem switchings_switches (h : f.SameMotion g) :
    switchings (switches g) = switchings (switches f) := by
  obtain ⟨mode, light, m1, m2, m3, colours⟩ := f
  obtain ⟨hm, -, hx⟩ := h
  unfold switches
  rw [hm]
  cases mode with
  | exit => simp only [hx]
  | _ => rfl

@[simp] theorem patterns_switches (f : Command) :
    patterns (switches f) = if f.IsConfirmedExit then [.userInterface] else [] := by
  obtain ⟨mode, light, m1, m2, m3, colours⟩ := f
  cases mode with
  | exit =>
    unfold switches
    dsimp only
    split
    · rfl
    · rfl
  | _ => rfl

theorem lighting_sameLighting (h : f.SameLighting g) : lighting g = lighting f := by
  unfold lighting
  rw [h.mode, h.colours]

/-- What decides which patterns are shown. -/
structure SameGate (c o : Controller) : Prop where
  running : o.running = c.running
  disabled : o.commandsDisabled = c.commandsDisabled
  decoder : o.decoder = c.decoder

theorem patterns_asked (hg : SameGate c o) (h : f.SameLighting g) :
    patterns (o.asked g) = patterns (c.asked f) := by
  unfold asked
  rw [hg.running, hg.disabled, lighting_sameLighting h]
  split
  · rw [patterns_append, patterns_append, patterns_switches, patterns_switches]
    simp only [h.exit]
  · rfl

theorem SameGate.applied (hg : SameGate c o) (h : f.SameLighting g) :
    SameGate (c.applied f) (o.applied g) where
  running := by simp only [running_applied_eq, hg.running, h.exit]
  disabled := by
    obtain ⟨_, _, hc⟩ := exists_applied_eq c f
    obtain ⟨_, _, ho⟩ := exists_applied_eq o g
    rw [hc, ho]
    exact hg.disabled
  decoder := by
    obtain ⟨_, _, hc⟩ := exists_applied_eq c f
    obtain ⟨_, _, ho⟩ := exists_applied_eq o g
    rw [hc, ho]
    exact hg.decoder

theorem SameGate.received (hg : SameGate c o) (decoder : Decoder) (command : Option Command) :
    SameGate (c.received decoder command) (o.received decoder command) := by
  cases command with
  | none => exact ⟨hg.running, hg.disabled, rfl⟩
  | some f =>
    have gate : SameGate { c with decoder, commandRead := true }
        { o with decoder, commandRead := true } := ⟨hg.running, hg.disabled, rfl⟩
    exact gate.applied (.refl f)

/-- Both operations complete as given, behind the same gate and with the same patterns. -/
def Lights (c o : Controller) (operation other : Operation) : Prop :=
  ∃ events after round others after' round', c.perform operation = Act.done events (after, round) ∧
    o.perform other = Act.done others (after', round') ∧ SameGate after after' ∧
      patterns (calls others) = patterns (calls events)

theorem lights_apply (hs : c.drive.Sound) (ho : o.drive.Sound) (hg : SameGate c o)
    (h : f.SameLighting g) : Lights c o (.apply f) (.apply g) := by
  obtain ⟨events, hc, hcalls⟩ := apply_done hs f
  obtain ⟨others, ho, hcalls'⟩ := apply_done ho g
  refine ⟨events, c.applied f, none, others, o.applied g, none, Act.bind_pure_eq_done hc _,
    Act.bind_pure_eq_done ho _, hg.applied h, ?_⟩
  rw [hcalls, hcalls']
  exact patterns_asked hg h

theorem lights_takeInput (hs : c.drive.Sound) (ho : o.drive.Sound) (hg : SameGate c o)
    (bytes : List UInt8) : Lights c o (.takeInput bytes) (.takeInput bytes) := by
  obtain ⟨_, decoder, command, _, events, hd, hc, hcalls⟩ := takeInput_done hs bytes
  obtain ⟨_, decoder', command', _, others, hd', ho, hcalls'⟩ := takeInput_done ho bytes
  rw [hg.decoder] at hd'
  cases hd.symm.trans hd'
  refine ⟨events, c.received decoder command, none, others, o.received decoder command, none,
    Act.bind_pure_eq_done hc _, Act.bind_pure_eq_done ho _, hg.received decoder command, ?_⟩
  rw [hcalls, hcalls']
  cases command with
  | none => rfl
  | some f => exact patterns_asked hg (.refl f)

theorem lights_tick (hs : c.drive.Sound) (ho : o.drive.Sound) (hg : SameGate c o)
    (replies : Replies) : Lights c o (.tick replies) (.tick replies) := by
  obtain ⟨_, events, -, hc, hcalls⟩ := tick_done hs replies
  obtain ⟨_, others, -, ho, hcalls'⟩ := tick_done ho replies
  refine ⟨_, _, _, _, _, _, hc, ho, ⟨hg.running, hg.disabled, hg.decoder⟩, ?_⟩
  rw [hcalls, hcalls']

theorem lights_step (hs : c.drive.Sound) (ho : o.drive.Sound) (hg : SameGate c o)
    {operation other : Operation} (h : operation.Applying Command.SameLighting other) :
    Lights c o operation other := by
  cases h with
  | apply h => exact lights_apply hs ho hg h
  | same =>
    cases operation with
    | apply f => exact lights_apply hs ho hg (.refl f)
    | takeInput bytes => exact lights_takeInput hs ho hg bytes
    | tick replies => exact lights_tick hs ho hg replies
    | start =>
      exact ⟨_, _, _, _, _, _, Act.bind_pure_eq_done (start_eq c) _,
        Act.bind_pure_eq_done (start_eq o) _, ⟨rfl, hg.disabled, hg.decoder⟩, rfl⟩
    | stop =>
      exact ⟨_, _, _, _, _, _, Act.bind_pure_eq_done (stop_eq c) _,
        Act.bind_pure_eq_done (stop_eq o) _, ⟨rfl, hg.disabled, hg.decoder⟩, rfl⟩
    | disableCommands | enableCommands =>
      exact ⟨_, _, _, _, _, _, rfl, rfl, ⟨hg.running, rfl, hg.decoder⟩, rfl⟩
    | report | noteError =>
      exact ⟨_, _, _, _, _, _, rfl, rfl, ⟨hg.running, hg.disabled, hg.decoder⟩, rfl⟩

/-- Commands that differ in their lighting are applied alike but for the patterns. -/
theorem moves_apply (hs : c.drive.Sound) (h : f.SameMotion g) :
    ∃ events others after, c.perform (.apply f) = Act.done events (after, none) ∧
      c.perform (.apply g) = Act.done others (after, none) ∧
      switchings (calls others) = switchings (calls events) := by
  obtain ⟨events, hc, hcalls⟩ := apply_done hs f
  obtain ⟨others, ho, hcalls'⟩ := apply_done hs g
  rw [applied_sameMotion h] at ho
  refine ⟨events, others, _, Act.bind_pure_eq_done hc _, Act.bind_pure_eq_done ho _, ?_⟩
  rw [hcalls, hcalls', switchings_asked, switchings_asked, switchings_switches h]

/-- From one controller, operations that differ in the lighting of a command lead to one again. -/
theorem movesAlike_step {m n : Moment} (hs : m.before.drive.Sound) (hm : m.Happens perform)
    (hn : n.Happens perform) (hb : n.before = m.before)
    (ha : m.operation.Applying Command.SameMotion n.operation) : m.MovesAlike n := by
  obtain ⟨c, operation, events, round, after⟩ := m
  obtain ⟨o, other, events', round', after'⟩ := n
  cases hb
  cases ha with
  | same =>
    cases hm.symm.trans hn
    exact ⟨rfl, rfl, rfl⟩
  | apply h =>
    obtain ⟨_, _, _, hc, ho, switched⟩ := moves_apply hs h
    rw [hm.eq hc, hn.eq ho]
    exact ⟨rfl, switched, rfl⟩

theorem showsAlike_step {m n : Moment} (hs : m.before.drive.Sound) (ho : n.before.drive.Sound)
    (hm : m.Happens perform) (hn : n.Happens perform) (hg : SameGate m.before n.before)
    (ha : m.operation.Applying Command.SameLighting n.operation) :
    SameGate m.after n.after ∧ m.ShowsAlike n := by
  obtain ⟨_, _, _, _, _, _, hc, hc', gate, shown⟩ := lights_step hs ho hg ha
  rw [hm.eq hc, hn.eq hc']
  exact ⟨gate, shown⟩

/-- Lighting and motion are orthogonal. Two runs whose commands differ in lighting only send the
same packets, switch the same and leave the same controller behind in every moment; two runs whose
commands differ in motion mode and motion values only show the same patterns. In both cases exits
are confirmed in both runs or in neither. -/
theorem lighting_orthogonal_to_motion (operations others : List Operation) :
    (List.Forall₂ (Operation.Applying Command.SameMotion) operations others →
      ∃ moments last moments' last', initial.run operations = .ok (moments, last) ∧
        initial.run others = .ok (moments', last') ∧ moments.map Act.Moment.operation = operations ∧
        moments'.map Act.Moment.operation = others ∧
        List.Forall₂ Moment.MovesAlike moments moments') ∧
    (List.Forall₂ (Operation.Applying Command.SameLighting) operations others →
      ∃ moments last moments' last', initial.run operations = .ok (moments, last) ∧
        initial.run others = .ok (moments', last') ∧ moments.map Act.Moment.operation = operations ∧
        moments'.map Act.Moment.operation = others ∧
        List.Forall₂ Moment.ShowsAlike moments moments') := by
  constructor
  · intro ha
    exact run_pairs (R := fun c o => o = c)
      (fun m n hs _ hm hn same alike =>
        have moves := movesAlike_step hs hm hn same alike
        ⟨moves.after, moves⟩) ha Drive.sound_initial Drive.sound_initial rfl
  · intro ha
    exact run_pairs (fun m n hs ho hm hn gate alike => showsAlike_step hs ho hm hn gate alike)
      ha Drive.sound_initial Drive.sound_initial ⟨rfl, rfl, rfl⟩

/-- A visit of the host: two commands, the second of them while commands are disabled, and an exit. -/
def visit (first second : Command) : List Operation :=
  [.start, .apply first, .tick .initial, .disableCommands, .apply second, .tick .initial,
    .apply ⟨.exit, .exit, 0, 0, 0, none⟩]

theorem applying_visit {R : Command → Command → Prop} {first second other another : Command}
    (hf : R first other) (hs : R second another) :
    List.Forall₂ (Operation.Applying R) (visit first second) (visit other another) :=
  .cons (.same _) (.cons (.apply hf) (.cons (.same _) (.cons (.same _) (.cons (.apply hs)
    (.cons (.same _) (.cons (.same _) .nil))))))

/-- A visit with other lights, and a visit with other motion. -/
theorem lighting_orthogonal_to_motion_in_visit :
    let drives : Command := ⟨.wheelSpace, .busy, 50, -50, 20, none⟩
    let switches : Command := ⟨.enableAmp, .clear, 0, 0, 0, none⟩
    let dark := visit { drives with lightMode := .none } { switches with lightMode := .exit }
    let still := visit { drives with motorMode := .unknown 9, m1 := 0 }
      { switches with motorMode := .disableVref, m3 := 7 }
    (∃ moments last moments' last', initial.run (visit drives switches) = .ok (moments, last) ∧
      initial.run dark = .ok (moments', last') ∧ List.Forall₂ Moment.MovesAlike moments moments') ∧
    ∃ moments last moments' last', initial.run (visit drives switches) = .ok (moments, last) ∧
      initial.run still = .ok (moments', last') ∧
      List.Forall₂ Moment.ShowsAlike moments moments' := by
  intro drives switches dark still
  have lighting : List.Forall₂ (Operation.Applying Command.SameMotion) (visit drives switches) dark :=
    applying_visit ⟨rfl, rfl, by decide⟩ ⟨rfl, rfl, by decide⟩
  have motion : List.Forall₂ (Operation.Applying Command.SameLighting) (visit drives switches) still :=
    applying_visit ⟨rfl, rfl, by decide⟩ ⟨rfl, rfl, by decide⟩
  obtain ⟨moments, last, moments', last', hr, hr', -, -, moves⟩ :=
    (lighting_orthogonal_to_motion _ _).1 lighting
  obtain ⟨shown, gone, shown', gone', hs, hs', -, -, shows⟩ :=
    (lighting_orthogonal_to_motion _ _).2 motion
  exact ⟨⟨moments, last, moments', last', hr, hr', moves⟩,
    shown, gone, shown', gone', hs, hs', shows⟩

end Controller

end OmniDrive
