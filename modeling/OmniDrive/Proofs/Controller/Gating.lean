import OmniDrive.Proofs.Controller.RecentMotion

/-! While commands are disabled, nothing but a confirmed exit and the order to charge gets through
to the drive: it and all packets are as if no other command had been applied. -/
namespace OmniDrive

/-- A confirmed exit or the order to charge. -/
def Command.Passes (command : Command) : Prop :=
  command.IsConfirmedExit ∨ command.motorMode = .enableCharging

instance (command : Command) : Decidable command.Passes := inferInstanceAs (Decidable (_ ∨ _))

namespace Controller

/-- Neither hands the controller over nor allows commands again. -/
def Operation.IsUnattended : Operation → Prop
  | .start | .stop | .enableCommands => False
  | _ => True

/-- What remains of a moment if only commands that pass are ever applied. -/
def Moment.passed? (m : Moment) : Option Operation :=
  match m.operation with
  | .takeInput _ | .apply _ => (m.command?.filter fun f => f.Passes).map .apply
  | operation => some operation

/-- The drive and who is in charge are the same, and commands are disabled for both. -/
structure Alike (c o : Controller) : Prop where
  drive : o.drive = c.drive
  running : o.running = c.running
  disabled : c.commandsDisabled = true
  disabled' : o.commandsDisabled = true

variable {c o : Controller} {f : Command} {m : Moment}

theorem Alike.refl (h : c.commandsDisabled = true) : Alike c c := ⟨rfl, rfl, h, h⟩

theorem commandsDisabled_applied (c : Controller) (f : Command) :
    (c.applied f).commandsDisabled = c.commandsDisabled := by
  unfold applied
  split
  · split
    · rfl
    · split
      · rfl
      · rfl
  · rfl

/-- A mode that is not gated and does not pass means nothing to the drive. -/
theorem driven_of_not_passes (d : Drive) (hg : ¬ Gated f.motorMode) (hp : ¬ f.Passes) :
    driven d f = d := by
  obtain ⟨mode, light, m1, m2, m3, colours⟩ := f
  cases mode with
  | exit | enableVref | disableVref | enableAmp | disableAmp => rfl
  | enableCharging => exact absurd (.inr rfl) hp
  | wheelSpace | xyThetaSpace | wheelVoltage | disableCharging | unknown => exact (hg trivial).elim

/-- While commands are disabled, a command that does not pass changes nothing. -/
theorem applied_of_not_passes (hd : c.commandsDisabled = true) (hp : ¬ f.Passes) :
    c.applied f = c := by
  have hx : ¬ f.IsConfirmedExit := fun hx => hp (.inl hx)
  unfold applied
  by_cases hr : c.running
  · rw [if_pos hr, if_neg hx]
    by_cases hg : Gated f.motorMode
    · exact if_pos ⟨hd, hg⟩
    · rw [if_neg fun h => hg h.2, obeyed, driven_of_not_passes _ hg hp]
  · exact if_neg hr

theorem Alike.applied (h : Alike c o) (f : Command) : Alike (c.applied f) (o.applied f) := by
  obtain ⟨hd, hr, hc, ho⟩ := h
  refine ⟨?_, ?_, ?_, ?_⟩
  · rw [drive_applied, drive_applied, stopped, stopped, hd, hr, hc, ho]
  · unfold Controller.applied
    rw [hr, hc, ho]
    split
    · split
      · rfl
      · split
        · exact hr
        · exact hr
    · exact hr
  · exact (commandsDisabled_applied c f).trans hc
  · exact (commandsDisabled_applied o f).trans ho

theorem run_singleton {operation : Operation} {events : List Event} {after : Controller}
    {round : Option Round} (h : c.perform operation = Act.done events (after, round)) :
    c.run [operation] = .ok ([⟨c, operation, events, round, after⟩], after) :=
  Act.run_cons h rfl

theorem Moment.passed?_of_isInput (h : m.operation.IsInput) :
    m.passed? = (m.command?.filter fun f => f.Passes).map .apply := by
  obtain ⟨c, operation, events, round, after⟩ := m
  cases operation with
  | takeInput | apply => rfl
  | _ => exact h.elim

/-- It makes no difference whether a command that does not pass is applied. -/
theorem Alike.input (h : Alike c o) (hs : o.drive.Sound) (command : Option Command) :
    ∃ passed after, o.run ((command.filter fun f => f.Passes).map .apply).toList =
        .ok (passed, after) ∧
      Alike (command.elim c c.applied) after ∧ passed.filterMap (·.result) = [] := by
  cases command with
  | none => exact ⟨[], o, rfl, h, rfl⟩
  | some f =>
    by_cases hf : f.Passes
    · rw [Option.filter_some, if_pos (decide_eq_true hf)]
      obtain ⟨_, he, -⟩ := apply_done hs f
      exact ⟨_, _, run_singleton (Act.bind_pure_eq_done he _), h.applied f, rfl⟩
    · rw [Option.filter_some, if_neg fun h => hf (of_decide_eq_true h)]
      refine ⟨[], o, rfl, ?_, rfl⟩
      rw [Option.elim_some, applied_of_not_passes h.disabled hf]
      exact h

/-- A moment of a gated controller and what passes of it lead alike controllers to alike ones and
send the same packets. -/
theorem Alike.step (h : Alike m.before o) (hs : m.before.drive.Sound)
    (hu : m.operation.IsUnattended) (hm : m.Steps) : ∃ passed after,
      o.run m.passed?.toList = .ok (passed, after) ∧ Alike m.after after ∧
        passed.filterMap (·.result) = m.result.toList := by
  obtain ⟨c, operation, events, round, after⟩ := m
  obtain ⟨hd, hrun, hc, ho⟩ := h
  have so : o.drive.Sound := hd ▸ hs
  cases hm with
  | start hop | stop hop =>
    cases hop
    exact hu.elim
  | gate disabled hop hr _ ha =>
    cases disabled with
    | false =>
      cases hop
      exact hu.elim
    | true =>
      cases hop
      cases hr
      change after = { c with commandsDisabled := true } at ha
      subst ha
      exact ⟨_, _, run_singleton rfl, ⟨hd, hrun, rfl, rfl⟩, rfl⟩
  | latch errors hop hr _ ha =>
    cases hr
    change after = { c with errors } at ha
    subst ha
    cases operation with
    | report | noteError => exact ⟨_, _, run_singleton rfl, ⟨hd, hrun, hc, ho⟩, rfl⟩
    | _ => exact hop.elim
  | tick replies ramp hop ht hr _ ha =>
    cases hop
    change round = some (c.drive.ticked ramp).round at hr
    change after = answered { c with drive := c.drive.ticked ramp } replies at ha
    subst hr ha
    obtain ⟨other, _, hother, hrun', -⟩ := tick_done so replies
    rw [hd] at hother hrun'
    obtain rfl : ramp = other := Except.ok.inj (ht.symm.trans hother)
    exact ⟨_, _, run_singleton hrun', ⟨rfl, hrun, hc, ho⟩, rfl⟩
  | input decoder commandRead hop hr _ ha =>
    cases hr
    have heard : Alike { c with decoder, commandRead } o := ⟨hd, hrun, hc, ho⟩
    rw [Moment.passed?_of_isInput hop]
    obtain ⟨passed, last, hp, alike, hn⟩ := heard.input so (Moment.command? _)
    exact ⟨passed, last, hp, ha.symm ▸ alike, hn⟩

/-- What a moment asks of the board while commands are disabled. -/
def Moment.switching (m : Moment) : List BoardCall :=
  match m.operation with
  | .tick replies => shown replies
  | _ => if m.before.running then m.command?.elim [] switches else []

theorem calls_gated (hd : m.before.commandsDisabled = true) (hu : m.operation.IsUnattended)
    (hm : m.Steps) : calls m.events = m.switching := by
  obtain ⟨c, operation, events, round, after⟩ := m
  cases hm with
  | start hop | stop hop =>
    cases hop
    exact hu.elim
  | gate disabled hop _ hc =>
    cases disabled with
    | true =>
      cases hop
      exact hc.trans (ite_self _).symm
    | false =>
      cases hop
      exact hu.elim
  | latch errors hop _ hc =>
    cases operation with
    | report | noteError => exact hc.trans (ite_self _).symm
    | _ => exact hop.elim
  | tick replies ramp hop _ _ hc =>
    cases hop
    exact hc
  | input decoder commandRead hop _ hc =>
    have hs : Moment.switching ⟨c, operation, events, round, after⟩ = if c.running then
        (Moment.command? ⟨c, operation, events, round, after⟩).elim [] switches else [] := by
      cases operation with
      | takeInput | apply => rfl
      | _ => exact hop.elim
    rw [hs, hc]
    cases Moment.command? ⟨c, operation, events, round, after⟩ with
    | none => exact (ite_self _).symm
    | some f =>
      change c.asked f = _
      rw [asked, if_pos hd, List.append_nil]
      rfl

theorem chargingEnabled_applied (hd : c.commandsDisabled = true)
    (h : c.drive.chargingEnabled = true) (f : Command) :
    (c.applied f).drive.chargingEnabled = true := by
  by_cases hf : f.Passes
  · rw [drive_applied]
    split
    · split
      · exact h
      · split
        · exact h
        · rcases hf with hx | hm
          · contradiction
          · rw [driven, hm]
    · exact h
  · rw [applied_of_not_passes hd hf]
    exact h

theorem charging_gated (hd : m.before.commandsDisabled = true) (hm : m.Steps)
    (h : m.before.drive.chargingEnabled = true) : m.after.drive.chargingEnabled = true := by
  cases hm with
  | start _ _ _ ha | stop _ _ _ ha | gate _ _ _ _ ha | latch _ _ _ _ ha =>
    rw [ha]
    exact h
  | tick replies ramp _ _ _ _ ha =>
    rw [ha]
    exact (Drive.chargingEnabled_watched _).trans h
  | input decoder commandRead _ _ _ ha =>
    rw [ha]
    cases m.command? with
    | none => exact h
    | some f =>
      exact chargingEnabled_applied (c := { m.before with decoder, commandRead }) hd h f

/-- The order in force came before a stretch without any. -/
theorem InForce.ticksIn_le {older recent since : List Moment}
    (h : InForce (older ++ recent) f since)
    (hn : ∀ m ∈ recent, ∀ f, ¬ m.Orders f) : ticksIn recent ≤ ticksIn since := by
  obtain ⟨front, order, hs, ho, -⟩ := h
  rcases List.append_eq_append_iff.1 hs with ⟨between, -, hr⟩ | ⟨between, -, hr⟩
  · exact (hn order (hr ▸ List.mem_append_right _ List.mem_cons_self) f ho).elim
  · cases between with
    | nil =>
      rw [List.nil_append] at hr
      have hm : order ∈ recent := hr ▸ List.mem_cons_self
      exact (hn order hm f ho).elim
    | cons first rest =>
      have later : since = rest ++ recent := (List.cons.inj hr).2
      rw [later, ticksIn, ticksIn, List.countP_append]
      exact Nat.le_add_left ..

/-- Fifty ticks after the last motion command the wheels are on their way to rest, and at rest if
they were given duties or after a hundred ticks more. -/
theorem Guided.resting {older recent : List Moment} (h : Guided (older ++ recent) c)
    (hn : ∀ m ∈ recent, ∀ f, ¬ m.Orders f) (ht : 50 ≤ ticksIn recent) :
    c.drive.ramp.targets = Wheels.fill 0 ∧
      (c.drive.mode = .voltage ∨ 149 ≤ ticksIn recent → c.drive.ramp.speeds = Wheels.fill 0) := by
  have hs := h.sound
  have ht' := hs.inTime
  unfold Drive.patience at ht'
  rcases h.motion with rest | ⟨f, since, hf, -, young | ⟨hv, -, near⟩⟩
  · exact ⟨rest.1, fun _ => Drive.speeds_of_stopping hs.onCourse rest⟩
  · have := hf.ticksIn_le hn
    omega
  · have := hf.ticksIn_le hn
    refine ⟨near.1, ?_⟩
    rintro (hm | late)
    · exact nomatch hv.symm.trans hm
    · have hz : 149 - ticksIn since = 0 := by omega
      rw [hz] at near
      exact Drive.speeds_of_stopping hs.onCourse near

theorem filterMap_singleton {α β : Type} (f : α → Option β) (a : α) :
    [a].filterMap f = (f a).toList := by
  cases h : f a with
  | none => exact List.filterMap_cons_none h
  | some b => exact List.filterMap_cons_some h

/-- What a run keeps that set out from `first` after the moments `front`: if commands were disabled
there, what passes of it leads to an alike controller. -/
structure Shadowed (front : List Moment) (first : Controller) (past : List Moment)
    (c : Controller) : Prop where
  guided : Guided (front ++ past) c
  shadow : first.commandsDisabled = true → (∀ m ∈ past, m.operation.IsUnattended) →
    ∃ passed other, first.run (past.filterMap Moment.passed?) = .ok (passed, other) ∧
      Alike c other ∧ passed.filterMap (·.result) = past.filterMap (·.result)

theorem Shadowed.step {front past : List Moment} {first : Controller}
    (h : Shadowed front first past m.before) (hm : m.Steps) :
    Shadowed front first (past ++ [m]) m.after := by
  refine ⟨?_, fun hd hu => ?_⟩
  · rw [← List.append_assoc]
    exact h.guided.step hm.moves
  · rw [List.forall_mem_append, List.forall_mem_singleton] at hu
    obtain ⟨passed, other, hp, alike, rounds⟩ := h.shadow hd hu.1
    obtain ⟨more, after, hq, alike, round⟩ := alike.step h.guided.sound hu.2 hm
    refine ⟨passed ++ more, after, ?_, alike, ?_⟩
    · rw [List.filterMap_append, filterMap_singleton]
      exact (Act.run_append_of_ok hp _).trans (congrArg _ hq)
    · rw [List.filterMap_append, List.filterMap_append, filterMap_singleton, rounds, round]

/-- What shows of a stretch that found commands disabled after the moments `front`. -/
structure Sealed (front : List Moment) (first : Controller) (gated : List Moment)
    (last : Controller) : Prop where
  /-- The drive and all packets are as if only what passes had happened. -/
  asIf : ∃ passed other, first.run (gated.filterMap Moment.passed?) = .ok (passed, other) ∧
    other.drive = last.drive ∧ other.running = last.running ∧
    passed.filterMap (·.result) = gated.filterMap (·.result)
  disabled : ∀ m ∈ gated, m.before.commandsDisabled = true ∧ m.after.commandsDisabled = true
  charging : ∀ m ∈ gated, m.before.drive.chargingEnabled = true →
    m.after.drive.chargingEnabled = true
  board : ∀ m ∈ gated, calls m.events = m.switching
  resting : ∀ older since, front = older ++ since → (∀ m ∈ since, ∀ f, ¬ m.Orders f) →
    50 ≤ ticksIn (since ++ gated) → last.drive.ramp.targets = Wheels.fill 0 ∧
      (last.drive.mode = .voltage ∨ 149 ≤ ticksIn (since ++ gated) →
        last.drive.ramp.speeds = Wheels.fill 0)

theorem Shadowed.disabled {front past : List Moment} {first : Controller}
    (h : Shadowed front first past c) (hd : first.commandsDisabled = true)
    (hu : ∀ m ∈ past, m.operation.IsUnattended) : c.commandsDisabled = true := by
  obtain ⟨_, _, _, alike, _⟩ := h.shadow hd hu
  exact alike.disabled

/-- After any run, over any stretch in which nobody hands the controller over or allows commands
again: if commands were disabled before it, none but those that pass have leaked through. -/
theorem gate_leaks_nothing (past stretch : List Operation)
    (hu : ∀ operation ∈ stretch, operation.IsUnattended) :
    ∃ front first gated last, initial.run past = .ok (front, first) ∧
      first.run stretch = .ok (gated, last) ∧ gated.map Act.Moment.operation = stretch ∧
      (first.commandsDisabled = true → Sealed front first gated last) := by
  obtain ⟨front, first, hr, -, guided, -⟩ := run_guided past
  have h : Shadowed front first [] first :=
    ⟨(List.append_nil front).symm ▸ guided, fun hd _ => ⟨[], first, rfl, .refl hd, rfl⟩⟩
  obtain ⟨gated, last, hg, ho, hl, hm⟩ := Act.run_keeps
    (perform_keeps (Shadowed front first) (fun _ _ h => h.guided.sound) fun _ _ => .step)
    stretch [] first h
  refine ⟨front, first, gated, last, hr, hg, ho, fun hd => ?_⟩
  have unattended : ∀ m ∈ gated, m.operation.IsUnattended := by
    intro m mem
    exact hu _ (ho ▸ List.mem_map_of_mem mem)
  -- A moment is looked at with what the stretch has kept up to it.
  have at_moment : ∀ m : Moment, m ∈ gated → m.before.commandsDisabled = true ∧ m.Steps ∧
      m.after.commandsDisabled = true := by
    intro m mem
    obtain ⟨earlier, later, rfl⟩ := List.append_of_mem mem
    obtain ⟨before, happens, after⟩ := hm earlier m later rfl
    have some := fun n hn => unattended n (List.mem_append_left _ hn)
    have more : ∀ n ∈ [] ++ earlier ++ [m], n.operation.IsUnattended := by
      rw [List.nil_append, List.forall_mem_append, List.forall_mem_singleton]
      exact ⟨some, unattended m mem⟩
    exact ⟨before.disabled hd some, steps_of_happens before.guided.sound happens,
      after.disabled hd more⟩
  refine ⟨?_, fun m mem => ?_, fun m mem => ?_, fun m mem => ?_, ?_⟩
  · obtain ⟨passed, other, hp, alike, rounds⟩ := hl.shadow hd unattended
    exact ⟨passed, other, hp, alike.drive, alike.running, rounds⟩
  · exact ⟨(at_moment m mem).1, (at_moment m mem).2.2⟩
  · exact charging_gated (at_moment m mem).1 (at_moment m mem).2.1
  · exact calls_gated (at_moment m mem).1 (unattended m mem) (at_moment m mem).2.1
  · rintro older since rfl hs
    have guided := hl.guided
    rw [List.nil_append, List.append_assoc] at guided
    refine guided.resting ?_
    rw [List.forall_mem_append]
    exact ⟨hs, fun m mem f order => order.2.2.2 (at_moment m mem).1⟩

/-- A turning drive finds commands disabled; it is told to turn faster, to stop charging and to
exit. -/
theorem gate_leaks_nothing_turning :
    let past : List Operation :=
      [.start, .apply ⟨.wheelSpace, .none, 50, 50, 50, none⟩, .disableCommands]
    let stretch : List Operation := [.tick .initial, .apply ⟨.wheelVoltage, .busy, 90, 0, 0, none⟩,
      .apply ⟨.disableCharging, .none, 0, 0, 0, none⟩, .tick .initial,
      .apply ⟨.exit, .exit, 0, 0, 0, none⟩, .tick .initial]
    (∀ operation ∈ stretch, operation.IsUnattended) ∧
      ∃ front first gated last, initial.run past = .ok (front, first) ∧
        first.run stretch = .ok (gated, last) ∧ first.commandsDisabled = true ∧
        Sealed front first gated last := by
  intro past stretch
  have hu : ∀ operation ∈ stretch, operation.IsUnattended := by
    simp [stretch, Operation.IsUnattended]
  obtain ⟨front, first, gated, last, hr, hg, -, hs⟩ := gate_leaks_nothing past stretch hu
  have hd : (initial.run past).map (·.2.commandsDisabled) = .ok true := rfl
  rw [hr] at hd
  have hd : first.commandsDisabled = true := Except.ok.inj hd
  exact ⟨hu, front, first, gated, last, hr, hg, hd, hs hd⟩

end Controller

end OmniDrive
