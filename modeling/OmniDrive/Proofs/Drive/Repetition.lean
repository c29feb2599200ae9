import OmniDrive.Proofs.Drive.Pace
import OmniDrive.Proofs.Drive.Watchdog

/-! Velocities that are asked for again and again. A request for the velocities that the drive is
already making for resets its watchdog and does nothing else, so until the watchdog would bite, the
ticks between the requests are those of a drive that was asked once. -/
namespace OmniDrive.Drive

/-- A request for velocities, of the wheels or of the base. -/
inductive Request
  | wheels (targets : Wheels Int8)
  | body (v : BodyVelocity)
  deriving DecidableEq, Repr

namespace Request

def operation : Request → Operation
  | wheels targets => .setVelocities targets
  | body v => .setBodyVelocity v

/-- The speeds that are asked of the wheels, held within the limit. -/
def targets : Request → Except Fault (Wheels Int8)
  | wheels targets => .ok (targets.map clampSpeed)
  | body v => do return (← v.wheelSpeeds).map clampSpeed

/-- A tick, or a request for the same speeds. -/
inductive Repeats (first : Request) : Operation → Prop
  | again (r : Request) : r.targets = first.targets → first.Repeats r.operation
  | tick (replies : Replies) : first.Repeats (.tick replies)

theorem isTick_operation (request : Request) : request.operation.isTick = false := by
  cases request <;> rfl

theorem isCommand_operation (request : Request) : request.operation.isCommand = true := by
  cases request <;> rfl

/-- What a request does is known by the speeds that it asks for. -/
theorem exists_perform_eq {d : Drive} (h : d.ramp.OnCourse) (r : Request) : ∃ asked,
    r.targets = .ok (asked.map clampSpeed) ∧ d.perform r.operation =
      Act.done (d.aimNotices asked)
        ({ d.heard with mode := .velocity, ramp := d.aimed asked }, none) := by
  cases r with
  | wheels targets => exact ⟨targets, rfl, Act.bind_pure_eq_done (setVelocities_eq h targets) _⟩
  | body v =>
    refine ⟨(BodyVelocity.slowed (Gains.mounted.map v.rawSpeed)).map Int8.ofInt, ?_, ?_⟩
    · simp only [targets, BodyVelocity.wheelSpeeds_eq, Word.ok_bind, Word.pure_eq_ok]
    · exact Act.bind_pure_eq_done ((setBodyVelocity_eq d v).trans (setVelocities_eq h _)) _

end Request

/-- The drive makes for these velocities, or has reached them. -/
structure MakesFor (d : Drive) (target : Wheels Int8) : Prop where
  sound : d.Sound
  mode : d.mode = .velocity
  targets : d.ramp.targets = target

variable {d s r : Drive} {target : Wheels Int8} {first : Request}

theorem perform_first (h : d.Sound) (first : Request) : ∃ target notices after,
    first.targets = .ok target ∧ d.perform first.operation = Act.done notices (after, none) ∧
      after.MakesFor target ∧ after.idleTicks = 0 := by
  obtain ⟨asked, ht, hp⟩ := first.exists_perform_eq h.onCourse
  exact ⟨_, _, _, ht, hp, ⟨⟨onCourse_aimed h.onCourse asked, Nat.zero_lt_succ _⟩, rfl,
    targets_aimed d asked⟩, rfl⟩

/-- Asked again for its velocities, the drive only hears. -/
theorem MakesFor.perform_again (h : d.MakesFor target) {again : Request}
    (ht : again.targets = .ok target) :
    d.perform again.operation = Act.done [] (d.heard, none) := by
  obtain ⟨asked, ha, hp⟩ := again.exists_perform_eq h.sound.onCourse
  have same : d.mode = .velocity ∧ asked.map clampSpeed = d.ramp.targets :=
    ⟨h.mode, (Except.ok.inj (ha.symm.trans ht)).trans h.targets.symm⟩
  rw [hp, aimNotices, aimed, if_pos same, if_pos same, ← h.mode]
  rfl

/-- A tick before the watchdog bites moves the ramp on and counts, and what it sends does not
depend on the count. -/
theorem Sound.perform_tick (h : d.Sound) (early : d.idleTicks + 1 < patience) (replies : Replies) :
    ∃ ramp, d.ramp.tick = .ok ramp ∧ d.perform (.tick replies) =
      Act.done [] ({ d with idleTicks := d.idleTicks + 1, ramp, replies },
        some { d.heard with ramp }.round) := by
  obtain ⟨ramp, hr, hb⟩ := beginTick_eq h
  have counted : d.watched = { d with idleTicks := d.idleTicks + 1 } := if_pos early
  rw [watchNotices, if_pos early, ticked, counted] at hb
  rw [counted] at hr
  exact ⟨ramp, hr, Act.bind_pure_eq_done hb _⟩

theorem MakesFor.heard (h : d.MakesFor target) : d.heard.MakesFor target :=
  ⟨⟨h.sound.onCourse, Nat.zero_lt_succ _⟩, h.mode, h.targets⟩

theorem MakesFor.ticked {ramp : Ramp} (h : d.MakesFor target) (hr : d.ramp.tick = .ok ramp)
    (early : d.idleTicks + 1 < patience) (replies : Replies) :
    MakesFor { d with idleTicks := d.idleTicks + 1, ramp, replies } target := by
  obtain ⟨next, hn, onCourse, same, -⟩ := h.sound.onCourse.tick
  obtain rfl : next = ramp := Except.ok.inj (hn.symm.trans hr)
  exact ⟨⟨onCourse, early⟩, h.mode, same.trans h.targets⟩

/-- On a sound drive any operations are a run. -/
theorem Sound.exists_run (h : d.Sound) (operations : List Operation) : ∃ moments last,
    Act.run perform d operations = .ok (moments, last) := by
  have step (past : List Moment) (d : Drive) (operation : Operation) (h : d.Sound) :
      ∃ notices round after, d.perform operation = Act.done notices (after, round) ∧
        after.Sound := by
    obtain ⟨notices, round, after, hp, hm⟩ := perform_moves h operation
    exact ⟨notices, round, after, hp, hm.sound h⟩
  obtain ⟨moments, last, run, -⟩ := Act.run_keeps step operations [] d h
  exact ⟨moments, last, run⟩

/-- What shows in each tick of a run: the drive apart from its watchdog, and what was sent. -/
def shown (moments : List Moment) : List (Drive × Option Round) :=
  (moments.filter fun m => m.operation.isTick).map fun m => (m.after.heard, m.result)

theorem shown_cons_request {notices : List Notice} {round : Option Round} (again : Request)
    (moments : List Moment) :
    shown (⟨d, again.operation, notices, round, s⟩ :: moments) = shown moments := by
  cases again <;> rfl

theorem shown_cons_tick {notices : List Notice} {round : Option Round} (replies : Replies)
    (moments : List Moment) :
    shown (⟨d, .tick replies, notices, round, s⟩ :: moments) =
      (s.heard, round) :: shown moments := rfl

theorem heard_ticked (same : s.heard = r.heard) (ramp : Ramp) (replies : Replies) (m n : Nat) :
    heard { s with idleTicks := m, ramp, replies } = heard { r with idleTicks := n, ramp, replies } :=
  congrArg (fun d : Drive => { d with ramp, replies }) same

/-- Two drives that differ in their watchdogs only show the same until the one that is not asked
again would be stopped, though the other is asked again in between. -/
theorem runs_alike (same : s.heard = r.heard) (hs : s.MakesFor target) (hr : r.MakesFor target)
    (fresher : r.idleTicks ≤ s.idleTicks) (ht : first.targets = .ok target)
    {later : List Operation} (repeats : ∀ operation ∈ later, first.Repeats operation) :
    ∃ once sLast again rLast,
      Act.run perform s (later.filter Operation.isTick) = .ok (once, sLast) ∧
      Act.run perform r later = .ok (again, rLast) ∧
      (shown once).take (49 - s.idleTicks) = (shown again).take (49 - s.idleTicks) := by
  induction later generalizing s r with
  | nil => exact ⟨[], s, [], r, rfl, rfl, rfl⟩
  | cons operation later ih =>
    obtain ⟨here, there⟩ := List.forall_mem_cons.1 repeats
    cases here with
    | again request hq =>
      obtain ⟨once, sLast, again, rLast, h1, h2, h3⟩ :=
        ih (r := r.heard) same hs hr.heard (Nat.zero_le _) there
      have hp := hr.perform_again (hq.trans ht)
      refine ⟨once, sLast, _, rLast, ?_, Act.run_cons hp h2, ?_⟩
      · rwa [List.filter_cons_of_neg (Bool.eq_false_iff.1 request.isTick_operation)]
      · rwa [shown_cons_request]
    | tick replies =>
      rw [List.filter_cons_of_pos rfl]
      by_cases early : s.idleTicks + 1 < patience
      · have early' : r.idleTicks + 1 < patience := by omega
        obtain ⟨ramp, hsr, hsp⟩ := hs.sound.perform_tick early replies
        obtain ⟨ramp', hrr, hrp⟩ := hr.sound.perform_tick early' replies
        have same_ramp : s.heard.ramp = r.heard.ramp := congrArg Drive.ramp same
        change s.ramp = r.ramp at same_ramp
        rw [same_ramp] at hsr
        obtain rfl : ramp = ramp' := Except.ok.inj (hsr.symm.trans hrr)
        have same' := heard_ticked same ramp replies (s.idleTicks + 1) (r.idleTicks + 1)
        obtain ⟨once, sLast, again, rLast, h1, h2, h3⟩ := ih same'
          (hs.ticked (same_ramp ▸ hsr) early replies) (hr.ticked hrr early' replies)
          (Nat.succ_le_succ fresher) there
        refine ⟨_, sLast, _, rLast, Act.run_cons hsp h1, Act.run_cons hrp h2, ?_⟩
        have left : 49 - s.idleTicks = (49 - (s.idleTicks + 1)) + 1 := by
          unfold patience at early
          omega
        rw [shown_cons_tick, shown_cons_tick, left, List.take_succ_cons, List.take_succ_cons, h3,
          same', same]
      · obtain ⟨once, sLast, h1⟩ :=
          hs.sound.exists_run (.tick replies :: later.filter Operation.isTick)
        obtain ⟨again, rLast, h2⟩ := hr.sound.exists_run (.tick replies :: later)
        have nothing_left : 49 - s.idleTicks = 0 := by
          unfold patience at early
          omega
        refine ⟨once, sLast, again, rLast, h1, h2, ?_⟩
        rw [nothing_left, List.take_zero, List.take_zero]

/-- The drive is asked often enough: at no time have more than 49 ticks gone by unasked. -/
def Frequent (operations : List Operation) : Prop :=
  ∀ front, front <+: operations → silence front ≤ 49

/-- The drive makes for its velocities and will be there when 200 ticks have gone by. -/
structure OnItsWay (d : Drive) (target : Wheels Int8) (operations : List Operation) : Prop where
  makesFor : d.MakesFor target
  count : d.idleTicks = silence operations
  left : d.ramp.total ≤ d.ramp.elapsed + (200 - operations.countP Operation.isTick)

theorem OnItsWay.perform_again {operations : List Operation} (h : d.OnItsWay target operations)
    (again : Request) : d.heard.OnItsWay target (operations ++ [again.operation]) := by
  refine ⟨h.makesFor.heard, ?_, ?_⟩
  · rw [silence_append, if_pos again.isCommand_operation]
    rfl
  · rw [List.countP_append, List.countP_singleton, again.isTick_operation]
    exact h.left

theorem OnItsWay.perform_tick {operations : List Operation} (h : d.OnItsWay target operations)
    {ramp : Ramp} (hr : d.ramp.tick = .ok ramp) (early : d.idleTicks + 1 < patience)
    (replies : Replies) : OnItsWay { d with idleTicks := d.idleTicks + 1, ramp, replies } target
      (operations ++ [.tick replies]) := by
  refine ⟨h.makesFor.ticked hr early replies, ?_, ?_⟩
  · rw [silence_append, ← h.count]
    rfl
  · obtain ⟨next, hn, -, -, total, elapsed⟩ := h.makesFor.sound.onCourse.tick
    obtain rfl : next = ramp := Except.ok.inj (hn.symm.trans hr)
    have before := h.left
    rw [List.countP_append]
    change next.total ≤ next.elapsed + (200 - (operations.countP Operation.isTick + 1))
    omega

theorem total_le_of_onCourse {ramp : Ramp} (h : ramp.OnCourse) : ramp.total ≤ 200 := by
  obtain ⟨_, hs, ht⟩ := h
  exact Ramp.span_le hs ht

/-- What holds of a drive while the same velocities are asked for again and again. -/
structure Guided (first : Request) (target : Wheels Int8) (past : List Moment) (d : Drive) :
    Prop where
  sound : d.Sound
  onItsWay : (∀ m ∈ past, first.Repeats m.operation) → Frequent (past.map Act.Moment.operation) →
    d.OnItsWay target (past.map Act.Moment.operation)

theorem Guided.step (ht : first.targets = .ok target) (past : List Moment) (d : Drive)
    (operation : Operation) (h : Guided first target past d) : ∃ notices round after,
      d.perform operation = Act.done notices (after, round) ∧
        Guided first target (past ++ [⟨d, operation, notices, round, after⟩]) after := by
  obtain ⟨notices, round, after, hp, hm⟩ := perform_moves h.sound operation
  refine ⟨notices, round, after, hp, hm.sound h.sound, fun repeats frequent => ?_⟩
  obtain ⟨earlier, here⟩ := List.forall_mem_append.1 repeats
  rw [List.map_append, List.map_singleton] at frequent ⊢
  have before := h.onItsWay earlier fun front hf => frequent front (hf.trans (List.prefix_append ..))
  cases here _ List.mem_cons_self with
  | again request hq =>
    cases hp.symm.trans (before.makesFor.perform_again (hq.trans ht))
    exact before.perform_again request
  | tick replies =>
    have early : d.idleTicks + 1 < patience := by
      have unasked := frequent _ (List.prefix_refl _)
      rw [silence_append, ← before.count] at unasked
      exact Nat.lt_succ_of_le unasked
    obtain ⟨ramp, hr, hp'⟩ := h.sound.perform_tick early replies
    cases hp.symm.trans hp'
    exact before.perform_tick hr early replies

/-- Asked often enough, the drive is at its velocities from the 200th tick on. -/
def Arrived (target : Wheels Int8) (earlier : List Moment) (m : Moment) : Prop :=
  Frequent ((earlier ++ [m]).map Act.Moment.operation) →
    200 ≤ ((earlier ++ [m]).map Act.Moment.operation).countP Operation.isTick →
      m.after.ramp.speeds = target

theorem Guided.arrived {earlier : List Moment} {m : Moment}
    (h : Guided first target (earlier ++ [m]) m.after)
    (earlierOnes : ∀ n ∈ earlier, first.Repeats n.operation) (here : first.Repeats m.operation) :
    Arrived target earlier m := by
  intro frequent ticks
  have repeats : ∀ n ∈ earlier ++ [m], first.Repeats n.operation :=
    List.forall_mem_append.2 ⟨earlierOnes, List.forall_mem_singleton.2 here⟩
  obtain ⟨makesFor, -, left⟩ := h.onItsWay repeats frequent
  rw [Nat.sub_eq_zero_of_le ticks] at left
  exact (makesFor.sound.onCourse.speeds_eq_targets left).trans makesFor.targets

/-- Asked for velocities again and again, the drive does in the 49 ticks after the first request
what it does when it is asked once. Asked often enough, it reaches them within 200 ticks and keeps
them. -/
theorem repetition_only_heard (past : List Operation) (first : Request) (later : List Operation)
    (repeats : ∀ operation ∈ later, first.Repeats operation) :
    ∃ front d target once sLast again rLast,
      Act.run perform initial past = .ok (front, d) ∧ first.targets = .ok target ∧
      Act.run perform d (first.operation :: later.filter Operation.isTick) = .ok (once, sLast) ∧
      Act.run perform d (first.operation :: later) = .ok (again, rLast) ∧
      (shown once).take 49 = (shown again).take 49 ∧
      ∀ earlier m ahead, again = earlier ++ m :: ahead → Arrived target earlier m := by
  obtain ⟨front, d, hr, sound⟩ := run_sound past
  obtain ⟨target, notices, after, ht, hp, makesFor, fresh⟩ := perform_first sound first
  have start : Guided first target ([] ++ [⟨d, first.operation, notices, none, after⟩]) after := by
    refine ⟨makesFor.sound, fun _ _ => ⟨makesFor, ?_, ?_⟩⟩
    · rw [fresh, List.map_append, List.map_singleton, silence_append,
        if_pos first.isCommand_operation]
    · rw [List.nil_append, List.map_singleton, List.countP_singleton, first.isTick_operation]
      exact Nat.le_trans (total_le_of_onCourse makesFor.sound.onCourse) (Nat.le_add_left ..)
  obtain ⟨moments, last, hm, ho, -, guided⟩ :=
    Act.run_keeps (Guided.step ht) later _ after start
  obtain ⟨once, sLast, again, rLast, h1, h2, alike⟩ :=
    runs_alike rfl makesFor makesFor (Nat.le_refl _) ht repeats
  cases hm.symm.trans h2
  rw [fresh] at alike
  refine ⟨front, d, target, _, sLast, _, last, hr, ht, Act.run_cons hp h1, Act.run_cons hp hm, ?_, ?_⟩
  · rwa [shown_cons_request, shown_cons_request]
  · have here : first.Repeats first.operation := .again first rfl
    have first_arrived := start.arrived (fun _ hn => absurd hn List.not_mem_nil) here
    refine Act.forall_split_cons (P := Arrived target) first_arrived ?_
    intro earlier m ahead split
    obtain ⟨-, -, kept⟩ := guided earlier m ahead split
    rw [← List.append_assoc] at kept
    have there : ∀ n ∈ moments, first.Repeats n.operation :=
      fun n hn => repeats _ (ho ▸ List.mem_map_of_mem hn)
    rw [split, List.append_cons, List.forall_mem_append, List.forall_mem_append,
      List.forall_mem_singleton] at there
    obtain ⟨⟨before, now⟩, -⟩ := there
    refine kept.arrived (List.forall_mem_append.2 ⟨?_, before⟩) now
    exact List.forall_mem_singleton.2 here

/-- A turn too fast for the wheels, after duties and amid requests for speeds beyond the limit. -/
theorem turning_again : ∃ front d target once sLast again rLast,
    Act.run perform initial [.setDuties ⟨40, -7, 0⟩, .tick Replies.initial] = .ok (front, d) ∧
      (Request.body ⟨0, 0, 127⟩).targets = .ok target ∧
      Act.run perform d [.setBodyVelocity ⟨0, 0, 127⟩, .tick Replies.initial] = .ok (once, sLast) ∧
      Act.run perform d [.setBodyVelocity ⟨0, 0, 127⟩, .setVelocities ⟨100, 110, 127⟩,
        .tick Replies.initial, .setBodyVelocity ⟨0, 0, 127⟩] = .ok (again, rLast) ∧
      (shown once).take 49 = (shown again).take 49 ∧
      ∀ earlier m ahead, again = earlier ++ m :: ahead → Arrived target earlier m := by
  refine repetition_only_heard [.setDuties ⟨40, -7, 0⟩, .tick Replies.initial] (.body ⟨0, 0, 127⟩)
    [.setVelocities ⟨100, 110, 127⟩, .tick Replies.initial, .setBodyVelocity ⟨0, 0, 127⟩] ?_
  intro operation h
  rcases List.mem_cons.1 h with rfl | h
  · exact .again (.wheels ⟨100, 110, 127⟩) (by decide)
  · rcases List.mem_cons.1 h with rfl | h
    · exact .tick _
    · rw [List.mem_singleton.1 h]
      exact .again (.body ⟨0, 0, 127⟩) rfl

end OmniDrive.Drive
