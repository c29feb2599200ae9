import Mathlib.Data.List.Forall2
import OmniDrive.Act

/-! Runs of steps, one operation after the other. What every step keeps, a run keeps; and a run
completes if every step does from where the run has come. -/
namespace OmniDrive.Act

variable {σ ο ω ρ α β : Type}

/-- A completed sequence completed in both of its parts. -/
theorem exists_of_bind_eq_done {x : Act ω α} {f : α → Act ω β} {events : List ω} {b : β}
    (h : (x >>= f) = done events b) :
    ∃ first a later, x = done first a ∧ f a = done later b ∧ events = first ++ later := by
  change Act.bind x f = _ at h
  unfold Act.bind at h
  split at h
  · cases h
  · rename_i first a
    split at h
    · cases h
    · rename_i later b' hf
      cases h
      exact ⟨first, a, later, rfl, hf, rfl⟩

/-- A step that cannot say anything leaves the saying to what follows it. -/
theorem exists_of_lift_bind_eq_done {x : Except Fault α} {f : α → Act ω β} {events : List ω} {b : β}
    (h : (liftM x >>= f) = done events b) : ∃ a, x = .ok a ∧ f a = done events b := by
  cases x with
  | error e => cases h
  | ok a =>
    rw [lift_ok, silent_bind] at h
    exact ⟨a, rfl, h⟩

/-- One operation of a run: what it was, what it emitted and what came of it. -/
structure Moment (σ ο ω ρ : Type) where
  before : σ
  operation : ο
  events : List ω
  result : ρ
  after : σ

/-- Carry out operations in order; a fault ends the run. -/
def run (perform : σ → ο → Act ω (σ × ρ)) (s : σ) :
    List ο → Except Fault (List (Moment σ ο ω ρ) × σ)
  | [] => .ok ([], s)
  | operation :: later => do
    let (events, after, result) ← (perform s operation).outcome
    let (moments, last) ← run perform after later
    return (⟨s, operation, events, result, after⟩ :: moments, last)

/-- A run goes on from where its first operation has led. -/
theorem run_cons {perform : σ → ο → Act ω (σ × ρ)} {s after last : σ} {operation : ο}
    {later : List ο} {events : List ω} {result : ρ} {moments : List (Moment σ ο ω ρ)}
    (h : perform s operation = done events (after, result))
    (hr : run perform after later = .ok (moments, last)) :
    run perform s (operation :: later) =
      .ok (⟨s, operation, events, result, after⟩ :: moments, last) := by
  simp only [run, h, done, outcome, hr, Word.ok_bind, Word.pure_eq_ok]

/-- The moment is what its operation does. -/
def Moment.Happens (perform : σ → ο → Act ω (σ × ρ)) (m : Moment σ ο ω ρ) : Prop :=
  perform m.before m.operation = done m.events (m.after, m.result)

/-- What happens in a moment is determined by its operation. -/
theorem Moment.Happens.eq {perform : σ → ο → Act ω (σ × ρ)} {m : Moment σ ο ω ρ} {events : List ω}
    {after : σ} {result : ρ} (hm : m.Happens perform)
    (h : perform m.before m.operation = done events (after, result)) :
    m = ⟨m.before, m.operation, events, result, after⟩ := by
  obtain ⟨before, operation, events', result', after'⟩ := m
  have same : done events' (after', result') = done events (after, result) := hm.symm.trans h
  cases same
  rfl

/-- There is one moment only in which an operation is carried out from some state. -/
theorem Moment.Happens.unique {perform : σ → ο → Act ω (σ × ρ)} {m n : Moment σ ο ω ρ}
    (hm : m.Happens perform) (hn : n.Happens perform) (hb : n.before = m.before)
    (ho : n.operation = m.operation) : n = m := by
  obtain ⟨before, operation, events, result, after⟩ := m
  cases hb
  cases ho
  exact hn.eq hm

theorem Moment.Happens.after_eq {perform : σ → ο → Act ω (σ × ρ)} {m : Moment σ ο ω ρ}
    {operation : ο} {events : List ω} {after : σ} {result : ρ} (hm : m.Happens perform)
    (ho : m.operation = operation) (h : perform m.before operation = done events (after, result)) :
    m.after = after := by
  subst ho
  exact congrArg Moment.after (hm.eq h)

/-- What holds of the first element and of each later one behind all before it holds of each. -/
theorem forall_split_cons {P : List α → α → Prop} {past rest : List α} {a : α} (here : P past a)
    (there : ∀ earlier b later, rest = earlier ++ b :: later → P (past ++ [a] ++ earlier) b) :
    ∀ earlier b later, a :: rest = earlier ++ b :: later → P (past ++ earlier) b := by
  intro earlier b later hs
  rcases List.cons_eq_append_iff.1 hs with ⟨rfl, same⟩ | ⟨front, rfl, same⟩
  · cases same
    rwa [List.append_nil]
  · have behind := there front b later same
    rwa [List.append_assoc] at behind

/-- A run goes on until it is over or an operation faults; up to there it keeps what every completed
operation keeps. -/
theorem run_until {perform : σ → ο → Act ω (σ × ρ)} {Kept : List (Moment σ ο ω ρ) → σ → Prop}
    (step : ∀ past (m : Moment σ ο ω ρ), Kept past m.before → m.Happens perform →
      Kept (past ++ [m]) m.after)
    (operations : List ο) (past : List (Moment σ ο ω ρ)) (s : σ) (h : Kept past s) :
    ∃ moments last rest, operations = moments.map Moment.operation ++ rest ∧
      run perform s (moments.map Moment.operation) = .ok (moments, last) ∧
      Kept (past ++ moments) last ∧
      (∀ earlier m later, moments = earlier ++ m :: later →
        Kept (past ++ earlier) m.before ∧ m.Happens perform) ∧
      (rest = [] ∨ ∃ operation later f, rest = operation :: later ∧
        perform last operation = fault f ∧ run perform s operations = .error f) := by
  induction operations generalizing past s with
  | nil =>
    refine ⟨[], s, [], rfl, rfl, ?_, ?_, .inl rfl⟩
    · rwa [List.append_nil]
    · intro earlier m later hs
      simp at hs
  | cons operation operations ih =>
    rcases hp : perform s operation with f | ⟨events, after, result⟩
    · refine ⟨[], s, operation :: operations, rfl, rfl, ?_, ?_, ?_⟩
      · rwa [List.append_nil]
      · intro earlier m later hs
        simp at hs
      · refine .inr ⟨operation, operations, f, rfl, hp, ?_⟩
        rw [run, hp]
        rfl
    · have happens : Moment.Happens perform ⟨s, operation, events, result, after⟩ := hp
      obtain ⟨moments, last, rest, ho, hr, hl, hm, hs⟩ := ih _ after (step past _ h happens)
      rw [List.append_assoc] at hl
      refine ⟨⟨s, operation, events, result, after⟩ :: moments, last, rest, ?_, ?_, hl,
        forall_split_cons (P := fun past m => Kept past m.before ∧ m.Happens perform)
          ⟨h, happens⟩ hm, ?_⟩
      · rw [List.map_cons, List.cons_append, ← ho]
      · exact run_cons hp hr
      · refine hs.imp_right ?_
        rintro ⟨next, later, f, rfl, hf, hrun⟩
        refine ⟨next, later, f, rfl, hf, ?_⟩
        simp only [run, hp, outcome, hrun, Word.ok_bind]
        rfl

/-- A run completes and keeps what every operation keeps; `Kept` may speak of the past. -/
theorem run_keeps {perform : σ → ο → Act ω (σ × ρ)} {Kept : List (Moment σ ο ω ρ) → σ → Prop}
    (step : ∀ past s operation, Kept past s → ∃ events result after,
      perform s operation = done events (after, result) ∧
        Kept (past ++ [⟨s, operation, events, result, after⟩]) after)
    (operations : List ο) (past : List (Moment σ ο ω ρ)) (s : σ) (h : Kept past s) :
    ∃ moments last, run perform s operations = .ok (moments, last) ∧
      moments.map Moment.operation = operations ∧ Kept (past ++ moments) last ∧
      ∀ earlier m later, moments = earlier ++ m :: later →
        Kept (past ++ earlier) m.before ∧ m.Happens perform ∧
          Kept (past ++ (earlier ++ [m])) m.after := by
  have kept (past) (m : Moment σ ο ω ρ) (h : Kept past m.before) (hm : m.Happens perform) :
      Kept (past ++ [m]) m.after := by
    obtain ⟨_, _, _, hp, hk⟩ := step past m.before m.operation h
    rw [hm.eq hp]
    exact hk
  obtain ⟨moments, last, rest, ho, hr, hl, hm, ending⟩ := run_until kept operations past s h
  have nothing_left : rest = [] := by
    refine ending.resolve_right ?_
    rintro ⟨operation, _, _, -, hf, -⟩
    obtain ⟨_, _, _, hp, -⟩ := step _ last operation hl
    cases hf.symm.trans hp
  rw [nothing_left, List.append_nil] at ho
  subst ho
  refine ⟨moments, last, hr, rfl, hl, fun earlier m later hs => ?_⟩
  obtain ⟨before, happens⟩ := hm earlier m later hs
  rw [← List.append_assoc]
  exact ⟨before, happens, kept _ m before happens⟩

/-- Two runs complete and match moment by moment, if any two operations that are alike complete and
keep the states related. -/
theorem run_pairs {perform : σ → ο → Act ω (σ × ρ)} {R : σ → σ → Prop} {Alike : ο → ο → Prop}
    {Matched : Moment σ ο ω ρ → Moment σ ο ω ρ → Prop}
    (step : ∀ s t operation other, R s t → Alike operation other →
      ∃ events result after events' result' after',
        perform s operation = done events (after, result) ∧
        perform t other = done events' (after', result') ∧ R after after' ∧
        Matched ⟨s, operation, events, result, after⟩ ⟨t, other, events', result', after'⟩)
    {operations others : List ο} (ha : List.Forall₂ Alike operations others) {s t : σ}
    (h : R s t) :
    ∃ moments last moments' last', run perform s operations = .ok (moments, last) ∧
      run perform t others = .ok (moments', last') ∧
      moments.map Moment.operation = operations ∧ moments'.map Moment.operation = others ∧
      List.Forall₂ Matched moments moments' := by
  induction ha generalizing s t with
  | nil => exact ⟨[], s, [], t, rfl, rfl, rfl, rfl, .nil⟩
  | @cons operation other operations others alike _ ih =>
    obtain ⟨_, _, _, _, _, _, hp, hp', related, matched⟩ := step s t operation other h alike
    obtain ⟨moments, last, moments', last', hr, hr', ho, ho', later⟩ := ih related
    refine ⟨_, last, _, last', run_cons hp hr, run_cons hp' hr', ?_, ?_, .cons matched later⟩
    · rw [List.map_cons, ho]
    · rw [List.map_cons, ho']

/-- After a completed run the operations that follow are a run of their own. -/
theorem run_append_of_ok {perform : σ → ο → Act ω (σ × ρ)} {s mid : σ} {operations : List ο}
    {moments : List (Moment σ ο ω ρ)} (h : run perform s operations = .ok (moments, mid))
    (further : List ο) : run perform s (operations ++ further) =
      (run perform mid further).map fun r => (moments ++ r.1, r.2) := by
  induction operations generalizing s moments with
  | nil =>
    cases h
    rw [List.nil_append]
    cases run perform mid further with
    | error f => rfl
    | ok r => rfl
  | cons operation operations ih =>
    obtain ⟨⟨events, after, result⟩, hp, h⟩ := Word.bind_eq_ok h
    obtain ⟨⟨rest, last⟩, hr, h⟩ := Word.bind_eq_ok h
    cases h
    simp only [List.cons_append, run, hp, ih hr, Word.ok_bind]
    cases run perform mid further with
    | error f => rfl
    | ok r => rfl

end OmniDrive.Act
