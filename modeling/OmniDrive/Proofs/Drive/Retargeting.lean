import OmniDrive.Notice
import OmniDrive.Proofs.Drive.Approach
import OmniDrive.Proofs.Run

/-! Ramps under any operations in any order. Whatever was asked of a ramp, and wherever it had got
to when it was asked for something else, it is on a course to its present targets, and the ticks
that it has left take it there. -/
namespace OmniDrive.Ramp

/-- What can be done with a ramp. -/
inductive Operation
  | aim (targets : Wheels Int8)
  | jump (speeds : Wheels Int8)
  | tick
  deriving DecidableEq, Repr

def perform (r : Ramp) : Operation → Act Notice (Ramp × Unit)
  | .aim targets => do return (← r.aim targets, ())
  | .jump speeds => do return (← Ramp.jump speeds, ())
  | .tick => do return (← r.tick, ())

/-- What holds of every ramp, whatever its past. -/
structure Sound (r : Ramp) : Prop where
  speeds_inLimit (i : Fin 3) : InLimit (r.speeds.get i)
  targets_inLimit (i : Fin 3) : InLimit (r.targets.get i)
  elapsed_le : r.elapsed ≤ r.total
  total_le : r.total ≤ 200
  done_iff : r.elapsed = r.total ↔ r.speeds = r.targets
  aims (targets : Wheels Int8) : ∃ path, r.aim targets = .ok (path 0) ∧
    Approaches r.speeds (targets.map clampSpeed) path
  ticks_on : ∃ next, r.tick = .ok next ∧
    ∀ i, Toward (r.targets.get i) (r.speeds.get i) (next.speeds.get i)
  /-- The ticks that are left lead to the targets. -/
  arrives : ∃ moments last,
    Act.run perform r (List.replicate (r.total - r.elapsed) .tick) = .ok (moments, last) ∧
      last.speeds = r.targets ∧ last.targets = r.targets

theorem run_ticks {starts targets : Wheels Int8} (hs : ∀ i, InLimit (starts.get i))
    (ht : ∀ i, InLimit (targets.get i)) (ticks further : Nat) :
    ∃ moments, Act.run perform (course starts targets ticks) (List.replicate further .tick) =
      .ok (moments, course starts targets (ticks + further)) := by
  induction further generalizing ticks with
  | zero => exact ⟨[], rfl⟩
  | succ further ih =>
    obtain ⟨moments, run⟩ := ih (ticks + 1)
    rw [Nat.add_right_comm, Nat.add_assoc] at run
    have ticked : (course starts targets ticks).perform .tick =
        Act.done [] (course starts targets (ticks + 1), ()) := by
      simp only [perform, tick_course ticks hs ht, Act.lift_ok, Act.silent_bind, Act.pure_eq_done]
    exact ⟨_, Act.run_cons ticked run⟩

namespace OnCourse

variable {r : Ramp}

/-- Every operation completes and leaves the ramp on a course. -/
theorem perform (h : r.OnCourse) (operation : Operation) : ∃ next,
    r.perform operation = Act.done [] (next, ()) ∧ next.OnCourse := by
  cases operation with
  | aim targets =>
    refine ⟨_, ?_, .mk 0 h.speeds_inLimit (inLimit_map_clampSpeed targets)⟩
    simp only [Ramp.perform, aim_eq h.speeds_inLimit, Act.lift_ok, Act.silent_bind,
      Act.pure_eq_done]
  | jump speeds =>
    refine ⟨_, ?_, .steady (inLimit_map_clampSpeed speeds)⟩
    simp only [Ramp.perform, jump_eq, Act.lift_ok, Act.silent_bind, Act.pure_eq_done]
  | tick =>
    obtain ⟨next, ticked, onCourse, -⟩ := h.tick
    refine ⟨next, ?_, onCourse⟩
    simp only [Ramp.perform, ticked, Act.lift_ok, Act.silent_bind, Act.pure_eq_done]

theorem sound (h : r.OnCourse) : r.Sound := by
  obtain @⟨starts, targets, ticks, hs, ht⟩ := h
  have onCourse : OnCourse (course starts targets ticks) := .mk ticks hs ht
  refine
    { speeds_inLimit := onCourse.speeds_inLimit
      targets_inLimit := ht
      elapsed_le := Nat.min_le_right ..
      total_le := span_le hs ht
      done_iff := ?_
      aims := onCourse.aim
      ticks_on := ⟨_, tick_course ticks hs ht, onCourse.toward (tick_course ticks hs ht)⟩
      arrives := ?_ }
  · rw [elapsed_course, total_course, targets_course, speeds_course_eq_iff hs ht]
    omega
  · rw [elapsed_course, total_course]
    obtain ⟨moments, run⟩ := run_ticks hs ht ticks (span starts targets - min ticks _)
    exact ⟨moments, _, run, speeds_course_of_span_le (by omega), rfl⟩

end OnCourse

/-- Every ramp that any operations in any order lead to is sound. -/
theorem every_run_sound (operations : List Operation) : ∃ moments r,
    Act.run perform atRest operations = .ok (moments, r) ∧ r.Sound := by
  have step (past : List (Act.Moment Ramp Operation Notice Unit)) (r : Ramp)
      (operation : Operation) (h : r.OnCourse) : ∃ events result after,
      r.perform operation = Act.done events (after, result) ∧ after.OnCourse := by
    obtain ⟨next, done, onCourse⟩ := h.perform operation
    exact ⟨[], (), next, done, onCourse⟩
  have start : atRest.OnCourse := by
    rw [atRest_eq]
    apply OnCourse.steady
    intro i
    rw [Wheels.get_fill]
    exact inLimit_zero
  obtain ⟨moments, r, run, -, onCourse, -⟩ :=
    Act.run_keeps step operations [] atRest start
  exact ⟨moments, r, run, onCourse.sound⟩

end OmniDrive.Ramp
