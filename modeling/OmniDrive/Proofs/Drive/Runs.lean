import OmniDrive.Proofs.Drive.Operations
import OmniDrive.Proofs.Run

/-! Runs of a drive: any operations in any order, with any replies of the bus. On a sound drive
every operation completes, and it is a command, an order to rest, a switch or a tick. -/
namespace OmniDrive.Drive

/-- What can be done with a drive; a tick comes with what the bus answers in it. -/
inductive Operation
  | setVelocities (targets : Wheels Int8)
  | setBodyVelocity (v : BodyVelocity)
  | setDuties (duties : Wheels Int8)
  | halt
  | switchDrive (on : Bool)
  | switchCharging (on : Bool)
  | tick (replies : Replies)

namespace Operation

/-- The operations that count as commands for the watchdog. -/
def isCommand : Operation → Bool
  | setVelocities _ | setBodyVelocity _ | setDuties _ => true
  | _ => false

def isTick : Operation → Bool
  | tick _ => true
  | _ => false

end Operation

/-- Carry out an operation; the second result is what was sent on the bus. -/
def perform (d : Drive) : Operation → Act Notice (Drive × Option Round)
  | .setVelocities targets => do return (← d.setVelocities targets, none)
  | .setBodyVelocity v => do return (← d.setBodyVelocity v, none)
  | .setDuties duties => do return (← d.setDuties duties, none)
  | .halt => do return (← d.halt, none)
  | .switchDrive on => return ((d.switchDrive on).1, none)
  | .switchCharging on => return ((d.switchCharging on).1, none)
  | .tick replies => do
    let (d, round) ← d.beginTick
    return ((d.finishTick replies).1, some round)

abbrev Moment := Act.Moment Drive Operation Notice (Option Round)

/-- The idle ticks that timeout warnings in a log report. -/
def timeouts (notices : List Notice) : List Nat :=
  notices.filterMap fun
    | .commandTimeout ticks => some ticks
    | _ => none

theorem timeouts_aimNotices (d : Drive) (targets : Wheels Int8) :
    timeouts (d.aimNotices targets) = [] := by
  unfold aimNotices
  split <;> rfl

theorem timeouts_stopNotices (d : Drive) : timeouts d.stopNotices = [] := by
  unfold stopNotices
  split
  · exact timeouts_aimNotices d _
  · rfl

/-- What an operation does to the drive and to the log. -/
inductive Moves (d : Drive) : Operation → List Notice → Drive → Prop
  | command {operation : Operation} {notices : List Notice} (mode : DriveMode) (ramp : Ramp) :
    operation.isCommand = true → timeouts notices = [] → ramp.OnCourse →
    (mode = .voltage → ∃ speeds, ramp = .steady speeds) →
    Moves d operation notices { d.heard with mode, ramp }
  | halt : Moves d .halt [] { d with mode := .voltage, ramp := .steady (Wheels.fill 0) }
  | switch {operation : Operation} (driveEnabled chargingEnabled : Bool) :
    operation.isCommand = false → operation.isTick = false →
    Moves d operation [] { d with driveEnabled, chargingEnabled }
  | tick (replies : Replies) (ramp : Ramp) : d.watched.ramp.tick = .ok ramp →
    Moves d (.tick replies) d.watchNotices { d.ticked ramp with replies }

theorem perform_moves {d : Drive} (h : d.Sound) (operation : Operation) :
    ∃ notices round after, d.perform operation = Act.done notices (after, round) ∧
      d.Moves operation notices after := by
  cases operation with
  | setVelocities targets =>
    exact ⟨_, _, _, Act.bind_pure_eq_done (setVelocities_eq h.onCourse targets) _,
      .command .velocity _ rfl (timeouts_aimNotices d _) (onCourse_aimed h.onCourse _) nofun⟩
  | setBodyVelocity v =>
    have he := (setBodyVelocity_eq d v).trans (setVelocities_eq h.onCourse _)
    exact ⟨_, _, _, Act.bind_pure_eq_done he _,
      .command .velocity _ rfl (timeouts_aimNotices d _) (onCourse_aimed h.onCourse _) nofun⟩
  | setDuties duties =>
    exact ⟨_, _, _, Act.bind_pure_eq_done (setDuties_eq d duties) _,
      .command .voltage _ rfl rfl (.steady (inLimit_map_clampSpeed _)) fun _ => ⟨_, rfl⟩⟩
  | halt => exact ⟨_, _, _, Act.bind_pure_eq_done (halt_eq d) _, .halt⟩
  | switchDrive on => exact ⟨_, _, _, rfl, .switch on d.chargingEnabled rfl rfl⟩
  | switchCharging on => exact ⟨_, _, _, rfl, .switch d.driveEnabled on rfl rfl⟩
  | tick replies =>
    obtain ⟨ramp, hr, hb⟩ := beginTick_eq h
    exact ⟨_, _, _, Act.bind_pure_eq_done hb _, .tick replies ramp hr⟩

theorem moves_of_happens {m : Moment} (h : m.before.Sound) (hm : m.Happens perform) :
    m.before.Moves m.operation m.events m.after := by
  obtain ⟨notices, round, after, hp, hd⟩ := perform_moves h m.operation
  obtain ⟨hn, hs⟩ := Prod.mk.inj (Except.ok.inj (hm.symm.trans hp))
  rw [hn, (Prod.mk.inj hs).1]
  exact hd

theorem Moves.sound {d after : Drive} {operation : Operation} {notices : List Notice}
    (h : d.Sound) (hm : d.Moves operation notices after) : after.Sound := by
  cases hm with
  | command mode ramp _ _ onCourse => exact ⟨onCourse, Nat.zero_lt_succ _⟩
  | halt => exact ⟨onCourse_still, h.inTime⟩
  | switch => exact ⟨h.onCourse, h.inTime⟩
  | tick replies ramp hr =>
    obtain ⟨onCourse, inTime⟩ := sound_ticked h hr
    exact ⟨onCourse, inTime⟩

/-- Every run of a drive completes and leaves it sound. -/
theorem run_sound (operations : List Operation) :
    ∃ moments last, Act.run perform initial operations = .ok (moments, last) ∧ last.Sound := by
  have step (past : List Moment) (d : Drive) (operation : Operation) (h : d.Sound) :
      ∃ notices round after, d.perform operation = Act.done notices (after, round) ∧
        after.Sound := by
    obtain ⟨notices, round, after, hp, hm⟩ := perform_moves h operation
    exact ⟨notices, round, after, hp, hm.sound h⟩
  obtain ⟨moments, last, run, -, sound, -⟩ :=
    Act.run_keeps step operations [] initial sound_initial
  exact ⟨moments, last, run, sound⟩

end OmniDrive.Drive
