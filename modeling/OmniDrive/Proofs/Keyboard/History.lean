import Mathlib.Data.List.Induction
import OmniDrive.Keyboard

/-! What the keys ask for, told from the past turns alone: which gear is in, when the base was last
moved, and which speed an axis was last given since a turn came too late for all of them. -/
namespace OmniDrive.Keyboard

/-- Along x, along y, or around. -/
inductive Axis
  | x
  | y
  | theta
  deriving DecidableEq, Repr

namespace Axis

/-- The key that drives the axis forward, and the one that drives it backward. -/
def key : Axis → Bool → Key
  | x, forward => .char (if forward then 'w' else 's')
  | y, forward => .char (if forward then 'a' else 'd')
  | theta, forward => .char (if forward then 'z' else 'x')

/-- The speeds of the axis, from the lowest gear to the highest. -/
def speeds : Axis → List Int
  | x | y => [15, 40, 80]
  | theta => [10, 25, 50]

/-- What a command asks of the axis. -/
def ofCommand : Axis → Command → Int
  | x, c => c.m1.toInt
  | y, c => c.m2.toInt
  | theta, c => c.m3.toInt

def movementKeys : List Key := [x, y, theta].flatMap fun a => [a.key true, a.key false]

end Axis

namespace Turn

/-- The key that is pressed in the turn, or repeated. -/
def struck? (t : Turn) : Option Key :=
  t.event.bind fun e => if e.action = .released then none else some e.key

/-- The key drives an axis. -/
def Steers (t : Turn) (a : Axis) (forward : Bool) : Prop := t.struck? = some (a.key forward)

/-- When a key that drives any axis was taken. -/
def moved? (t : Turn) : Option Nat :=
  if ∃ key ∈ Axis.movementKeys, t.struck? = some key then t.event.map KeyEvent.time else none

def Quits (t : Turn) : Prop := t.struck? = some (.char 'q') ∨ t.struck? = some .escape

instance : DecidablePred Quits := fun _ => inferInstanceAs (Decidable (_ ∨ _))

/-- The place in the tables of speeds: one key moves it up to the last, another down to the first. -/
def shift (t : Turn) (place : Nat) : Nat :=
  if t.struck? = some (.char 'r') then min (place + 1) 2
  else if t.struck? = some (.char 'f') then place - 1
  else place

/-- The command can be written, and what the port offers can be read. -/
def IsSound (t : Turn) : Prop := t.writeFault = none ∧ ∃ bytes, t.port.bind Offer.read = .ok bytes

end Turn

/-- The place in the tables behind some turns. -/
def place (turns : List Turn) : Nat := turns.foldl (fun place t => t.shift place) 0

/-- When a movement key was last taken; at first, when the turns began. -/
def lastMove (start : Nat) (turns : List Turn) : Nat :=
  turns.foldl (fun time t => t.moved?.getD time) start

/-- When the turn is checked, the last movement key is more than 100 ms old. -/
def IsLate (start : Nat) (earlier : List Turn) (t : Turn) : Prop :=
  lastMove start (earlier ++ [t]) + 100000000 < t.checked

/-- None of the turns since was late. -/
def InTime (start : Nat) (earlier since : List Turn) : Prop :=
  ∀ front t back, since = front ++ t :: back → ¬ IsLate start (earlier ++ front) t

/-- The latest key that drives the axis gave it this speed, and no turn from then on was late. -/
def Given (start : Nat) (a : Axis) (turns : List Turn) (speed : Int) : Prop :=
  ∃ earlier t later forward, turns = earlier ++ t :: later ∧ t.Steers a forward ∧
    (∀ u ∈ later, ∀ way, ¬ u.Steers a way) ∧ InTime start earlier (t :: later) ∧
    ∃ size, a.speeds[place earlier]? = some size ∧ speed = if forward then size else -size

variable {t : Turn} {start : Nat} {a : Axis} {past : List Turn} {speed : Int}

theorem place_concat (past : List Turn) (t : Turn) : place (past ++ [t]) = t.shift (place past) :=
  List.foldl_append

theorem lastMove_concat (start : Nat) (past : List Turn) (t : Turn) :
    lastMove start (past ++ [t]) = t.moved?.getD (lastMove start past) :=
  List.foldl_append

theorem place_le (turns : List Turn) : place turns ≤ 2 := by
  induction turns using List.reverseRecOn with
  | nil => exact Nat.zero_le 2
  | append_singleton turns t ih =>
    rw [place_concat]
    unfold Turn.shift
    split
    · exact Nat.min_le_right ..
    · split <;> omega

/-- The element behind a list is either the one at which it is split, or stays behind the split. -/
theorem concat_eq_append_cons_iff {α : Type} {l front back : List α} {a b : α} :
    l ++ [a] = front ++ b :: back ↔ l = front ∧ a = b ∧ back = [] ∨
      ∃ between, back = between ++ [a] ∧ l = front ++ b :: between := by
  constructor
  · intro split
    rcases List.eq_nil_or_concat back with rfl | ⟨between, c, rfl⟩
    · obtain ⟨rfl, same⟩ := List.append_inj' split rfl
      exact .inl ⟨rfl, List.singleton_inj.1 same, rfl⟩
    · rw [List.concat_eq_append, ← List.cons_append, ← List.append_assoc] at split
      obtain ⟨rfl, same⟩ := List.append_inj' split rfl
      obtain rfl := List.singleton_inj.1 same
      exact .inr ⟨between, List.concat_eq_append, rfl⟩
  · rintro (⟨rfl, rfl, rfl⟩ | ⟨between, rfl, rfl⟩)
    · rfl
    · rw [List.append_assoc, List.cons_append]

theorem inTime_singleton : InTime start past [t] ↔ ¬ IsLate start past t := by
  constructor
  · intro h
    have here := h [] t [] rfl
    rwa [List.append_nil] at here
  · intro h front u back split
    rcases List.cons_eq_append_iff.1 split with ⟨rfl, same⟩ | ⟨front, rfl, rest⟩
    · cases same
      rwa [List.append_nil]
    · simp at rest

theorem inTime_concat {earlier since : List Turn} : InTime start earlier (since ++ [t]) ↔
    InTime start earlier since ∧ ¬ IsLate start (earlier ++ since) t := by
  constructor
  · intro h
    refine ⟨?_, h since t [] rfl⟩
    rintro front u back rfl
    apply h front u (back ++ [t])
    rw [List.append_assoc, List.cons_append]
  · rintro ⟨h, last⟩ front u back split
    rcases concat_eq_append_cons_iff.1 split with ⟨rfl, rfl, -⟩ | ⟨between, -, rfl⟩
    · exact last
    · exact h front u between rfl

theorem not_given_nil : ¬ Given start a [] speed := by
  rintro ⟨earlier, t, later, forward, split, -⟩
  simp at split

/-- A further turn gives the axis a speed or leaves it the one it was given, unless it is late. -/
theorem given_concat : Given start a (past ++ [t]) speed ↔ ¬ IsLate start past t ∧
    ((∃ forward size, t.Steers a forward ∧ a.speeds[place past]? = some size ∧
        speed = if forward then size else -size) ∨
      (∀ forward, ¬ t.Steers a forward) ∧ Given start a past speed) := by
  constructor
  · rintro ⟨earlier, u, later, forward, split, steers, latest, inTime, size, lookup, hs⟩
    rcases concat_eq_append_cons_iff.1 split with ⟨rfl, rfl, rfl⟩ | ⟨later, rfl, rfl⟩
    · exact ⟨inTime_singleton.1 inTime, .inl ⟨forward, size, steers, lookup, hs⟩⟩
    · obtain ⟨before, here⟩ := inTime_concat.1 (List.cons_append ▸ inTime)
      obtain ⟨latest, straight⟩ := List.forall_mem_append.1 latest
      exact ⟨here, .inr ⟨straight t List.mem_cons_self,
        earlier, u, later, forward, rfl, steers, latest, before, size, lookup, hs⟩⟩
  · rintro ⟨here, ⟨forward, size, steers, lookup, hs⟩ | ⟨straight, hg⟩⟩
    · exact ⟨past, t, [], forward, rfl, steers, List.forall_mem_nil _, inTime_singleton.2 here,
        size, lookup, hs⟩
    · obtain ⟨earlier, u, later, forward, rfl, steers, latest, before, size, lookup, hs⟩ := hg
      refine ⟨earlier, u, later ++ [t], forward, ?_, steers, ?_, ?_, size, lookup, hs⟩
      · rw [List.append_assoc, List.cons_append]
      · exact List.forall_mem_append.2 ⟨latest, List.forall_mem_singleton.2 straight⟩
      · exact inTime_concat.2 ⟨before, here⟩

end OmniDrive.Keyboard
