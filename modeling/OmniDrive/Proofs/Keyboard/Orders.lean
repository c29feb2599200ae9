import OmniDrive.Proofs.Keyboard.History

/-! What one turn makes of the gear and the velocities, told by the key that is struck in it. -/
namespace OmniDrive.Keyboard

/-- The place of a gear in the tables of speeds. -/
def Gear.index : Gear → Nat
  | low => 0
  | med => 1
  | high => 2

namespace Order

/-- The keys that give an order. -/
def keys : Order → List Key
  | x forward => [Axis.x.key forward]
  | y left => [Axis.y.key left]
  | theta positive => [Axis.theta.key positive]
  | faster => [.char 'r']
  | slower => [.char 'f']
  | quit => [.char 'q', .escape]

/-- The order drives an axis. -/
def moves : Order → Bool
  | x _ | y _ | theta _ => true
  | faster | slower | quit => false

/-- The order that drives an axis. -/
def along : Axis → Bool → Order
  | .x, forward => x forward
  | .y, forward => y forward
  | .theta, forward => theta forward

end Order

theorem Key.order?_eq_some_iff {key : Key} {order : Order} :
    key.order? = some order ↔ key ∈ order.keys := by
  constructor
  · intro h
    unfold Key.order? at h
    split at h <;> cases h <;> decide
  · intro h
    cases order with
    | x forward | y forward | theta forward =>
      obtain rfl := List.mem_singleton.1 h
      cases forward <;> rfl
    | faster | slower =>
      obtain rfl := List.mem_singleton.1 h
      rfl
    | quit =>
      have either : key = .char 'q' ∨ key = .escape := by simpa [Order.keys] using h
      rcases either with rfl | rfl <;> rfl

theorem Key.mem_movementKeys_iff {key : Key} :
    key ∈ Axis.movementKeys ↔ ∃ order, key.order? = some order ∧ order.moves := by
  constructor
  · intro h
    have either : key = .char 'w' ∨ key = .char 's' ∨ key = .char 'a' ∨ key = .char 'd' ∨
        key = .char 'z' ∨ key = .char 'x' := by
      simpa [Axis.movementKeys, Axis.key] using h
    rcases either with rfl | rfl | rfl | rfl | rfl | rfl <;> exact ⟨_, rfl, rfl⟩
  · rintro ⟨order, ho, hm⟩
    rw [order?_eq_some_iff] at ho
    cases order with
    | x forward | y forward | theta forward =>
      obtain rfl := List.mem_singleton.1 ho
      cases forward <;> decide
    | faster | slower | quit => cases hm

namespace Turn

/-- The order that is taken in a turn, and when. -/
def order? (t : Turn) : Option (Nat × Order) :=
  t.event.bind fun e => e.order?.map (e.time, ·)

variable {t : Turn} {a : Axis} {forward : Bool}

/-- A turn takes the order of the key that is struck in it, at the time of the event. -/
theorem struck_cases (t : Turn) : t.struck? = none ∧ t.order? = none ∨
    ∃ key time, t.struck? = some key ∧ t.event.map KeyEvent.time = some time ∧
      t.order? = key.order?.map (time, ·) := by
  unfold struck? order? KeyEvent.order?
  cases t.event with
  | none => exact .inl ⟨rfl, rfl⟩
  | some e =>
    by_cases released : e.action = .released
    · simp [released]
    · refine .inr ⟨e.key, e.time, ?_, rfl, ?_⟩ <;> simp [released]

theorem struck_iff (t : Turn) (order : Order) :
    (∃ key ∈ order.keys, t.struck? = some key) ↔ ∃ time, t.order? = some (time, order) := by
  rcases t.struck_cases with ⟨hs, ho⟩ | ⟨key, time, hs, -, ho⟩
  · simp [hs, ho]
  · simp [hs, ho, ← Key.order?_eq_some_iff]

theorem steers_iff : t.Steers a forward ↔ ∃ time, t.order? = some (time, .along a forward) := by
  rw [← struck_iff]
  cases a <;> simp [Steers, Order.along, Order.keys]

theorem quits_iff : t.Quits ↔ ∃ time, t.order? = some (time, .quit) := by
  rw [← struck_iff]
  simp [Quits, Order.keys]

theorem moved?_eq (t : Turn) :
    t.moved? = t.order?.bind fun o => if o.2.moves then some o.1 else none := by
  unfold moved?
  rcases t.struck_cases with ⟨hs, ho⟩ | ⟨key, time, hs, ht, ho⟩
  · simp [hs, ho]
  · rw [hs, ht, ho]
    cases hk : key.order? <;> simp [Key.mem_movementKeys_iff, hk]

theorem shift_eq (t : Turn) (place : Nat) : t.shift place = match t.order? with
    | some (_, .faster) => min (place + 1) 2
    | some (_, .slower) => place - 1
    | _ => place := by
  have up : t.struck? = some (.char 'r') ↔ ∃ time, t.order? = some (time, .faster) := by
    simp [← struck_iff, Order.keys]
  have down : t.struck? = some (.char 'f') ↔ ∃ time, t.order? = some (time, .slower) := by
    simp [← struck_iff, Order.keys]
  unfold shift
  split
  next raise =>
    obtain ⟨time, ho⟩ := up.1 raise
    rw [ho]
  next level =>
    split
    next lower =>
      obtain ⟨time, ho⟩ := down.1 lower
      rw [ho]
    next kept =>
      rcases ho : t.order? with _ | ⟨time, order⟩
      · rfl
      · cases order with
        | faster => exact absurd (up.2 ⟨time, ho⟩) level
        | slower => exact absurd (down.2 ⟨time, ho⟩) kept
        | _ => rfl

end Turn

namespace State

/-- The order of a turn obeyed. -/
def obeyed (s : State) (t : Turn) : State :=
  match t.order? with
  | none => s
  | some (time, order) => s.obey time order

/-- The velocities of a turn: its order obeyed, and then reset if no movement key is fresh. -/
def settled (s : State) (t : Turn) : State := (s.obeyed t).settle t.checked

variable {s : State} {t : Turn} {a : Axis} {forward : Bool}

theorem index_obeyed (s : State) (t : Turn) :
    (s.obeyed t).gear.index = t.shift s.gear.index := by
  rw [Turn.shift_eq, obeyed]
  rcases t.order? with _ | ⟨time, order⟩
  · rfl
  · cases order with
    | faster => cases h : s.gear <;> simp [obey, h, Gear.up, Gear.index]
    | slower => cases h : s.gear <;> simp [obey, h, Gear.down, Gear.index]
    | _ => rfl

theorem lastMove_obeyed (s : State) (t : Turn) :
    (s.obeyed t).lastMove = t.moved?.getD s.lastMove := by
  rw [Turn.moved?_eq, obeyed]
  rcases t.order? with _ | ⟨time, order⟩
  · rfl
  · cases order <;> rfl

theorem steered (h : t.Steers a forward) : ∃ size, a.speeds[s.gear.index]? = some size ∧
    a.ofCommand (s.obeyed t).command = if forward then size else -size := by
  obtain ⟨time, ho⟩ := Turn.steers_iff.1 h
  rw [obeyed, ho]
  -- Each gear, axis and way looks up an entry of its own.
  cases hg : s.gear <;> cases a <;> cases forward <;> refine ⟨_, rfl, ?_⟩ <;>
    simp [Order.along, obey, command, Axis.ofCommand, directed, hg, Gear.speed, Gear.turn]

/-- Only its own keys change what an axis is asked for. -/
theorem unsteered (h : ∀ forward, ¬ t.Steers a forward) :
    a.ofCommand (s.obeyed t).command = a.ofCommand s.command := by
  rw [obeyed]
  rcases ho : t.order? with _ | ⟨time, order⟩
  · rfl
  · have other (forward : Bool) : order ≠ .along a forward := by
      rintro rfl
      exact h forward (Turn.steers_iff.2 ⟨time, ho⟩)
    cases order <;> cases a <;> first | rfl | exact absurd rfl (other _)

/-- A turn that comes too late for the last movement key lets every axis stand still. -/
theorem settled_late (h : t.moved?.getD s.lastMove + patience < t.checked) :
    a.ofCommand (s.settled t).command = 0 := by
  rw [settled, settle, lastMove_obeyed, if_pos (Nat.lt_sub_iff_add_lt'.2 h)]
  cases a <;> rfl

theorem settled_inTime (h : ¬ t.moved?.getD s.lastMove + patience < t.checked) :
    s.settled t = s.obeyed t := by
  rw [settled, settle, lastMove_obeyed, if_neg (mt Nat.lt_sub_iff_add_lt'.1 h)]

theorem index_settled (s : State) (t : Turn) :
    (s.settled t).gear.index = t.shift s.gear.index := by
  rw [← index_obeyed, settled, settle]
  split <;> rfl

theorem lastMove_settled (s : State) (t : Turn) :
    (s.settled t).lastMove = t.moved?.getD s.lastMove := by
  rw [← lastMove_obeyed, settled, settle]
  split <;> rfl

end State

end OmniDrive.Keyboard
