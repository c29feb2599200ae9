import OmniDrive.Proofs.Motor.ZeroCommand

/-! Runs of calls on an H-bridge. Every single write leaves the bridge to one direction, the one of
the speed asked for before, so the halves never conduct together. Turning round costs a call that
ends with everything off. -/
namespace OmniDrive

/-- The halves of the bridge neither work against each other nor short the supply. -/
structure Bridge.Guarded (b : Bridge) : Prop where
  channels : b.dutyA = 0 ∨ b.dutyB = 0
  lowSides : b.lowA = false ∨ b.lowB = false
  halfA : b.dutyA = 0 ∨ b.lowA = false
  halfB : b.dutyB = 0 ∨ b.lowB = false

namespace Bridge

def IsReleased (b : Bridge) : Prop :=
  b.dutyA = 0 ∧ b.dutyB = 0 ∧ b.lowA = false ∧ b.lowB = false

/-- The compare value of the channel that drives in a direction. -/
def channel (b : Bridge) (forward : Bool) : UInt8 := if forward then b.dutyA else b.dutyB

/-- At most the given direction is in use: the other channel is off, and so is the low-side switch
of this direction's own half. -/
def OneWay (b : Bridge) (forward : Bool) : Prop :=
  b.channel (!forward) = 0 ∧ (if forward then b.lowA else b.lowB) = false

/-- A write that leaves a bridge to one direction. -/
def Along (forward : Bool) : BridgeWrite → Prop
  | .duty a b => (if forward then b else a) = 0
  | .lowSide a b => (if forward then a else b) = false
  | .enable _ => True

variable {b : Bridge} {forward : Bool}

theorem OneWay.guarded (h : b.OneWay forward) : b.Guarded := by
  obtain ⟨hd, hl⟩ := h
  cases forward with
  | true => exact ⟨.inr hd, .inl hl, .inr hl, .inl hd⟩
  | false => exact ⟨.inl hd, .inr hl, .inl hd, .inr hl⟩

/-- A guarded bridge is left to one of the directions. -/
theorem Guarded.exists_oneWay (h : b.Guarded) : ∃ forward, b.OneWay forward := by
  by_cases ha : b.dutyA = 0
  · by_cases hb : b.dutyB = 0
    · rcases h.lowSides with la | lb
      · exact ⟨true, hb, la⟩
      · exact ⟨false, ha, lb⟩
    · exact ⟨false, ha, h.halfB.resolve_left hb⟩
  · exact ⟨true, h.channels.resolve_left ha, h.halfA.resolve_left ha⟩

theorem OneWay.write (h : b.OneWay forward) {w : BridgeWrite} (hw : Along forward w) :
    (b.write w).OneWay forward := by
  cases w with
  | duty a b' => cases forward <;> exact ⟨hw, h.2⟩
  | lowSide a b' => cases forward <;> exact ⟨h.1, hw⟩
  | enable on => cases forward <;> exact h

theorem OneWay.writeAll {writes : List BridgeWrite} (h : b.OneWay forward)
    (hw : ∀ w ∈ writes, Along forward w) : (b.writeAll writes).OneWay forward := by
  induction writes generalizing b with
  | nil => exact h
  | cons w writes ih =>
    obtain ⟨first, later⟩ := List.forall_mem_cons.1 hw
    exact ih (h.write first) later

theorem IsReleased.oneWay (h : b.IsReleased) (forward : Bool) : b.OneWay forward := by
  obtain ⟨ha, hb, la, lb⟩ := h
  cases forward with
  | true => exact ⟨hb, la⟩
  | false => exact ⟨ha, lb⟩

end Bridge

namespace BridgeDriver

open Bridge (Along)

/-- A driver that has just taken over a bridge, in whatever state that was. -/
def ofBridge (b : Bridge) : BridgeDriver := ⟨b.writeAll takeover, 0⟩

/-- A call that asks for a duty. -/
structure Call where
  before : BridgeDriver
  speed : Int8
  /-- What the call returns. -/
  driven : Int8
  writes : List BridgeWrite
  after : BridgeDriver

def call (d : BridgeDriver) (speed : Int8) : Call :=
  ⟨d, speed, (d.drive speed).2.1, (d.drive speed).2.2, (d.drive speed).1⟩

/-- Ask for one duty after the other. -/
def run (d : BridgeDriver) : List Int8 → List Call
  | [] => []
  | speed :: later => d.call speed :: (d.call speed).after.run later

/-- The bridge is left to the direction of the speed asked for last. -/
def Settled (d : BridgeDriver) : Prop := d.bridge.OneWay (isForward d.lastSpeed)

theorem ofBridge_eq_initial (b : Bridge) : ofBridge b = initial := rfl

theorem settled_initial : initial.Settled := ⟨rfl, rfl⟩

theorem isForward_eq_true_iff {speed : Int8} : isForward speed = true ↔ 0 ≤ speed.toInt := by
  rw [isForward, decide_eq_true_iff, Int8.le_iff_toInt_le]
  rfl

theorem eq_zero_iff_not_lt (speed : Int8) : speed = 0 ↔ ¬ 0 < speed ∧ ¬ speed < 0 := by
  rw [← Int8.toInt_inj, Int8.lt_iff_toInt_lt, Int8.lt_iff_toInt_lt]
  change speed.toInt = 0 ↔ ¬ 0 < speed.toInt ∧ ¬ speed.toInt < 0
  omega

theorem symmetric_eq_ite (speed : Int8) :
    symmetric speed = if speed = -128 then -127 else speed := by
  have low := speed.le_toInt
  have hs : speed < -127 ↔ speed = -128 := by
    rw [Int8.lt_iff_toInt_lt, ← Int8.toInt_inj]
    change speed.toInt < -127 ↔ speed.toInt = -128
    omega
  simp only [symmetric, hs]

theorem along_takeover (forward : Bool) : ∀ w ∈ takeover, Along forward w := by
  cases forward <;> simp [takeover, Along]

theorem along_release (forward : Bool) : ∀ w ∈ release, Along forward w := by
  cases forward <;> simp [release, Along]

theorem along_conduct (speed : Int8) : ∀ w ∈ conduct speed, Along (isForward speed) w := by
  by_cases ahead : 0 < speed
  · have hf : isForward speed = true :=
      isForward_eq_true_iff.2 (Int.le_of_lt (Int8.lt_iff_toInt_lt.1 ahead))
    simp [conduct, ahead, hf, Along]
  · by_cases back : speed < 0
    · have hf : isForward speed = false := by
        rw [← Bool.not_eq_true, isForward_eq_true_iff, Int.not_le]
        exact Int8.lt_iff_toInt_lt.1 back
      simp [conduct, ahead, back, hf, Along]
    · simpa only [conduct, ahead, back, if_false] using along_release (isForward speed)

variable {d : BridgeDriver} {speed : Int8}

/-- A call drives the speed asked for, or it turns round and drives nothing. -/
theorem call_cases (d : BridgeDriver) (speed : Int8) :
    (isForward (symmetric speed) = isForward d.lastSpeed ∧
      (d.call speed).driven = symmetric speed ∧
      (d.call speed).writes = conduct (symmetric speed)) ∨
    ((d.call speed).driven = 0 ∧ (d.call speed).writes = release) := by
  by_cases same : isForward (symmetric speed) = isForward d.lastSpeed
  · have hr : d.response speed = (symmetric speed, conduct (symmetric speed)) := if_pos same
    exact .inl ⟨same, congrArg Prod.fst hr, congrArg Prod.snd hr⟩
  · have hr : d.response speed = (0, release) := if_neg same
    exact .inr ⟨congrArg Prod.fst hr, congrArg Prod.snd hr⟩

/-- No write of a call uses the direction opposite to the one before. -/
theorem along_call (d : BridgeDriver) (speed : Int8) :
    ∀ w ∈ (d.call speed).writes, Along (isForward d.lastSpeed) w := by
  rcases call_cases d speed with ⟨same, -, hw⟩ | ⟨-, hw⟩
  · rw [hw, ← same]
    exact along_conduct _
  · rw [hw]
    exact along_release _

theorem bridge_call (d : BridgeDriver) (speed : Int8) :
    (d.call speed).after.bridge = d.bridge.writeAll (d.call speed).writes := by
  unfold call drive
  rfl

/-- Wherever a call is interrupted, the bridge is left to the direction before it. -/
theorem Settled.oneWay (h : d.Settled) {front : List BridgeWrite}
    (hf : front <+: (d.call speed).writes) :
    (d.bridge.writeAll front).OneWay (isForward d.lastSpeed) :=
  Bridge.OneWay.writeAll h fun w hw => along_call d speed w (hf.subset hw)

theorem isReleased_writeAll_release (b : Bridge) : (b.writeAll release).IsReleased :=
  ⟨rfl, rfl, rfl, rfl⟩

/-- A call that does not release the bridge leaves it to the same direction as before. -/
theorem call_released_or (d : BridgeDriver) (speed : Int8) :
    (d.call speed).after.bridge.IsReleased ∨
      isForward (d.call speed).after.lastSpeed = isForward d.lastSpeed := by
  rcases call_cases d speed with ⟨same, -, -⟩ | ⟨-, hw⟩
  · exact .inr same
  · rw [bridge_call, hw]
    exact .inl (isReleased_writeAll_release _)

theorem Settled.call (h : d.Settled) (speed : Int8) : (d.call speed).after.Settled := by
  rcases call_released_or d speed with released | same
  · exact released.oneWay _
  · have hs := h.oneWay (List.prefix_refl (d.call speed).writes)
    rw [← same] at hs
    exact hs

/-- The channels after the writes for a speed tell its sign. -/
theorem channels_conduct (b : Bridge) (speed : Int8) :
    (0 < speed ↔ (b.writeAll (conduct speed)).dutyA ≠ 0) ∧
      (speed < 0 ↔ (b.writeAll (conduct speed)).dutyB ≠ 0) := by
  have magnitude (h : speed.toInt ≠ 0) : compareValue speed.toInt.natAbs ≠ 0 :=
    compareValue_ne_zero (Int.natAbs_pos.2 h)
  by_cases ahead : 0 < speed
  · have hp := Int8.lt_iff_toInt_lt.1 ahead
    have hn : ¬ speed < 0 := mt Int8.lt_iff_toInt_lt.1 (Int.not_lt.2 (Int.le_of_lt hp))
    simp [conduct, ahead, hn, Bridge.writeAll, Bridge.write, magnitude (Int.ne_of_gt hp)]
  · by_cases back : speed < 0
    · have hn := Int8.lt_iff_toInt_lt.1 back
      simp [conduct, ahead, back, Bridge.writeAll, Bridge.write, magnitude (Int.ne_of_lt hn)]
    · simp [conduct, ahead, back, Bridge.writeAll, Bridge.write, release]

/-- What a call returns says which channel it leaves on. -/
theorem driven_call (d : BridgeDriver) (speed : Int8) :
    (0 < (d.call speed).driven ↔ (d.call speed).after.bridge.dutyA ≠ 0) ∧
      ((d.call speed).driven < 0 ↔ (d.call speed).after.bridge.dutyB ≠ 0) ∧
      ((d.call speed).driven ≠ 0 → (d.call speed).driven = symmetric speed) := by
  rw [bridge_call]
  rcases call_cases d speed with ⟨-, hd, hw⟩ | ⟨hd, hw⟩
  · rw [hd, hw]
    obtain ⟨ahead, back⟩ := channels_conduct d.bridge (symmetric speed)
    exact ⟨ahead, back, fun _ => rfl⟩
  · obtain ⟨ha, hb, -, -⟩ := isReleased_writeAll_release d.bridge
    rw [hd, hw, ha, hb]
    exact ⟨by decide, by decide, fun hn => absurd rfl hn⟩

/-- Every call of a run starts from a bridge that is left to one direction. -/
theorem exists_of_mem_run {speeds : List Int8} {c : Call} (h : d.Settled)
    (hc : c ∈ d.run speeds) : ∃ before speed, Settled before ∧ c = before.call speed := by
  induction speeds generalizing d with
  | nil => exact absurd hc List.not_mem_nil
  | cons speed speeds ih =>
    rcases List.mem_cons.1 hc with rfl | later
    · exact ⟨d, speed, h, rfl⟩
    · exact ih (h.call speed) later

/-- Before a run drives the other way, one of its calls releases the bridge. -/
theorem released_before_turning {speeds : List Int8} {between back : List Call} {second : Call}
    (h : d.Settled) (hr : d.run speeds = between ++ second :: back)
    (hs : second.after.bridge.channel (!isForward d.lastSpeed) ≠ 0) :
    ∃ c ∈ between, c.after.bridge.IsReleased := by
  induction speeds generalizing d between with
  | nil => exact absurd hr.symm (List.append_ne_nil_of_right_ne_nil _ (List.cons_ne_nil _ _))
  | cons speed speeds ih =>
    rcases List.cons_eq_append_iff.1 hr with ⟨rfl, here⟩ | ⟨rest, rfl, there⟩
    · obtain ⟨rfl, -⟩ := List.cons.inj here
      exact absurd (h.oneWay (List.prefix_refl _)).1 hs
    · rcases call_released_or d speed with released | same
      · exact ⟨_, List.mem_cons_self, released⟩
      · obtain ⟨c, hc, released⟩ := ih (h.call speed) there (by rwa [same])
        exact ⟨c, List.mem_cons_of_mem _ hc, released⟩

theorem run_eq_append {speeds : List Int8} {front back : List Call} {first : Call}
    (h : d.Settled) (hr : d.run speeds = front ++ first :: back) :
    ∃ later, first.after.Settled ∧ first.after.run later = back := by
  induction speeds generalizing d front with
  | nil => exact absurd hr.symm (List.append_ne_nil_of_right_ne_nil _ (List.cons_ne_nil _ _))
  | cons speed speeds ih =>
    rcases List.cons_eq_append_iff.1 hr with ⟨rfl, here⟩ | ⟨rest, rfl, there⟩
    · obtain ⟨rfl, rfl⟩ := List.cons.inj here
      exact ⟨speeds, h.call speed, rfl⟩
    · exact ih (h.call speed) there

/-- A driven channel shows the direction that a settled bridge is left to. -/
theorem Settled.isForward_eq (h : d.Settled) {forward : Bool}
    (hc : d.bridge.channel forward ≠ 0) : isForward d.lastSpeed = forward := by
  by_cases same : forward = isForward d.lastSpeed
  · exact same.symm
  · rw [Bool.eq_not.2 same] at hc
    exact absurd h.1 hc

/-- In every run on a bridge that was taken over, no single write lets both channels or both
low-side switches on, or a channel together with the switch of its own half; the bridge drives one
way and later the other only with a call between them that ends with everything off; and a call
returns the speed asked for, made symmetric, with the sign of the driven channel, or zero if none
is driven. -/
theorem run_guarded (b : Bridge) (speeds : List Int8) :
    (b.Guarded → ∀ front, front <+: takeover → (b.writeAll front).Guarded) ∧
    (∀ c ∈ (ofBridge b).run speeds,
      (∀ front, front <+: c.writes → (c.before.bridge.writeAll front).Guarded) ∧
      c.after.bridge = c.before.bridge.writeAll c.writes ∧
      (0 < c.driven ↔ c.after.bridge.dutyA ≠ 0) ∧
      (c.driven < 0 ↔ c.after.bridge.dutyB ≠ 0) ∧
      (c.driven = 0 ↔ c.after.bridge.dutyA = 0 ∧ c.after.bridge.dutyB = 0) ∧
      (c.driven ≠ 0 → c.driven = if c.speed = -128 then -127 else c.speed)) ∧
    ∀ front first between second back (forward : Bool),
      (ofBridge b).run speeds = front ++ first :: (between ++ second :: back) →
      first.after.bridge.channel forward ≠ 0 → second.after.bridge.channel (!forward) ≠ 0 →
        ∃ c ∈ between, c.after.bridge.IsReleased := by
  have settled : (ofBridge b).Settled := by
    rw [ofBridge_eq_initial]
    exact settled_initial
  refine ⟨?_, ?_, ?_⟩
  · intro hb front hf
    obtain ⟨forward, one⟩ := hb.exists_oneWay
    exact (one.writeAll fun w hw => along_takeover forward w (hf.subset hw)).guarded
  · intro c hc
    obtain ⟨d, speed, hd, rfl⟩ := exists_of_mem_run settled hc
    obtain ⟨ahead, back, asked⟩ := driven_call d speed
    rw [symmetric_eq_ite] at asked
    refine ⟨fun front hf => (hd.oneWay hf).guarded, rfl, ahead, back, ?_, asked⟩
    rw [eq_zero_iff_not_lt, ahead, back, Decidable.not_not, Decidable.not_not]
  · intro front first between second back forward hr hf hs
    obtain ⟨later, hl, hb⟩ := run_eq_append settled hr
    rw [← hl.isForward_eq hf] at hs
    exact released_before_turning hl hb hs

end BridgeDriver

end OmniDrive
