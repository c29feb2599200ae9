import Mathlib.Algebra.Ring.Nat
import Mathlib.Data.List.DropRight
import Mathlib.Data.List.Rotate
import OmniDrive.Proofs.Motor.Protection
import OmniDrive.Proofs.Run

/-! Sequences of calls on a power limiter. Its ring holds the last hundred currents, so that the
power is that of a sliding window. Its countdown, which every tick with too much power starts anew,
is the distance to the last such tick. -/
namespace OmniDrive.PowerLimiter

/-- A setpoint to be limited, and what was measured. -/
structure Call where
  setpoint : Int8
  current : UInt8
  bus : UInt8
  deriving DecidableEq, Repr

def perform (p : PowerLimiter) (call : Call) : Act Notice (PowerLimiter × Int8) :=
  p.pass call.setpoint call.current call.bus

abbrev Moment := Act.Moment PowerLimiter Call Notice Int8

/-- The last hundred currents, with zeros before the first one. -/
def window (calls : List Call) : List UInt8 :=
  (List.replicate 100 0 ++ calls.map Call.current).rtake 100

/-- The average current after the given tick, counted from zero. -/
def average (calls : List Call) (tick : Nat) : Nat :=
  ((window (calls.take (tick + 1))).map UInt8.toNat).sum / 100

/-- The power in a tick; there is none in a tick that does not come. -/
def powerIn (calls : List Call) (tick : Nat) : Nat :=
  average calls tick * (calls[tick]?.map fun call => call.bus.toNat).getD 0

/-- A tick up to the given one, and at most `hold` ticks before it, had too much power. -/
def TripsWithin (calls : List Call) (hold tick : Nat) : Prop :=
  ∃ trip ≤ tick, tick ≤ trip + hold ∧ 2000 < powerIn calls trip

instance (calls : List Call) (hold tick : Nat) : Decidable (TripsWithin calls hold tick) :=
  inferInstanceAs (Decidable (∃ trip, trip ≤ tick ∧ _))

/-- What the limiter does in one tick of a sequence. -/
structure Moment.Windowed (m : Moment) (calls : List Call) (tick : Nat) : Prop where
  power : m.after.power = powerIn calls tick
  result : m.result = if TripsWithin calls 255 tick then 0 else m.operation.setpoint
  isTripped_iff : m.after.isTripped = true ↔ TripsWithin calls 254 tick
  notices : m.events = if 2000 < powerIn calls tick ∧ m.before.isTripped = false
    then [.powerTripped (powerIn calls tick) (average calls tick) m.operation.bus] else []

variable {p : PowerLimiter} {past : List Call} {call : Call}

/-- A further element drives the first one out of the last ones. -/
theorem rtake_concat_eq {α : Type} {l : List α} {n : Nat} (h : n + 1 ≤ l.length) (a : α) :
    (l ++ [a]).rtake (n + 1) = (l.rtake (n + 1)).tail ++ [a] := by
  have shorter : l.length - (n + 1) + 1 = l.length - n := by omega
  rw [List.rtake_concat_succ, List.rtake, List.rtake, List.tail_drop, shorter]

/-- Where an element is written over the one that a turned list begins with, it ends the list that
is turned by one more. -/
theorem rotate_set {α : Type} {l : List α} {n : Nat} (h : n < l.length) (a : α) :
    (l.set n a).rotate (n + 1) = (l.rotate n).tail ++ [a] := by
  have front : (l.drop n).tail = l.drop (n + 1) := List.tail_drop
  have nonempty : l.drop n ≠ [] := mt List.drop_eq_nil_iff.1 (Nat.not_le.2 h)
  rw [List.rotate_eq_drop_append_take (by rwa [List.length_set]),
    List.rotate_eq_drop_append_take (Nat.le_of_lt h), List.tail_append_of_ne_nil nonempty, front,
    List.drop_set_of_lt (Nat.lt_succ_self n), List.append_assoc]
  congr 1
  rw [List.take_succ_eq_append_getElem (by rwa [List.length_set]), List.getElem_set_self,
    List.take_set_of_le (Nat.le_refl n)]

theorem window_concat (past : List Call) (call : Call) :
    window (past ++ [call]) = (window past).tail ++ [call.current] := by
  unfold window
  rw [List.map_append, List.map_singleton, ← List.append_assoc]
  apply rtake_concat_eq
  rw [List.length_append, List.length_replicate]
  exact Nat.le_add_right ..

theorem average_append {tick : Nat} (h : tick < past.length) (more : List Call) :
    average (past ++ more) tick = average past tick := by
  unfold average
  rw [List.take_append_of_le_length h]

theorem powerIn_append {tick : Nat} (h : tick < past.length) (more : List Call) :
    powerIn (past ++ more) tick = powerIn past tick := by
  unfold powerIn
  rw [average_append h, List.getElem?_append_left h]

/-- Later ticks do not change what was within reach of a tick. -/
theorem tripsWithin_append {tick : Nat} (h : tick < past.length) (more : List Call) (hold : Nat) :
    TripsWithin (past ++ more) hold tick ↔ TripsWithin past hold tick := by
  refine exists_congr fun trip => and_congr_right fun reached => and_congr_right fun _ => ?_
  rw [powerIn_append (Nat.lt_of_le_of_lt reached h)]

theorem Moment.Windowed.append {m : Moment} {tick : Nat} (hm : m.Windowed past tick)
    (h : tick < past.length) (more : List Call) : m.Windowed (past ++ more) tick where
  power := by rw [powerIn_append h, hm.power]
  result := by
    rw [hm.result]
    exact if_congr (tripsWithin_append h more 255).symm rfl rfl
  isTripped_iff := hm.isTripped_iff.trans (tripsWithin_append h more 254).symm
  notices := by rw [powerIn_append h, average_append h, hm.notices]

/-- What a run keeps: the ring, turned to its oldest current, is the window, and the countdown is
how far the hold of the last trip still reaches. -/
structure Tracks (past : List Call) (p : PowerLimiter) : Prop where
  ring : p.history.toList.rotate p.next = window past
  countdown (ahead : Nat) : ahead < p.decay.toNat ↔
    ∃ trip < past.length, past.length + ahead ≤ trip + 255 ∧ 2000 < powerIn past trip

theorem tracks_initial : Tracks [] initial where
  ring := by
    change (Vector.replicate 100 (0 : UInt8)).toList.rotate 0 =
      (List.replicate 100 (0 : UInt8) ++ []).rtake 100
    rw [Vector.toList_replicate, List.rotate_zero, List.append_nil, List.rtake,
      List.length_replicate, Nat.sub_self, List.drop_zero]
  countdown ahead := by
    refine iff_of_false (Nat.not_lt_zero ahead) ?_
    rintro ⟨trip, before, -⟩
    exact Nat.not_lt_zero trip before

theorem total_eq_sum (p : PowerLimiter) :
    p.total = (p.history.toList.map UInt8.toNat).sum := by
  rw [List.sum_eq_foldl, List.foldl_map]
  rfl

/-- The current that is written over the oldest one becomes the newest. -/
theorem rotate_record (p : PowerLimiter) (current : UInt8) :
    (p.record current).history.toList.rotate (p.record current).next =
      (p.history.toList.rotate p.next).tail ++ [current] := by
  have length : (p.history.toList.set p.next current).length = 100 := by
    rw [List.length_set, Vector.length_toList]
  have next : ((p.next + 1 : Fin 100) : Nat) =
      (p.next + 1 : Nat) % (p.history.toList.set p.next current).length := by
    rw [length, Fin.val_add]
    rfl
  change (p.history.set p.next current).toList.rotate ((p.next + 1 : Fin 100) : Nat) = _
  rw [Vector.toList_set, next, List.rotate_mod, rotate_set]
  rw [Vector.length_toList]
  exact p.next.isLt

variable (h : Tracks past p)
include h

theorem Tracks.ring_record (call : Call) :
    (p.record call.current).history.toList.rotate (p.record call.current).next =
      window (past ++ [call]) := by
  rw [rotate_record, h.ring, window_concat]

theorem Tracks.total_div_record (call : Call) :
    (p.record call.current).total / 100 = average (past ++ [call]) past.length := by
  let q := p.record call.current
  have turned : (q.history.toList.rotate q.next).Perm q.history.toList := List.rotate_perm ..
  rw [h.ring_record] at turned
  rw [total_eq_sum, ← (turned.map UInt8.toNat).sum_nat, average, List.take_of_length_le]
  rw [List.length_append, List.length_singleton]

theorem Tracks.estimate_eq (call : Call) :
    p.estimate call.current call.bus = powerIn (past ++ [call]) past.length := by
  rw [estimate, h.total_div_record, powerIn, List.getElem?_concat_length]
  rfl

/-- A trip starts the countdown anew; every other tick brings the end of the last hold nearer. -/
theorem Tracks.countdown_after (call : Call) (ahead : Nat) :
    ahead < (p.after call.current call.bus).decay.toNat ↔
      ∃ trip < (past ++ [call]).length, (past ++ [call]).length + ahead ≤ trip + 255 ∧
        2000 < powerIn (past ++ [call]) trip := by
  rw [toNat_decay_after, h.estimate_eq, List.length_append, List.length_singleton]
  split
  · rename_i trips
    constructor
    · intro soon
      exact ⟨past.length, Nat.lt_succ_self _, by omega, trips⟩
    · rintro ⟨trip, before, reach, -⟩
      omega
  · rename_i quiet
    rw [Nat.lt_sub_iff_add_lt, h.countdown]
    constructor
    · rintro ⟨trip, before, reach, trips⟩
      rw [← powerIn_append before [call]] at trips
      exact ⟨trip, Nat.lt_succ_of_lt before, by omega, trips⟩
    · rintro ⟨trip, before, reach, trips⟩
      have earlier : trip < past.length := by
        refine Nat.lt_of_le_of_ne (Nat.le_of_lt_succ before) ?_
        rintro rfl
        exact quiet trips
      rw [powerIn_append earlier] at trips
      exact ⟨trip, earlier, by omega, trips⟩

theorem Tracks.after (call : Call) :
    Tracks (past ++ [call]) (p.after call.current call.bus) where
  ring := h.ring_record call
  countdown := h.countdown_after call

theorem Tracks.isTripped_iff : p.isTripped = true ↔
    ∃ trip < past.length, past.length ≤ trip + 255 ∧ 2000 < powerIn past trip := by
  rw [PowerLimiter.isTripped_iff, h.countdown]
  rfl

theorem Tracks.isTripped_after_iff (call : Call) :
    (p.after call.current call.bus).isTripped = true ↔
      TripsWithin (past ++ [call]) 254 past.length := by
  rw [(h.after call).isTripped_iff, List.length_append, List.length_singleton]
  refine exists_congr fun trip => and_congr Nat.lt_succ_iff (and_congr_left fun _ => ?_)
  omega

/-- The output is off while the tick itself trips the limiter or the last hold lasts. -/
theorem Tracks.isOff_iff (call : Call) :
    2000 < p.estimate call.current call.bus ∨ p.isTripped = true ↔
      TripsWithin (past ++ [call]) 255 past.length := by
  rw [h.estimate_eq, h.isTripped_iff]
  constructor
  · rintro (trips | ⟨trip, before, reach, trips⟩)
    · exact ⟨past.length, Nat.le_refl _, Nat.le_add_right .., trips⟩
    · rw [← powerIn_append before [call]] at trips
      exact ⟨trip, Nat.le_of_lt before, reach, trips⟩
  · rintro ⟨trip, reached, reach, trips⟩
    rcases Nat.eq_or_lt_of_le reached with rfl | before
    · exact .inl trips
    · rw [powerIn_append before] at trips
      exact .inr ⟨trip, before, reach, trips⟩

omit h in
theorem perform_eq (p : PowerLimiter) (call : Call) : p.perform call =
    Act.done (p.tripNotices call.current call.bus) (p.after call.current call.bus,
      if 2000 < p.estimate call.current call.bus ∨ p.isTripped then 0 else call.setpoint) :=
  pass_eq p call.setpoint call.current call.bus

theorem Tracks.windowed {m : Moment} (hb : m.before = p) (hm : m.Happens perform) :
    m.Windowed (past ++ [m.operation]) past.length := by
  subst hb
  rw [hm.eq (perform_eq m.before m.operation)]
  exact
    { power := h.estimate_eq m.operation
      result := if_congr (h.isOff_iff m.operation) rfl rfl
      isTripped_iff := h.isTripped_after_iff m.operation
      notices := by
        change tripNotices .. = _
        rw [tripNotices, h.estimate_eq, h.total_div_record]
        rfl }

omit h in
/-- The power is that of the last hundred currents; too much of it switches the output off for the
tick itself and the 255 behind it, and is reported unless the output was off already. -/
theorem pass_follows_window (calls : List Call) :
    ∃ moments last, Act.run perform initial calls = .ok (moments, last) ∧
      moments.map Act.Moment.operation = calls ∧
      ∀ earlier m later, moments = earlier ++ m :: later →
        Moment.Windowed m calls earlier.length := by
  have step (past : List Moment) (p : PowerLimiter) (call : Call)
      (h : Tracks (past.map Act.Moment.operation) p) : ∃ events result after,
        p.perform call = Act.done events (after, result) ∧
          Tracks ((past ++ [(⟨p, call, events, result, after⟩ : Moment)]).map
            Act.Moment.operation) after := by
    refine ⟨_, _, _, perform_eq p call, ?_⟩
    rw [List.map_append]
    exact h.after call
  obtain ⟨moments, last, run, ho, -, hk⟩ := Act.run_keeps step calls [] initial tracks_initial
  refine ⟨moments, last, run, ho, fun earlier m later split => ?_⟩
  obtain ⟨before, happens, -⟩ := hk earlier m later split
  have windowed := Tracks.windowed before rfl happens
  rw [List.nil_append, List.length_map] at windowed
  have front : calls = earlier.map Act.Moment.operation ++ [m.operation] ++
      later.map Act.Moment.operation := by
    rw [← ho, split, List.append_cons, List.map_append, List.map_append, List.map_singleton]
  rw [front]
  refine windowed.append ?_ _
  rw [List.length_append, List.length_map]
  exact Nat.lt_succ_self _

end OmniDrive.PowerLimiter
