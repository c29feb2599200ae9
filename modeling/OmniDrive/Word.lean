/-! Checked arithmetic on machine words.
An operation is carried out exactly on integers; a result outside its word is a fault. -/
namespace OmniDrive

/-- Why a step of the robot could not be completed. -/
inductive Fault
  /-- The exact result of an operation does not fit its machine word. -/
  | overflow
  /-- A decoder phase was handed a chunk of another length than the one it takes. -/
  | chunkLength
  /-- A position beyond the end of a buffer. -/
  | range
  /-- A motor number that no wheel has. -/
  | noSuchMotor
  deriving DecidableEq, Repr

/-- A machine word, by the least and the greatest value it holds. -/
structure Word where
  least : Int
  greatest : Int

namespace Word

def int8 : Word := ⟨-128, 127⟩
def uint8 : Word := ⟨0, 255⟩
def int16 : Word := ⟨-32768, 32767⟩
def int32 : Word := ⟨-2147483648, 2147483647⟩
def uint16 : Word := ⟨0, 65535⟩
def uint32 : Word := ⟨0, 4294967295⟩
def uint64 : Word := ⟨0, 18446744073709551615⟩

/-- The value is one of those the word holds. -/
def Holds (w : Word) (z : Int) : Prop := w.least ≤ z ∧ z ≤ w.greatest

instance (w : Word) (z : Int) : Decidable (w.Holds z) :=
  inferInstanceAs (Decidable (_ ∧ _))

/-- The exact value, refused where the word does not hold it. -/
def hold (w : Word) (z : Int) : Except Fault Int :=
  if w.Holds z then .ok z else .error .overflow

/-- An exact count, refused where the word does not hold it. -/
def count (w : Word) (n : Nat) : Except Fault Nat :=
  if w.Holds n then .ok n else .error .overflow

/-- The nearest value the word holds. -/
def clamp (w : Word) (z : Int) : Int := max w.least (min w.greatest z)

theorem hold_eq_ok {w : Word} {z : Int} (h : w.Holds z) : w.hold z = .ok z := if_pos h

/-- Once an operation has succeeded, the computation goes on with its value. -/
@[simp] theorem ok_bind {α β : Type} (a : α) (f : α → Except Fault β) :
    (Except.ok a >>= f) = f a := rfl

@[simp] theorem pure_eq_ok {α : Type} (a : α) : (pure a : Except Fault α) = .ok a := rfl

/-- A computation that succeeds has succeeded in its first part. -/
theorem bind_eq_ok {α β : Type} {x : Except Fault α} {f : α → Except Fault β} {b : β}
    (h : (x >>= f) = .ok b) : ∃ a, x = .ok a ∧ f a = .ok b := by
  cases x with
  | error e => cases h
  | ok a => exact ⟨a, rfl, h⟩

theorem count_eq_ok {w : Word} {n : Nat} (h : w.Holds n) : w.count n = .ok n := if_pos h

theorem natAbs_toInt_le (speed : Int8) : speed.toInt.natAbs ≤ 128 := by
  have low := speed.le_toInt
  have high := speed.toInt_lt
  omega

/-- Every byte but the least has an opposite. -/
theorem toInt_neg {speed : Int8} (h : speed ≠ -128) : (-speed).toInt = -speed.toInt := by
  have low := speed.le_toInt
  have high := speed.toInt_lt
  have least : speed.toInt ≠ -128 := fun same => h (Int8.toInt_inj.1 same)
  rw [Int8.toInt_neg, Int.bmod_eq_of_le (by omega) (by omega)]

theorem clamp_eq_self {w : Word} {z : Int} (h : w.Holds z) : w.clamp z = z := by
  obtain ⟨hl, hg⟩ := h
  unfold clamp
  omega

end Word

end OmniDrive
