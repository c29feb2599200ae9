/-! One value for each of the three wheels. -/
namespace OmniDrive

/-- A value for each wheel, in bus order. -/
structure Wheels (α : Type) where
  first : α
  second : α
  third : α
  deriving DecidableEq, Repr, Inhabited

namespace Wheels

variable {α β γ : Type}

def fill (a : α) : Wheels α := ⟨a, a, a⟩

def map (f : α → β) (w : Wheels α) : Wheels β := ⟨f w.first, f w.second, f w.third⟩

def zipWith (f : α → β → γ) (v : Wheels α) (w : Wheels β) : Wheels γ :=
  ⟨f v.first w.first, f v.second w.second, f v.third w.third⟩

def toList (w : Wheels α) : List α := [w.first, w.second, w.third]

/-- The value of one wheel, counted from zero. -/
def get (w : Wheels α) : Fin 3 → α
  | 0 => w.first
  | 1 => w.second
  | 2 => w.third

/-- The wheels with the value of one of them replaced. -/
def set (w : Wheels α) (a : α) : Fin 3 → Wheels α
  | 0 => { w with first := a }
  | 1 => { w with second := a }
  | 2 => { w with third := a }

def mapM {m : Type → Type} [Monad m] (f : α → m β) (w : Wheels α) : m (Wheels β) := do
  let a ← f w.first
  let b ← f w.second
  let c ← f w.third
  pure ⟨a, b, c⟩

def greatest (w : Wheels Nat) : Nat := max w.first (max w.second w.third)

theorem ext_get {v w : Wheels α} (h : ∀ i, v.get i = w.get i) : v = w := by
  obtain ⟨a, b, c⟩ := v
  obtain ⟨d, e, f⟩ := w
  have h0 : a = d := h 0
  have h1 : b = e := h 1
  have h2 : c = f := h 2
  rw [h0, h1, h2]

@[simp] theorem get_fill (a : α) (i : Fin 3) : (fill a).get i = a := by
  match i with
  | 0 | 1 | 2 => rfl

@[simp] theorem get_map (f : α → β) (w : Wheels α) (i : Fin 3) :
    (w.map f).get i = f (w.get i) := by
  match i with
  | 0 | 1 | 2 => rfl

@[simp] theorem get_zipWith (f : α → β → γ) (v : Wheels α) (w : Wheels β) (i : Fin 3) :
    (zipWith f v w).get i = f (v.get i) (w.get i) := by
  match i with
  | 0 | 1 | 2 => rfl

theorem get_le_greatest (w : Wheels Nat) (i : Fin 3) : w.get i ≤ w.greatest := by
  match i with
  | 0 => exact Nat.le_max_left ..
  | 1 => exact Nat.le_trans (Nat.le_max_left ..) (Nat.le_max_right ..)
  | 2 => exact Nat.le_trans (Nat.le_max_right ..) (Nat.le_max_right ..)

theorem greatest_le {w : Wheels Nat} {bound : Nat} (h : ∀ i, w.get i ≤ bound) :
    w.greatest ≤ bound :=
  Nat.max_le.2 ⟨h 0, Nat.max_le.2 ⟨h 1, h 2⟩⟩

/-- One of the wheels has the greatest value. -/
theorem exists_get_eq_greatest (w : Wheels Nat) : ∃ i, w.get i = w.greatest := by
  obtain ⟨a, b, c⟩ := w
  rcases Nat.le_total (max b c) a with first | later
  · exact ⟨0, (Nat.max_eq_left first).symm⟩
  · rcases Nat.le_total c b with second | third
    · exact ⟨1, ((Nat.max_eq_right later).trans (Nat.max_eq_left second)).symm⟩
    · exact ⟨2, ((Nat.max_eq_right later).trans (Nat.max_eq_right third)).symm⟩

/-- A step on every wheel succeeds once it succeeds on each. -/
theorem mapM_eq_ok {ε : Type} {f : α → Except ε β} {w : Wheels α} {v : Wheels β}
    (h : ∀ i, f (w.get i) = .ok (v.get i)) : w.mapM f = .ok v := by
  obtain ⟨a, b, c⟩ := w
  obtain ⟨d, e, g⟩ := v
  have h0 : f a = .ok d := h 0
  have h1 : f b = .ok e := h 1
  have h2 : f c = .ok g := h 2
  simp only [mapM, h0, h1, h2]
  rfl

end Wheels

end OmniDrive
