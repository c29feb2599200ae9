import OmniDrive.Word

/-! Steps that emit events in order and may end in a fault.
Sequencing appends the events; a fault discards the step as a whole. -/
namespace OmniDrive

/-- A step with result `α` that emits events of type `ω` in order. -/
def Act (ω α : Type) : Type := Except Fault (List ω × α)

namespace Act

variable {ω ρ α β : Type}

def done (events : List ω) (a : α) : Act ω α := .ok (events, a)

def fault (f : Fault) : Act ω α := .error f

def outcome (x : Act ω α) : Except Fault (List ω × α) := x

/-- The step continued by another one; the later events follow the earlier ones. -/
protected def bind (x : Act ω α) (f : α → Act ω β) : Act ω β :=
  match x with
  | .error e => .error e
  | .ok (events, a) =>
    match f a with
    | .error e => .error e
    | .ok (later, b) => .ok (events ++ later, b)

instance : Monad (Act ω) where
  pure a := done [] a
  bind := Act.bind

def emit (event : ω) : Act ω Unit := done [event] ()

def ofExcept (x : Except Fault α) : Act ω α := x.map ([], ·)

instance : MonadLift (Except Fault) (Act ω) where
  monadLift := ofExcept

/-- The same step with every event renamed. -/
def mapEvents (f : ω → ρ) (x : Act ω α) : Act ρ α := x.map fun r => (r.1.map f, r.2)

/-- Refuse to go on unless the condition holds. -/
def require (p : Prop) [Decidable p] (f : Fault) : Act ω Unit :=
  if p then done [] () else fault f

theorem pure_def (a : α) : (pure a : Act ω α) = done [] a := rfl

@[simp] theorem done_bind (events : List ω) (a : α) (f : α → Act ω β) :
    (done events a >>= f) = (done events () >>= fun _ => f a) := rfl

@[simp] theorem fault_bind (e : Fault) (f : α → Act ω β) : (fault e >>= f) = fault e := rfl

theorem done_bind_done (events later : List ω) (a : α) (b : β) (f : α → Act ω β)
    (h : f a = done later b) : (done events a >>= f) = done (events ++ later) b := by
  change Act.bind (done events a) f = _
  simp only [Act.bind, done] at h ⊢
  rw [h]

@[simp] theorem ofExcept_ok (a : α) : (ofExcept (.ok a) : Act ω α) = done [] a := rfl

@[simp] theorem ofExcept_error (e : Fault) : (ofExcept (.error e) : Act ω α) = fault e := rfl

@[simp] theorem mapEvents_done (f : ω → ρ) (events : List ω) (a : α) :
    mapEvents f (done events a) = done (events.map f) a := rfl

@[simp] theorem mapEvents_fault (f : ω → ρ) (e : Fault) :
    mapEvents f (fault e : Act ω α) = fault e := rfl

private theorem map_id_eq (x : Act ω α) : (id <$> x) = x := by
  rcases x with e | ⟨events, a⟩
  · rfl
  · change (.ok (events ++ [], a) : Except Fault (List ω × α)) = _
    rw [List.append_nil]

private theorem pure_bind_eq (a : α) (f : α → Act ω β) : (pure a >>= f) = f a := by
  change Act.bind (.ok ([], a)) f = f a
  simp only [Act.bind]
  cases f a <;> rfl

private theorem bind_assoc_eq {γ : Type} (x : Act ω α) (f : α → Act ω β) (g : β → Act ω γ) :
    (x >>= f >>= g) = (x >>= fun a => f a >>= g) := by
  change Act.bind (Act.bind x f) g = Act.bind x fun a => Act.bind (f a) g
  rcases x with e | ⟨events, a⟩
  · rfl
  · simp only [Act.bind]
    cases f a with
    | error e => rfl
    | ok r =>
      simp only
      cases g r.2 with
      | error e => rfl
      | ok q => exact congrArg (fun es => Except.ok (es, q.2)) (List.append_assoc ..)

instance : LawfulMonad (Act ω) := LawfulMonad.mk' _ map_id_eq pure_bind_eq bind_assoc_eq

/-- A completed step without events leaves the rest to what follows. -/
@[simp] theorem silent_bind (a : α) (f : α → Act ω β) : (done [] a >>= f) = f a :=
  pure_bind_eq a f

theorem bind_eq_done {x : Act ω α} {f : α → Act ω β} {events later : List ω} {a : α} {b : β}
    (hx : x = done events a) (hf : f a = done later b) :
    (x >>= f) = done (events ++ later) b := by
  rw [hx]
  exact done_bind_done events later a b f hf

theorem bind_pure_eq_done {x : Act ω α} {events : List ω} {a : α} (hx : x = done events a)
    (g : α → β) : (x >>= fun a => pure (g a)) = done events (g a) := by
  have h := bind_eq_done (f := fun a => pure (g a)) hx (pure_def (g a))
  rwa [List.append_nil] at h

@[simp] theorem lift_ok (a : α) : (liftM (Except.ok a : Except Fault α) : Act ω α) = done [] a := rfl

@[simp] theorem pure_eq_done (a : α) : (pure a : Act ω α) = done [] a := rfl

theorem emit_bind (event : ω) (f : Unit → Act ω β) {events : List ω} {b : β}
    (h : f () = done events b) : (emit event >>= f) = done (event :: events) b :=
  done_bind_done [event] events () b f h

end Act

end OmniDrive
