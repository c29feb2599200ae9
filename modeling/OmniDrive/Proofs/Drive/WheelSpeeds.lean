import OmniDrive.Drive.BodyVelocity

/-! The wheel speeds of a body velocity in closed form. Every body velocity has some: the
intermediate results are far inside their words. -/
namespace OmniDrive.BodyVelocity

open Word (int32)

/-- What a body velocity asks of a wheel, rounded toward zero. -/
def rawSpeed (v : BodyVelocity) (g : Gains) : Int :=
  (v.x.toInt * g.x + v.y.toInt * g.y + v.theta.toInt * g.theta).tdiv 1024

/-- The speeds slowed down in the same ratio where one of them is beyond the limit. -/
def slowed (speeds : Wheels Int) : Wheels Int :=
  let fastest := (speeds.map Int.natAbs).greatest
  if speedLimit < fastest then
    speeds.map fun (speed : Int) => (speed * speedLimit).tdiv fastest
  else speeds

/-- Gains of which every sum of products with bytes fits its word. -/
def Modest (g : Gains) : Prop := g.x.natAbs ≤ 1096 ∧ g.y.natAbs ≤ 1096 ∧ g.theta.natAbs ≤ 1096

theorem modest_mounted (i : Fin 3) : Modest (Gains.mounted.get i) := by
  unfold Modest
  match i with
  | 0 | 1 | 2 => decide

private theorem natAbs_product_le {gain : Int} (speed : Int8) (h : gain.natAbs ≤ 1096) :
    (speed.toInt * gain).natAbs ≤ 128 * 1096 := by
  rw [Int.natAbs_mul]
  exact Nat.mul_le_mul (Word.natAbs_toInt_le speed) h

theorem alongWheel_eq (v : BodyVelocity) {g : Gains} (h : Modest g) :
    v.alongWheel g = .ok (v.rawSpeed g) := by
  obtain ⟨hx, hy, ht⟩ := h
  have h1 := natAbs_product_le v.x hx
  have h2 := natAbs_product_le v.y hy
  have h3 := natAbs_product_le v.theta ht
  have k1 : int32.Holds (v.x.toInt * g.x) := by constructor <;> simp only [int32] <;> omega
  have k2 : int32.Holds (v.y.toInt * g.y) := by constructor <;> simp only [int32] <;> omega
  have k3 : int32.Holds (v.x.toInt * g.x + v.y.toInt * g.y) := by
    constructor <;> simp only [int32] <;> omega
  have k4 : int32.Holds (v.theta.toInt * g.theta) := by constructor <;> simp only [int32] <;> omega
  have k5 : int32.Holds (v.x.toInt * g.x + v.y.toInt * g.y + v.theta.toInt * g.theta) := by
    constructor <;> simp only [int32] <;> omega
  simp only [alongWheel, Word.hold_eq_ok k1, Word.hold_eq_ok k2, Word.hold_eq_ok k3,
    Word.hold_eq_ok k4, Word.hold_eq_ok k5, Word.ok_bind, Word.pure_eq_ok, rawSpeed, Gains.scale]

/-- No wheel is asked for more than 411. -/
theorem natAbs_rawSpeed_le (v : BodyVelocity) {g : Gains} (h : Modest g) :
    (v.rawSpeed g).natAbs ≤ 411 := by
  obtain ⟨hx, hy, ht⟩ := h
  have h1 := natAbs_product_le v.x hx
  have h2 := natAbs_product_le v.y hy
  have h3 := natAbs_product_le v.theta ht
  have hs : (v.x.toInt * g.x + v.y.toInt * g.y + v.theta.toInt * g.theta).natAbs ≤ 420864 := by
    omega
  rw [rawSpeed, Int.natAbs_tdiv]
  exact Nat.div_le_div_right (c := 1024) hs

theorem demand_eq (v : BodyVelocity) : v.demand = .ok (Gains.mounted.map v.rawSpeed) := by
  apply Wheels.mapM_eq_ok
  intro i
  rw [Wheels.get_map]
  exact v.alongWheel_eq (modest_mounted i)

theorem saturate_eq {speeds : Wheels Int} (h : ∀ i, (speeds.get i).natAbs ≤ 411) :
    saturate speeds = .ok (slowed speeds) := by
  unfold saturate slowed
  dsimp only
  split
  · apply Wheels.mapM_eq_ok
    intro i
    have hi := h i
    have hh : int32.Holds (speeds.get i * speedLimit) := by
      constructor <;> simp only [int32, speedLimit] <;> omega
    rw [Wheels.get_map, Word.hold_eq_ok hh, Word.ok_bind, Word.pure_eq_ok]
  · rfl

/-- Every body velocity has wheel speeds. -/
theorem wheelSpeeds_eq (v : BodyVelocity) :
    v.wheelSpeeds = .ok ((slowed (Gains.mounted.map v.rawSpeed)).map Int8.ofInt) := by
  have hs : saturate (Gains.mounted.map v.rawSpeed) =
      .ok (slowed (Gains.mounted.map v.rawSpeed)) := by
    apply saturate_eq
    intro i
    rw [Wheels.get_map]
    exact v.natAbs_rawSpeed_le (modest_mounted i)
  simp only [wheelSpeeds, demand_eq, Word.ok_bind, hs, Word.pure_eq_ok]

end OmniDrive.BodyVelocity
