import OmniDrive.Proofs.Json.Forms

/-! The JSON forms lose nothing: a written value is read back as itself, and a text in any accepted
spelling becomes the value's own text without changing the value. -/
namespace OmniDrive

open Json
open JsonForm (text ofText?)

section

variable (α : Type) [JsonForm α] [Spelling α]

/-- What it takes for the texts of a type to keep its values. -/
structure Lossless : Prop where
  /-- The text of a value is read as that value. -/
  kept (a : α) : ofText? (text a) = some a
  /-- Different values have different texts. -/
  different : Function.Injective (text : α → String)
  /-- A text is read as a value exactly if it is a way to write one of the value's spellings. -/
  accepted (s : String) (a : α) : ofText? s = some a ↔ ∃ j, SpelledBy j s ∧ Spells a j
  /-- Whatever text was read, the text written next is read as the same value, and is written for
  it once more. -/
  settled (s : String) (a : α) :
    ofText? s = some a → ∃ b, ofText? (text a) = some b ∧ b = a ∧ text b = text a

variable {α} [LawfulForm α]

theorem ofText?_eq_some_iff {s : String} {a : α} :
    ofText? s = some a ↔ ∃ j, SpelledBy j s ∧ Spells a j := by
  refine Option.bind_eq_some_iff.trans ?_
  simp only [parse_eq_some_iff, ofJson_eq_some_iff]

theorem ofText?_text (a : α) : ofText? (text a) = some a := by
  have read : parse (text a) = some (toJson a) := (writes_toJson a).parse_render
  rw [ofText?, read]
  exact ofJson_eq_some_iff.2 (spells_toJson a)

theorem text_injective : Function.Injective (text : α → String) := by
  intro a b same
  have read := ofText?_text a
  rw [same, ofText?_text b] at read
  exact (Option.some.inj read).symm

theorem lossless : Lossless α where
  kept := ofText?_text
  different := text_injective
  accepted _ _ := ofText?_eq_some_iff
  settled _ a _ := ⟨a, ofText?_text a, rfl, rfl⟩

end

/-- Every type with a JSON form keeps its values. -/
theorem json_forms_lossless :
    Lossless MotorMode ∧ Lossless LightMode ∧ Lossless Colour ∧ Lossless Command ∧
      Lossless LightPattern ∧ Lossless PowerReport ∧ Lossless MotorReport ∧
      Lossless SensorReport ∧ Lossless StatusBits ∧ Lossless Report ∧ Lossless Health :=
  ⟨lossless, lossless, lossless, lossless, lossless, lossless, lossless, lossless, lossless,
    lossless, lossless⟩

/-- An array of its fields, with blanks, is one of a colour's spellings. -/
example : (ofText? " [ 1, 2,\t3 ]" : Option Colour) = some ⟨1, 2, 3⟩ := by decide

end OmniDrive
