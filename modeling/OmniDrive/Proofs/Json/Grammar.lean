import OmniDrive.Json.Parser

/-! The ways to write a JSON value, as relations between a text that begins with the value and what
is left behind it. They are all that the reader accepts, and it accepts all of them. -/
namespace OmniDrive.Json

/-- Blanks only, up to what is left. -/
inductive Blanks : List Char → List Char → Prop
  | none (rest : List Char) : Blanks rest rest
  | more {c : Char} {input rest : List Char} : isBlank c = true → Blanks input rest →
    Blanks (c :: input) rest

/-- The rest of a string behind its opening quote. -/
inductive TextSpelled : Text → List Char → List Char → Prop
  | done (rest : List Char) : TextSpelled [] ('"' :: rest) rest
  | plain {c : Char} {text : Text} {input rest : List Char} : 32 ≤ c.toNat → c ≠ '"' → c ≠ '\\' →
    TextSpelled text input rest → TextSpelled (.char c :: text) (c :: input) rest
  | short {c escaped : Char} {text : Text} {input rest : List Char} :
    shortEscape c = some escaped → TextSpelled text input rest →
    TextSpelled (.char escaped :: text) ('\\' :: c :: input) rest
  | unit {a b c d : Char} {code : Nat} {text : Text} {input rest : List Char} :
    codeUnit a b c d = some code → TextSpelled text input rest →
    TextSpelled (.unit code :: text) ('\\' :: 'u' :: a :: b :: c :: d :: input) rest

/-- The name of a member and the colon behind it. -/
inductive NameSpelled : Text → List Char → List Char → Prop
  | mk {name : Text} {input text behind rest : List Char} : Blanks input ('"' :: text) →
    TextSpelled name text behind → Blanks behind (':' :: rest) → NameSpelled name input rest

/-- Digits, at least one. -/
def IsDigits (digits : List Char) : Prop := digits ≠ [] ∧ ∀ c ∈ digits, isDigit c = true

/-- A zero alone, or digits that do not begin with one. -/
inductive IsWhole : List Char → Prop
  | zero : IsWhole ['0']
  | digits {digits : List Char} : IsDigits digits → digits.head? ≠ some '0' → IsWhole digits

/-- A point and digits, or nothing. -/
inductive IsFraction : List Char → Prop
  | none : IsFraction []
  | point {digits : List Char} : IsDigits digits → IsFraction ('.' :: digits)

/-- An exponent, or nothing. -/
inductive IsExponent : List Char → Prop
  | none : IsExponent []
  | unsigned {mark : Char} {digits : List Char} : mark = 'e' ∨ mark = 'E' → IsDigits digits →
    IsExponent (mark :: digits)
  | signed {mark sign : Char} {digits : List Char} : mark = 'e' ∨ mark = 'E' →
    sign = '+' ∨ sign = '-' → IsDigits digits → IsExponent (mark :: sign :: digits)

/-- The minus in front of a number, if there is one. -/
def minus (negative : Bool) : List Char := if negative then ['-'] else []

inductive NumberSpelled : Json → List Char → List Char → Prop
  | mk (negative : Bool) {whole fraction exponent : List Char} (rest : List Char) : IsWhole whole →
    IsFraction fraction → IsExponent exponent →
    NumberSpelled (ofNumber negative whole fraction exponent)
      (minus negative ++ (whole ++ (fraction ++ (exponent ++ rest)))) rest

mutual
/-- A value; the text begins with it. -/
inductive Spelled : Json → List Char → List Char → Prop
  | null (rest : List Char) : Spelled .null ('n' :: 'u' :: 'l' :: 'l' :: rest) rest
  | yes (rest : List Char) : Spelled (.bool true) ('t' :: 'r' :: 'u' :: 'e' :: rest) rest
  | no (rest : List Char) : Spelled (.bool false) ('f' :: 'a' :: 'l' :: 's' :: 'e' :: rest) rest
  | string {text : Text} {input rest : List Char} : TextSpelled text input rest →
    Spelled (.string text) ('"' :: input) rest
  | number {j : Json} {input rest : List Char} : NumberSpelled j input rest → Spelled j input rest
  | emptyArray {input rest : List Char} : Blanks input (']' :: rest) →
    Spelled (.array []) ('[' :: input) rest
  | array {item : Json} {items : List Json} {input first later rest : List Char} :
    Blanks input first → Spelled item first later → ItemsSpelled items later rest →
    Spelled (.array (item :: items)) ('[' :: input) rest
  | emptyObject {input rest : List Char} : Blanks input ('}' :: rest) →
    Spelled (.object []) ('{' :: input) rest
  | object {name : Text} {value : Json} {members : List (Text × Json)}
    {input behind first later rest : List Char} : NameSpelled name input behind →
    Blanks behind first → Spelled value first later → MembersSpelled members later rest →
    Spelled (.object ((name, value) :: members)) ('{' :: input) rest
/-- What follows an item of an array. -/
inductive ItemsSpelled : List Json → List Char → List Char → Prop
  | done {input rest : List Char} : Blanks input (']' :: rest) → ItemsSpelled [] input rest
  | more {item : Json} {items : List Json} {input next first later rest : List Char} :
    Blanks input (',' :: next) → Blanks next first → Spelled item first later →
    ItemsSpelled items later rest → ItemsSpelled (item :: items) input rest
/-- What follows a member of an object. -/
inductive MembersSpelled : List (Text × Json) → List Char → List Char → Prop
  | done {input rest : List Char} : Blanks input ('}' :: rest) → MembersSpelled [] input rest
  | more {name : Text} {value : Json} {members : List (Text × Json)}
    {input next behind first later rest : List Char} : Blanks input (',' :: next) →
    NameSpelled name next behind → Blanks behind first → Spelled value first later →
    MembersSpelled members later rest → MembersSpelled ((name, value) :: members) input rest
end

/-- The whole text is a way to write the value. -/
def SpelledBy (j : Json) (s : String) : Prop :=
  ∃ first rest, Blanks s.toList first ∧ Spelled j first rest ∧ Blanks rest []

variable {input rest : List Char} {text : Text} {whole fraction exponent : List Char}

/-! ### What a value begins with, and what ends it -/

theorem eq_of_isBlank {c : Char} (h : isBlank c = true) :
    c = ' ' ∨ c = '\n' ∨ c = '\t' ∨ c = '\r' := by
  simpa [isBlank, or_assoc] using h

/-- The text does not begin with such a character. -/
def StopsAt (p : Char → Bool) (rest : List Char) : Prop := ∀ c ∈ rest.head?, p c = false

theorem StopsAt.mono {p q : Char → Bool} (h : StopsAt p rest) (hq : ∀ c, q c = true → p c = true) :
    StopsAt q rest := by
  intro c hc
  refine Bool.eq_false_iff.2 fun goes => ?_
  exact Bool.false_ne_true ((h c hc).symm.trans (hq c goes))

theorem stopsAt_append {p : Char → Bool} {front : List Char} (hf : StopsAt p front)
    (hr : StopsAt p rest) : StopsAt p (front ++ rest) := by
  cases front with
  | nil => exact hr
  | cons c front => exact hf

theorem StopsAt.of_blanks {p : Char → Bool} (hp : ∀ c, isBlank c = true → p c = false)
    (h : Blanks input rest) (hs : StopsAt p rest) : StopsAt p input := by
  cases h with
  | none => exact hs
  | more hc =>
    rintro _ ⟨⟩
    exact hp _ hc

theorem IsWhole.head (h : IsWhole whole) : ∃ c tail, whole = c :: tail ∧ isDigit c = true := by
  cases h with
  | zero => exact ⟨'0', [], rfl, rfl⟩
  | digits digits =>
    obtain ⟨some_digit, all⟩ := digits
    cases whole with
    | nil => exact absurd rfl some_digit
    | cons c tail => exact ⟨c, tail, rfl, all c List.mem_cons_self⟩

theorem IsWhole.stopsAt (h : IsWhole whole) : StopsAt (· == '-') (whole ++ rest) := by
  obtain ⟨c, tail, rfl, digit⟩ := h.head
  rintro _ ⟨⟩
  refine Bool.eq_false_iff.2 fun sign => ?_
  rw [eq_of_beq sign] at digit
  exact nomatch digit

theorem IsFraction.stopsAt (h : IsFraction fraction) : StopsAt isDigit fraction := by
  cases h with
  | none => exact nofun
  | point =>
    rintro _ ⟨⟩
    rfl

theorem IsExponent.stopsAt {p : Char → Bool} (h : IsExponent exponent) (small : p 'e' = false)
    (large : p 'E' = false) : StopsAt p exponent := by
  cases h with
  | none => exact nofun
  | unsigned hm | signed hm =>
    rintro _ ⟨⟩
    rcases hm with rfl | rfl
    · exact small
    · exact large

/-- Begins a number. -/
def opensNumber (c : Char) : Bool := c == '-' || isDigit c

theorem isBlank_of_opensNumber {c : Char} (h : opensNumber c = true) : isBlank c = false := by
  refine Bool.eq_false_iff.2 fun blank => ?_
  rcases eq_of_isBlank blank with rfl | rfl | rfl | rfl
  all_goals exact nomatch h

theorem NumberSpelled.head {j : Json} (h : NumberSpelled j input rest) :
    ∃ c tail, input = c :: tail ∧ opensNumber c = true := by
  obtain ⟨negative, rest, hw, -, -⟩ := h
  cases negative with
  | true => exact ⟨'-', _, rfl, rfl⟩
  | false =>
    obtain ⟨c, tail, rfl, digit⟩ := hw.head
    exact ⟨c, _, rfl, by simp [opensNumber, digit]⟩

/-- A value begins with no blank and no closing bracket. -/
theorem Spelled.head {j : Json} (h : Spelled j input rest) :
    ∃ c tail, input = c :: tail ∧ isBlank c = false ∧ c ≠ ']' := by
  cases h with
  | number h =>
    obtain ⟨c, tail, rfl, opens⟩ := h.head
    refine ⟨c, tail, rfl, isBlank_of_opensNumber opens, ?_⟩
    rintro rfl
    exact nomatch opens
  | _ => exact ⟨_, _, rfl, rfl, by decide⟩

/-- Goes on with a number. -/
def isNumeral (c : Char) : Bool := isDigit c || c == '.' || c == 'e' || c == 'E'

theorem stopsAt_of_blanks (h : Blanks input rest) (hs : StopsAt isNumeral rest) :
    StopsAt isNumeral input := by
  refine .of_blanks (fun c blank => ?_) h hs
  rcases eq_of_isBlank blank with rfl | rfl | rfl | rfl
  all_goals rfl

theorem ItemsSpelled.stopsAt {items : List Json} (h : ItemsSpelled items input rest) :
    StopsAt isNumeral input := by
  cases h with
  | done hb | more hb =>
    refine stopsAt_of_blanks hb ?_
    rintro _ ⟨⟩
    rfl

theorem MembersSpelled.stopsAt {members : List (Text × Json)}
    (h : MembersSpelled members input rest) : StopsAt isNumeral input := by
  cases h with
  | done hb | more hb =>
    refine stopsAt_of_blanks hb ?_
    rintro _ ⟨⟩
    rfl

/-! ### Every value takes up some of the text -/

theorem Blanks.length_le (h : Blanks input rest) : rest.length ≤ input.length := by
  induction h with
  | none => exact Nat.le_refl _
  | more _ _ ih => exact Nat.le_succ_of_le ih

theorem TextSpelled.length_lt (h : TextSpelled text input rest) : rest.length < input.length := by
  induction h with
  | done => exact Nat.lt_succ_self _
  | plain _ _ _ _ ih => exact Nat.lt_succ_of_lt ih
  | short _ _ ih => exact Nat.lt_succ_of_lt (Nat.lt_succ_of_lt ih)
  | unit _ _ ih =>
    simp only [List.length_cons]
    omega

theorem NameSpelled.length_lt {name : Text} (h : NameSpelled name input rest) :
    rest.length < input.length := by
  obtain ⟨quote, text, colon⟩ := h
  have opened := quote.length_le
  have read := text.length_lt
  have closed := colon.length_le
  simp only [List.length_cons] at opened closed
  omega

theorem NumberSpelled.length_lt {j : Json} (h : NumberSpelled j input rest) :
    rest.length < input.length := by
  obtain ⟨negative, rest, hw, -, -⟩ := h
  obtain ⟨c, tail, rfl, -⟩ := hw.head
  simp only [List.length_append, List.length_cons]
  omega

mutual
theorem Spelled.length_lt {j : Json} {input rest : List Char} (h : Spelled j input rest) :
    rest.length < input.length := by
  cases h with
  | null | yes | no =>
    simp only [List.length_cons]
    omega
  | string text => exact Nat.lt_succ_of_lt text.length_lt
  | number number => exact number.length_lt
  | emptyArray close | emptyObject close =>
    exact Nat.lt_succ_of_lt (Nat.lt_of_succ_le close.length_le)
  | array gap item items =>
    have opened := Nat.lt_of_lt_of_le item.length_lt gap.length_le
    exact Nat.lt_succ_of_lt (Nat.lt_trans items.length_lt opened)
  | object name gap value members =>
    have opened := Nat.lt_of_lt_of_le value.length_lt gap.length_le
    have named := Nat.lt_trans opened name.length_lt
    exact Nat.lt_succ_of_lt (Nat.lt_trans members.length_lt named)
theorem ItemsSpelled.length_lt {items : List Json} {input rest : List Char}
    (h : ItemsSpelled items input rest) : rest.length < input.length := by
  cases h with
  | done close => exact close.length_le
  | more comma gap item items =>
    have opened := Nat.lt_of_lt_of_le item.length_lt gap.length_le
    have next := Nat.lt_of_lt_of_le opened (Nat.le_of_succ_le comma.length_le)
    exact Nat.lt_trans items.length_lt next
theorem MembersSpelled.length_lt {members : List (Text × Json)} {input rest : List Char}
    (h : MembersSpelled members input rest) : rest.length < input.length := by
  cases h with
  | done close => exact close.length_le
  | more comma name gap value members =>
    have opened := Nat.lt_of_lt_of_le value.length_lt gap.length_le
    have named := Nat.lt_trans opened name.length_lt
    have next := Nat.lt_of_lt_of_le named (Nat.le_of_succ_le comma.length_le)
    exact Nat.lt_trans members.length_lt next
end

end OmniDrive.Json
