import OmniDrive.Json.Form
import OmniDrive.Proofs.Json.Reading

/-! Compact text is a way to write its value, as long as strings hold no control characters and
numbers are integers. -/
namespace OmniDrive.Json

/-- What is written for the value is a way to write it, whatever follows. -/
def Writes (j : Json) : Prop := ∀ rest, Spelled j (j.write ++ rest) rest

/-! ### Numbers -/

theorem isDigit_ofNat : ∀ d < 10, isDigit (Char.ofNat (48 + d)) = true := by decide

theorem digitValue_ofNat : ∀ d < 10, digitValue (Char.ofNat (48 + d)) = d := by decide

theorem ofDigits_append (digits : List Char) (c : Char) :
    ofDigits (digits ++ [c]) = 10 * ofDigits digits + digitValue c := by
  unfold ofDigits
  rw [List.foldl_append]
  rfl

theorem ofDigits_natDigits (n : Nat) : ofDigits (natDigits n) = n := by
  induction n using natDigits.induct with
  | case1 n small =>
    rw [natDigits, if_pos small]
    simp [ofDigits, digitValue_ofNat n small]
  | case2 n large ih =>
    rw [natDigits, if_neg large, ofDigits_append, ih,
      digitValue_ofNat _ (Nat.mod_lt n (by decide))]
    omega

theorem isDigits_natDigits (n : Nat) : IsDigits (natDigits n) := by
  induction n using natDigits.induct with
  | case1 n small =>
    rw [natDigits, if_pos small]
    exact ⟨List.cons_ne_nil _ _, by simpa using isDigit_ofNat n small⟩
  | case2 n large ih =>
    rw [natDigits, if_neg large]
    obtain ⟨some_digit, all⟩ := ih
    refine ⟨by simp, ?_⟩
    intro c hc
    rcases List.mem_append.1 hc with front | back
    · exact all c front
    · rw [List.mem_singleton.1 back]
      exact isDigit_ofNat _ (Nat.mod_lt n (by decide))

/-- Only zero begins with a zero. -/
theorem head?_natDigits {n : Nat} (h : n ≠ 0) : (natDigits n).head? ≠ some '0' := by
  induction n using natDigits.induct with
  | case1 n small =>
    rw [natDigits, if_pos small]
    intro zero
    have value := digitValue_ofNat n small
    rw [Option.some.inj zero] at value
    exact h value.symm
  | case2 n large ih =>
    obtain ⟨c, more, digits⟩ := List.exists_cons_of_ne_nil (isDigits_natDigits (n / 10)).1
    have first := ih (by omega)
    rw [digits] at first
    rw [natDigits, if_neg large, digits]
    exact first

theorem isWhole_natDigits (n : Nat) : IsWhole (natDigits n) := by
  by_cases zero : n = 0
  · subst zero
    rw [natDigits]
    exact .zero
  · exact .digits (isDigits_natDigits n) (head?_natDigits zero)

theorem ofNumber_natDigits (n : Nat) : ofNumber false (natDigits n) [] [] = .integer n := by
  simp [ofNumber, ofDigits_natDigits]

theorem ofNumber_minus_natDigits {n : Nat} (h : n ≠ 0) :
    ofNumber true (natDigits n) [] [] = .integer (-n) := by
  simp [ofNumber, ofDigits_natDigits, h]

theorem writes_integer (z : Int) : Writes (.integer z) := by
  intro rest
  have whole := isWhole_natDigits z.natAbs
  refine .number ?_
  by_cases negative : z < 0
  · have spelled := NumberSpelled.mk true rest whole .none .none
    have value : -(z.natAbs : Int) = z := by omega
    rw [ofNumber_minus_natDigits (by omega), value] at spelled
    simpa [write, intDigits, negative, minus] using spelled
  · have spelled := NumberSpelled.mk false rest whole .none .none
    have value : (z.natAbs : Int) = z := by omega
    rw [ofNumber_natDigits, value] at spelled
    simpa [write, intDigits, negative, minus] using spelled

/-! ### Strings -/

/-- No character needs the escape of a code unit. -/
def IsPlain (s : String) : Prop := ∀ c ∈ s.toList, 32 ≤ c.toNat

instance (s : String) : Decidable (IsPlain s) := List.decidableBAll _ s.toList

theorem textSpelled_write {cs : List Char} (h : ∀ c ∈ cs, 32 ≤ c.toNat) (rest : List Char) :
    TextSpelled (cs.map .char) ((cs.map Piece.char).flatMap Piece.write ++ '"' :: rest) rest := by
  induction cs with
  | nil => exact .done rest
  | cons c cs ih =>
    obtain ⟨printable, later⟩ := List.forall_mem_cons.1 h
    have spelled := ih later
    rw [List.map_cons, List.flatMap_cons, List.append_assoc]
    change TextSpelled _ (charEscape c ++ _) rest
    unfold charEscape
    split
    · subst c
      exact .short rfl spelled
    · split
      · subst c
        exact .short rfl spelled
      · rw [if_neg (Nat.not_lt.2 printable)]
        exact .plain printable (by assumption) (by assumption) spelled

/-- A string between its quotes. -/
theorem textSpelled_writeText {s : String} (h : IsPlain s) (rest : List Char) :
    ∃ text, writeText (Text.ofString s) ++ rest = '"' :: text ∧
      TextSpelled (Text.ofString s) text rest := by
  refine ⟨_, ?_, textSpelled_write h rest⟩
  simp [writeText, Text.ofString]

theorem writes_string {s : String} (h : IsPlain s) : Writes (.string (Text.ofString s)) := by
  intro rest
  obtain ⟨text, written, spelled⟩ := textSpelled_writeText h rest
  rw [write, written]
  exact .string spelled

/-! ### Arrays and objects -/

theorem itemsSpelled_writeItems {items : List Json} (h : ∀ item ∈ items, Writes item)
    (rest : List Char) : ItemsSpelled items (writeItems items ++ rest) rest := by
  induction items with
  | nil => exact .done (.none _)
  | cons item items ih =>
    obtain ⟨writes, later⟩ := List.forall_mem_cons.1 h
    simp only [writeItems, List.cons_append, List.append_assoc]
    exact .more (.none _) (.none _) (writes _) (ih later)

theorem writes_array {items : List Json} (h : ∀ item ∈ items, Writes item) :
    Writes (.array items) := by
  intro rest
  cases items with
  | nil => exact .emptyArray (.none _)
  | cons item items =>
    obtain ⟨writes, later⟩ := List.forall_mem_cons.1 h
    simp only [write, List.cons_append, List.append_assoc]
    exact .array (.none _) (writes _) (itemsSpelled_writeItems later rest)

/-- A member with a plain name. -/
def WritesMember (m : String × Json) : Prop := IsPlain m.1 ∧ Writes m.2

theorem nameSpelled_write {s : String} (h : IsPlain s) (rest : List Char) :
    NameSpelled (Text.ofString s) (writeText (Text.ofString s) ++ ':' :: rest) rest := by
  obtain ⟨text, written, spelled⟩ := textSpelled_writeText h (':' :: rest)
  rw [written]
  exact .mk (.none _) spelled (.none _)

theorem membersSpelled_writeMembers {fields : List (String × Json)}
    (h : ∀ m ∈ fields, WritesMember m) (rest : List Char) :
    MembersSpelled (fields.map fun f => (Text.ofString f.1, f.2))
      (writeMembers (fields.map fun f => (Text.ofString f.1, f.2)) ++ rest) rest := by
  induction fields with
  | nil => exact .done (.none _)
  | cons field fields ih =>
    obtain ⟨⟨plain, writes⟩, later⟩ := List.forall_mem_cons.1 h
    simp only [List.map_cons, writeMembers, List.cons_append, List.append_assoc]
    exact .more (.none _) (nameSpelled_write plain _) (.none _) (writes _) (ih later)

theorem writes_object {fields : List (String × Json)} (h : ∀ m ∈ fields, WritesMember m) :
    Writes (record fields) := by
  intro rest
  cases fields with
  | nil => exact .emptyObject (.none _)
  | cons field fields =>
    obtain ⟨⟨plain, writes⟩, later⟩ := List.forall_mem_cons.1 h
    simp only [record, List.map_cons, write, List.cons_append, List.append_assoc]
    exact .object (nameSpelled_write plain _) (.none _) (writes _)
      (membersSpelled_writeMembers later rest)

/-- A record with these names. -/
theorem writes_record (names : List String) {fields : List (String × Json)}
    (same : fields.map Prod.fst = names) (plain : ∀ name ∈ names, IsPlain name)
    (writes : ∀ m ∈ fields, m.2.Writes) : Writes (record fields) := by
  subst same
  exact writes_object fun m mem => ⟨plain m.1 (List.mem_map_of_mem mem), writes m mem⟩

/-- A text that is written for a value is read as that value. -/
theorem Writes.parse_render {j : Json} (h : j.Writes) : parse j.render = some j := by
  refine parse_eq_some_iff.2 ⟨j.write, [], ?_, ?_, .none []⟩
  · rw [render, String.toList_ofList]
    exact .none _
  · have spelled := h []
    rwa [List.append_nil] at spelled

end OmniDrive.Json
