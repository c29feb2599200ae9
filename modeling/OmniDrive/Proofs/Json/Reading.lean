import Mathlib.Data.List.TakeWhile
import OmniDrive.Proofs.Json.Grammar

/-! The reader of JSON text accepts exactly the ways to write a value. Each of its functions takes as
much of the text as what it reads can take. -/
namespace OmniDrive.Json

variable {input rest : List Char} {text : Text}

/-! ### Blanks -/

theorem Blanks.skipBlank_eq (h : Blanks input rest) : skipBlank input = skipBlank rest := by
  induction h with
  | none => rfl
  | more hc _ ih => exact (List.dropWhile_cons_of_pos hc).trans ih

theorem skipBlank_cons {c : Char} (hc : isBlank c = false) (rest : List Char) :
    skipBlank (c :: rest) = c :: rest :=
  List.dropWhile_cons_of_neg (Bool.not_eq_true _ ▸ hc)

/-- Blanks are skipped up to what is none. -/
theorem Blanks.skip {c : Char} (h : Blanks input (c :: rest)) (hc : isBlank c = false) :
    skipBlank input = c :: rest := h.skipBlank_eq.trans (skipBlank_cons hc rest)

theorem blanks_skipBlank (input : List Char) : Blanks input (skipBlank input) := by
  induction input with
  | nil => exact .none []
  | cons c input ih =>
    cases hc : isBlank c with
    | true =>
      unfold skipBlank
      rw [List.dropWhile_cons_of_pos hc]
      exact .more hc ih
    | false =>
      rw [skipBlank_cons hc]
      exact .none _

theorem blanks_of_skipBlank (h : skipBlank input = rest) : Blanks input rest :=
  h ▸ blanks_skipBlank input

/-! ### Strings -/

theorem TextSpelled.read (h : TextSpelled text input rest) : readText input = some (text, rest) := by
  induction h with
  | done => rfl
  | plain hp hq hb _ ih =>
    simp [readText, hb, ih, Nat.not_lt.2 hp]
  | @short c escaped text input rest he _ ih =>
    have hu : c ≠ 'u' := by
      rintro rfl
      exact nomatch he
    simp [readText, hu, he, ih]
  | unit hc _ ih => simp [readText, hc, ih]

theorem textSpelled_of_read (h : readText input = some (text, rest)) :
    TextSpelled text input rest := by
  fun_induction readText input generalizing text rest with
  | case1 => cases h
  | case2 rest =>
    cases h
    exact .done _
  | case3 a b c d input ih =>
    obtain ⟨code, hc, h⟩ := Option.bind_eq_some_iff.1 h
    obtain ⟨⟨text, rest⟩, hr, h⟩ := Option.bind_eq_some_iff.1 h
    cases h
    exact .unit hc (ih hr)
  | case4 c input _ ih =>
    obtain ⟨escaped, he, h⟩ := Option.bind_eq_some_iff.1 h
    obtain ⟨⟨text, rest⟩, hr, h⟩ := Option.bind_eq_some_iff.1 h
    cases h
    exact .short he (ih hr)
  | case5 => cases h
  | case6 c input hq _ _ hc ih =>
    obtain ⟨⟨text, rest⟩, hr, h⟩ := Option.bind_eq_some_iff.1 h
    cases h
    obtain ⟨printable, slash⟩ := not_or.1 hc
    exact .plain (Nat.le_of_not_lt printable) hq slash (ih hr)

/-! ### Numbers -/

theorem takeWhile_of_stopsAt {p : Char → Bool} (h : StopsAt p rest) : rest.takeWhile p = [] := by
  cases rest with
  | nil => rfl
  | cons c rest => exact List.takeWhile_cons_of_neg (Bool.not_eq_true _ ▸ h c rfl)

theorem dropWhile_of_stopsAt {p : Char → Bool} (h : StopsAt p rest) : rest.dropWhile p = rest := by
  cases rest with
  | nil => rfl
  | cons c rest => exact List.dropWhile_cons_of_neg (Bool.not_eq_true _ ▸ h c rfl)

variable {digits whole fraction exponent : List Char}

theorem IsDigits.read (h : IsDigits digits) (hs : StopsAt isDigit rest) :
    readDigits (digits ++ rest) = some (digits, rest) := by
  obtain ⟨some_digit, all⟩ := h
  unfold readDigits
  rw [List.takeWhile_append_of_pos all, List.dropWhile_append_of_pos all, takeWhile_of_stopsAt hs,
    dropWhile_of_stopsAt hs, List.append_nil]
  split
  · exact absurd rfl some_digit
  · rfl

theorem isDigits_of_read (h : readDigits input = some (digits, rest)) :
    IsDigits digits ∧ input = digits ++ rest := by
  unfold readDigits at h
  split at h
  · cases h
  · rename_i taken
    cases h
    exact ⟨⟨taken, fun c hc => List.mem_takeWhile_imp hc⟩, List.takeWhile_append_dropWhile.symm⟩

theorem IsWhole.read (h : IsWhole whole) (hs : StopsAt isDigit rest) :
    readWhole (whole ++ rest) = some (whole, rest) := by
  cases h with
  | zero => rfl
  | digits hd hz =>
    rw [readWhole]
    · exact hd.read hs
    · intro tail zero
      cases whole with
      | nil => exact hd.1 rfl
      | cons c more => exact hz (congrArg List.head? zero :)

theorem isWhole_of_read (h : readWhole input = some (whole, rest)) :
    IsWhole whole ∧ input = whole ++ rest := by
  unfold readWhole at h
  split at h
  · cases h
    exact ⟨.zero, rfl⟩
  · rename_i zero
    obtain ⟨digits, rfl⟩ := isDigits_of_read h
    refine ⟨.digits digits fun first => ?_, rfl⟩
    obtain ⟨more, rfl⟩ := List.head?_eq_some_iff.1 first
    exact zero _ rfl

theorem IsFraction.read (h : IsFraction fraction) (hd : StopsAt isDigit rest)
    (hp : StopsAt (· == '.') rest) : readFraction (fraction ++ rest) = some (fraction, rest) := by
  cases h with
  | none =>
    rw [List.nil_append, readFraction]
    rintro tail rfl
    exact nomatch hp '.' rfl
  | point digits => simp [readFraction, digits.read hd]

theorem isFraction_of_read (h : readFraction input = some (fraction, rest)) :
    IsFraction fraction ∧ input = fraction ++ rest := by
  unfold readFraction at h
  split at h
  · obtain ⟨⟨digits, rest⟩, hr, h⟩ := Option.bind_eq_some_iff.1 h
    cases h
    obtain ⟨digits, rfl⟩ := isDigits_of_read hr
    exact ⟨.point digits, rfl⟩
  · cases h
    exact ⟨.none, rfl⟩

theorem IsDigits.read_signed (h : IsDigits digits) (hs : StopsAt isDigit rest) (mark : Char) :
    readExponent.signed mark (digits ++ rest) = some (mark :: digits, rest) := by
  have not_sign {sign : Char} {tail : List Char} (hn : isDigit sign = false) :
      digits ++ rest ≠ sign :: tail := by
    intro begins
    obtain ⟨some_digit, all⟩ := h
    cases digits with
    | nil => exact some_digit rfl
    | cons c more =>
      cases begins
      exact Bool.false_ne_true (hn.symm.trans (all sign List.mem_cons_self))
  rw [readExponent.signed]
  · simp [h.read hs]
  · intro tail
    exact not_sign rfl
  · intro tail
    exact not_sign rfl

theorem IsExponent.read (h : IsExponent exponent) (hs : StopsAt isNumeral rest) :
    readExponent (exponent ++ rest) = some (exponent, rest) := by
  have hd : StopsAt isDigit rest := hs.mono fun c hc => by simp [isNumeral, hc]
  cases h with
  | none =>
    rw [List.nil_append, readExponent]
    · rintro tail rfl
      exact nomatch hs 'e' rfl
    · rintro tail rfl
      exact nomatch hs 'E' rfl
  | unsigned hm digits =>
    rcases hm with rfl | rfl
    · exact digits.read_signed hd 'e'
    · exact digits.read_signed hd 'E'
  | signed hm hs digits =>
    rcases hm with rfl | rfl
    · rcases hs with rfl | rfl
      · simp [readExponent, readExponent.signed, digits.read hd]
      · simp [readExponent, readExponent.signed, digits.read hd]
    · rcases hs with rfl | rfl
      · simp [readExponent, readExponent.signed, digits.read hd]
      · simp [readExponent, readExponent.signed, digits.read hd]

theorem isExponent_of_signed {mark : Char} (hm : mark = 'e' ∨ mark = 'E')
    (h : readExponent.signed mark input = some (exponent, rest)) :
    IsExponent exponent ∧ mark :: input = exponent ++ rest := by
  unfold readExponent.signed at h
  split at h
  · obtain ⟨⟨digits, rest⟩, hr, h⟩ := Option.bind_eq_some_iff.1 h
    cases h
    obtain ⟨digits, rfl⟩ := isDigits_of_read hr
    exact ⟨.signed hm (.inl rfl) digits, rfl⟩
  · obtain ⟨⟨digits, rest⟩, hr, h⟩ := Option.bind_eq_some_iff.1 h
    cases h
    obtain ⟨digits, rfl⟩ := isDigits_of_read hr
    exact ⟨.signed hm (.inr rfl) digits, rfl⟩
  · obtain ⟨⟨digits, rest⟩, hr, h⟩ := Option.bind_eq_some_iff.1 h
    cases h
    obtain ⟨digits, rfl⟩ := isDigits_of_read hr
    exact ⟨.unsigned hm digits, rfl⟩

theorem isExponent_of_read (h : readExponent input = some (exponent, rest)) :
    IsExponent exponent ∧ input = exponent ++ rest := by
  unfold readExponent at h
  split at h
  · exact isExponent_of_signed (.inl rfl) h
  · exact isExponent_of_signed (.inr rfl) h
  · cases h
    exact ⟨.none, rfl⟩

/-- A number behind its sign. -/
def readUnsigned (negative : Bool) (input : List Char) : Option (Json × List Char) := do
  let (whole, rest) ← readWhole input
  let (fraction, rest) ← readFraction rest
  let (exponent, rest) ← readExponent rest
  return (ofNumber negative whole fraction exponent, rest)

theorem readNumber_of_stopsAt (h : StopsAt (· == '-') input) :
    readNumber input = readUnsigned false input := by
  unfold readNumber
  split
  rename_i negative tail sign
  split at sign
  · exact nomatch h '-' rfl
  · cases sign
    rfl

theorem readUnsigned_eq (hw : IsWhole whole) (hf : IsFraction fraction) (he : IsExponent exponent)
    (hs : StopsAt isNumeral rest) (negative : Bool) :
    readUnsigned negative (whole ++ (fraction ++ (exponent ++ rest))) =
      some (ofNumber negative whole fraction exponent, rest) := by
  have hd : StopsAt isDigit rest := hs.mono fun c hc => by simp [isNumeral, hc]
  have hp : StopsAt (· == '.') rest := hs.mono fun c hc => by simp [isNumeral, eq_of_beq hc]
  have behind := stopsAt_append (he.stopsAt rfl rfl) hd
  simp [readUnsigned, hw.read (stopsAt_append hf.stopsAt behind),
    hf.read behind (stopsAt_append (he.stopsAt rfl rfl) hp), he.read hs]

/-- A number ends where nothing goes on with it. -/
theorem NumberSpelled.read {j : Json} (h : NumberSpelled j input rest)
    (hs : StopsAt isNumeral rest) : readNumber input = some (j, rest) := by
  obtain ⟨negative, rest, hw, hf, he⟩ := h
  cases negative with
  | true => exact readUnsigned_eq hw hf he hs true
  | false => exact (readNumber_of_stopsAt hw.stopsAt).trans (readUnsigned_eq hw hf he hs false)

theorem numberSpelled_of_readUnsigned {j : Json} {negative : Bool}
    (h : readUnsigned negative input = some (j, rest)) :
    NumberSpelled j (minus negative ++ input) rest := by
  obtain ⟨⟨whole, behind⟩, hw, h⟩ := Option.bind_eq_some_iff.1 h
  obtain ⟨⟨fraction, left⟩, hf, h⟩ := Option.bind_eq_some_iff.1 h
  obtain ⟨⟨exponent, rest⟩, he, h⟩ := Option.bind_eq_some_iff.1 h
  cases h
  obtain ⟨isWhole, rfl⟩ := isWhole_of_read hw
  obtain ⟨isFraction, rfl⟩ := isFraction_of_read hf
  obtain ⟨isExponent, rfl⟩ := isExponent_of_read he
  exact .mk negative rest isWhole isFraction isExponent

theorem numberSpelled_of_read {j : Json} (h : readNumber input = some (j, rest)) :
    NumberSpelled j input rest := by
  by_cases sign : input.head? = some '-'
  · obtain ⟨tail, rfl⟩ := List.head?_eq_some_iff.1 sign
    have spelled : NumberSpelled j (minus true ++ tail) rest := numberSpelled_of_readUnsigned h
    exact spelled
  · have stops : StopsAt (· == '-') input := fun c hc => by
      refine Bool.eq_false_iff.2 fun minus => sign ?_
      rw [← eq_of_beq minus]
      exact hc
    rw [readNumber_of_stopsAt stops] at h
    exact numberSpelled_of_readUnsigned h

/-! ### Values -/

theorem NameSpelled.read {name : Text} (h : NameSpelled name input rest) :
    readName input = some (name, rest) := by
  obtain ⟨quote, text, colon⟩ := h
  simp [readName, quote.skip rfl, text.read, colon.skip rfl]

theorem nameSpelled_of_read {name : Text} (h : readName input = some (name, rest)) :
    NameSpelled name input rest := by
  unfold readName at h
  split at h
  · rename_i text quote
    obtain ⟨⟨name, behind⟩, hr, h⟩ := Option.bind_eq_some_iff.1 h
    dsimp only at h
    split at h
    · rename_i colon
      cases h
      exact .mk (blanks_of_skipBlank quote) (textSpelled_of_read hr) (blanks_of_skipBlank colon)
    · cases h
  · cases h

theorem readValue_skipBlank (fuel : Nat) (input : List Char) :
    readValue fuel (skipBlank input) = readValue fuel input := by
  cases fuel with
  | zero => rfl
  | succ fuel =>
    have twice : skipBlank (skipBlank input) = skipBlank input :=
      (blanks_skipBlank input).skipBlank_eq.symm
    rw [readValue, readValue, twice]

theorem readName_skipBlank (input : List Char) : readName (skipBlank input) = readName input := by
  have twice : skipBlank (skipBlank input) = skipBlank input :=
    (blanks_skipBlank input).skipBlank_eq.symm
  rw [readName, readName, twice]

theorem Blanks.readValue_eq (h : Blanks input rest) (fuel : Nat) :
    readValue fuel input = readValue fuel rest := by
  rw [← readValue_skipBlank, h.skipBlank_eq, readValue_skipBlank]

theorem readValue_number {c : Char} (hc : opensNumber c = true) (fuel : Nat) (tail : List Char) :
    readValue (fuel + 1) (c :: tail) = readNumber (c :: tail) := by
  rw [readValue, skipBlank_cons (isBlank_of_opensNumber hc)]
  split
  case h_7 => rfl
  -- The other openings begin no number.
  all_goals
    rename_i same
    cases same
    exact nomatch hc

mutual
theorem Spelled.read {j : Json} {input rest : List Char} (h : Spelled j input rest)
    (hs : StopsAt isNumeral rest) (fuel : Nat) (hf : input.length ≤ fuel) :
    readValue fuel input = some (j, rest) := by
  have spent := h.length_lt
  cases fuel with
  | zero => omega
  | succ fuel =>
    cases h with
    | null | yes | no => rfl
    | string text => simp [readValue, skipBlank_cons (c := '"') rfl, text.read]
    | number number =>
      obtain ⟨c, tail, rfl, opens⟩ := number.head
      rw [readValue_number opens, number.read hs]
    | emptyArray close =>
      simp [readValue, skipBlank_cons (c := '[') rfl, close.skip rfl]
    | emptyObject close =>
      simp [readValue, skipBlank_cons (c := '{') rfl, close.skip rfl]
    | array gap item items =>
      have first := gap.length_le
      have later := item.length_lt
      simp only [List.length_cons] at hf
      have read := item.read items.stopsAt fuel (by omega)
      have others := items.read fuel (by omega)
      obtain ⟨c, tail, rfl, solid, opens⟩ := item.head
      simp [readValue, skipBlank_cons (c := '[') rfl, gap.skip solid, opens,
        read, others]
    | object name gap value members =>
      have behind := name.length_lt
      have first := gap.length_le
      have later := value.length_lt
      simp only [List.length_cons] at hf
      have read := value.read members.stopsAt fuel (by omega)
      have others := members.read fuel (by omega)
      obtain ⟨quote, text, colon⟩ := name
      have named := (NameSpelled.mk (.none _) text colon).read
      simp [readValue, skipBlank_cons (c := '{') rfl, quote.skip rfl, named,
        gap.readValue_eq, read, others]
theorem ItemsSpelled.read {items : List Json} {input rest : List Char}
    (h : ItemsSpelled items input rest) (fuel : Nat) (hf : input.length ≤ fuel) :
    readItems fuel input = some (items, rest) := by
  have spent := h.length_lt
  cases fuel with
  | zero => omega
  | succ fuel =>
    cases h with
    | done close => simp [readItems, close.skip rfl]
    | more comma gap item items =>
      have next := comma.length_le
      have first := gap.length_le
      have later := item.length_lt
      simp only [List.length_cons] at next
      have read := item.read items.stopsAt fuel (by omega)
      have others := items.read fuel (by omega)
      simp [readItems, comma.skip rfl, gap.readValue_eq, read, others]
theorem MembersSpelled.read {members : List (Text × Json)} {input rest : List Char}
    (h : MembersSpelled members input rest) (fuel : Nat) (hf : input.length ≤ fuel) :
    readMembers fuel input = some (members, rest) := by
  have spent := h.length_lt
  cases fuel with
  | zero => omega
  | succ fuel =>
    cases h with
    | done close => simp [readMembers, close.skip rfl]
    | more comma name gap value members =>
      have next := comma.length_le
      have behind := name.length_lt
      have first := gap.length_le
      have later := value.length_lt
      simp only [List.length_cons] at next
      have read := value.read members.stopsAt fuel (by omega)
      have others := members.read fuel (by omega)
      simp [readMembers, comma.skip rfl, name.read, gap.readValue_eq, read, others]
end

mutual
theorem spelled_of_readValue (fuel : Nat) {j : Json} {input rest : List Char}
    (h : readValue fuel input = some (j, rest)) :
    ∃ first, Blanks input first ∧ Spelled j first rest := by
  cases fuel with
  | zero => cases h
  | succ fuel =>
    rw [readValue] at h
    refine ⟨skipBlank input, blanks_skipBlank input, ?_⟩
    generalize skipBlank input = solid at h
    split at h
    · cases h
      exact .null _
    · cases h
      exact .yes _
    · cases h
      exact .no _
    · obtain ⟨⟨text, rest⟩, ht, h⟩ := Option.bind_eq_some_iff.1 h
      cases h
      exact .string (textSpelled_of_read ht)
    · split at h
      · rename_i close
        cases h
        exact .emptyArray (blanks_of_skipBlank close)
      · obtain ⟨⟨item, later⟩, hi, h⟩ := Option.bind_eq_some_iff.1 h
        obtain ⟨⟨items, rest⟩, hs, h⟩ := Option.bind_eq_some_iff.1 h
        cases h
        rw [readValue_skipBlank] at hi
        obtain ⟨first, gap, spelled⟩ := spelled_of_readValue fuel hi
        exact .array gap spelled (itemsSpelled_of_readItems fuel hs)
    · split at h
      · rename_i close
        cases h
        exact .emptyObject (blanks_of_skipBlank close)
      · obtain ⟨⟨name, behind⟩, hn, h⟩ := Option.bind_eq_some_iff.1 h
        obtain ⟨⟨value, later⟩, hv, h⟩ := Option.bind_eq_some_iff.1 h
        obtain ⟨⟨members, rest⟩, hs, h⟩ := Option.bind_eq_some_iff.1 h
        cases h
        rw [readName_skipBlank] at hn
        obtain ⟨first, gap, spelled⟩ := spelled_of_readValue fuel hv
        exact .object (nameSpelled_of_read hn) gap spelled (membersSpelled_of_readMembers fuel hs)
    · exact .number (numberSpelled_of_read h)
theorem itemsSpelled_of_readItems (fuel : Nat) {items : List Json} {input rest : List Char}
    (h : readItems fuel input = some (items, rest)) : ItemsSpelled items input rest := by
  cases fuel with
  | zero => cases h
  | succ fuel =>
    rw [readItems] at h
    split at h
    · rename_i close
      cases h
      exact .done (blanks_of_skipBlank close)
    · rename_i comma
      obtain ⟨⟨item, later⟩, hi, h⟩ := Option.bind_eq_some_iff.1 h
      obtain ⟨⟨items, rest⟩, hs, h⟩ := Option.bind_eq_some_iff.1 h
      cases h
      obtain ⟨first, gap, spelled⟩ := spelled_of_readValue fuel hi
      exact .more (blanks_of_skipBlank comma) gap spelled (itemsSpelled_of_readItems fuel hs)
    · cases h
theorem membersSpelled_of_readMembers (fuel : Nat) {members : List (Text × Json)}
    {input rest : List Char} (h : readMembers fuel input = some (members, rest)) :
    MembersSpelled members input rest := by
  cases fuel with
  | zero => cases h
  | succ fuel =>
    rw [readMembers] at h
    split at h
    · rename_i close
      cases h
      exact .done (blanks_of_skipBlank close)
    · rename_i comma
      obtain ⟨⟨name, behind⟩, hn, h⟩ := Option.bind_eq_some_iff.1 h
      obtain ⟨⟨value, later⟩, hv, h⟩ := Option.bind_eq_some_iff.1 h
      obtain ⟨⟨members, rest⟩, hs, h⟩ := Option.bind_eq_some_iff.1 h
      cases h
      obtain ⟨first, gap, spelled⟩ := spelled_of_readValue fuel hv
      exact .more (blanks_of_skipBlank comma) (nameSpelled_of_read hn) gap spelled
        (membersSpelled_of_readMembers fuel hs)
    · cases h
end

/-- The reader accepts exactly the ways to write a value, and reads that value. -/
theorem parse_eq_some_iff {j : Json} {s : String} : parse s = some j ↔ SpelledBy j s := by
  constructor
  · intro h
    obtain ⟨⟨value, rest⟩, hv, h⟩ := Option.bind_eq_some_iff.1 h
    dsimp only at h
    split at h
    · rename_i closing
      cases h
      obtain ⟨first, gap, spelled⟩ := spelled_of_readValue _ hv
      exact ⟨first, rest, gap, spelled, blanks_of_skipBlank closing⟩
    · cases h
  · rintro ⟨first, rest, gap, spelled, closing⟩
    have stops : StopsAt isNumeral rest :=
      stopsAt_of_blanks closing nofun
    have short := gap.length_le
    have read := spelled.read stops (2 * s.toList.length + 2) (by omega)
    rw [← gap.readValue_eq] at read
    have blank : skipBlank rest = [] := closing.skipBlank_eq
    simp [parse, read, blank]

end OmniDrive.Json
