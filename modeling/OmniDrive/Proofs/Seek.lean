import OmniDrive.Telemetry.Stream

/-! The search for the leftmost header. A header needs all of its four bytes, and none of them but
the first begins another one. -/
namespace OmniDrive.Telemetry

variable {input found noise : List UInt8}

theorem seek_cons {byte : UInt8} {rest : List UInt8} (h : ¬ OmniDrive.header <+: byte :: rest) :
    seek (byte :: rest) = seek rest := by
  rw [seek, if_neg]
  intro ht
  exact h (List.prefix_iff_eq_take.2 ht.symm)

theorem seek_header (rest : List UInt8) :
    seek (OmniDrive.header ++ rest) = some (OmniDrive.header ++ rest) := if_pos rfl

theorem seek_eq_self (h : OmniDrive.header <+: input) : seek input = some input := by
  obtain ⟨more, rfl⟩ := h
  exact seek_header more

/-- Bytes at which no header begins are skipped. -/
theorem seek_drop {n : Nat} (h : ∀ j < n, ¬ OmniDrive.header <+: input.drop j) :
    seek (input.drop n) = seek input := by
  induction n generalizing input with
  | zero => rw [List.drop_zero]
  | succ n ih =>
    cases input with
    | nil => rfl
    | cons byte rest =>
      rw [List.drop_succ_cons, seek_cons (h 0 (Nat.succ_pos n)), ih]
      intro j hj
      exact h (j + 1) (Nat.succ_lt_succ hj)

/-- What is found opens with a header, and no header begins before it. -/
theorem exists_drop_of_seek_eq_some (h : seek input = some found) :
    ∃ n, found = input.drop n ∧ OmniDrive.header <+: found ∧
      ∀ j < n, ¬ OmniDrive.header <+: input.drop j := by
  induction input with
  | nil => cases h
  | cons byte rest ih =>
    by_cases hp : OmniDrive.header <+: byte :: rest
    · rw [seek_eq_self hp] at h
      cases h
      exact ⟨0, rfl, hp, fun j hj => absurd hj (Nat.not_lt_zero j)⟩
    · rw [seek_cons hp] at h
      obtain ⟨n, rfl, hf, hj⟩ := ih h
      refine ⟨n + 1, rfl, hf, fun j hlt => ?_⟩
      cases j with
      | zero => exact hp
      | succ j => exact hj j (Nat.lt_of_succ_lt_succ hlt)

theorem seek_eq_none_iff : seek input = none ↔ ¬ OmniDrive.header <:+: input := by
  induction input with
  | nil => exact iff_of_true rfl (by decide)
  | cons byte rest ih =>
    rw [List.infix_cons_iff, not_or]
    by_cases hp : OmniDrive.header <+: byte :: rest
    · rw [seek_eq_self hp]
      exact iff_of_false nofun fun h => h.1 hp
    · rw [seek_cons hp, ih]
      exact ⟨fun h => ⟨hp, h⟩, fun h => h.2⟩

/-- Four bytes are enough to see whether a header begins. -/
theorem header_prefix_of_append {front back : List UInt8} (hl : 4 ≤ front.length)
    (h : OmniDrive.header <+: front ++ back) : OmniDrive.header <+: front :=
  List.prefix_of_prefix_length_le h (List.prefix_append ..) hl

/-- What is found does not change with the bytes behind it. -/
theorem seek_append (h : seek input = some found) (back : List UInt8) :
    seek (input ++ back) = some (found ++ back) := by
  obtain ⟨n, rfl, hf, hj⟩ := exists_drop_of_seek_eq_some h
  have hl := hf.length_le
  rw [List.length_drop] at hl
  change 4 ≤ _ at hl
  have hd {j : Nat} (hn : j ≤ n) : (input ++ back).drop j = input.drop j ++ back :=
    List.drop_append_of_le_length (by omega)
  rw [← seek_drop (n := n), hd (Nat.le_refl n)]
  · exact seek_eq_self (hf.trans (List.prefix_append ..))
  · intro j hlt
    rw [hd (Nat.le_of_lt hlt)]
    refine fun hp => hj j hlt (header_prefix_of_append ?_ hp)
    rw [List.length_drop]
    omega

/-- A header does not begin with an end of another one. -/
theorem not_header_prefix_append {short : List UInt8} (h0 : short ≠ []) (h4 : short.length < 4)
    (rest : List UInt8) : ¬ OmniDrive.header <+: short ++ (OmniDrive.header ++ rest) := by
  match short, h0, h4 with
  | [_], _, _ | [_, _], _, _ | [_, _, _], _, _ => simp [OmniDrive.header]

/-- Noise in front of a header is skipped. -/
theorem seek_noise (h : ¬ OmniDrive.header <:+: noise) (rest : List UInt8) :
    seek (noise ++ (OmniDrive.header ++ rest)) = some (OmniDrive.header ++ rest) := by
  rw [← seek_drop (n := noise.length), List.drop_left, seek_header]
  intro j hj hp
  rw [List.drop_append_of_le_length (Nat.le_of_lt hj)] at hp
  by_cases hl : 4 ≤ (noise.drop j).length
  · exact h ((header_prefix_of_append hl hp).isInfix.trans (List.drop_suffix j noise).isInfix)
  · refine not_header_prefix_append ?_ (Nat.not_le.1 hl) rest hp
    exact fun he => Nat.not_le.2 hj (List.drop_eq_nil_iff.1 he)

end OmniDrive.Telemetry
