import OmniDrive.Proofs.Checksum.Residue

/-! Which flipped bits the checksum notices: those that leave a remainder. An odd number does since
the generator has an even number of terms, two do since the register is slow to come back to one,
and a short burst does since it fits into the register. -/
namespace OmniDrive.Checksum

/-- The number of ones is odd. -/
def odd (bits : List Bool) : Bool := bits.foldr xor false

theorem odd_eq_count (bits : List Bool) : odd bits = decide (bits.count true % 2 = 1) := by
  induction bits with
  | nil => rfl
  | cons bit bits ih =>
    change (bit ^^ odd bits) = _
    rw [ih]
    cases bit with
    | false => rw [Bool.false_xor, List.count_cons_of_ne Bool.false_ne_true]
    | true =>
      rw [Bool.true_xor, List.count_cons_self, ← decide_not, decide_eq_decide]
      omega

theorem odd_append (front back : List Bool) : odd (front ++ back) = (odd front ^^ odd back) := by
  induction front with
  | nil => exact (Bool.false_xor _).symm
  | cons bit front ih =>
    change (bit ^^ odd (front ++ back)) = (bit ^^ odd front ^^ odd back)
    rw [ih, Bool.xor_assoc]

theorem odd_zipWith_xor {a b : List Bool} (h : a.length = b.length) :
    odd (List.zipWith xor a b) = (odd a ^^ odd b) := by
  induction a generalizing b with
  | nil =>
    obtain rfl := List.length_eq_zero_iff.1 h.symm
    rfl
  | cons x a ih =>
    cases b with
    | nil => cases h
    | cons y b =>
      change (x ^^ y ^^ odd (List.zipWith xor a b)) = (x ^^ odd a ^^ (y ^^ odd b))
      rw [ih (Nat.succ.inj h), Bool.xor_assoc, Bool.xor_assoc, Bool.xor_left_comm y]

def parity (register : UInt16) : Bool := odd (binary 16 register.toNat)

theorem parity_xor (a b : UInt16) : parity (a ^^^ b) = (parity a ^^ parity b) := by
  rw [parity, UInt16.toNat_xor, binary_xor, odd_zipWith_xor (by rw [length_binary, length_binary])]
  rfl

theorem parity_shiftLeft (register : UInt16) :
    parity (register <<< 1) = (isFull register ^^ parity register) := by
  rw [parity, binary_shiftLeft, odd_append, parity, binary_toNat]
  change (odd (binary 15 register.toNat) ^^ false) =
    (isFull register ^^ (isFull register ^^ odd (binary 15 register.toNat)))
  rw [Bool.xor_false, ← Bool.xor_assoc, Bool.xor_self, Bool.false_xor]

theorem parity_shiftBit (register : UInt16) : parity (shiftBit register) = parity register := by
  have hg : parity (if isFull register then generator else 0) = isFull register := by
    cases isFull register <;> rfl
  rw [shiftBit_eq, parity_xor, parity_shiftLeft, hg, Bool.xor_right_comm, Bool.xor_self,
    Bool.false_xor]

/-- The generator divides no polynomial with an odd number of terms. -/
theorem parity_residue (bits : List Bool) : parity (residue bits) = odd bits := by
  induction bits using List.reverseRecOn with
  | nil => rfl
  | append_singleton bits bit ih =>
    have hb : parity bit.toUInt16 = odd [bit] := by cases bit <;> rfl
    rw [residue_concat, parity_xor, parity_shiftBit, ih, odd_append, hb]

/-- Zeros in front change nothing. -/
theorem residue_append_of_notMem {front : List Bool} (h : true ∉ front) (back : List Bool) :
    residue (front ++ back) = residue back := by
  rw [residue_append, residue_eq_zero_of_notMem h, shiftBits_zero, UInt16.zero_xor]

theorem residue_cons_true (bits : List Bool) :
    residue (true :: bits) = shiftBit^[bits.length] 1 ^^^ residue bits := residueFrom_eq 1 bits

/-- The register does not become one in so many shifts. -/
def away : Nat → UInt16 → Bool
  | 0, _ => true
  | n + 1, register => shiftBit register != 1 && away n (shiftBit register)

theorem shiftBits_ne_one {n : Nat} {register : UInt16} (h : away n register = true) {d : Nat}
    (hd : d < n) : shiftBit^[d + 1] register ≠ 1 := by
  induction n generalizing register d with
  | zero => exact absurd hd (Nat.not_lt_zero d)
  | succ n ih =>
    obtain ⟨hn, ha⟩ := Bool.and_eq_true_iff.1 h
    cases d with
    | zero => exact bne_iff_ne.1 hn
    | succ d => exact ih ha (Nat.lt_of_succ_lt_succ hd)

/-- Within a frame the register that starts as one does not come back to it. -/
theorem away_one : away 663 1 = true := by decide +kernel

theorem residue_ne_zero_of_pair {bits : List Bool} (hl : bits.length ≤ 664)
    (h : bits.count true = 2) : residue bits ≠ 0 := by
  obtain ⟨front, rest, rfl, hf⟩ :=
    List.eq_append_cons_of_mem (List.count_pos_iff.1 (h ▸ Nat.two_pos))
  rw [List.count_append, List.count_eq_zero_of_not_mem hf, List.count_cons_self, Nat.zero_add] at h
  have hr : rest.count true = 1 := Nat.succ.inj h
  obtain ⟨between, back, rfl, hb⟩ :=
    List.eq_append_cons_of_mem (List.count_pos_iff.1 (hr ▸ Nat.one_pos))
  rw [List.count_append, List.count_eq_zero_of_not_mem hb, List.count_cons_self, Nat.zero_add] at hr
  have hz : true ∉ back := List.count_eq_zero.1 (Nat.succ.inj hr)
  rw [List.length_append, List.length_cons, List.length_append, List.length_cons] at hl
  intro he
  -- Zeros behind the second one only shift the remainder that the two ones leave at their distance.
  rw [residue_append_of_notMem hf, residue_cons_true, residue_append_of_notMem hb,
    residue_cons_true, residue_eq_zero_of_notMem hz, UInt16.xor_zero, List.length_append,
    List.length_cons, ← Nat.add_assoc, Nat.add_right_comm, Nat.add_comm, Function.iterate_add_apply,
    ← shiftBits_xor] at he
  have hone := UInt16.xor_eq_zero_iff.1 (shiftBits_eq_zero he)
  exact shiftBits_ne_one away_one (by omega) hone

theorem value_pos {bits : List Bool} (h : true ∈ bits) : 0 < value bits := by
  obtain ⟨front, back, rfl⟩ := List.append_of_mem h
  have hone : value ([true] ++ back) = 1 * 2 ^ back.length + value back := value_append [true] back
  have := Nat.two_pow_pos back.length
  rw [List.singleton_append] at hone
  rw [value_append, hone]
  omega

/-- A burst has a remainder since it fits into the register. -/
theorem residue_ne_zero_of_burst {front burst back : List Bool} (hf : true ∉ front)
    (hb : true ∉ back) (hl : burst.length ≤ 16) (h : true ∈ burst) :
    residue (front ++ (burst ++ back)) ≠ 0 := by
  intro hz
  rw [residue_append_of_notMem hf, residue_append, residue_eq_zero_of_notMem hb,
    UInt16.xor_zero] at hz
  have hv := toNat_residue hl
  rw [shiftBits_eq_zero hz] at hv
  exact Nat.ne_of_lt (value_pos h) hv

theorem exists_burst {flips : List Bool} {start : Nat}
    (h : ∀ i, flips[i]? = some true → start ≤ i ∧ i < start + 16) :
    ∃ front burst back, flips = front ++ (burst ++ back) ∧ true ∉ front ∧ true ∉ back ∧
      burst.length ≤ 16 := by
  refine ⟨flips.take start, (flips.drop start).take 16, flips.drop (start + 16), ?_, ?_, ?_,
    List.length_take_le ..⟩
  · rw [← List.drop_drop, List.take_append_drop, List.take_append_drop]
  · intro ht
    obtain ⟨i, ht⟩ := List.mem_iff_getElem?.1 ht
    rw [List.getElem?_take] at ht
    split at ht
    · have := h i ht
      omega
    · cases ht
  · intro ht
    obtain ⟨i, ht⟩ := List.mem_iff_getElem?.1 ht
    rw [List.getElem?_drop] at ht
    have := h _ ht
    omega

/-- Flipped bits that the checksum promises to notice. -/
inductive Noticed (flips : List Bool) : Prop
  | odd : flips.count true % 2 = 1 → Noticed flips
  | pair : flips.count true = 2 → Noticed flips
  /-- All of them lie within sixteen consecutive bits. -/
  | burst (start : Nat) : true ∈ flips →
    (∀ i, flips[i]? = some true → start ≤ i ∧ i < start + 16) → Noticed flips

theorem Noticed.residue_ne_zero {flips : List Bool} (h : Noticed flips)
    (hl : flips.length ≤ 664) : residue flips ≠ 0 := by
  cases h with
  | odd ho =>
    intro hz
    have hp := parity_residue flips
    rw [hz, odd_eq_count, decide_eq_true ho] at hp
    cases hp
  | pair hp => exact residue_ne_zero_of_pair hl hp
  | burst start hm hi =>
    obtain ⟨front, burst, back, rfl, hf, hb, hl⟩ := exists_burst hi
    refine residue_ne_zero_of_burst hf hb hl ?_
    rcases List.mem_append.1 hm with hm | hm
    · exact absurd hm hf
    · exact (List.mem_append.1 hm).resolve_right hb

end OmniDrive.Checksum
