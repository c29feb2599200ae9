import Mathlib.Algebra.CharP.Two
import Mathlib.Algebra.Field.ZMod
import Mathlib.Algebra.Polynomial.Div
import Mathlib.Data.List.Infix
import Mathlib.Tactic.ComputeDegree
import Mathlib.Tactic.LinearCombination
import OmniDrive.Proofs.Checksum.Residue

/-! The checksum as a division of polynomials over two elements. The register always holds the
remainder of what has been shifted into it, so that a string shifted out by a whole register leaves
its checksum. -/
namespace OmniDrive.Checksum

open Polynomial

/-- The polynomial with the given coefficients, highest first. -/
noncomputable def polynomial (bits : List Bool) : (ZMod 2)[X] :=
  bits.foldl (fun p bit => X * p + C (bit.toNat : ZMod 2)) 0

/-- What a register stands for. -/
noncomputable def content (register : UInt16) : (ZMod 2)[X] := polynomial (binary 16 register.toNat)

/-- The whole generator. -/
noncomputable def divisor : (ZMod 2)[X] := X ^ 16 + X ^ 12 + X ^ 5 + 1

/-- Fold a byte into the register bit by bit: it enters at the top. -/
def updateBits (register : UInt16) (byte : UInt8) : UInt16 :=
  shiftBit^[8] (register ^^^ (byte.toUInt16 <<< 8))

theorem polynomial_nil : polynomial [] = 0 := rfl

theorem polynomial_concat (bits : List Bool) (bit : Bool) :
    polynomial (bits ++ [bit]) = X * polynomial bits + C (bit.toNat : ZMod 2) :=
  List.foldl_append

theorem polynomial_append (front back : List Bool) :
    polynomial (front ++ back) = polynomial front * X ^ back.length + polynomial back := by
  induction back using List.reverseRecOn with
  | nil => simp [polynomial_nil]
  | append_singleton back bit ih =>
    rw [← List.append_assoc, polynomial_concat, ih, polynomial_concat, List.length_append,
      List.length_singleton]
    ring

theorem polynomial_cons (bit : Bool) (bits : List Bool) :
    polynomial (bit :: bits) = C (bit.toNat : ZMod 2) * X ^ bits.length + polynomial bits := by
  have single : polynomial [bit] = C (bit.toNat : ZMod 2) := by
    rw [← List.nil_append [bit], polynomial_concat, polynomial_nil, mul_zero, zero_add]
  rw [← List.singleton_append, polynomial_append, single]

theorem polynomial_replicate_false (n : Nat) : polynomial (List.replicate n false) = 0 := by
  induction n with
  | zero => rfl
  | succ n ih => simp [List.replicate_succ', polynomial_concat, ih]

theorem polynomial_zipWith_xor {a b : List Bool} (h : a.length = b.length) :
    polynomial (List.zipWith xor a b) = polynomial a + polynomial b := by
  induction a generalizing b with
  | nil =>
    obtain rfl := List.length_eq_zero_iff.1 h.symm
    simp [polynomial_nil]
  | cons x a ih =>
    cases b with
    | nil => cases h
    | cons y b =>
      have shorter : a.length = b.length := Nat.succ.inj h
      have sum : ((x ^^ y).toNat : ZMod 2) = x.toNat + y.toNat := by
        cases x <;> cases y <;> decide
      rw [List.zipWith_cons_cons, polynomial_cons, ih shorter, polynomial_cons, polynomial_cons,
        List.length_zipWith, ← shorter, Nat.min_self, sum, map_add]
      ring

theorem degree_polynomial_lt (bits : List Bool) : (polynomial bits).degree < bits.length := by
  induction bits with
  | nil => simp [polynomial_nil]
  | cons bit bits ih =>
    rw [polynomial_cons, List.length_cons]
    refine (degree_add_le _ _).trans_lt (max_lt ?_ (ih.trans ?_))
    · exact (degree_C_mul_X_pow_le _ _).trans_lt (by exact_mod_cast Nat.lt_succ_self _)
    · exact_mod_cast Nat.lt_succ_self _

theorem monic_divisor : divisor.Monic := by
  unfold divisor
  monicity!

theorem degree_divisor : divisor.degree = (16 : ℕ) := by
  unfold divisor
  compute_degree!

theorem degree_content_lt (register : UInt16) : (content register).degree < divisor.degree := by
  have short := degree_polynomial_lt (binary 16 register.toNat)
  rwa [length_binary, ← degree_divisor] at short

theorem content_xor (a b : UInt16) : content (a ^^^ b) = content a + content b := by
  unfold content
  rw [UInt16.toNat_xor, binary_xor, polynomial_zipWith_xor]
  rw [length_binary, length_binary]

theorem content_zero : content 0 = 0 := polynomial_replicate_false 16

theorem content_bit (bit : Bool) : content bit.toUInt16 = C (bit.toNat : ZMod 2) := by
  have last : binary 16 bit.toUInt16.toNat = List.replicate 15 false ++ [bit] := by
    cases bit <;> decide
  rw [content, last, polynomial_concat, polynomial_replicate_false, mul_zero, zero_add]

/-- The generator as it is kept lacks the term that falls out. -/
theorem content_generator : content generator + X ^ 16 = divisor := by
  have terms : binary 16 generator.toNat = List.replicate 3 false ++
      true :: (List.replicate 6 false ++ true :: (List.replicate 4 false ++ [true])) := by decide
  have low : content generator = X ^ 12 + (X ^ 5 + 1) := by
    rw [content, terms]
    simp [polynomial_cons, polynomial_nil]
  rw [low, divisor]
  ring

/-- A shift is a multiplication, less the divisor if a one falls out. -/
theorem content_shiftBit (register : UInt16) : content (shiftBit register) =
    X * content register + C ((isFull register).toNat : ZMod 2) * divisor := by
  have doubled : content (register <<< 1) = X * polynomial (binary 15 register.toNat) := by
    rw [content, binary_shiftLeft, polynomial_concat]
    simp
  have whole : content register =
      C ((isFull register).toNat : ZMod 2) * X ^ 15 + polynomial (binary 15 register.toNat) := by
    rw [content, binary_toNat, polynomial_cons, length_binary]
  have subtracted : content (if isFull register then generator else 0) =
      C ((isFull register).toNat : ZMod 2) * content generator := by
    cases isFull register <;> simp [content_zero]
  rw [shiftBit_eq, content_xor, doubled, subtracted, whole, ← content_generator]
  have twice : (2 : (ZMod 2)[X]) = 0 := CharTwo.two_eq_zero
  linear_combination -(C ((isFull register).toNat : ZMod 2) * X ^ 16) * twice

/-- The register differs from what was shifted into it by a multiple of the divisor. -/
theorem divisor_dvd_sub (bits : List Bool) :
    divisor ∣ polynomial bits - content (residue bits) := by
  induction bits using List.reverseRecOn with
  | nil =>
    have empty : polynomial [] - content (residue []) = 0 := sub_eq_zero.2 content_zero.symm
    rw [empty]
    exact dvd_zero divisor
  | append_singleton bits bit ih =>
    obtain ⟨quotient, h⟩ := ih
    refine ⟨X * quotient - C ((isFull (residue bits)).toNat : ZMod 2), ?_⟩
    rw [residue_concat, content_xor, content_shiftBit, content_bit, polynomial_concat]
    linear_combination X * h

/-- The register holds the remainder of the polynomial shifted into it. -/
theorem polynomial_mod_divisor (bits : List Bool) :
    polynomial bits %ₘ divisor = content (residue bits) := by
  obtain ⟨quotient, h⟩ := divisor_dvd_sub bits
  refine (div_modByMonic_unique quotient _ monic_divisor ⟨?_, ?_⟩).2
  · linear_combination -h
  · exact degree_content_lt _

/-- The checksum is what is left when the string is followed by an empty register. -/
theorem ofBytes_eq_residue (bytes : List UInt8) :
    ofBytes bytes = residue (bits bytes ++ List.replicate 16 false) := by
  have empty : residue (List.replicate 16 false) = 0 := residue_eq_zero_of_notMem (by decide)
  rw [residue_append, List.length_replicate, ofBytes_eq, empty, UInt16.xor_zero]

theorem polynomial_bits_mod_divisor (bytes : List UInt8) :
    polynomial (bits bytes) * X ^ 16 %ₘ divisor = content (ofBytes bytes) := by
  rw [ofBytes_eq_residue, ← polynomial_mod_divisor, polynomial_append, List.length_replicate,
    polynomial_replicate_false, add_zero]

theorem updateBits_eq (register : UInt16) (byte : UInt8) :
    updateBits register byte = update register byte := by
  rw [updateBits, shiftBits_xor, ← shiftBits_byte, ← Function.iterate_add_apply, update_eq]

/-- The accumulator shows the checksum of every front of the string. -/
theorem trace_go_eq (register : UInt16) (bytes : List UInt8) :
    trace.go register bytes = bytes.inits.map (fold register) := by
  induction bytes generalizing register with
  | nil => rfl
  | cons byte bytes ih =>
    rw [trace.go, ih, List.inits_cons, List.map_cons, List.map_map]
    rfl

theorem ofBytes_xor {a b : List UInt8} (h : a.length = b.length) :
    ofBytes (List.zipWith (· ^^^ ·) a b) = ofBytes a ^^^ ofBytes b := by
  rw [ofBytes_eq, bits_zipWith_xor, residue_zipWith_xor, shiftBits_xor, ← ofBytes_eq, ← ofBytes_eq]
  rw [length_bits, length_bits, h]

theorem ofBytes_stamped (bytes : List UInt8) : ofBytes (bytes ++ wire (ofBytes bytes)) = 0 := by
  rw [ofBytes_eq, wire, residue_stamped, ofWire_wire, UInt16.xor_self]
  exact shiftBits_zero 16

/-- The table does what the bits do, and the checksum is the remainder of the string followed by an
empty register, whether it is taken at once, byte by byte or in two parts. So strings that are put
over each other have checksums that are, and one followed by its own checksum has none. -/
theorem shifting_is_division :
    (∀ register bytes, fold register bytes = bytes.foldl updateBits register) ∧
      (∀ bytes, polynomial (bits bytes) * X ^ 16 %ₘ divisor = content (ofBytes bytes)) ∧
      (∀ bytes, trace bytes = bytes.inits.map ofBytes) ∧
      (∀ front back, ofBytes (front ++ back) = fold (ofBytes front) back) ∧
      (∀ a b, a.length = b.length →
        ofBytes (List.zipWith (· ^^^ ·) a b) = ofBytes a ^^^ ofBytes b) ∧
      ∀ bytes, ofBytes (bytes ++ wire (ofBytes bytes)) = 0 := by
  refine ⟨?_, polynomial_bits_mod_divisor, trace_go_eq 0, fold_append 0, ?_, ofBytes_stamped⟩
  · intro register bytes
    have same : update = updateBits := by
      funext register byte
      exact (updateBits_eq register byte).symm
    rw [fold, same]
  · intro a b h
    exact ofBytes_xor h

/-- The header put over a string that begins with its first two bytes. -/
theorem shifting_is_division_header :
    let a : List UInt8 := [0xDE, 0xAD, 0xBE, 0xEF]
    let b : List UInt8 := [0xDE, 0xAD, 0x00, 0x80]
    a.length = b.length ∧ List.zipWith (· ^^^ ·) a b = [0x00, 0x00, 0xBE, 0x6F] ∧
      ofBytes [0x00, 0x00, 0xBE, 0x6F] = ofBytes a ^^^ ofBytes b := by
  intro a b
  obtain ⟨-, -, -, -, linear, -⟩ := shifting_is_division
  exact ⟨rfl, rfl, linear a b rfl⟩

end OmniDrive.Checksum
