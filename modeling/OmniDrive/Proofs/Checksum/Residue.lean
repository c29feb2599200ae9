import OmniDrive.Checksum
import Mathlib.Algebra.Group.Nat.Defs
import Mathlib.Data.List.Induction
import Mathlib.Logic.Function.Iterate

/-! The checksum as a remainder. Bit strings are polynomials over two elements, highest
coefficient first, and the register holds the remainder modulo the generator. -/
namespace OmniDrive.Checksum

/-- A one falls out when the register is shifted. -/
def isFull (register : UInt16) : Bool := register.toBitVec.msb

theorem isFull_eq (register : UInt16) : isFull register = decide (32768 ≤ register.toNat) :=
  BitVec.msb_eq_decide _

theorem shiftBit_eq (register : UInt16) :
    shiftBit register = (register <<< 1) ^^^ if isFull register then generator else 0 := by
  have hm : register &&& 0x8000 = if isFull register then 0x8000 else 0 := by
    apply UInt16.toBitVec_inj.1
    rw [UInt16.toBitVec_and]
    refine (BitVec.and_twoPow register.toBitVec 15).trans ?_
    rw [isFull, BitVec.msb_eq_getLsbD_last]
    split <;> rfl
  unfold shiftBit
  rw [hm]
  cases isFull register with
  | true => exact if_neg (by decide)
  | false => exact (if_pos rfl).trans (UInt16.xor_zero ..).symm

theorem isFull_xor (a b : UInt16) : isFull (a ^^^ b) = (isFull a ^^ isFull b) :=
  BitVec.msb_xor

theorem shiftBit_xor (a b : UInt16) : shiftBit (a ^^^ b) = shiftBit a ^^^ shiftBit b := by
  have hg : (if isFull (a ^^^ b) then generator else 0) =
      (if isFull a then generator else 0) ^^^ (if isFull b then generator else 0) := by
    rw [isFull_xor]
    cases isFull a <;> cases isFull b <;> rfl
  rw [shiftBit_eq, shiftBit_eq, shiftBit_eq, hg, UInt16.shiftLeft_xor]
  ac_rfl

theorem toNat_double (register : UInt16) :
    (register <<< 1).toNat = 2 * register.toNat % 65536 := by
  rw [UInt16.toNat_shiftLeft, Nat.shiftLeft_eq, Nat.mul_comm]
  rfl

theorem toNat_shiftBit {register : UInt16} (h : register.toNat < 32768) :
    (shiftBit register).toNat = 2 * register.toNat := by
  have hf : isFull register = false := by
    rw [isFull_eq]
    exact decide_eq_false (Nat.not_le.2 h)
  rw [shiftBit_eq, hf]
  change (register <<< 1 ^^^ 0).toNat = _
  rw [UInt16.xor_zero, toNat_double]
  omega

/-- No register but the empty one is shifted into the empty one: the generator ends in a one. -/
theorem shiftBit_eq_zero {register : UInt16} (h : shiftBit register = 0) : register = 0 := by
  have hd := toNat_double register
  rw [shiftBit_eq, UInt16.xor_eq_zero_iff] at h
  rw [h, isFull_eq] at hd
  apply UInt16.toNat_inj.1
  change register.toNat = 0
  have hg : generator.toNat = 4129 := rfl
  have hz : (0 : UInt16).toNat = 0 := rfl
  split at hd
  · omega
  · rename_i hf
    have := of_decide_eq_false (Bool.eq_false_iff.2 hf)
    omega

theorem shiftBits_xor (a b : UInt16) (n : Nat) :
    shiftBit^[n] (a ^^^ b) = shiftBit^[n] a ^^^ shiftBit^[n] b := by
  induction n generalizing a b with
  | zero => rfl
  | succ n ih =>
    rw [Function.iterate_succ_apply, shiftBit_xor, ih]
    rfl

theorem shiftBits_eq_zero {register : UInt16} {n : Nat} (h : shiftBit^[n] register = 0) :
    register = 0 := by
  induction n generalizing register with
  | zero => exact h
  | succ n ih => exact shiftBit_eq_zero (ih h)

theorem shiftBits_comm (register : UInt16) (m n : Nat) :
    shiftBit^[m] (shiftBit^[n] register) = shiftBit^[n] (shiftBit^[m] register) := by
  rw [← Function.iterate_add_apply, Nat.add_comm, Function.iterate_add_apply]

theorem shiftBits_zero (n : Nat) : shiftBit^[n] 0 = 0 := Function.iterate_fixed rfl n

/-- As long as nothing falls out, shifting is multiplication. -/
theorem toNat_shiftBits {register : UInt16} {n : Nat} (h : register.toNat * 2 ^ n < 65536) :
    (shiftBit^[n] register).toNat = register.toNat * 2 ^ n := by
  induction n with
  | zero => exact (Nat.mul_one _).symm
  | succ n ih =>
    rw [Nat.pow_succ, ← Nat.mul_assoc] at h ⊢
    have hn := ih (by omega)
    rw [Function.iterate_succ_apply', toNat_shiftBit (by omega), hn, Nat.mul_comm]

/-- Shift the register and take in the next coefficient. -/
def shiftIn (register : UInt16) (bit : Bool) : UInt16 := shiftBit register ^^^ bit.toUInt16

def residueFrom (register : UInt16) (bits : List Bool) : UInt16 := bits.foldl shiftIn register

/-- The remainder of the polynomial with the given coefficients. -/
def residue (bits : List Bool) : UInt16 := residueFrom 0 bits

theorem residueFrom_eq (register : UInt16) (bits : List Bool) :
    residueFrom register bits = shiftBit^[bits.length] register ^^^ residue bits := by
  induction bits generalizing register with
  | nil => exact (UInt16.xor_zero ..).symm
  | cons bit bits ih =>
    have h0 : shiftIn 0 bit = bit.toUInt16 := UInt16.zero_xor ..
    change residueFrom (shiftIn register bit) bits =
      _ ^^^ residueFrom (shiftIn 0 bit) bits
    rw [ih, ih (shiftIn 0 bit), h0, shiftIn, shiftBits_xor, UInt16.xor_assoc]
    rfl

theorem residue_append (front back : List Bool) :
    residue (front ++ back) = shiftBit^[back.length] (residue front) ^^^ residue back := by
  rw [residue, residueFrom, List.foldl_append]
  exact residueFrom_eq ..

theorem residue_concat (bits : List Bool) (bit : Bool) :
    residue (bits ++ [bit]) = shiftBit (residue bits) ^^^ bit.toUInt16 := by
  rw [residue_append]
  exact congrArg _ (UInt16.zero_xor ..)

theorem residue_eq_zero_of_notMem {bits : List Bool} (h : true ∉ bits) : residue bits = 0 := by
  induction bits with
  | nil => rfl
  | cons bit bits ih =>
    have hb : bit = false := Bool.eq_false_iff.2 fun hb => h (hb ▸ List.mem_cons_self)
    subst hb
    exact ih fun ht => h (List.mem_cons_of_mem _ ht)

theorem shiftIn_xor (a b : UInt16) (x y : Bool) :
    shiftIn (a ^^^ b) (x ^^ y) = shiftIn a x ^^^ shiftIn b y := by
  have hb : (x ^^ y).toUInt16 = x.toUInt16 ^^^ y.toUInt16 := by
    cases x <;> cases y <;> rfl
  rw [shiftIn, shiftIn, shiftIn, shiftBit_xor, hb]
  ac_rfl

theorem residueFrom_zipWith_xor (r s : UInt16) {a b : List Bool} (h : a.length = b.length) :
    residueFrom (r ^^^ s) (List.zipWith xor a b) = residueFrom r a ^^^ residueFrom s b := by
  induction a generalizing b r s with
  | nil =>
    obtain rfl := List.length_eq_zero_iff.1 h.symm
    rfl
  | cons x a ih =>
    cases b with
    | nil => cases h
    | cons y b =>
      have hi := ih (shiftIn r x) (shiftIn s y) (Nat.succ.inj h)
      rw [← shiftIn_xor] at hi
      exact hi

theorem residue_zipWith_xor {a b : List Bool} (h : a.length = b.length) :
    residue (List.zipWith xor a b) = residue a ^^^ residue b := residueFrom_zipWith_xor 0 0 h

/-- The number with the given binary digits, highest first. -/
def value (bits : List Bool) : Nat := bits.foldl (fun n bit => 2 * n + bit.toNat) 0

theorem value_concat (bits : List Bool) (bit : Bool) :
    value (bits ++ [bit]) = 2 * value bits + bit.toNat := List.foldl_append

theorem value_append (front back : List Bool) :
    value (front ++ back) = value front * 2 ^ back.length + value back := by
  induction back using List.reverseRecOn with
  | nil =>
    rw [List.append_nil, List.length_nil, Nat.pow_zero, Nat.mul_one]
    rfl
  | append_singleton back bit ih =>
    rw [← List.append_assoc, value_concat, ih, value_concat, List.length_append,
      List.length_singleton, Nat.pow_succ', Nat.mul_left_comm, Nat.mul_add, Nat.add_assoc]

theorem value_lt (bits : List Bool) : value bits < 2 ^ bits.length := by
  induction bits using List.reverseRecOn with
  | nil => exact Nat.one_pos
  | append_singleton bits bit ih =>
    have := bit.toNat_le
    rw [value_concat, List.length_append, List.length_singleton, Nat.pow_succ]
    omega

theorem double_xor_bit (n : Nat) (bit : Bool) : 2 * n ^^^ bit.toNat = 2 * n + bit.toNat := by
  have hd : (2 * n ^^^ bit.toNat) / 2 = n ^^^ bit.toNat / 2 := by
    rw [Nat.xor_div_two, Nat.mul_div_cancel_left n Nat.two_pos]
  have hm : (2 * n ^^^ bit.toNat) % 2 = 0 ^^^ bit.toNat % 2 := by
    rw [← Nat.mul_mod_right 2 n]
    exact Nat.xor_mod_two_pow (n := 1)
  rw [Nat.zero_xor] at hm
  have hb : bit.toNat / 2 = 0 := Nat.div_eq_of_lt (Nat.lt_succ_of_le bit.toNat_le)
  rw [hb, Nat.xor_zero] at hd
  omega

/-- A string that fits into the register is its own remainder. -/
theorem toNat_residue {bits : List Bool} (h : bits.length ≤ 16) :
    (residue bits).toNat = value bits := by
  induction bits using List.reverseRecOn with
  | nil => rfl
  | append_singleton bits bit ih =>
    rw [List.length_append, List.length_singleton] at h
    have hi := ih (by omega)
    have hv : value bits < 2 ^ 15 :=
      Nat.lt_of_lt_of_le (value_lt bits) (Nat.pow_le_pow_right Nat.two_pos (by omega))
    have hb : bit.toUInt16.toNat = bit.toNat := by cases bit <;> rfl
    rw [residue_concat, value_concat, UInt16.toNat_xor, toNat_shiftBit (by omega), hi, hb,
      double_xor_bit]

/-- The lowest binary digits of a number, highest first. -/
def binary : Nat → Nat → List Bool
  | 0, _ => []
  | width + 1, n => binary width (n / 2) ++ [n.testBit 0]

theorem length_binary (width n : Nat) : (binary width n).length = width := by
  induction width generalizing n with
  | zero => rfl
  | succ width ih => rw [binary, List.length_append, ih, List.length_singleton]

theorem value_binary (width n : Nat) : value (binary width n) = n % 2 ^ width := by
  induction width generalizing n with
  | zero => exact (Nat.mod_one n).symm
  | succ width ih =>
    rw [binary, value_concat, ih, Nat.toNat_testBit, Nat.pow_succ, Nat.pow_zero, Nat.div_one,
      Nat.mul_comm (2 ^ width), Nat.mod_mul, Nat.add_comm]

theorem binary_xor (width a b : Nat) :
    binary width (a ^^^ b) = List.zipWith xor (binary width a) (binary width b) := by
  induction width generalizing a b with
  | zero => rfl
  | succ width ih =>
    rw [binary, binary, binary, List.zipWith_append (by rw [length_binary, length_binary]),
      Nat.xor_div_two, ih, Nat.testBit_xor]
    rfl

theorem binary_succ (width n : Nat) :
    binary (width + 1) n = n.testBit width :: binary width n := by
  induction width generalizing n with
  | zero => rfl
  | succ width ih =>
    rw [binary, ih, Nat.testBit_succ]
    rfl

theorem binary_mod (width n : Nat) : binary width (n % 2 ^ width) = binary width n := by
  induction width generalizing n with
  | zero => rfl
  | succ width ih =>
    rw [binary, Nat.pow_succ', Nat.mod_mul_right_div_self, ih, ← Nat.pow_succ',
      Nat.testBit_mod_two_pow]
    rfl

/-- The bit that would fall out comes first. -/
theorem binary_toNat (register : UInt16) :
    binary 16 register.toNat = isFull register :: binary 15 register.toNat := by
  rw [binary_succ, isFull, BitVec.msb_eq_getLsbD_last]
  rfl

theorem binary_shiftLeft (register : UInt16) :
    binary 16 (register <<< 1).toNat = binary 15 register.toNat ++ [false] := by
  have hd : 2 * register.toNat % 65536 / 2 = register.toNat % 2 ^ 15 := by omega
  have hl : (2 * register.toNat % 65536).testBit 0 = false := by
    rw [Nat.testBit_zero]
    exact decide_eq_false (by omega)
  rw [toNat_double, binary, hd, binary_mod, hl]

/-- The bits of a byte string as they travel, in each byte the most significant first. -/
def bits (bytes : List UInt8) : List Bool := bytes.flatMap fun byte => binary 8 byte.toNat

theorem bits_append (front back : List UInt8) : bits (front ++ back) = bits front ++ bits back :=
  List.flatMap_append

theorem length_bits (bytes : List UInt8) : (bits bytes).length = 8 * bytes.length := by
  induction bytes with
  | nil => rfl
  | cons byte bytes ih =>
    rw [bits, List.flatMap_cons, ← bits, List.length_append, length_binary, ih, List.length_cons]
    omega

theorem bits_zipWith_xor (a b : List UInt8) :
    bits (List.zipWith (· ^^^ ·) a b) = List.zipWith xor (bits a) (bits b) := by
  induction a generalizing b with
  | nil => rfl
  | cons x a ih =>
    cases b with
    | nil => exact List.zipWith_nil_right.symm
    | cons y b =>
      change binary 8 (x ^^^ y).toNat ++ bits (List.zipWith (· ^^^ ·) a b) =
        List.zipWith xor (binary 8 x.toNat ++ bits a) (binary 8 y.toNat ++ bits b)
      rw [List.zipWith_append (by rw [length_binary, length_binary]), ih, UInt8.toNat_xor,
        binary_xor]

theorem toNat_residue_bits (bytes : List UInt8) (h : bytes.length ≤ 2) :
    (residue (bits bytes)).toNat = value (bits bytes) := by
  apply toNat_residue
  rw [length_bits]
  omega

theorem bits_singleton (byte : UInt8) : bits [byte] = binary 8 byte.toNat := List.append_nil _

theorem value_bits_singleton (byte : UInt8) : value (bits [byte]) = byte.toNat := by
  rw [bits_singleton, value_binary]
  exact Nat.mod_eq_of_lt byte.toNat_lt

theorem residue_byte (byte : UInt8) : residue (bits [byte]) = byte.toUInt16 := by
  apply UInt16.toNat_inj.1
  rw [toNat_residue_bits [byte] (Nat.le_succ 1), value_bits_singleton, UInt8.toNat_toUInt16]

theorem residue_bits_concat (bytes : List UInt8) (byte : UInt8) :
    residue (bits (bytes ++ [byte])) = shiftBit^[8] (residue (bits bytes)) ^^^ byte.toUInt16 := by
  rw [bits_append, residue_append, residue_byte, length_bits]
  rfl

theorem residue_wire (high low : UInt8) : residue (bits [high, low]) = ofWire high low := by
  have hb : bits [high, low] = bits [high] ++ bits [low] := bits_append [high] [low]
  apply UInt16.toNat_inj.1
  rw [toNat_residue_bits [high, low] (Nat.le_refl 2), toNat_ofWire, hb, value_append, length_bits,
    value_bits_singleton, value_bits_singleton]
  rfl

theorem shiftBits_byte (byte : UInt8) : shiftBit^[8] byte.toUInt16 = byte.toUInt16 <<< 8 := by
  have hb := byte.toNat_lt
  have hn : byte.toUInt16.toNat = byte.toNat := UInt8.toNat_toUInt16 _
  apply UInt16.toNat_inj.1
  rw [toNat_shiftBits (by omega), UInt16.toNat_shiftLeft, Nat.shiftLeft_eq, hn]
  exact (Nat.mod_eq_of_lt (by omega)).symm

theorem table_get (byte : UInt8) :
    table.get ⟨byte.toNat, byte.toNat_lt⟩ = shiftBit^[16] byte.toUInt16 := by
  have ht : table.get ⟨byte.toNat, byte.toNat_lt⟩ = shiftBit^[8] (byte.toNat.toUInt16 <<< 8) :=
    Vector.getElem_ofFn ..
  have hn : byte.toNat.toUInt16 = byte.toUInt16 := UInt16.ofNat_uInt8ToNat byte
  rw [ht, hn, ← shiftBits_byte, ← Function.iterate_add_apply]

/-- The table does what the generator asks, for the outgoing byte and the incoming one at once. -/
theorem update_eq (register : UInt16) (byte : UInt8) :
    update register byte = shiftBit^[8] register ^^^ shiftBit^[16] byte.toUInt16 := by
  -- The low byte moves up as it is, the high byte meets the incoming one in the table.
  have hl : register <<< 8 = shiftBit^[8] register.toUInt8.toUInt16 := by
    apply UInt16.toNat_inj.1
    rw [shiftBits_byte, UInt16.toNat_shiftLeft, UInt16.toNat_shiftLeft, UInt8.toNat_toUInt16,
      UInt16.toNat_toUInt8, Nat.shiftLeft_eq, Nat.shiftLeft_eq]
    change register.toNat * 256 % 65536 = register.toNat % 256 * 256 % 65536
    omega
  have hr : register =
      shiftBit^[8] (register >>> 8).toUInt8.toUInt16 ^^^ register.toUInt8.toUInt16 := by
    have h := residue_bits_concat [(register >>> 8).toUInt8] register.toUInt8
    rwa [residue_byte, List.singleton_append, residue_wire, ofWire_wire] at h
  unfold update
  dsimp only
  rw [table_get, UInt8.toUInt16_xor, shiftBits_xor, hl]
  conv => rhs; rw [hr, shiftBits_xor, ← Function.iterate_add_apply]
  ac_rfl

/-- The checksum is what makes the remainder of body and checksum vanish. -/
theorem ofBytes_eq (bytes : List UInt8) :
    ofBytes bytes = shiftBit^[16] (residue (bits bytes)) := by
  induction bytes using List.reverseRecOn with
  | nil => exact (shiftBits_zero 16).symm
  | append_singleton bytes byte ih =>
    have hf : ofBytes (bytes ++ [byte]) = update (ofBytes bytes) byte := fold_append ..
    rw [hf, update_eq, ih, residue_bits_concat, shiftBits_xor, shiftBits_comm _ 8 16]

/-- Body and checksum together leave no remainder exactly if the checksum is the body's. -/
theorem residue_stamped (body : List UInt8) (high low : UInt8) :
    residue (bits (body ++ [high, low])) = ofBytes body ^^^ ofWire high low := by
  rw [bits_append, residue_append, length_bits, residue_wire, ofBytes_eq]
  rfl

end OmniDrive.Checksum
