import Mathlib.Algebra.Order.Ring.Int
import Mathlib.Data.Nat.Digits.Defs
import Mathlib.Tactic.Common
import Mathlib.Tactic.Ring

/-!
# Little-endian integers

The integers that a list of bytes denotes, least significant byte first, and the bytes of an
integer.

* `unsigned_encode`, `signed_encode`: an integer that fits is denoted by its bytes.
* `or_shiftLeft`, `xor_signBit_of_lt`, `xor_signBit_of_le`: what the bit operations of a decoder compute.
-/

namespace LittleEndian

/-- The bytes, as a number. -/
def unsigned (bs : List UInt8) : ℕ := Nat.ofDigits 256 (bs.map UInt8.toNat)

/-- The bytes, in two's complement. -/
def signed (bs : List UInt8) : ℤ :=
  if 2 * unsigned bs < 256 ^ bs.length then unsigned bs else (unsigned bs : ℤ) - 256 ^ bs.length

/-- The lowest `b` bytes of an integer. -/
def encode : ℕ → ℤ → List UInt8
  | 0, _ => []
  | b + 1, x => UInt8.ofInt x :: encode b (x / 256)

@[simp] theorem unsigned_nil : unsigned [] = 0 := rfl

@[simp] theorem unsigned_cons (a : UInt8) (bs : List UInt8) :
    unsigned (a :: bs) = a.toNat + 256 * unsigned bs := by
  simp [unsigned, Nat.ofDigits_cons]

@[simp] theorem length_encode (b : ℕ) (x : ℤ) : (encode b x).length = b := by
  induction b generalizing x with
  | zero => rfl
  | succ b ih => rw [encode, List.length_cons, ih]

theorem unsigned_lt (bs : List UInt8) : unsigned bs < 256 ^ bs.length := by
  have h : ∀ d ∈ bs.map UInt8.toNat, d < 256 := by
    intro d hd
    obtain ⟨a, _, rfl⟩ := List.mem_map.1 hd
    exact a.toNat_lt
  have hlt := Nat.ofDigits_lt_base_pow_length (by decide : 1 < 256) h
  rwa [List.length_map] at hlt

theorem unsigned_append (as bs : List UInt8) :
    unsigned (as ++ bs) = unsigned as + 256 ^ as.length * unsigned bs := by
  rw [unsigned, List.map_append, Nat.ofDigits_append, List.length_map]
  rfl

/-- One more byte. -/
theorem unsigned_take_succ {bs : List UInt8} {n : ℕ} (h : n < bs.length) :
    unsigned (bs.take (n + 1)) = unsigned (bs.take n) + bs[n].toNat * 256 ^ n := by
  have hlen : (bs.take n).length = n := List.length_take_of_le h.le
  rw [List.take_succ_eq_append_getElem h, unsigned_append, hlen, unsigned_cons, unsigned_nil,
    Nat.mul_zero, Nat.add_zero, Nat.mul_comm]

/-- The remainder by a product, from the one by a factor. -/
theorem emod_mul {a : ℤ} (ha : 0 ≤ a) (x b : ℤ) : x % (a * b) = x % a + a * (x / a % b) := by
  rw [Int.emod_def, Int.emod_def, Int.emod_def, Int.ediv_ediv_of_nonneg ha]
  ring

/-- **The bytes of an integer** denote it modulo their range. -/
theorem unsigned_encode_emod (b : ℕ) (x : ℤ) : (unsigned (encode b x) : ℤ) = x % 256 ^ b := by
  induction b generalizing x with
  | zero => simp [encode]
  | succ b ih =>
    have hbyte : ((UInt8.ofInt x).toNat : ℤ) = x % 256 := by
      have h₀ := Int.emod_nonneg x (by decide : (256 : ℤ) ≠ 0)
      have h₁ := Int.emod_lt_of_pos x (by decide : (0 : ℤ) < 256)
      simp only [UInt8.ofInt, UInt8.toNat_ofNat']
      omega
    have hpow : (256 : ℤ) ^ (b + 1) = 256 * 256 ^ b := by ring
    rw [encode, unsigned_cons, Nat.cast_add, Nat.cast_mul, ih, hbyte, hpow]
    exact (emod_mul (by decide) x (256 ^ b)).symm

/-- **An unsigned integer is denoted by its bytes.** -/
theorem unsigned_encode {b : ℕ} {x : ℤ} (h₀ : 0 ≤ x) (h : x < 256 ^ b) :
    (unsigned (encode b x) : ℤ) = x := by
  rw [unsigned_encode_emod, Int.emod_eq_of_lt h₀ h]

/-- **A signed integer is denoted by its bytes.** -/
theorem signed_encode {b : ℕ} {x : ℤ} (h₀ : -256 ^ b ≤ 2 * x) (h : 2 * x < 256 ^ b) :
    signed (encode b x) = x := by
  have hemod := unsigned_encode_emod b x
  have hnat : (2 * unsigned (encode b x) < 256 ^ b) ↔ 2 * (unsigned (encode b x) : ℤ) < 256 ^ b := by
    exact_mod_cast Iff.rfl
  rw [signed, length_encode]
  rcases Int.lt_or_le x 0 with hneg | hpos
  · have hmod : x % 256 ^ b = x + 256 ^ b := by
      rw [← Int.add_emod_right, Int.emod_eq_of_lt (by omega) (by omega)]
    rw [if_neg (by rw [hnat, hemod, hmod]; omega), hemod, hmod]
    omega
  · have hmod : x % 256 ^ b = x := Int.emod_eq_of_lt hpos (by omega)
    rw [if_pos (by rw [hnat, hemod, hmod]; exact h), hemod, hmod]

/-! ## Bit operations -/

/-- A byte shifted past the ones before it is added to them. -/
theorem or_shiftLeft {v n : ℕ} (h : v < 2 ^ n) (x : ℕ) : v ||| x <<< n = v + x * 2 ^ n := by
  rw [Nat.or_comm, ← Nat.shiftLeft_add_eq_or_of_lt h, Nat.shiftLeft_eq, Nat.add_comm]

theorem xor_signBit_of_lt {v n : ℕ} (h : v < 2 ^ n) : v ^^^ 2 ^ n = v + 2 ^ n := by
  have hor : v ^^^ 2 ^ n = v ||| 1 <<< n := by
    apply Nat.eq_of_testBit_eq
    intro i
    rw [Nat.one_shiftLeft, Nat.testBit_xor, Nat.testBit_or, Nat.testBit_two_pow]
    by_cases hi : n = i
    · subst hi
      simp [Nat.testBit_lt_two_pow h]
    · simp [hi]
  rw [hor, or_shiftLeft h, Nat.one_mul]

/-- The sign bit is cleared where it is set. -/
theorem xor_signBit_of_le {v n : ℕ} (h : 2 ^ n ≤ v) (h' : v < 2 * 2 ^ n) : v ^^^ 2 ^ n = v - 2 ^ n := by
  have hset := xor_signBit_of_lt (v := v - 2 ^ n) (n := n) (by omega)
  rw [Nat.sub_add_cancel h] at hset
  rw [← hset, Nat.xor_assoc, Nat.xor_self, Nat.xor_zero]
  omega

end LittleEndian
