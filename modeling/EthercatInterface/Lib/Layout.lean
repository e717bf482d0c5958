import EthercatInterface.Lib.LittleEndian

/-!
# The bytes of a value

A `ByteLayout` is how its values lie in memory: the number of bytes, the bytes of a value,
and what is read back from bytes. That a value is read back from its own bytes is a field, so the
layouts below are those of integers, truth values and plain bytes.
-/

/-- How the values of a type lie in memory. -/
structure ByteLayout (α : Type) where
  /-- `sizeof` -/
  size : ℕ
  bytes : α → List UInt8
  value : List UInt8 → α
  length_bytes : ∀ x, (bytes x).length = size
  value_bytes : ∀ x, value (bytes x) = x

namespace ByteLayout

variable {α β : Type}

/-- The integers of `b` bytes without a sign. -/
abbrev Unsigned (b : ℕ) : Type := {x : ℤ // 0 ≤ x ∧ x < 256 ^ b}

/-- The integers of `b` bytes in two's complement. -/
abbrev Signed (b : ℕ) : Type := {x : ℤ // -256 ^ b ≤ 2 * x ∧ 2 * x < 256 ^ b}

theorem unsigned_take (b : ℕ) (bs : List UInt8) : (LittleEndian.unsigned (bs.take b) : ℤ) < 256 ^ b := by
  have h := LittleEndian.unsigned_lt (bs.take b)
  have hle : 256 ^ (bs.take b).length ≤ 256 ^ b := Nat.pow_le_pow_right (by decide) (List.length_take_le _ _)
  exact_mod_cast lt_of_lt_of_le h hle

/-- A list of exactly `b` bytes. -/
def fit (b : ℕ) (bs : List UInt8) : List UInt8 := bs.take b ++ List.replicate (b - bs.length) 0

@[simp] theorem length_fit (b : ℕ) (bs : List UInt8) : (fit b bs).length = b := by
  simp only [fit, List.length_append, List.length_take, List.length_replicate]
  omega

theorem fit_of_length {b : ℕ} {bs : List UInt8} (h : bs.length = b) : fit b bs = bs := by
  subst h
  simp [fit]

theorem signed_mem (b : ℕ) (bs : List UInt8) :
    -256 ^ b ≤ 2 * LittleEndian.signed (fit b bs) ∧ 2 * LittleEndian.signed (fit b bs) < 256 ^ b := by
  have hlt := LittleEndian.unsigned_lt (fit b bs)
  rw [length_fit] at hlt
  have hlt' : (LittleEndian.unsigned (fit b bs) : ℤ) < 256 ^ b := by exact_mod_cast hlt
  rw [LittleEndian.signed, length_fit]
  split
  · next h =>
    have h' : 2 * (LittleEndian.unsigned (fit b bs) : ℤ) < 256 ^ b := by exact_mod_cast h
    omega
  · next h =>
    have h' : (256 : ℤ) ^ b ≤ 2 * LittleEndian.unsigned (fit b bs) := by exact_mod_cast Nat.le_of_not_lt h
    omega

/-- `uint8_t` and so on. -/
def unsigned (b : ℕ) : ByteLayout (Unsigned b) where
  size := b
  bytes x := LittleEndian.encode b x.1
  value bs := ⟨LittleEndian.unsigned (bs.take b), Int.natCast_nonneg _, unsigned_take b bs⟩
  length_bytes x := LittleEndian.length_encode b x.1
  value_bytes x := Subtype.ext <| by
    change (LittleEndian.unsigned ((LittleEndian.encode b x.1).take b) : ℤ) = x.1
    rw [List.take_of_length_le (by simp)]
    exact LittleEndian.unsigned_encode x.2.1 x.2.2

/-- `int8_t` and so on. -/
def signed (b : ℕ) : ByteLayout (Signed b) where
  size := b
  bytes x := LittleEndian.encode b x.1
  value bs := ⟨LittleEndian.signed (fit b bs), signed_mem b bs⟩
  length_bytes x := LittleEndian.length_encode b x.1
  value_bytes x := Subtype.ext <| by
    change LittleEndian.signed (fit b (LittleEndian.encode b x.1)) = x.1
    rw [fit_of_length (LittleEndian.length_encode b x.1)]
    exact LittleEndian.signed_encode x.2.1 x.2.2

/-- `bool`. -/
def bool : ByteLayout Bool where
  size := 1
  bytes b := [if b then 1 else 0]
  value bs := bs.getD 0 0 ≠ 0
  length_bytes _ := rfl
  value_bytes b := by cases b <;> decide

/-- Numbers in floating point and other plain data: nothing but its `b` bytes. -/
def raw (b : ℕ) : ByteLayout {bs : List UInt8 // bs.length = b} where
  size := b
  bytes x := x.1
  value bs := ⟨fit b bs, length_fit b bs⟩
  length_bytes x := x.2
  value_bytes x := Subtype.ext (fit_of_length x.2)

end ByteLayout
