import EthercatInterface.Lifecycle.Run
import EthercatInterface.Spec.Print

/-!
# Printing the integers of an object dictionary

`oddInt_exact`: for every width up to eight bytes, `sdo_read_odd_int` prints the integer that
the bytes of a successful read denote, which is every integer that fits.
`sdoPrintHelper_integer`: so does the helper, for its integer types of any size.
-/

namespace EthercatInterface

open Interleave LittleEndian

/-! ## The loop -/

theorem pow_bytes (b : ℕ) : 256 ^ b = 2 ^ (8 * b) := by
  rw [pow_mul]
  rfl

/-- **The loop**, by induction on the bytes: nothing is lost as long as they fit. -/
theorem assemble_toNat {buf : List UInt8} (n : ℕ) (hn : n ≤ 8) (hb : n ≤ buf.length) :
    (assemble buf n).toNat = unsigned (buf.take n) := by
  induction n with
  | zero => simp [assemble]
  | succ n ih =>
    have hlt : unsigned (buf.take n) < 2 ^ (8 * n) := by
      have h := unsigned_lt (buf.take n)
      rwa [List.length_take_of_le (by omega), pow_bytes] at h
    have hbyte : buf[n].toNat * 2 ^ (8 * n) < 2 ^ 64 := by
      calc buf[n].toNat * 2 ^ (8 * n) < 2 ^ 8 * 2 ^ (8 * n) :=
            Nat.mul_lt_mul_of_pos_right buf[n].toNat_lt (by positivity)
        _ = 2 ^ (8 + 8 * n) := (pow_add 2 8 (8 * n)).symm
        _ ≤ 2 ^ 64 := Nat.pow_le_pow_right (by decide) (by omega)
    have hshift : (8 * UInt64.ofNat n).toNat = 8 * n := by
      rw [UInt64.toNat_mul, UInt64.toNat_ofNat']
      simp
      omega
    have hstep : assemble buf (n + 1) =
        assemble buf n ||| (buf.getD n 0).toUInt64 <<< (8 * UInt64.ofNat n) := by
      simp only [assemble, List.range_succ, List.foldl_append, List.foldl_cons, List.foldl_nil]
    rw [hstep, UInt64.toNat_or, UInt64.toNat_shiftLeft, hshift, Nat.mod_eq_of_lt (by omega : 8 * n < 64),
      List.getD_eq_getElem _ _ hb, UInt8.toNat_toUInt64, Nat.shiftLeft_eq, Nat.mod_eq_of_lt hbyte,
      ← Nat.shiftLeft_eq, ih (by omega) (by omega), or_shiftLeft hlt, unsigned_take_succ hb, pow_bytes]

/-! ## The sign -/

variable {b : ℕ}

/-- The sign bit is the upper half of the range. -/
theorem pow_signBit (hb : 1 ≤ b) : 256 ^ b = 2 * 2 ^ (8 * b - 1) := by
  rw [pow_bytes, ← pow_succ']
  congr 1
  omega

/-- Two's complement of 64 bits. -/
theorem toInt64_toInt (x : UInt64) :
    x.toInt64.toInt = if x.toNat < 2 ^ 63 then (x.toNat : ℤ) else x.toNat - 2 ^ 64 := by
  have h : x.toInt64.toInt = x.toBitVec.toInt := rfl
  rw [h, BitVec.toInt_eq_toNat_cond, UInt64.toNat_toBitVec]
  push_cast
  split <;> split <;> omega

theorem signBit_toNat (hb : 1 ≤ b) (hb8 : b ≤ 8) :
    ((1 : UInt64) <<< UInt64.ofNat (b * 8 - 1)).toNat = 2 ^ (8 * b - 1) := by
  have hk : (UInt64.ofNat (b * 8 - 1)).toNat = 8 * b - 1 := by
    rw [UInt64.toNat_ofNat']
    omega
  have hpow : 2 ^ (8 * b - 1) < 2 ^ 64 := Nat.pow_lt_pow_right (by decide) (by omega)
  rw [UInt64.toNat_shiftLeft, hk, Nat.mod_eq_of_lt (by omega : 8 * b - 1 < 64), UInt64.toNat_one,
    Nat.one_shiftLeft, Nat.mod_eq_of_lt hpow]

/-- **The sign extension**, modulo `2 ^ 64`. -/
theorem extendSign_toInt (hb : 1 ≤ b) (hb8 : b ≤ 8) {v : UInt64} (hv : v.toNat < 256 ^ b) :
    (extendSign v b).toInt64.toInt =
      if 2 * v.toNat < 256 ^ b then (v.toNat : ℤ) else v.toNat - (256 ^ b : ℕ) := by
  have hs := signBit_toNat hb hb8
  have hpow := pow_signBit hb
  have hle : 2 ^ (8 * b - 1) ≤ 2 ^ 63 := Nat.pow_le_pow_right (by decide) (by omega)
  rw [hpow] at hv
  rw [hpow, toInt64_toInt, extendSign]
  simp only [UInt64.toNat_sub, UInt64.toNat_xor, hs]
  rcases Nat.lt_or_ge v.toNat (2 ^ (8 * b - 1)) with hlt | hge
  · rw [xor_signBit_of_lt hlt]
    generalize 2 ^ (8 * b - 1) = s at *
    omega
  · rw [xor_signBit_of_le hge hv]
    generalize 2 ^ (8 * b - 1) = s at *
    push_cast
    omega

/-! ## The value -/

/-- The integer that bytes denote. -/
def denoted (isSigned : Bool) (bs : List UInt8) : ℤ := if isSigned then signed bs else unsigned bs

/-- **What is assembled and converted** is what the bytes denote. -/
theorem oddInt_eq {bs : List UInt8} (hb : 1 ≤ b) (hb8 : b ≤ 8) (hlen : bs.length = b)
    (rest : List UInt8) (isSigned : Bool) : oddInt (bs ++ rest) b isSigned = denoted isSigned bs := by
  have htake : (bs ++ rest).take b = bs := by rw [← hlen, List.take_left]
  have hv : (assemble (bs ++ rest) b).toNat = unsigned bs := by
    rw [assemble_toNat b hb8 (by rw [List.length_append]; omega), htake]
  have hlt : unsigned bs < 256 ^ b := hlen ▸ unsigned_lt bs
  cases isSigned with
  | false => exact congrArg Nat.cast hv
  | true =>
    have hext := extendSign_toInt hb hb8 (hv.symm ▸ hlt)
    rw [hv] at hext
    rw [denoted, if_pos rfl, signed, hlen]
    exact_mod_cast hext

/-- The integers that fit into `b` bytes. -/
def Representable (b : ℕ) (isSigned : Bool) (x : ℤ) : Prop :=
  if isSigned then -2 ^ (8 * b - 1) ≤ x ∧ x < 2 ^ (8 * b - 1) else 0 ≤ x ∧ x < 2 ^ (8 * b)

instance (b : ℕ) (isSigned : Bool) (x : ℤ) : Decidable (Representable b isSigned x) :=
  inferInstanceAs (Decidable (ite _ _ _))

theorem denoted_encode (hb : 1 ≤ b) {isSigned : Bool} {x : ℤ} (hx : Representable b isSigned x) :
    denoted isSigned (encode b x) = x := by
  cases isSigned with
  | false =>
    have hpow : (256 : ℤ) ^ b = 2 ^ (8 * b) := by exact_mod_cast pow_bytes b
    exact unsigned_encode hx.1 (hpow ▸ hx.2)
  | true =>
    have hpow : (256 : ℤ) ^ b = 2 * 2 ^ (8 * b - 1) := by exact_mod_cast pow_signBit hb
    obtain ⟨h₀, h₁⟩ : -2 ^ (8 * b - 1) ≤ x ∧ x < 2 ^ (8 * b - 1) := hx
    exact signed_encode (by omega) (by omega)

/-! ## The program -/

section Program

variable {ok : Guard Act Ans Env St} {t size n : ℕ} {id : DeviceId} {index subIndex : ℕ} {checkSize : Bool}
  {text : SDOReadResult → List UInt8 → String} {w w' : W} {str : String}

/-- What is printed is what was read, or that nothing was. -/
theorem readAndPrint_returns
    (h : Exec exec ok t (readAndPrint size n id index subIndex checkSize text) w (.ret str) w') :
    ∃ r bs, Exec exec ok t (readSdoUntyped n id index subIndex checkSize) w (.ret (r, bs)) w' ∧
      str = if r.success then text r (readInto size n bs) else "error" := by
  obtain ⟨⟨r, bs⟩, w₁, hread, hprint⟩ := Exec.of_bind_ret h
  refine ⟨r, bs, ?_⟩
  cases hs : r.success <;> simp only [hs, Bool.not_true, Bool.not_false, if_true, Bool.false_eq_true,
    if_false] at hprint ⊢ <;> cases hprint <;> exact ⟨hread, rfl⟩

/-- Only the read throws. -/
theorem readAndPrint_throws {e : Exn}
    (h : Exec exec ok t (readAndPrint size n id index subIndex checkSize text) w (.exn e) w') :
    Exec exec ok t (readSdoUntyped n id index subIndex checkSize) w (.exn e) w' := by
  obtain ⟨o, w₁, hread, hprint⟩ := Exec.of_bind h
  cases o with
  | ret r =>
    obtain ⟨r, bs⟩ := r
    cases hs : r.success <;> simp only [Outcome.andThen, hs, Bool.not_true, Bool.not_false, if_true,
      Bool.false_eq_true, if_false] at hprint <;> cases hprint
  | exn e' =>
    obtain ⟨he, rfl⟩ := hprint
    cases he
    exact hread
  | crash => cases hprint.1

end Program

theorem readInto_all {bs : List UInt8} (hlen : bs.length = b) (size : ℕ) :
    readInto size b bs = bs ++ List.replicate (size - b) 0 := by
  rw [readInto, List.take_of_length_le hlen.le, hlen, Nat.min_self]

/-- **Odd integers, exactly.** For every width, the integer of a buffer is the one that its bytes
denote; every integer that fits is denoted by its bytes; and a read that succeeds with that many
bytes prints it. -/
theorem oddInt_exact (hb : 1 ≤ b) (hb8 : b ≤ 8) :
    (∀ bs rest : List UInt8, bs.length = b →
      oddInt (bs ++ rest) b false = unsigned bs ∧ oddInt (bs ++ rest) b true = signed bs) ∧
    (∀ (isSigned : Bool) (x : ℤ) (rest : List UInt8), Representable b isSigned x →
      oddInt (encode b x ++ rest) b isSigned = x) ∧
    ∀ {ok : Guard Act Ans Env St} {t : ℕ} {id : DeviceId} {index subIndex : ℕ} {isSigned : Bool} {w w' : W}
      {str : String}, Exec exec ok t (sdoReadOddInt id index subIndex b isSigned) w (.ret str) w' →
      ∃ r bs, Exec exec ok t (readSdoUntyped b id index subIndex true) w (.ret (r, bs)) w' ∧
        (r.success = false → str = "error") ∧
        (r.success = true → bs.length = b → str = numberToString (denoted isSigned bs)) := by
  refine ⟨fun bs rest hlen => ⟨oddInt_eq hb hb8 hlen rest false, oddInt_eq hb hb8 hlen rest true⟩,
    fun isSigned x rest hx => ?_, ?_⟩
  · rw [oddInt_eq hb hb8 (length_encode b x) rest isSigned, denoted_encode hb hx]
  · intro ok t id index subIndex isSigned w w' str h
    obtain ⟨r, bs, hread, hstr⟩ := readAndPrint_returns h
    refine ⟨r, bs, hread, fun hs => ?_, fun hs hlen => ?_⟩
    · rw [hstr, hs]
      rfl
    · rw [hstr, hs, if_pos rfl, readInto_all hlen, oddInt_eq hb hb8 hlen]

/-- The most negative integer of 24 bits. -/
def int24Read : List Env := List.replicate 12 { ret := 1, size := 3, data := [0x00, 0x00, 0x80] }

theorem oddInt_exact_int24 :
    oddInt [0x00, 0x00, 0x80, 0, 0, 0, 0, 0] 3 true = signed [0x00, 0x00, 0x80] ∧
      oddInt (encode 3 (-8388608) ++ [0, 0, 0, 0, 0]) 3 true = -8388608 ∧
      ∃ w' r bs, Exec exec free 0 (readSdoUntyped 3 1 0x2000 0 true) (world [initializeOne]) (.ret (r, bs)) w' ∧
        r.success = true ∧ (bs.length = 3 → "-8388608" = numberToString (denoted true bs)) := by
  obtain ⟨hvalue, hencode, hprint⟩ := oddInt_exact (b := 3) (by decide) (by decide)
  have hrun : (run exec 0 (sdoReadOddInt 1 0x2000 0 3 true) int24Read (world [initializeOne])).1 =
      .ret "-8388608" := rfl
  have he := run_exec exec 0 (sdoReadOddInt 1 0x2000 0 3 true) int24Read (world [initializeOne])
  rw [hrun] at he
  obtain ⟨r, bs, hread, hfail, hok⟩ := hprint he
  have hs : r.success = true := by
    rcases h : r.success with _ | _
    · exact absurd (hfail h) (by decide)
    · rfl
  exact ⟨(hvalue [0x00, 0x00, 0x80] [0, 0, 0, 0, 0] rfl).2,
    hencode true (-8388608) [0, 0, 0, 0, 0] (by decide), _, r, bs, hread, hs, hok hs⟩

/-! ## The helper -/

/-- The types that are read as integers, with their sizes. -/
def SdoReading.integer? : SdoReading → Option (ℕ × Bool)
  | .as (.integer size isSigned) => some (size, isSigned)
  | .oddInt bytes isSigned => some (bytes, isSigned)
  | .as .bool | .as (.real _) | .as .string | .bits _ => none

/-- What is printed of an integer, after a read that ended in `o`. -/
def Printed (b : ℕ) (isSigned : Bool) (str : String) : Outcome Exn (SDOReadResult × List UInt8) → Prop
  | .ret (r, bs) => (r.success = false → str = "error") ∧
    (r.success = true → bs.length = b → str = numberToString (denoted isSigned bs))
  | .exn e => ∃ what, e.runtimeError? = some what ∧ str = "error: " ++ what
  | .crash => False

theorem readingOf_bounds {sdoDataType : ℕ} {isSigned : Bool}
    (h : (readingOf sdoDataType).bind SdoReading.integer? = some (b, isSigned)) : 1 ≤ b ∧ b ≤ 8 := by
  unfold readingOf at h
  split at h
  · cases h
  · split at h <;> cases h <;> decide

/-- **Every integer type** prints the integer that was read, or why nothing was. -/
theorem sdoPrintHelper_integer {showReal : List UInt8 → String} {ok : Guard Act Ans Env St} {t : ℕ}
    {id : DeviceId} {index subIndex sdoDataType : ℕ} {isSigned : Bool} {w w' : W} {str : String}
    (hty : (readingOf sdoDataType).bind SdoReading.integer? = some (b, isSigned))
    (h : Exec exec ok t (sdoPrintHelper showReal id index subIndex sdoDataType) w (.ret str) w') :
    ∃ o, Exec exec ok t (readSdoUntyped b id index subIndex true) w o w' ∧ Printed b isSigned str o := by
  obtain ⟨hb, hb8⟩ := readingOf_bounds hty
  rw [sdoPrintHelper] at h
  obtain ⟨r, w₁, hattempt, hrest⟩ := Exec.of_bind_ret h
  have hend := Exec.of_attempt hattempt
  -- either the integer is read into as many bytes, or into eight
  have hread : ∃ size text,
      (∀ r bs, bs.length = b → text r (readInto size b bs) = numberToString (denoted isSigned bs)) ∧
      Exec exec ok t (readAndPrint size b id index subIndex true text) w (Outcome.ofExcept r) w₁ := by
    rcases hr : readingOf sdoDataType with _ | T | ⟨n, s⟩ | n <;> rw [hr] at hty hend
    · cases hty
    · cases T <;> cases hty
      refine ⟨b, fun _ buf => numberToString (denoted isSigned buf), fun r bs hlen => ?_, hend⟩
      rw [readInto_all hlen, Nat.sub_self, List.replicate_zero, List.append_nil]
    · cases hty
      refine ⟨8, fun _ buf => numberToString (oddInt buf b isSigned), fun r bs hlen => ?_, hend⟩
      rw [readInto_all hlen]
      exact congrArg numberToString (oddInt_eq hb hb8 hlen _ isSigned)
    · cases hty
  obtain ⟨size, text, htext, hend⟩ := hread
  cases r with
  | ok str' =>
    cases hrest
    obtain ⟨r, bs, hread, hstr⟩ := readAndPrint_returns hend
    refine ⟨_, hread, fun hs => ?_, fun hs hlen => ?_⟩
    · rw [hstr, hs]
      rfl
    · rw [hstr, hs, if_pos rfl, htext r bs hlen]
  | error e =>
    rcases hwhat : e.runtimeError? with _ | what <;> simp only [hwhat] at hrest <;> cases hrest
    exact ⟨_, readAndPrint_throws hend, what, hwhat, rfl⟩

end EthercatInterface
