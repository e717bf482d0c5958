import Mathlib.Tactic.Common

/-!
# Polling

A loop that tests again and again, until a test succeeds (`poll`). The tests are numbered, and the loop
begins with number `n`; it gives up when the fuel is spent. With enough fuel it does not
give up if some later test succeeds (`poll_ends`), and then it stops at the first (`poll_first`).
-/

namespace Poll

variable {p : ℕ → Bool} {fuel n m : ℕ}

/-- The number of the first test from `n` on that succeeds. -/
def poll (p : ℕ → Bool) : ℕ → ℕ → Option ℕ
  | 0, _ => none
  | fuel + 1, n => if p n then some n else poll p fuel (n + 1)

/-- **It stops at the first success.** -/
theorem poll_first (h : poll p fuel n = some m) : n ≤ m ∧ p m = true ∧ ∀ k, n ≤ k → k < m → p k = false := by
  induction fuel generalizing n with
  | zero => cases h
  | succ fuel ih =>
    rw [poll] at h
    split at h
    · next hp =>
      obtain rfl := Option.some.inj h
      exact ⟨Nat.le_refl n, hp, fun k hk hk' => by omega⟩
    · next hp =>
      obtain ⟨hle, hm, hlt⟩ := ih h
      refine ⟨by omega, hm, fun k hk hk' => ?_⟩
      rcases Nat.eq_or_lt_of_le hk with rfl | hk
      · simpa using hp
      · exact hlt k hk hk'

/-- More fuel does no harm. -/
theorem poll_more {more : ℕ} (h : poll p fuel n = some m) (hf : fuel ≤ more) : poll p more n = some m := by
  induction fuel generalizing n more with
  | zero => cases h
  | succ fuel ih =>
    obtain ⟨more, rfl⟩ : ∃ k, more = k + 1 := ⟨more - 1, by omega⟩
    rw [poll] at h ⊢
    split at h
    · next hp => rw [if_pos hp, h]
    · next hp =>
      rw [if_neg hp]
      exact ih h (by omega)

/-- **It ends** if a later test succeeds. -/
theorem poll_ends (hm : p m = true) (hn : n ≤ m) : ∃ k, poll p (m - n + 1) n = some k := by
  obtain ⟨d, rfl⟩ := Nat.exists_eq_add_of_le hn
  rw [Nat.add_sub_cancel_left]
  induction d generalizing n with
  | zero => exact ⟨n, if_pos hm⟩
  | succ d ih =>
    rw [poll]
    split
    · exact ⟨n, rfl⟩
    · exact ih (n := n + 1) (by rwa [Nat.add_right_comm]) (by omega)

end Poll
