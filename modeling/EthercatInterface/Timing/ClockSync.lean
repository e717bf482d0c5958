import EthercatInterface.Spec.Action
import Mathlib.Data.Int.ModEq
import Mathlib.Algebra.Order.Group.Int

/-!
# The distance to the next cycle

`DCSyncController::update` brings the DC time to a remainder of the cycle time and moves the
upper half of the cycle below zero. The remainder truncates: it has the sign of the dividend,
and a negative one is left as it is.

`nearest_iff`: the error is the shortest distance to a cycle boundary **unless the DC time is
below the offset, and farther below the boundary above it than half a cycle**.
-/

namespace EthercatInterface

/-- `DCSyncController`, without the floating point part of the correction. -/
structure DCSyncController where
  cycleTime : ℤ
  syncOffset : ℤ
  lastTimeError : ℤ := 0

/-- What `update` leaves as the last error. -/
def DCSyncController.update (c : DCSyncController) (dcTime : ℤ) : DCSyncController :=
  { c with lastTimeError := -dcDelta c.cycleTime c.syncOffset dcTime }

/-- The controller of the backend. -/
theorem update_exec (c : DCSyncController) (dcTime : ℤ) (i : Env) (s : St) :
    (exec (.dcSyncUpdate c.cycleTime c.syncOffset dcTime) i s).2.lastTimeError =
      (c.update dcTime).lastTimeError := rfl

/-- `e` is a shortest way from the DC time to a cycle boundary. -/
def Nearest (c : DCSyncController) (dcTime e : ℤ) : Prop :=
  dcTime + e ≡ c.syncOffset [ZMOD c.cycleTime] ∧ 2 * |e| ≤ c.cycleTime

instance (c : DCSyncController) (dcTime e : ℤ) : Decidable (Nearest c dcTime e) :=
  inferInstanceAs (Decidable (_ ∧ _))

variable {c : DCSyncController}

/-- The error always leads to a boundary. -/
theorem update_boundary (c : DCSyncController) (dcTime : ℤ) :
    dcTime + (c.update dcTime).lastTimeError ≡ c.syncOffset [ZMOD c.cycleTime] := by
  have h := Int.tmod_add_mul_tdiv (dcTime - c.syncOffset) c.cycleTime
  refine (Int.modEq_iff_dvd.2 ?_)
  simp only [DCSyncController.update, dcDelta]
  split
  · refine ⟨-((dcTime - c.syncOffset).tdiv c.cycleTime) - 1, ?_⟩
    rw [mul_sub, mul_neg, mul_one]
    omega
  · refine ⟨-((dcTime - c.syncOffset).tdiv c.cycleTime), ?_⟩
    rw [mul_neg]
    omega

/-- **The shortest distance**, unless a negative remainder is longer than half a cycle. -/
theorem nearest_iff (hc : 0 < c.cycleTime) (dcTime : ℤ) :
    Nearest c dcTime (c.update dcTime).lastTimeError ↔
      -c.cycleTime ≤ 2 * (dcTime - c.syncOffset).tmod c.cycleTime := by
  have hl := Int.lt_tmod_of_pos (dcTime - c.syncOffset) hc
  have hu := Int.tmod_lt_of_pos (dcTime - c.syncOffset) hc
  have hhalf : c.cycleTime.tdiv 2 = c.cycleTime / 2 := Int.tdiv_eq_ediv_of_nonneg (by omega)
  have hnear : Nearest c dcTime (c.update dcTime).lastTimeError ↔
      2 * |(c.update dcTime).lastTimeError| ≤ c.cycleTime :=
    ⟨fun h => h.2, fun h => ⟨update_boundary c dcTime, h⟩⟩
  rw [hnear]
  simp only [DCSyncController.update, dcDelta, hhalf, abs_neg]
  split
  · rw [abs_of_neg (by omega)]
    omega
  · rcases Int.le_total 0 ((dcTime - c.syncOffset).tmod c.cycleTime) with h0 | h0
    · rw [abs_of_nonneg h0]
      omega
    · rw [abs_of_nonpos h0]
      omega

/-- A DC time above the offset. -/
theorem nearest_iff_above :
    Nearest ⟨1000, 200, 0⟩ 999 (DCSyncController.update ⟨1000, 200, 0⟩ 999).lastTimeError :=
  (nearest_iff (c := ⟨1000, 200, 0⟩) (by decide) 999).2 (by decide)

/-- A DC time below the offset by most of a cycle. -/
theorem nearest_below : ¬∀ (c : DCSyncController) (dcTime : ℤ), 0 < c.cycleTime →
    -2 ^ 63 ≤ dcTime - c.syncOffset → dcTime - c.syncOffset < 2 ^ 63 →
    Nearest c dcTime (c.update dcTime).lastTimeError := by
  intro h
  exact absurd (h ⟨1000000, 700000, 0⟩ 0 (by decide) (by decide) (by decide)) (by decide)

end EthercatInterface
