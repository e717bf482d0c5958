import Mathlib.Algebra.Order.Ring.Nat
import Mathlib.Data.List.Chain
import Mathlib.Data.List.Nodup
import Mathlib.Data.List.Perm.Subperm
import Mathlib.Data.Nat.ModEq
import Mathlib.Tactic.Common

/-!
# Round robin

The places `0`, …, `n - 1` are visited in turn, from any of them on. A history of visits is a
list, newest first.

`Turns.window`: any `n` visits in succession are one to each place.
-/

namespace RoundRobin

/-- Each visit is to the place after that of the visit before. -/
structure Turns (n : ℕ) (l : List ℕ) : Prop where
  bound : ∀ i ∈ l, i < n
  next : l.IsChain fun a b => a = (b + 1) % n

variable {n i : ℕ} {l : List ℕ}

theorem Turns.nil : Turns n [] := ⟨fun _ h => (by cases h), .nil⟩

/-- The first visit may be to any place. -/
theorem Turns.single (h : i < n) : Turns n [i] :=
  ⟨fun _ hj => List.mem_singleton.1 hj ▸ h, .singleton i⟩

theorem Turns.cons (h : Turns n (i :: l)) : Turns n ((i + 1) % n :: i :: l) := by
  have hn : 0 < n := Nat.zero_lt_of_lt (h.bound i List.mem_cons_self)
  refine ⟨fun j hj => ?_, List.isChain_cons_cons.2 ⟨rfl, h.next⟩⟩
  rcases List.mem_cons.1 hj with rfl | hj
  · exact Nat.mod_lt _ hn
  · exact h.bound j hj

theorem Turns.infix {l' : List ℕ} (h : Turns n l) (hl : l' <:+: l) : Turns n l' :=
  ⟨fun i hi => h.bound i (hl.subset hi), h.next.infix hl⟩

/-- **The last visit, from any visit before it.** -/
theorem Turns.last (h : Turns n l) (h0 : 0 < l.length) :
    ∀ (j : ℕ) (hj : j < l.length), l[0] = (l[j] + j) % n := by
  intro j
  induction j with
  | zero => exact fun _ => (Nat.mod_eq_of_lt (h.bound _ (List.getElem_mem h0))).symm
  | succ j ih =>
    intro hj
    have hstep : l[j] = (l[j + 1] + 1) % n := h.next.getElem j hj
    rw [ih (by omega), hstep, Nat.mod_add_mod]
    congr 1
    omega

/-- Fewer visits than places are to different ones. -/
theorem Turns.nodup (h : Turns n l) (hl : l.length ≤ n) : l.Nodup := by
  refine List.nodup_iff_injective_get.2 fun a b hab => Fin.ext ?_
  have h0 : 0 < l.length := Nat.zero_lt_of_lt a.2
  have hmod : (l.get a + a) % n = (l.get a + b) % n := by
    have hb := h.last h0 b b.2
    rw [← List.get_eq_getElem, ← hab] at hb
    exact (h.last h0 a a.2).symm.trans hb
  have hcancel : (a : ℕ) % n = b % n := Nat.ModEq.add_left_cancel' (l.get a) hmod
  rwa [Nat.mod_eq_of_lt (by omega), Nat.mod_eq_of_lt (by omega)] at hcancel

/-- **A window**: `n` visits in succession are one to each place. -/
theorem Turns.window (h : Turns n l) {a : ℕ} (ha : a + n ≤ l.length) :
    ((l.drop a).take n).Perm (List.range n) := by
  have hw : Turns n ((l.drop a).take n) :=
    h.infix ((List.take_prefix n _).isInfix.trans (List.drop_suffix a l).isInfix)
  have hlen : ((l.drop a).take n).length = n := by
    rw [List.length_take, List.length_drop]
    omega
  have hsub : (l.drop a).take n ⊆ List.range n := fun i hi => List.mem_range.2 (hw.bound i hi)
  refine (List.subperm_of_subset (hw.nodup hlen.le) hsub).perm_of_length_le ?_
  rw [hlen, List.length_range]

end RoundRobin
