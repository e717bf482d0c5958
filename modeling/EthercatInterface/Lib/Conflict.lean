import Mathlib.Data.Set.Basic
import EthercatInterface.Lib.Exec

/-!
# Actions that touch different parts of a state

A state falls into cells, and a footprint says of each action which of them it reads and which
it writes (`Footprint`). It is sound when an action changes no other cell and depends on no
other (`Footprint.Sound`). Actions without a conflict then take effect in either order, with
the same answers (`Footprint.Sound.commute`).
-/

namespace Interleave

variable {A : Type} {R : A → Type} {I σ C : Type} {V : C → Type}

/-- What actions read and write. -/
structure Footprint (A C : Type) where
  reads : A → Set C
  writes : A → Set C

namespace Footprint

/-- What an action reads or writes. -/
def touches (F : Footprint A C) (a : A) : Set C := F.reads a ∪ F.writes a

/-- Both actions touch the cell, and one of them writes it. -/
def Conflict (F : Footprint A C) (a b : A) (x : C) : Prop :=
  (x ∈ F.writes a ∧ x ∈ F.touches b) ∨ (x ∈ F.touches a ∧ x ∈ F.writes b)

variable {F : Footprint A C}

theorem touches_of_writes {a : A} {x : C} (hx : x ∈ F.writes a) : x ∈ F.touches a := .inr hx

theorem Conflict.symm {a b : A} {x : C} (h : F.Conflict a b x) : F.Conflict b a x :=
  (Or.symm h).imp And.symm And.symm

theorem Conflict.touches_left {a b : A} {x : C} (h : F.Conflict a b x) : x ∈ F.touches a :=
  h.elim (fun h => touches_of_writes h.1) And.left

theorem Conflict.touches_right {a b : A} {x : C} (h : F.Conflict a b x) : x ∈ F.touches b :=
  h.symm.touches_left

/-- **A sound footprint**: an action leaves the cells it does not write alone, and its answer
and what it writes depend on the cells it touches only. -/
structure Sound (F : Footprint A C) (exec : Interp A R I σ) (view : (x : C) → σ → V x) : Prop where
  frame : ∀ a i s x, x ∉ F.writes a → view x (exec a i s).2 = view x s
  answer : ∀ a i s s', (∀ x ∈ F.touches a, view x s = view x s') → (exec a i s).1 = (exec a i s').1
  effect : ∀ a i s s', (∀ x ∈ F.touches a, view x s = view x s') →
    ∀ x ∈ F.writes a, view x (exec a i s).2 = view x (exec a i s').2

variable {exec : Interp A R I σ} {view : (x : C) → σ → V x}

/-- An action finds what it touches as it was before an action without a conflict. -/
theorem Sound.undisturbed (h : F.Sound exec view) {a b : A} (hab : ∀ x, ¬F.Conflict a b x) (i : I) (s : σ) :
    ∀ x ∈ F.touches b, view x (exec a i s).2 = view x s :=
  fun x hx => h.frame a i s x fun hw => hab x (.inl ⟨hw, hx⟩)

/-- What an action leaves in a cell it writes is there also after an action without a conflict,
whichever comes first. -/
theorem Sound.written (h : F.Sound exec view) {a b : A} (hab : ∀ x, ¬F.Conflict a b x) (i j : I) (s : σ)
    {x : C} (hx : x ∈ F.writes a) :
    view x (exec b j (exec a i s).2).2 = view x (exec a i (exec b j s).2).2 := by
  have hba : ∀ x, ¬F.Conflict b a x := fun x hx => hab x hx.symm
  have hb : x ∉ F.writes b := fun hw => hab x (.inl ⟨hx, touches_of_writes hw⟩)
  rw [h.frame b j _ x hb]
  exact h.effect a i s _ (fun y hy => (h.undisturbed hba j s y hy).symm) x hx

/-- **Actions without a conflict commute**: each answers what it would answer first, and the
cells end with the same contents. -/
theorem Sound.commute (h : F.Sound exec view) {a b : A} (hab : ∀ x, ¬F.Conflict a b x) (i j : I) (s : σ) :
    (exec b j (exec a i s).2).1 = (exec b j s).1 ∧ (exec a i (exec b j s).2).1 = (exec a i s).1 ∧
      ∀ x, view x (exec b j (exec a i s).2).2 = view x (exec a i (exec b j s).2).2 := by
  have hba : ∀ x, ¬F.Conflict b a x := fun x hx => hab x hx.symm
  refine ⟨h.answer b j _ _ (h.undisturbed hab i s), h.answer a i _ _ (h.undisturbed hba j s), fun x => ?_⟩
  by_cases ha : x ∈ F.writes a
  · exact h.written hab i j s ha
  · by_cases hb : x ∈ F.writes b
    · exact (h.written hba j i s hb).symm
    -- neither writes the cell
    · rw [h.frame b j _ x hb, h.frame a i s x ha, h.frame a i _ x ha, h.frame b j s x hb]

end Footprint

end Interleave
