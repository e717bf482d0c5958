import EthercatInterface.Lib.Exec

/-!
# Histories

A history lists what was done, newest first. `own` is a thread's part of it, `Saw` tells
that some action got some answer, and `Always` states a property of every event and
what came before it.
-/

namespace Interleave

variable {A : Type} {R : A → Type} {I σ : Type}

/-- The actions of thread `t`, newest first. -/
def own (t : ℕ) (h : List (Event A R)) : List (Event A R) := h.filter fun e => e.tid = t

@[simp] theorem own_nil (t : ℕ) : own t ([] : List (Event A R)) = [] := rfl

@[simp] theorem own_cons_self (t : ℕ) (a : A) (r : R a) (h : List (Event A R)) :
    own t (⟨t, a, r⟩ :: h) = ⟨t, a, r⟩ :: own t h := by
  simp [own]

theorem own_cons_ne {t u : ℕ} (hut : u ≠ t) (a : A) (r : R a) (h : List (Event A R)) :
    own t (⟨u, a, r⟩ :: h) = own t h := by
  simp [own, hut]

/-- What is true of the past of every thread stays true, if it does of the one that moves. -/
theorem own_after {exec : Interp A R I σ} {w : World A R σ} {t : ℕ} {a : A} {i : I}
    {J : ℕ → List (Event A R) → Prop} (h : ∀ u, J u (own u w.hist))
    (ht : J t (⟨t, a, (exec a i w.st).1⟩ :: own t w.hist)) (u : ℕ) :
    J u (own u (w.after exec t a i).hist) := by
  by_cases hut : t = u
  · subst hut
    rw [World.after_hist, own_cons_self]
    exact ht
  · rw [World.after_hist, own_cons_ne hut]
    exact h u

theorem mem_of_mem_own {t : ℕ} {e : Event A R} {h : List (Event A R)} (he : e ∈ own t h) : e ∈ h :=
  (List.mem_filter.1 he).1

/-- The last thing a thread has done is part of the history. -/
theorem suffix_of_own_eq_cons {t : ℕ} {e : Event A R} {h past : List (Event A R)} (ho : own t h = e :: past) :
    ∃ past', e :: past' <:+ h ∧ own t past' = past := by
  induction h with
  | nil => cases ho
  | cons e' h ih =>
    obtain ⟨u, a, r⟩ := e'
    by_cases hu : u = t
    · subst hu
      rw [own_cons_self] at ho
      obtain ⟨rfl, rfl⟩ := List.cons.inj ho
      exact ⟨h, List.suffix_rfl, rfl⟩
    · rw [own_cons_ne hu] at ho
      obtain ⟨past', hs, ho⟩ := ih ho
      exact ⟨past', hs.trans (List.suffix_cons _ _), ho⟩

/-- `a` was performed, by some thread, and answered `r`. -/
def Saw (a : A) (r : R a) (h : List (Event A R)) : Prop := ∃ t, (⟨t, a, r⟩ : Event A R) ∈ h

theorem saw_cons (t : ℕ) (a : A) (r : R a) (h : List (Event A R)) : Saw a r (⟨t, a, r⟩ :: h) :=
  ⟨t, List.mem_cons_self⟩

theorem Saw.cons {a : A} {r : R a} {h : List (Event A R)} (hs : Saw a r h) (e : Event A R) :
    Saw a r (e :: h) :=
  hs.imp fun _ => List.mem_cons_of_mem e

theorem Saw.of_own {t : ℕ} {a : A} {r : R a} {h : List (Event A R)} (hs : Saw a r (own t h)) :
    Saw a r h :=
  hs.imp fun _ => mem_of_mem_own

/-- What was seen after an action was seen before, or is the action's own answer. -/
theorem Saw.of_after {exec : Interp A R I σ} {w : World A R σ} {t : ℕ} {b : A} {i : I} {a : A}
    {r : R a} (hs : Saw a r (w.after exec t b i).hist) :
    Saw a r w.hist ∨ (b = a ∧ r = (exec a i w.st).1) := by
  obtain ⟨u, hu⟩ := hs
  rcases List.mem_cons.1 hu with he | hu
  · injection he with _ hb hr
    subst hb
    exact .inr ⟨rfl, eq_of_heq hr⟩
  · exact .inl ⟨u, hu⟩

/-- Every event is as `φ` says, given its past. -/
def Always (φ : Event A R → List (Event A R) → Prop) : List (Event A R) → Prop
  | [] => True
  | e :: h => φ e h ∧ Always φ h

/-- A property that can be decided of each event can be decided of a history. -/
def decideAlways {φ : Event A R → List (Event A R) → Prop} [∀ e h, Decidable (φ e h)] :
    ∀ h, Decidable (Always φ h)
  | [] => inferInstanceAs (Decidable True)
  | e :: h =>
    have := decideAlways (φ := φ) h
    inferInstanceAs (Decidable (φ e h ∧ Always φ h))

instance {φ : Event A R → List (Event A R) → Prop} [∀ e h, Decidable (φ e h)] :
    DecidablePred (Always φ) := decideAlways

theorem Always.mono {φ ψ : Event A R → List (Event A R) → Prop} {h : List (Event A R)}
    (hφ : Always φ h) (hψ : ∀ e h, φ e h → ψ e h) : Always ψ h := by
  induction h with
  | nil => trivial
  | cons e h ih => exact ⟨hψ e h hφ.1, ih hφ.2⟩

/-- What holds of every event can be used of every event. -/
theorem Always.mp {φ ψ χ : Event A R → List (Event A R) → Prop} {h : List (Event A R)}
    (hφ : Always φ h) (hψ : Always ψ h) (hχ : ∀ e h, ψ e h → φ e h → χ e h) : Always χ h := by
  induction h with
  | nil => trivial
  | cons e h ih => exact ⟨hχ e h hψ.1 hφ.1, ih hφ.2 hψ.2⟩

end Interleave
