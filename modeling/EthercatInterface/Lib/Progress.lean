import EthercatInterface.Lib.Triple

/-!
# Programs that return

`Prog.Total`: no path of a program throws or crashes. For programs whose ends depend on the
answers they get, the rules of `Setting.Returns` go construct by construct, as those of
`Setting.Triple` do.

* `Returns.keeps`: a total program of actions that keep `P` returns in `P`.
* `Returns.ask`: going on with what an action can answer.
* `Returns.foldRange`: the rule for loops over consecutive numbers.
-/

namespace Interleave

variable {A : Type} {R : A → Type} {M ε I σ α β γ : Type}

namespace Prog

/-- Every path of `p` returns. -/
def Total : {α : Type} → Prog A R M ε α → Prop
  | _, .pure _ => True
  | _, .throw _ => False
  | _, .crash => False
  | _, .act _ k => ∀ r, (k r).Total
  | _, .locked _ p k => p.Total ∧ ∀ b, (k b).Total

theorem total_perform {a : A} : (perform a : Prog A R M ε (R a)).Total := fun _ => trivial

theorem Total.bind {p : Prog A R M ε α} {f : α → Prog A R M ε β} (hp : p.Total)
    (hf : ∀ x, (f x).Total) : (p.bind f).Total := by
  induction p with
  | pure x => exact hf x
  | throw e => exact hp.elim
  | crash => exact hp.elim
  | act a k ih => exact fun r => ih r (hp r) hf
  | locked m p k _ ih => exact ⟨hp.1, fun b => ih b (hp.2 b) hf⟩

theorem Total.withLock {m : M} {p : Prog A R M ε α} (hp : p.Total) : (withLock m p).Total :=
  ⟨hp, fun _ => trivial⟩

theorem Total.when {c : Bool} {p : Prog A R M ε Unit} (hp : p.Total) : (when c p).Total := by
  cases c
  · trivial
  · exact hp

theorem Total.foldEach {f : γ → β → Prog A R M ε γ} (hf : ∀ s x, (f s x).Total) (l : List β) (s : γ) :
    (foldEach l f s).Total := by
  induction l generalizing s with
  | nil => trivial
  | cons x l ih => exact (hf s x).bind ih

end Prog

namespace Setting.Returns

variable {S : Setting A R I σ} {P : World A R σ → Prop} {p : Prog A R M ε α} {Q : α → World A R σ → Prop}

/-- **Total programs** of actions that keep `P`. -/
theorem keeps {C : A → Prop} (hC : ∀ a, C a → S.Keeps P a) (hp : p.Uses C) (ht : p.Total) :
    S.Returns P p fun _ => P := by
  intro w hw
  induction p generalizing w with
  | pure x => exact hw
  | throw e => exact ht.elim
  | crash => exact ht.elim
  | act a k ih =>
    intro i hi
    obtain ⟨hm, hw'⟩ := hC a hp.1 i w hi hw
    exact ⟨hm, ih _ (hp.2 _) (ht _) _ hw'⟩
  | locked m p k ihp ihk =>
    refine wp_locked (wp_mono (ihp hp.1 ht.1 w hw) fun o w₁ ho => ?_)
    cases o with
    | ret b => exact ihk b (hp.2 b) (ht.2 b) w₁ ho
    | exn e => exact ho.elim
    | crash => exact ho.elim

/-- An action, and what comes after each answer that it can give. -/
theorem ask {a : A} {f : R a → Prog A R M ε α} {T : R a → World A R σ → Prop}
    (ha : ∀ i w, S.ok S.tid a i w → P w → S.must S.tid a i w ∧
      T (S.exec a i w.st).1 (w.after S.exec S.tid a i))
    (hf : ∀ r, S.Returns (T r) (f r) Q) : S.Returns P ((Prog.perform a).bind f) Q :=
  (perform ha).bind hf

/-- An action whose answer can be told before. -/
theorem told {a : A} {f : R a → Prog A R M ε α} {r : R a}
    (ha : ∀ i w, S.ok S.tid a i w → P w → S.must S.tid a i w ∧ (S.exec a i w.st).1 = r ∧
      P (w.after S.exec S.tid a i))
    (hf : S.Returns P (f r) Q) : S.Returns P ((Prog.perform a).bind f) Q :=
  ask (T := fun x w => x = r ∧ P w) ha fun x => .assume (c := x = r) (fun _ hw => hw.1) fun hx => by
    subst hx
    exact hf.mono (fun _ hw => hw.2) fun _ _ h => h

/-- A test that does not raise. -/
theorem passed {c : Bool} {e : ε} {f : Unit → Prog A R M ε α} (hc : ∀ w, P w → c = false)
    (hf : S.Returns P (f ()) Q) : S.Returns P ((Prog.raiseIf c e).bind f) Q :=
  .assume hc fun h => by
    subst h
    exact hf

/-- An attempt of a program that returns. -/
theorem attempt (h : S.Returns P p Q) : S.Returns P p.attempt fun r w => ∃ x, r = .ok x ∧ Q x w := by
  refine fun w hw => wp_attempt (wp_mono (h w hw) fun o w' ho => ?_)
  cases o with
  | ret x => exact ⟨x, rfl, ho⟩
  | exn e => exact ho.elim
  | crash => exact ho.elim

theorem when {c : Bool} {p : Prog A R M ε Unit} {Q : Unit → World A R σ → Prop}
    (ht : c = true → S.Returns P p Q) (hf : c = false → ∀ w, P w → Q () w) :
    S.Returns P (Prog.when c p) Q := by
  cases c
  · exact hf rfl
  · exact ht rfl

/-- **A loop** over consecutive numbers. -/
theorem foldRange {f : γ → ℕ → Prog A R M ε γ} {a n : ℕ} {J : ℕ → γ → World A R σ → Prop}
    (hstep : ∀ k < n, ∀ s, S.Returns (J k s) (f s (a + k)) (J (k + 1))) (s : γ) :
    S.Returns (J 0 s) (Prog.foldEach (List.range' a n) f s) (J n) := by
  induction n generalizing a J s with
  | zero => exact pure fun _ hw => hw
  | succ n ih =>
    rw [List.range'_succ]
    refine (hstep 0 (Nat.succ_pos n) s).bind fun s' => ih (J := fun k => J (k + 1)) (fun k hk s => ?_) s'
    rw [Nat.add_assoc, Nat.add_comm 1]
    exact hstep (k + 1) (Nat.succ_lt_succ hk) s

theorem forRange {f : ℕ → Prog A R M ε Unit} {a n : ℕ} {J : ℕ → World A R σ → Prop}
    (hstep : ∀ k < n, S.Returns (J k) (f (a + k)) fun _ => J (k + 1)) :
    S.Returns (J 0) (Prog.forEach (List.range' a n) f) fun _ => J n :=
  foldRange (J := fun k _ => J k) (fun k hk _ => hstep k hk) ()

/-- A program all of whose runs return. -/
theorem of_exec {exec : Interp A R I σ} {ok : Guard A R I σ} {t : ℕ}
    (h : ∀ w o w', P w → Exec exec ok t p w o w' → ∃ x, o = .ret x ∧ Q x w') :
    (⟨exec, ok, free, t⟩ : Setting A R I σ).Returns P p Q := by
  refine fun w hw => wp_iff_exec.2 fun o w' he => ?_
  obtain ⟨x, rfl, hx⟩ := h w o w' hw he
  exact hx

end Setting.Returns

end Interleave
