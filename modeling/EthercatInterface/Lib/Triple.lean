import EthercatInterface.Lib.Exec

/-!
# Pre- and postconditions

A `Setting` is an interpretation with the guard, the demand and the thread that runs
are about. `Triple P p Q E`: started in `P`, a program that does not crash ends in `Q` if
it returns and in `E` if it throws, and all its actions satisfy the demand. The rules
follow the constructs of programs; `Triple.of_keeps` is the rule for programs that only
perform actions which keep `P`.

`Returns` is about programs that always return.

`Passes` relates a world to those a run of the program comes by, and `Triple.passes` says
what the demand on the actions means for these.
-/

namespace Interleave

variable {A : Type} {R : A → Type} {M ε I σ α β : Type}

/-- What runs are made of, apart from the program. -/
structure Setting (A : Type) (R : A → Type) (I σ : Type) where
  exec : Interp A R I σ
  ok : Guard A R I σ
  must : Guard A R I σ
  tid : ℕ

/-- `Q` of a return, `E` of a throw, nothing of a crash. -/
def Outcome.Meets {X : Type} (Q : α → X → Prop) (E : ε → X → Prop) : Outcome ε α → X → Prop
  | .ret x => Q x
  | .exn e => E e
  | .crash => fun _ => True

namespace Setting

variable (S : Setting A R I σ)

/-- Started in `P`, the program ends in `Q` if it returns and in `E` if it throws. -/
def Triple (P : World A R σ → Prop) (p : Prog A R M ε α) (Q : α → World A R σ → Prop)
    (E : ε → World A R σ → Prop) : Prop :=
  ∀ w, P w → wp S.exec S.ok S.must S.tid p (Outcome.Meets Q E) w

/-- The action meets the demand wherever `P` holds, and leaves `P` true. -/
def Keeps (P : World A R σ → Prop) (a : A) : Prop :=
  ∀ i w, S.ok S.tid a i w → P w → S.must S.tid a i w ∧ P (w.after S.exec S.tid a i)

variable {S} {P P' : World A R σ → Prop} {p : Prog A R M ε α} {Q : α → World A R σ → Prop}
  {E : ε → World A R σ → Prop}

namespace Triple

theorem mono {Q' : α → World A R σ → Prop} {E' : ε → World A R σ → Prop} (h : S.Triple P p Q E)
    (hP : ∀ w, P' w → P w) (hQ : ∀ x w, Q x w → Q' x w) (hE : ∀ e w, E e w → E' e w) :
    S.Triple P' p Q' E' := by
  refine fun w hw => wp_mono (h w (hP w hw)) fun o w' ho => ?_
  cases o with
  | ret x => exact hQ x w' ho
  | exn e => exact hE e w' ho
  | crash => trivial

/-- What is known in `P` may be used. -/
theorem assume {c : Prop} (hc : ∀ w, P w → c) (h : c → S.Triple P p Q E) : S.Triple P p Q E :=
  fun w hw => h (hc w hw) w hw

theorem pure {x : α} (h : ∀ w, P w → Q x w) : S.Triple P (.pure x : Prog A R M ε α) Q E := h

theorem throw {e : ε} (h : ∀ w, P w → E e w) : S.Triple P (.throw e : Prog A R M ε α) Q E := h

theorem crash : S.Triple P (.crash : Prog A R M ε α) Q E := fun _ _ => trivial

theorem perform {a : A} {Q : R a → World A R σ → Prop}
    (h : ∀ i w, S.ok S.tid a i w → P w → S.must S.tid a i w ∧
      Q (S.exec a i w.st).1 (w.after S.exec S.tid a i)) :
    S.Triple P (Prog.perform a : Prog A R M ε (R a)) Q E := fun w hw i hi => h i w hi hw

theorem bind {p : Prog A R M ε β} {f : β → Prog A R M ε α} {T : β → World A R σ → Prop}
    (hp : S.Triple P p T E) (hf : ∀ x, S.Triple (T x) (f x) Q E) : S.Triple P (p.bind f) Q E := by
  refine fun w hw => wp_bind (wp_mono (hp w hw) fun o w' ho => ?_)
  cases o with
  | ret x => exact hf x w' ho
  | exn e => exact ho
  | crash => trivial

/-- What does not return is not followed by anything. -/
theorem stop {p : Prog A R M ε β} {f : β → Prog A R M ε α}
    (hp : S.Triple P p (fun _ _ => False) E) : S.Triple P (p.bind f) Q E :=
  hp.bind fun _ _ hw => hw.elim

theorem withLock {m : M} (h : S.Triple P p Q E) : S.Triple P (Prog.withLock m p) Q E :=
  fun w hw => wp_withLock (h w hw)

theorem attempt {Q : Except ε α → World A R σ → Prop} {E' : ε → World A R σ → Prop}
    (h : S.Triple P p (fun x => Q (.ok x)) fun e => Q (.error e)) :
    S.Triple P p.attempt Q E' := by
  refine fun w hw => wp_attempt (wp_mono (h w hw) fun o w' ho => ?_)
  cases o with
  | ret x => exact ho
  | exn e => exact ho
  | crash => trivial

theorem when {c : Bool} {p : Prog A R M ε Unit} {Q : Unit → World A R σ → Prop}
    (ht : c = true → S.Triple P p Q E) (hf : c = false → ∀ w, P w → Q () w) :
    S.Triple P (Prog.when c p) Q E := by
  cases c
  · exact hf rfl
  · exact ht rfl

theorem raiseIf {c : Bool} {e : ε} {Q : Unit → World A R σ → Prop}
    (ht : c = true → ∀ w, P w → E e w) (hf : c = false → ∀ w, P w → Q () w) :
    S.Triple P (Prog.raiseIf c e : Prog A R M ε Unit) Q E :=
  when ht hf

/-- **The loop rule.** -/
theorem foldEach {γ : Type} {f : γ → β → Prog A R M ε γ} {l : List β} {s : γ}
    (J : List β → γ → World A R σ → Prop)
    (hstep : ∀ done x rest, l = done ++ x :: rest → ∀ s,
      S.Triple (J done s) (f s x) (fun s' => J (done ++ [x]) s') E) :
    S.Triple (J [] s) (Prog.foldEach l f s) (fun s' => J l s') E := by
  refine fun w hw => wp_foldEach J (fun done x rest hl s w hJ => ?_) (fun _ _ h => h) hw
  refine wp_mono (hstep done x rest hl s w hJ) fun o w' ho => ?_
  cases o <;> exact ho

theorem forEach {f : β → Prog A R M ε Unit} {l : List β} (J : List β → World A R σ → Prop)
    (hstep : ∀ done x rest, l = done ++ x :: rest →
      S.Triple (J done) (f x) (fun _ => J (done ++ [x])) E) :
    S.Triple (J []) (Prog.forEach l f) (fun _ => J l) E :=
  foldEach (fun done _ => J done) fun done x rest hl _ => hstep done x rest hl

/-- **A loop** over consecutive numbers, after `k` of them. -/
theorem forRange {f : ℕ → Prog A R M ε Unit} {a n : ℕ} {J : ℕ → World A R σ → Prop}
    (hstep : ∀ k < n, S.Triple (J k) (f (a + k)) (fun _ => J (k + 1)) E) :
    S.Triple (J 0) (Prog.forEach (List.range' a n) f) (fun _ => J n) E := by
  induction n generalizing a J with
  | zero => exact pure fun _ hw => hw
  | succ n ih =>
    rw [List.range'_succ]
    refine (hstep 0 (Nat.succ_pos n)).bind fun _ => ih (J := fun k => J (k + 1)) fun k hk => ?_
    rw [Nat.add_assoc, Nat.add_comm 1]
    exact hstep (k + 1) (Nat.succ_lt_succ hk)

/-- **The rule for actions that keep the precondition.** -/
theorem of_keeps {C : A → Prop} (hC : ∀ a, C a → S.Keeps P a) (hp : p.Uses C) :
    S.Triple P p (fun _ => P) fun _ => P := fun w hw => by
  refine wp_mono (wp_uses (fun a ha i w hi hw => hC a ha i w hi hw) hp hw) fun o w' hw' => ?_
  cases o with
  | ret x => exact hw'
  | exn e => exact hw'
  | crash => trivial

theorem keeps {a : A} (ha : S.Keeps P a) :
    S.Triple P (Prog.perform a : Prog A R M ε (R a)) (fun _ => P) fun _ => P :=
  of_keeps (C := fun b => b = a) (fun _ h => h ▸ ha) (Prog.uses_perform rfl)

/-- A program that never throws from `P`. -/
theorem never (h : S.Triple P p Q E) {E' : ε → World A R σ → Prop}
    (hn : ∀ w e w', P w → ¬Exec S.exec S.ok S.tid p w (.exn e) w') : S.Triple P p Q E' := by
  refine fun w hw => wp_mono (wp_reached (h w hw)) fun o w' ho => ?_
  cases o with
  | ret x => exact ho.1
  | exn e => exact absurd ho.2 (hn w e w' hw)
  | crash => trivial

theorem noThrow (h : S.Triple P p Q E) (hp : p.NoThrow) {E' : ε → World A R σ → Prop} :
    S.Triple P p Q E' := by
  refine fun w hw => wp_mono (wp_noThrow hp (h w hw)) fun o w' ho => ?_
  cases o with
  | ret x => exact ho.1
  | exn e => exact absurd rfl (ho.2 e)
  | crash => trivial

/-- A triple holds of every run. -/
theorem sound (h : S.Triple P p Q E) {w w' : World A R σ} {o : Outcome ε α}
    (he : Exec S.exec S.ok S.tid p w o w') (hw : P w) : o.Meets Q E w' :=
  wp_sound he (h w hw)

end Triple

/-- Started in `P`, the program returns, and ends in `Q`. -/
def Returns (S : Setting A R I σ) (P : World A R σ → Prop) (p : Prog A R M ε α)
    (Q : α → World A R σ → Prop) : Prop :=
  ∀ w, P w → wp S.exec S.ok S.must S.tid p (Outcome.Sure Q fun _ _ => False) w

namespace Returns

theorem mono {Q' : α → World A R σ → Prop} (h : S.Returns P p Q) (hP : ∀ w, P' w → P w)
    (hQ : ∀ x w, Q x w → Q' x w) : S.Returns P' p Q' := by
  refine fun w hw => wp_mono (h w (hP w hw)) fun o w' ho => ?_
  cases o with
  | ret x => exact hQ x w' ho
  | exn e => exact ho
  | crash => exact ho

theorem assume {c : Prop} (hc : ∀ w, P w → c) (h : c → S.Returns P p Q) : S.Returns P p Q :=
  fun w hw => h (hc w hw) w hw

theorem pure {x : α} (h : ∀ w, P w → Q x w) : S.Returns P (.pure x : Prog A R M ε α) Q := h

theorem perform {a : A} {Q : R a → World A R σ → Prop}
    (h : ∀ i w, S.ok S.tid a i w → P w → S.must S.tid a i w ∧
      Q (S.exec a i w.st).1 (w.after S.exec S.tid a i)) :
    S.Returns P (Prog.perform a : Prog A R M ε (R a)) Q := fun w hw i hi => h i w hi hw

theorem bind {p : Prog A R M ε β} {f : β → Prog A R M ε α} {T : β → World A R σ → Prop}
    (hp : S.Returns P p T) (hf : ∀ x, S.Returns (T x) (f x) Q) : S.Returns P (p.bind f) Q := by
  refine fun w hw => wp_bind (wp_mono (hp w hw) fun o w' ho => ?_)
  cases o with
  | ret x => exact hf x w' ho
  | exn e => exact ho.elim
  | crash => exact ho.elim

theorem withLock {m : M} (h : S.Returns P p Q) : S.Returns P (Prog.withLock m p) Q :=
  fun w hw => wp_withLock (h w hw)

/-- Every run returns. -/
theorem sound (h : S.Returns P p Q) {w w' : World A R σ} {o : Outcome ε α}
    (he : Exec S.exec S.ok S.tid p w o w') (hw : P w) : ∃ x, o = .ret x ∧ Q x w' := by
  have ho := wp_sound he (h w hw)
  cases o with
  | ret x => exact ⟨x, rfl, ho⟩
  | exn e => exact ho.elim
  | crash => exact ho.elim

end Returns

end Setting

/-! ## On the way -/

section Passes

variable (exec : Interp A R I σ) (ok : Guard A R I σ) (t : ℕ)

/-- Thread `t`, running a program from one world, can come by another. -/
inductive Passes : {α : Type} → Prog A R M ε α → World A R σ → World A R σ → Prop
  | here {α : Type} (p : Prog A R M ε α) (w) : Passes p w w
  | act {α : Type} {a : A} {k : R a → Prog A R M ε α} {w v} (i : I) : ok t a i w →
      Passes (k (exec a i w.st).1) (w.after exec t a i) v → Passes (.act a k) w v
  | inside {α β : Type} {m : M} {p : Prog A R M ε β} {k : β → Prog A R M ε α} {w v} :
      Passes p w v → Passes (.locked m p k) w v
  | past {α β : Type} {m : M} {p : Prog A R M ε β} {k : β → Prog A R M ε α} {b w w₁ v} :
      Exec exec ok t p w (.ret b) w₁ → Passes (k b) w₁ v → Passes (.locked m p k) w v

variable {exec ok t} {must : Guard A R I σ}

/-- What the demand gives of every action holds at the end, if it did at the start. -/
theorem wp_last {J : World A R σ → Prop}
    (hJ : ∀ a i w, must t a i w → J (w.after exec t a i)) {p : Prog A R M ε α}
    {Q : Outcome ε α → World A R σ → Prop} {w : World A R σ} (h : wp exec ok must t p Q w) (hw : J w) :
    wp exec ok must t p (fun o w' => Q o w' ∧ J w') w := by
  induction p generalizing w with
  | pure x => exact ⟨h, hw⟩
  | throw e => exact ⟨h, hw⟩
  | crash => exact ⟨h, hw⟩
  | act a k ih => exact fun i hi => ⟨(h i hi).1, ih _ (h i hi).2 (hJ a i w (h i hi).1)⟩
  | locked m p k ihp ihk =>
    refine wp_locked (wp_mono (ihp h hw) fun o w₁ h₁ => ?_)
    cases o with
    | ret b => exact ihk b h₁.1 h₁.2
    | exn e => exact h₁
    | crash => exact h₁

/-- **What the demand gives of every action**, a run from a good world gives of every world it
comes by. -/
theorem wp_passes {J : World A R σ → Prop}
    (hJ : ∀ a i w, must t a i w → J (w.after exec t a i)) {p : Prog A R M ε α} {w v : World A R σ}
    (hp : Passes exec ok t p w v) :
    ∀ {Q}, wp exec ok must t p Q w → J w → J v := by
  induction hp with
  | here p w => exact fun _ hw => hw
  | act i hi _ ih => exact fun h _ => ih (h i hi).2 (hJ _ i _ (h i hi).1)
  | inside _ ih => exact fun h hw => ih h hw
  | past he _ ih =>
    intro Q h hw
    obtain ⟨hk, hw₁⟩ := wp_sound he (wp_last hJ h hw)
    exact ih hk hw₁

end Passes

end Interleave
