import EthercatInterface.Lib.Triple

/-!
# Programs that come to an end

`Concludes P p Q E`: started in `P`, a program ends in `Q` if it returns and in `E` if it throws, and it
does not crash; all its actions satisfy the demand. The rules go construct by construct, as those of
`Setting.Triple` do, and an exception that is caught is known to satisfy `E`.

`Concludes.performed` is what a demand on the actions alone says of the history.
-/

namespace Interleave.Setting

variable {A : Type} {R : A → Type} {M ε I σ α β γ : Type}

/-- Started in `P`, the program returns in `Q` or throws in `E`. -/
def Concludes (S : Setting A R I σ) (P : World A R σ → Prop) (p : Prog A R M ε α)
    (Q : α → World A R σ → Prop) (E : ε → World A R σ → Prop) : Prop :=
  ∀ w, P w → wp S.exec S.ok S.must S.tid p (Outcome.Sure Q E) w

variable {S : Setting A R I σ} {P P' : World A R σ → Prop} {p : Prog A R M ε α} {Q : α → World A R σ → Prop}
  {E : ε → World A R σ → Prop}

namespace Concludes

theorem mono {Q' : α → World A R σ → Prop} {E' : ε → World A R σ → Prop} (h : S.Concludes P p Q E)
    (hP : ∀ w, P' w → P w) (hQ : ∀ x w, Q x w → Q' x w) (hE : ∀ e w, E e w → E' e w) :
    S.Concludes P' p Q' E' := by
  refine fun w hw => wp_mono (h w (hP w hw)) fun o w' ho => ?_
  cases o with
  | ret x => exact hQ x w' ho
  | exn e => exact hE e w' ho
  | crash => exact ho

theorem assume {c : Prop} (hc : ∀ w, P w → c) (h : c → S.Concludes P p Q E) : S.Concludes P p Q E :=
  fun w hw => h (hc w hw) w hw

theorem pure {x : α} (h : ∀ w, P w → Q x w) : S.Concludes P (.pure x : Prog A R M ε α) Q E := h

theorem throw {e : ε} (h : ∀ w, P w → E e w) : S.Concludes P (.throw e : Prog A R M ε α) Q E := h

theorem perform {a : A} {Q : R a → World A R σ → Prop}
    (h : ∀ i w, S.ok S.tid a i w → P w → S.must S.tid a i w ∧
      Q (S.exec a i w.st).1 (w.after S.exec S.tid a i)) :
    S.Concludes P (Prog.perform a : Prog A R M ε (R a)) Q E := fun w hw i hi => h i w hi hw

theorem bind {p : Prog A R M ε β} {f : β → Prog A R M ε α} {T : β → World A R σ → Prop}
    (hp : S.Concludes P p T E) (hf : ∀ x, S.Concludes (T x) (f x) Q E) : S.Concludes P (p.bind f) Q E := by
  refine fun w hw => wp_bind (wp_mono (hp w hw) fun o w' ho => ?_)
  cases o with
  | ret x => exact hf x w' ho
  | exn e => exact ho
  | crash => exact ho.elim

theorem withLock {m : M} (h : S.Concludes P p Q E) : S.Concludes P (Prog.withLock m p) Q E :=
  fun w hw => wp_withLock (h w hw)

theorem attempt {Q : Except ε α → World A R σ → Prop} {E' : ε → World A R σ → Prop}
    (h : S.Concludes P p (fun x => Q (.ok x)) fun e => Q (.error e)) : S.Concludes P p.attempt Q E' := by
  refine fun w hw => wp_attempt (wp_mono (h w hw) fun o w' ho => ?_)
  cases o with
  | ret x => exact ho
  | exn e => exact ho
  | crash => exact ho.elim

theorem tryCatch {h : ε → Prog A R M ε α} {T : ε → World A R σ → Prop} (hp : S.Concludes P p Q T)
    (hh : ∀ e, S.Concludes (T e) (h e) Q E) : S.Concludes P (Prog.tryCatch p h) Q E := by
  refine bind (attempt (Q := fun r w => Outcome.Sure Q T (.ofExcept r) w) hp) fun r => ?_
  cases r with
  | ok x => exact pure fun _ hw => hw
  | error e => exact hh e

theorem when {c : Bool} {p : Prog A R M ε Unit} {Q : Unit → World A R σ → Prop}
    (ht : c = true → S.Concludes P p Q E) (hf : c = false → ∀ w, P w → Q () w) :
    S.Concludes P (Prog.when c p) Q E := by
  cases c
  · exact hf rfl
  · exact ht rfl

theorem raiseIf {c : Bool} {e : ε} {Q : Unit → World A R σ → Prop}
    (ht : c = true → ∀ w, P w → E e w) (hf : c = false → ∀ w, P w → Q () w) :
    S.Concludes P (Prog.raiseIf c e : Prog A R M ε Unit) Q E :=
  when ht hf

/-- **The loop rule.** -/
theorem foldEach {f : γ → β → Prog A R M ε γ} {l : List β} {s : γ} (J : List β → γ → World A R σ → Prop)
    (hstep : ∀ done x rest, l = done ++ x :: rest → ∀ s,
      S.Concludes (J done s) (f s x) (fun s' => J (done ++ [x]) s') E) :
    S.Concludes (J [] s) (Prog.foldEach l f s) (fun s' => J l s') E := by
  refine fun w hw => wp_foldEach J (fun done x rest hl s w hJ => ?_) (fun _ _ h => h) hw
  refine wp_mono (hstep done x rest hl s w hJ) fun o w' ho => ?_
  cases o with
  | ret s' => exact ho
  | exn e => exact ho
  | crash => exact ho.elim

theorem forEach {f : β → Prog A R M ε Unit} {l : List β} (J : List β → World A R σ → Prop)
    (hstep : ∀ done x rest, l = done ++ x :: rest →
      S.Concludes (J done) (f x) (fun _ => J (done ++ [x])) E) :
    S.Concludes (J []) (Prog.forEach l f) (fun _ => J l) E :=
  foldEach (fun done _ => J done) fun done x rest hl _ => hstep done x rest hl

/-- What is known of every run comes on top. -/
theorem andExec (h : S.Concludes P p Q E) {F : World A R σ → Outcome ε α → World A R σ → Prop}
    (hF : ∀ w o w', P w → Exec S.exec S.ok S.tid p w o w' → F w o w') {Q' : α → World A R σ → Prop}
    {E' : ε → World A R σ → Prop} (hQ : ∀ w x w', P w → F w (.ret x) w' → Q x w' → Q' x w')
    (hE : ∀ w e w', P w → F w (.exn e) w' → E e w' → E' e w') : S.Concludes P p Q' E' := by
  refine fun w hw => wp_mono (wp_reached (h w hw)) fun o w' ho => ?_
  have hf := hF w o w' hw ho.2
  cases o with
  | ret x => exact hQ w x w' hw hf ho.1
  | exn e => exact hE w e w' hw hf ho.1
  | crash => exact ho.1

/-- A run does not crash. -/
theorem sound (h : S.Concludes P p Q E) {w w' : World A R σ} {o : Outcome ε α}
    (he : Exec S.exec S.ok S.tid p w o w') (hw : P w) : o.Sure Q E w' :=
  wp_sound he (h w hw)

end Concludes

/-- **A demand on the actions alone** holds of all that a run adds to the history. -/
theorem wp_performed {exec : Interp A R I σ} {ok : Guard A R I σ} {t : ℕ} {C : A → Prop}
    {Q : Outcome ε α → World A R σ → Prop} {w : World A R σ}
    (h : wp exec ok (fun _ a _ _ => C a) t p Q w) (hw : ∀ e ∈ w.hist, C e.act) :
    wp exec ok (fun _ a _ _ => C a) t p (fun o w' => Q o w' ∧ ∀ e ∈ w'.hist, C e.act) w := by
  induction p generalizing w with
  | pure x => exact ⟨h, hw⟩
  | throw e => exact ⟨h, hw⟩
  | crash => exact ⟨h, hw⟩
  | act a k ih =>
    refine fun i hi => ⟨(h i hi).1, ih _ (h i hi).2 fun e he => ?_⟩
    rcases List.mem_cons.1 he with rfl | he
    · exact (h i hi).1
    · exact hw e he
  | locked m p k ihp ihk =>
    refine wp_locked (wp_mono (ihp h hw) fun o w₁ h₁ => ?_)
    cases o with
    | ret b => exact ihk b h₁.1 h₁.2
    | exn e => exact h₁
    | crash => exact h₁

end Interleave.Setting
