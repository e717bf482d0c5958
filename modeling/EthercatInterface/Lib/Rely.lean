import EthercatInterface.Lib.Pool

/-!
# Threads that rely on each other

A `Pact` says, for each thread, what it relies on the others to leave alone between two of
its steps, and what its own steps guarantee to them; all threads keep one invariant.
`Secures` is the calculus of programs under a pact. A section is one step: inside it no
other thread moves, and what happens there is a matter of `wp`.

* `Secures.later`: what a program secures, it still secures after the others have moved.
* `reaches_secured`: if every call secures its end, so does every call of a run.

A thread that crashed guarantees no more than the others rely on; nothing is said of how
far it got.
-/

namespace Interleave

variable {A : Type} {R : A → Type} {M ε I σ α β : Type}

/-- The invariant of all threads, what each relies on and what each guarantees. -/
structure Pact (A : Type) (R : A → Type) (σ : Type) where
  inv : World A R σ → Prop
  rely : ℕ → World A R σ → World A R σ → Prop
  guar : ℕ → World A R σ → World A R σ → Prop
  rely_refl : ∀ t w, rely t w w
  rely_trans : ∀ {t w₁ w₂ w₃}, rely t w₁ w₂ → rely t w₂ w₃ → rely t w₁ w₃
  guar_refl : ∀ t w, guar t w w
  guar_trans : ∀ {t w₁ w₂ w₃}, guar t w₁ w₂ → guar t w₂ w₃ → guar t w₁ w₃
  /-- What one thread guarantees, the others may rely on. -/
  kept : ∀ {t u w w'}, t ≠ u → inv w → inv w' → guar t w w' → rely u w w'

namespace Pact

variable (K : Pact A R σ) (t : ℕ)

/-- `P` holds whenever thread `t` moves next. -/
def Later (P : World A R σ → Prop) (w : World A R σ) : Prop :=
  ∀ w', K.inv w' → K.rely t w w' → P w'

/-- Thread `t` may change the world so. -/
def Admits (w w' : World A R σ) : Prop := K.guar t w w' ∧ K.inv w'

/-- What thread `t` may go on knowing of the world. -/
def Stable (P : World A R σ → Prop) : Prop := ∀ w w', K.inv w' → K.rely t w w' → P w → P w'

variable {K t}

theorem Stable.and {P Q : World A R σ → Prop} (hP : K.Stable t P) (hQ : K.Stable t Q) :
    K.Stable t fun w => P w ∧ Q w :=
  fun w w' hw hr h => ⟨hP w w' hw hr h.1, hQ w w' hw hr h.2⟩

theorem Later.now {P : World A R σ → Prop} {w : World A R σ} (h : K.Later t P w) (hw : K.inv w) :
    P w :=
  h w hw (K.rely_refl t w)

theorem Later.later {P : World A R σ → Prop} {w w' : World A R σ} (h : K.Later t P w)
    (hr : K.rely t w w') : K.Later t P w' := by
  intro w₂ hw₂ hr₂
  exact h w₂ hw₂ (K.rely_trans hr hr₂)

end Pact

/-- Thread `t` running `p` from `w`, with the others moving as it relies on, keeps its part of
the pact and ends in `Q`. -/
def Secures (exec : Interp A R I σ) (ok : Guard A R I σ) (K : Pact A R σ) (t : ℕ) :
    {α : Type} → Prog A R M ε α → (Outcome ε α → World A R σ → Prop) → World A R σ → Prop
  | _, .pure x, Q => K.Later t (Q (.ret x))
  | _, .throw e, Q => K.Later t (Q (.exn e))
  | _, .crash, Q => K.Later t (Q .crash)
  | _, .act a k, Q => K.Later t fun w => ∀ i, ok t a i w → K.Admits t w (w.after exec t a i) ∧
      Secures exec ok K t (k (exec a i w.st).1) Q (w.after exec t a i)
  | _, .locked _ p k, Q => K.Later t fun w => wp exec ok free t p (fun o w' => K.Admits t w w' ∧
      o.andThen (fun b => Secures exec ok K t (k b) Q) (fun o => K.Later t (Q o)) w') w

section Secures

variable {exec : Interp A R I σ} {ok : Guard A R I σ} {K : Pact A R σ} {t : ℕ}
  {Q : Outcome ε α → World A R σ → Prop} {w w' : World A R σ}

/-- The other threads may move first. -/
theorem Secures.later {p : Prog A R M ε α} (hp : Secures exec ok K t p Q w)
    (hr : K.rely t w w') : Secures exec ok K t p Q w' := by
  cases p with
  | pure x => exact Pact.Later.later hp hr
  | throw e => exact Pact.Later.later hp hr
  | crash => exact Pact.Later.later hp hr
  | act a k => exact Pact.Later.later hp hr
  | locked m p k => exact Pact.Later.later hp hr

theorem Secures.of_later {p : Prog A R M ε α} (hp : K.Later t (Secures exec ok K t p Q) w) :
    Secures exec ok K t p Q w := by
  have now : ∀ w' (hw : K.inv w') (hr : K.rely t w w'), Secures exec ok K t p Q w' := hp
  cases p with
  | pure x => exact fun w' hw hr => now w' hw hr w' hw (K.rely_refl t w')
  | throw e => exact fun w' hw hr => now w' hw hr w' hw (K.rely_refl t w')
  | crash => exact fun w' hw hr => now w' hw hr w' hw (K.rely_refl t w')
  | act a k => exact fun w' hw hr => now w' hw hr w' hw (K.rely_refl t w')
  | locked m p k => exact fun w' hw hr => now w' hw hr w' hw (K.rely_refl t w')

theorem Secures.mono {p : Prog A R M ε α} {Q' : Outcome ε α → World A R σ → Prop}
    (hp : Secures exec ok K t p Q w) (hQ : ∀ o w, K.inv w → Q o w → Q' o w) :
    Secures exec ok K t p Q' w := by
  induction p generalizing w with
  | pure x => exact fun w' hw hr => hQ _ _ hw (hp w' hw hr)
  | throw e => exact fun w' hw hr => hQ _ _ hw (hp w' hw hr)
  | crash => exact fun w' hw hr => hQ _ _ hw (hp w' hw hr)
  | act a k ih =>
    intro w' hw hr i hi
    obtain ⟨ha, hk⟩ := hp w' hw hr i hi
    exact ⟨ha, ih _ hk hQ⟩
  -- inside a section nobody else moves, so it is judged by `wp`
  | locked m p k _ ih =>
    intro w' hw hr
    refine wp_mono (hp w' hw hr) fun o w₁ ⟨ha, ho⟩ => ⟨ha, ?_⟩
    cases o with
    | ret b => exact ih b ho hQ
    | exn e => exact fun w₂ hw₂ hr₂ => hQ _ _ hw₂ (ho w₂ hw₂ hr₂)
    | crash => exact fun w₂ hw₂ hr₂ => hQ _ _ hw₂ (ho w₂ hw₂ hr₂)

theorem Secures.pure {x : α} (hs : K.Stable t (Q (.ret x))) (hQ : Q (.ret x) w) :
    Secures exec ok K t (.pure x : Prog A R M ε α) Q w :=
  fun w' hw hr => hs w w' hw hr hQ

theorem Secures.throw {e : ε} (hs : K.Stable t (Q (.exn e))) (hQ : Q (.exn e) w) :
    Secures exec ok K t (.throw e : Prog A R M ε α) Q w :=
  fun w' hw hr => hs w w' hw hr hQ

/-- What to show of the end of `p` for `Q` to hold after going on with `f`. -/
abbrev andSecures (exec : Interp A R I σ) (ok : Guard A R I σ) (K : Pact A R σ) (t : ℕ)
    (f : β → Prog A R M ε α) (Q : Outcome ε α → World A R σ → Prop) :
    Outcome ε β → World A R σ → Prop
  | .ret x, w => Secures exec ok K t (f x) Q w
  | .exn e, w => Q (.exn e) w
  | .crash, w => Q .crash w

theorem Secures.bind {p : Prog A R M ε β} {f : β → Prog A R M ε α}
    (hp : Secures exec ok K t p (andSecures exec ok K t f Q) w) :
    Secures exec ok K t (p.bind f) Q w := by
  induction p generalizing w with
  | pure x => exact .of_later hp
  | throw e => exact hp
  | crash => exact hp
  | act a k ih =>
    intro w' hw hr i hi
    obtain ⟨ha, hk⟩ := hp w' hw hr i hi
    exact ⟨ha, ih _ hk⟩
  | locked m p k _ ih =>
    intro w' hw hr
    refine wp_mono (hp w' hw hr) fun o w₁ ⟨ha, ho⟩ => ⟨ha, ?_⟩
    cases o with
    | ret b => exact ih b ho
    | exn e => exact ho
    | crash => exact ho

/-- Going on after a part that ended in `T`. -/
theorem Secures.seq {p : Prog A R M ε β} {f : β → Prog A R M ε α}
    {T : Outcome ε β → World A R σ → Prop} (hp : Secures exec ok K t p T w)
    (hret : ∀ x w, K.inv w → T (.ret x) w → Secures exec ok K t (f x) Q w)
    (hexn : ∀ e w, K.inv w → T (.exn e) w → Q (.exn e) w)
    (hcrash : ∀ w, K.inv w → T .crash w → Q .crash w) : Secures exec ok K t (p.bind f) Q w := by
  refine .bind (hp.mono fun o w' hw ho => ?_)
  cases o with
  | ret x => exact hret x w' hw ho
  | exn e => exact hexn e w' hw ho
  | crash => exact hcrash w' hw ho

/-- **One step**, when the others have moved. -/
theorem Secures.perform {a : A} {Q : Outcome ε (R a) → World A R σ → Prop}
    {P : World A R σ → Prop} (hP : K.Stable t P) (hw : P w)
    (ha : ∀ i w, ok t a i w → K.inv w → P w → K.Admits t w (w.after exec t a i) ∧
      K.Later t (Q (.ret (exec a i w.st).1)) (w.after exec t a i)) :
    Secures exec ok K t (Prog.perform a : Prog A R M ε (R a)) Q w :=
  fun w' hw' hr i hi => ha i w' hi hw' (hP w w' hw' hr hw)

/-- One step, and what comes after it. -/
theorem Secures.step {a : A} {f : R a → Prog A R M ε α} {P : World A R σ → Prop}
    (hP : K.Stable t P) (hw : P w)
    (ha : ∀ i w, ok t a i w → K.inv w → P w → K.Admits t w (w.after exec t a i) ∧
      Secures exec ok K t (f (exec a i w.st).1) Q (w.after exec t a i)) :
    Secures exec ok K t ((Prog.perform a).bind f) Q w :=
  fun w' hw' hr i hi => ha i w' hi hw' (hP w w' hw' hr hw)

theorem Secures.attempt {p : Prog A R M ε α} {Q : Outcome ε (Except ε α) → World A R σ → Prop}
    (hp : Secures exec ok K t p (fun o w => match o with
      | .ret x => Q (.ret (.ok x)) w
      | .exn e => Q (.ret (.error e)) w
      | .crash => Q .crash w) w) : Secures exec ok K t p.attempt Q w := by
  induction p generalizing w with
  | pure x => exact hp
  | throw e => exact hp
  | crash => exact hp
  | act a k ih =>
    intro w' hw hr i hi
    obtain ⟨ha, hk⟩ := hp w' hw hr i hi
    exact ⟨ha, ih _ hk⟩
  | locked m p k _ ih =>
    intro w' hw hr
    refine wp_attempt (wp_mono (hp w' hw hr) fun o w₁ ho => ?_)
    cases o with
    | ret b => exact ⟨ho.1, ih b ho.2⟩
    | exn e => exact ho
    | crash => exact ho

theorem Secures.when {c : Bool} {p : Prog A R M ε Unit} {Q : Outcome ε Unit → World A R σ → Prop}
    (ht : c = true → Secures exec ok K t p Q w) (hf : c = false → K.Later t (Q (.ret ())) w) :
    Secures exec ok K t (Prog.when c p) Q w := by
  cases c
  · exact hf rfl
  · exact ht rfl

/-- **Steps that keep what the thread knows.** -/
theorem Secures.uses {S : A → Prop} {P : World A R σ → Prop} (hP : K.Stable t P)
    (hS : ∀ a, S a → ∀ i w, ok t a i w → K.inv w → P w →
      P (w.after exec t a i) ∧ K.Admits t w (w.after exec t a i))
    {p : Prog A R M ε α} (hp : p.Uses S) (hw : P w) :
    Secures exec ok K t p (fun _ => P) w := by
  -- before each action the others may have moved, and `P` is stable under that
  induction p generalizing w with
  | pure x => exact fun w' hw' hr => hP w w' hw' hr hw
  | throw e => exact fun w' hw' hr => hP w w' hw' hr hw
  | crash => exact fun w' hw' hr => hP w w' hw' hr hw
  | act a k ih =>
    intro w' hw' hr i hi
    obtain ⟨ha, hadm⟩ := hS a hp.1 i w' hi hw' (hP w w' hw' hr hw)
    exact ⟨hadm, ih _ (hp.2 _) ha⟩
  | locked m p k _ ih =>
    intro w' hw' hr
    have hsec : wp exec ok free t p (fun _ w₁ => P w₁ ∧ K.Admits t w' w₁) w' := by
      refine wp_uses (fun a ha i w₁ hi ⟨h₁, h₂⟩ => ?_) hp.1 ⟨hP w w' hw' hr hw, K.guar_refl t w', hw'⟩
      obtain ⟨h₃, h₄⟩ := hS a ha i w₁ hi h₂.2 h₁
      exact ⟨trivial, h₃, K.guar_trans h₂.1 h₄.1, h₄.2⟩
    refine wp_mono hsec fun o w₁ ⟨h₁, h₂⟩ => ⟨h₂, ?_⟩
    cases o with
    | ret b => exact ih b (hp.2 b) h₁
    | exn e => exact fun w₂ hw₂ hr₂ => hP w₁ w₂ hw₂ hr₂ h₁
    | crash => exact fun w₂ hw₂ hr₂ => hP w₁ w₂ hw₂ hr₂ h₁

end Secures

/-! ## Runs -/

section Runs

variable {exec : Interp A R I σ} {ok : Guard A R I σ} {calls : ℕ → Prog A R M ε Unit → Prop}
  {K : Pact A R σ} {Q : ℕ → Outcome ε Unit → World A R σ → Prop}

variable (exec ok K Q) in
/-- The invariant holds and every running call secures its end. -/
structure Secured (c : Conf A R M ε σ) : Prop where
  inv : K.inv c.world
  running : ∀ t p, c.pool t = some p → Secures exec ok K t p (Q t) c.world

/-- Thread `t` has moved. -/
theorem Secured.put {c : Conf A R M ε σ} (hc : Secured exec ok K Q c) {w : World A R σ} {t : ℕ}
    {q : Option (Prog A R M ε Unit)} (hw : K.Admits t c.world w)
    (hq : ∀ p, q = some p → Secures exec ok K t p (Q t) w) : Secured exec ok K Q (c.put w t q) := by
  refine ⟨hw.2, fun u p hp => ?_⟩
  by_cases hut : u = t
  · subst hut
    simp only [Conf.put, Function.update_self] at hp
    exact hq p hp
  · simp only [Conf.put, Function.update_of_ne hut] at hp
    exact (hc.running u p hp).later (K.kept (Ne.symm hut) hc.inv hw.2 hw.1)

/-- **One step** of the pool. -/
theorem Secured.step (hcalls : ∀ t p, calls t p → ∀ w, K.inv w → Secures exec ok K t p (Q t) w)
    {c c' : Conf A R M ε σ} (hs : Step exec ok calls c c') (hc : Secured exec ok K Q c) :
    Secured exec ok K Q c' := by
  have still : ∀ t, K.Admits t c.world c.world := fun t => ⟨K.guar_refl t c.world, hc.inv⟩
  cases hs with
  | @call t p hn hp =>
    refine hc.put (still t) fun q hq => ?_
    cases hq
    exact hcalls t p hp c.world hc.inv
  | @act t a k i hp hok =>
    obtain ⟨ha, hk⟩ := Pact.Later.now (hc.running t _ hp) hc.inv i hok
    refine hc.put ha fun q hq => ?_
    cases hq
    exact hk
  -- a section is one step, however many actions it has
  | @locked t β m p k o w' hp he =>
    have hsec := hc.running t _ hp c.world hc.inv (K.rely_refl t c.world)
    obtain ⟨ha, ho⟩ := wp_sound he hsec
    refine hc.put ha fun q hq => ?_
    cases hq
    cases o with
    | ret b => exact ho
    | exn e => exact ho
    | crash => exact ho
  | @ret t hp => exact hc.put (still t) fun q hq => by cases hq
  | @exn t e hp => exact hc.put (still t) fun q hq => by cases hq

/-- **Every run** of calls that secure their ends. -/
theorem reaches_secured
    (hcalls : ∀ t p, calls t p → ∀ w, K.inv w → Secures exec ok K t p (Q t) w)
    {c c' : Conf A R M ε σ} (hr : Reaches exec ok calls c c') (hc : Secured exec ok K Q c) :
    Secured exec ok K Q c' := by
  induction hr with
  | refl => exact hc
  | tail _ hs ih => exact ih.step hcalls hs

/-- A call that has returned is where it was to end. -/
theorem Secured.returned {c : Conf A R M ε σ} (hc : Secured exec ok K Q c) {t : ℕ} {x : Unit}
    (hp : c.pool t = some (.pure x)) : Q t (.ret x) c.world :=
  Pact.Later.now (hc.running t _ hp) hc.inv

end Runs

end Interleave
