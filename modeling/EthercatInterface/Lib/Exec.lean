import EthercatInterface.Lib.Program

/-!
# Runs of one program

A `World` is a state with the history of the actions performed on it, newest
first. An interpretation `exec` says what an action answers and how it changes the
state, given what the environment (`I`) decides.

* `Exec`: the big-step runs of a program by thread `t`, through actions and
  decisions allowed by a guard.
* `wp`: the weakest precondition, by recursion on the program. It assumes the guard
  `ok` of every action and demands `must` of it.
* `wp_sound`: what `wp` promises holds at the end of every run of `Exec`, and every
  action of the run satisfied `must`.
* `run`: the run for a given list of decisions, which computes.
-/

namespace Interleave

/-- An action performed by a thread, with the answer it got. -/
structure Event (A : Type) (R : A → Type) where
  tid : ℕ
  act : A
  ans : R act

/-- A state and its history, newest event first. -/
structure World (A : Type) (R : A → Type) (σ : Type) where
  st : σ
  hist : List (Event A R)

/-- How a program ends. -/
inductive Outcome (ε α : Type)
  | ret (x : α)
  | exn (e : ε)
  | crash

/-- What actions answer and do. -/
abbrev Interp (A : Type) (R : A → Type) (I σ : Type) := (a : A) → I → σ → R a × σ

/-- A condition on an action about to be performed and the environment's decision. -/
abbrev Guard (A : Type) (R : A → Type) (I σ : Type) := ℕ → A → I → World A R σ → Prop

/-- Every action, every decision. -/
def free {A : Type} {R : A → Type} {I σ : Type} : Guard A R I σ := fun _ _ _ _ => True

variable {A : Type} {R : A → Type} {M ε I σ α β : Type}

/-- The world after thread `t` has performed `a`. -/
def World.after (exec : Interp A R I σ) (w : World A R σ) (t : ℕ) (a : A) (i : I) : World A R σ :=
  ⟨(exec a i w.st).2, ⟨t, a, (exec a i w.st).1⟩ :: w.hist⟩

@[simp] theorem World.after_st (exec : Interp A R I σ) (w : World A R σ) (t : ℕ) (a : A) (i : I) :
    (w.after exec t a i).st = (exec a i w.st).2 := rfl

@[simp] theorem World.after_hist (exec : Interp A R I σ) (w : World A R σ) (t : ℕ) (a : A) (i : I) :
    (w.after exec t a i).hist = ⟨t, a, (exec a i w.st).1⟩ :: w.hist := rfl

/-- Go on with `f` after a return, with `Q` after anything else. -/
def Outcome.andThen {X : Type} (o : Outcome ε β) (f : β → X → Prop) (Q : Outcome ε α → X → Prop) :
    X → Prop :=
  match o with
  | .ret b => f b
  | .exn e => Q (.exn e)
  | .crash => Q .crash

/-- `f` of a return, `g` of a throw, and no crash. -/
def Outcome.Sure {X : Type} (f : α → X → Prop) (g : ε → X → Prop) : Outcome ε α → X → Prop
  | .ret x => f x
  | .exn e => g e
  | .crash => fun _ => False

/-- `f` of a return, `K` of any other end. -/
def Outcome.Settles {X : Type} (f : α → X → Prop) (K : X → Prop) : Outcome ε α → X → Prop
  | .ret x => f x
  | .exn _ => K
  | .crash => K

/-- `J` after a return or a throw, `C` after a crash. -/
def Outcome.Leaves {X : Type} (J C : X → Prop) : Outcome ε α → X → Prop
  | .ret _ => J
  | .exn _ => J
  | .crash => C

/-- What a thread still has to run once a section has ended. -/
def Outcome.resume (o : Outcome ε β) (k : β → Prog A R M ε α) : Prog A R M ε α :=
  match o with
  | .ret b => k b
  | .exn e => .throw e
  | .crash => .crash

/-- How a program has ended that did not crash. -/
def Outcome.ofExcept : Except ε α → Outcome ε α
  | .ok x => .ret x
  | .error e => .exn e

variable (exec : Interp A R I σ) (ok must : Guard A R I σ) (t : ℕ)

/-- Thread `t` can run `p` from one world to the end `o` in another. -/
inductive Exec : {α : Type} → Prog A R M ε α → World A R σ → Outcome ε α → World A R σ → Prop
  | pure {α : Type} (x : α) (w) : Exec (.pure x) w (.ret x) w
  | throw {α : Type} (e : ε) (w) : Exec (.throw e : Prog A R M ε α) w (.exn e) w
  | crash {α : Type} (w) : Exec (.crash : Prog A R M ε α) w .crash w
  | act {α : Type} {a : A} {k : R a → Prog A R M ε α} {w w' o} (i : I) : ok t a i w →
      Exec (k (exec a i w.st).1) (w.after exec t a i) o w' → Exec (.act a k) w o w'
  | lockedRet {α β : Type} {m : M} {p : Prog A R M ε β} {k : β → Prog A R M ε α} {b w w₁ w' o} :
      Exec p w (.ret b) w₁ → Exec (k b) w₁ o w' → Exec (.locked m p k) w o w'
  | lockedExn {α β : Type} {m : M} {p : Prog A R M ε β} {k : β → Prog A R M ε α} {e w w'} :
      Exec p w (.exn e) w' → Exec (.locked m p k) w (.exn e) w'
  | lockedCrash {α β : Type} {m : M} {p : Prog A R M ε β} {k : β → Prog A R M ε α} {w w'} :
      Exec p w .crash w' → Exec (.locked m p k) w .crash w'

/-- Every run of `p` from `w` ends in `Q`, and all its actions satisfy `must`. -/
def wp : {α : Type} → Prog A R M ε α → (Outcome ε α → World A R σ → Prop) → World A R σ → Prop
  | _, .pure x, Q, w => Q (.ret x) w
  | _, .throw e, Q, w => Q (.exn e) w
  | _, .crash, Q, w => Q .crash w
  | _, .act a k, Q, w =>
    ∀ i, ok t a i w → must t a i w ∧ wp (k (exec a i w.st).1) Q (w.after exec t a i)
  | _, .locked _ p k, Q, w => wp p (fun o w' => o.andThen (fun b => wp (k b) Q) Q w') w

variable {exec ok must t} {Q : Outcome ε α → World A R σ → Prop} {w : World A R σ}

theorem wp_locked {m : M} {p : Prog A R M ε β} {k : β → Prog A R M ε α}
    (h : wp exec ok must t p (fun o w' => o.andThen (fun b => wp exec ok must t (k b) Q) Q w') w) :
    wp exec ok must t (.locked m p k) Q w := h

theorem wp_mono {p : Prog A R M ε α} {Q' : Outcome ε α → World A R σ → Prop}
    (h : wp exec ok must t p Q w) (hQ : ∀ o w', Q o w' → Q' o w') : wp exec ok must t p Q' w := by
  induction p generalizing w with
  | pure x => exact hQ _ _ h
  | throw e => exact hQ _ _ h
  | crash => exact hQ _ _ h
  | act a k ih => exact fun i hi => ⟨(h i hi).1, ih _ (h i hi).2 hQ⟩
  | locked m p k ihp ihk =>
    refine ihp h fun o w₁ h₁ => ?_
    cases o with
    | ret b => exact ihk b h₁ hQ
    | exn e => exact hQ _ _ h₁
    | crash => exact hQ _ _ h₁

theorem wp_bind {p : Prog A R M ε β} {f : β → Prog A R M ε α}
    (h : wp exec ok must t p (fun o w' => o.andThen (fun x => wp exec ok must t (f x) Q) Q w') w) :
    wp exec ok must t (p.bind f) Q w := by
  induction p generalizing w with
  | pure x => exact h
  | throw e => exact h
  | crash => exact h
  | act a k ih => exact fun i hi => ⟨(h i hi).1, ih _ (h i hi).2⟩
  | locked m p k ihp ihk =>
    refine wp_locked (wp_mono h fun o w₁ h₁ => ?_)
    cases o with
    | ret b => exact ihk b h₁
    | exn e => exact h₁
    | crash => exact h₁

theorem wp_perform {a : A} {Q : Outcome ε (R a) → World A R σ → Prop}
    (h : ∀ i, ok t a i w → must t a i w ∧ Q (.ret (exec a i w.st).1) (w.after exec t a i)) :
    wp exec ok must t (Prog.perform a : Prog A R M ε (R a)) Q w := h

theorem wp_withLock {m : M} {p : Prog A R M ε α} (h : wp exec ok must t p Q w) :
    wp exec ok must t (Prog.withLock m p) Q w := by
  refine wp_locked (wp_mono h fun o w₁ h₁ => ?_)
  cases o with
  | ret b => exact h₁
  | exn e => exact h₁
  | crash => exact h₁

theorem of_wp_withLock {m : M} {p : Prog A R M ε α}
    (h : wp exec ok must t (Prog.withLock m p) Q w) : wp exec ok must t p Q w := by
  refine wp_mono (p := p) h fun o w₁ h₁ => ?_
  cases o with
  | ret b => exact h₁
  | exn e => exact h₁
  | crash => exact h₁

theorem wp_attempt {p : Prog A R M ε α} {Q : Outcome ε (Except ε α) → World A R σ → Prop}
    (h : wp exec ok must t p (fun o w' => match o with
      | .ret x => Q (.ret (.ok x)) w'
      | .exn e => Q (.ret (.error e)) w'
      | .crash => Q .crash w') w) :
    wp exec ok must t p.attempt Q w := by
  induction p generalizing w with
  | pure x => exact h
  | throw e => exact h
  | crash => exact h
  | act a k ih => exact fun i hi => ⟨(h i hi).1, ih _ (h i hi).2⟩
  | locked m p k ihp ihk =>
    refine ihp (wp_mono h fun o w₁ h₁ => ?_)
    cases o with
    | ret b => exact ihk b h₁
    | exn e => exact h₁
    | crash => exact h₁

/-- **The loop rule.** `J done s` holds before each round, with `done` the elements
already visited and `s` what the loop carries. -/
theorem wp_foldEach {γ : Type} {f : γ → β → Prog A R M ε γ} {l : List β} {s : γ}
    {Q : Outcome ε γ → World A R σ → Prop} (J : List β → γ → World A R σ → Prop)
    (hstep : ∀ done x rest, l = done ++ x :: rest → ∀ s w, J done s w →
      wp exec ok must t (f s x) (fun o w' => o.andThen (fun s' => J (done ++ [x]) s') Q w') w)
    (hend : ∀ s w, J l s w → Q (.ret s) w) (h : J [] s w) :
    wp exec ok must t (Prog.foldEach l f s) Q w := by
  -- induction on what is left of the list, with the invariant of the part that is done
  have key : ∀ rest done, l = done ++ rest → ∀ s w, J done s w →
      wp exec ok must t (Prog.foldEach rest f s) Q w := by
    intro rest
    induction rest with
    | nil =>
      intro done hl s w hJ
      rw [List.append_nil] at hl; subst hl
      exact hend s w hJ
    | cons x rest ih =>
      intro done hl s w hJ
      refine wp_bind (wp_mono (hstep done x rest hl s w hJ) fun o w' h' => ?_)
      cases o with
      | ret s' => exact ih (done ++ [x]) (by rw [hl, List.append_assoc]; rfl) s' w' h'
      | exn e => exact h'
      | crash => exact h'
  exact key l [] rfl s w h

theorem wp_forEach {f : β → Prog A R M ε Unit} {l : List β}
    {Q : Outcome ε Unit → World A R σ → Prop} (J : List β → World A R σ → Prop)
    (hstep : ∀ done x rest, l = done ++ x :: rest → ∀ w, J done w →
      wp exec ok must t (f x) (fun o w' => o.andThen (fun _ => J (done ++ [x])) Q w') w)
    (hend : ∀ w, J l w → Q (.ret ()) w) (h : J [] w) :
    wp exec ok must t (Prog.forEach l f) Q w :=
  wp_foldEach (fun done _ => J done) (fun done x rest hl _ => hstep done x rest hl)
    (fun _ => hend) h

theorem wp_when {c : Bool} {p : Prog A R M ε Unit} {Q : Outcome ε Unit → World A R σ → Prop}
    (ht : c = true → wp exec ok must t p Q w) (hf : c = false → Q (.ret ()) w) :
    wp exec ok must t (Prog.when c p) Q w := by
  cases c
  · exact hf rfl
  · exact ht rfl

theorem wp_raiseIf {c : Bool} {e : ε} {Q : Outcome ε Unit → World A R σ → Prop}
    (ht : c = true → Q (.exn e) w) (hf : c = false → Q (.ret ()) w) :
    wp exec ok must t (Prog.raiseIf c e : Prog A R M ε Unit) Q w :=
  wp_when ht hf

/-- **An invariant of the actions a program uses** holds however the program ends. -/
theorem wp_uses {S : A → Prop} {J : World A R σ → Prop}
    (hJ : ∀ a, S a → ∀ i w, ok t a i w → J w → must t a i w ∧ J (w.after exec t a i))
    {p : Prog A R M ε α} (hp : p.Uses S) (h : J w) :
    wp exec ok must t p (fun _ w' => J w') w := by
  induction p generalizing w with
  | pure x => exact h
  | throw e => exact h
  | crash => exact h
  | act a k ih =>
    intro i hi
    have ha := hJ a hp.1 i w hi h
    exact ⟨ha.1, ih _ (hp.2 _) ha.2⟩
  | locked m p k ihp ihk =>
    refine wp_locked (wp_mono (ihp hp.1 h) fun o w₁ h₁ => ?_)
    cases o with
    | ret b => exact ihk b (hp.2 b) h₁
    | exn e => exact h₁
    | crash => exact h₁

variable (exec) in
/-- **The frame rule.** What the actions of a program keep comes on top of what is known of
its end. -/
theorem wp_frame {S : A → Prop} {J : World A R σ → Prop}
    (hJ : ∀ a, S a → ∀ i w, J w → J (w.after exec t a i)) {p : Prog A R M ε α} (hp : p.Uses S)
    (h : wp exec ok must t p Q w) (hw : J w) :
    wp exec ok must t p (fun o w' => Q o w' ∧ J w') w := by
  induction p generalizing w with
  | pure x => exact ⟨h, hw⟩
  | throw e => exact ⟨h, hw⟩
  | crash => exact ⟨h, hw⟩
  | act a k ih => exact fun i hi => ⟨(h i hi).1, ih _ (hp.2 _) (h i hi).2 (hJ a hp.1 i w hw)⟩
  | locked m p k ihp ihk =>
    refine wp_locked (wp_mono (ihp hp.1 h hw) fun o w₁ h₁ => ?_)
    cases o with
    | ret b => exact ihk b (hp.2 b) h₁.1 h₁.2
    | exn e => exact h₁
    | crash => exact h₁

theorem wp_noThrow {p : Prog A R M ε α} (hp : p.NoThrow) (h : wp exec ok must t p Q w) :
    wp exec ok must t p (fun o w' => Q o w' ∧ ∀ e, o ≠ .exn e) w := by
  induction p generalizing w with
  | pure x => exact ⟨h, fun e he => by cases he⟩
  | throw e => cases hp
  | crash => exact ⟨h, fun e he => by cases he⟩
  | act a k ih => exact fun i hi => ⟨(h i hi).1, ih _ (hp _) (h i hi).2⟩
  | locked m p k ihp ihk =>
    refine wp_locked (wp_mono (ihp hp.1 h) fun o w₁ h₁ => ?_)
    cases o with
    | ret b => exact ihk b (hp.2 b) h₁.1
    | exn e => exact absurd rfl (h₁.2 e)
    | crash => exact ⟨h₁.1, fun e he => by cases he⟩

theorem wp_sound {p : Prog A R M ε α} {w' : World A R σ} {o : Outcome ε α}
    (he : Exec exec ok t p w o w') : ∀ {Q}, wp exec ok must t p Q w → Q o w' := by
  induction he with
  | pure x w => exact fun h => h
  | throw e w => exact fun h => h
  | crash w => exact fun h => h
  | act i hi _ ih => exact fun h => ih (h i hi).2
  | lockedRet _ _ ihp ihk => exact fun h => ihk (ihp h)
  | lockedExn _ ih => exact fun h => ih h
  | lockedCrash _ ih => exact fun h => ih h

/-- What every action keeps, every run keeps. -/
theorem Exec.keeps {J : World A R σ → Prop}
    (hJ : ∀ a i w, ok t a i w → J w → J (w.after exec t a i)) {p : Prog A R M ε α}
    {w w' : World A R σ} {o : Outcome ε α} (he : Exec exec ok t p w o w') : J w → J w' := by
  induction he with
  | pure x w => exact id
  | throw e w => exact id
  | crash w => exact id
  | act i hi _ ih => exact fun h => ih (hJ _ i _ hi h)
  | lockedRet _ _ ihp ihk => exact fun h => ihk (ihp h)
  | lockedExn _ ih => exact ih
  | lockedCrash _ ih => exact ih

/-- Whatever is shown of the end of a program is shown of ends that it reaches. -/
theorem wp_reached {p : Prog A R M ε α} (h : wp exec ok must t p Q w) :
    wp exec ok must t p (fun o w' => Q o w' ∧ Exec exec ok t p w o w') w := by
  induction p generalizing w with
  | pure x => exact ⟨h, .pure x w⟩
  | throw e => exact ⟨h, .throw e w⟩
  | crash => exact ⟨h, .crash w⟩
  | act a k ih =>
    exact fun i hi => ⟨(h i hi).1, wp_mono (ih _ (h i hi).2) fun _ _ h => ⟨h.1, .act i hi h.2⟩⟩
  | locked m p k ihp ihk =>
    refine wp_locked (wp_mono (ihp h) fun o w₁ h₁ => ?_)
    cases o with
    | ret b => exact wp_mono (ihk b h₁.1) fun _ _ h => ⟨h.1, .lockedRet h₁.2 h.2⟩
    | exn e => exact ⟨h₁.1, .lockedExn h₁.2⟩
    | crash => exact ⟨h₁.1, .lockedCrash h₁.2⟩

theorem wp_true (p : Prog A R M ε α) (w : World A R σ) :
    wp exec ok free t p (fun _ _ => True) w := by
  induction p generalizing w with
  | pure x => trivial
  | throw e => trivial
  | crash => trivial
  | act a k ih => exact fun i _ => ⟨trivial, ih _ _⟩
  | locked m p k ihp ihk =>
    refine wp_locked (wp_mono (ihp w) fun o w₁ _ => ?_)
    cases o with
    | ret b => exact ihk b w₁
    | exn e => trivial
    | crash => trivial

/-- `wp` with no demand on the actions says no more than the runs of `Exec` do. -/
theorem wp_exec (p : Prog A R M ε α) (w : World A R σ) :
    wp exec ok free t p (fun o w' => Exec exec ok t p w o w') w :=
  wp_mono (wp_reached (wp_true p w)) fun _ _ h => h.2

theorem wp_iff_exec {p : Prog A R M ε α} :
    wp exec ok free t p Q w ↔ ∀ o w', Exec exec ok t p w o w' → Q o w' :=
  ⟨fun h _ _ he => wp_sound he h, fun h => wp_mono (wp_exec p w) h⟩

/-- **The runs of a sequence** are those of its first part, continued if that returns. -/
theorem Exec.of_bind {p : Prog A R M ε β} {f : β → Prog A R M ε α} {o : Outcome ε α} {w' : World A R σ}
    (h : Exec exec ok t (p.bind f) w o w') : ∃ o₁ w₁, Exec exec ok t p w o₁ w₁ ∧
      o₁.andThen (fun x w₁ => Exec exec ok t (f x) w₁ o w') (fun o₁ w₁ => o₁ = o ∧ w₁ = w') w₁ := by
  have hwp : wp exec ok free t (p.bind f) (fun o w' => ∃ o₁ w₁, Exec exec ok t p w o₁ w₁ ∧
      o₁.andThen (fun x w₁ => Exec exec ok t (f x) w₁ o w') (fun o₁ w₁ => o₁ = o ∧ w₁ = w') w₁) w := by
    refine wp_bind (wp_mono (wp_exec p w) fun o₁ w₁ h₁ => ?_)
    cases o₁ with
    | ret x => exact wp_mono (wp_exec (f x) w₁) fun o w' h₂ => ⟨.ret x, w₁, h₁, h₂⟩
    | exn e => exact ⟨.exn e, w₁, h₁, rfl, rfl⟩
    | crash => exact ⟨.crash, w₁, h₁, rfl, rfl⟩
  exact wp_sound h hwp

/-- One that returns has run both. -/
theorem Exec.of_bind_ret {p : Prog A R M ε β} {f : β → Prog A R M ε α} {y : α} {w' : World A R σ}
    (h : Exec exec ok t (p.bind f) w (.ret y) w') :
    ∃ x w₁, Exec exec ok t p w (.ret x) w₁ ∧ Exec exec ok t (f x) w₁ (.ret y) w' := by
  obtain ⟨o₁, w₁, h₁, h₂⟩ := Exec.of_bind h
  cases o₁ with
  | ret x => exact ⟨x, w₁, h₁, h₂⟩
  | exn e => cases h₂.1
  | crash => cases h₂.1

/-- An attempt that returns tells how the program has ended. -/
theorem Exec.of_attempt {p : Prog A R M ε α} {r : Except ε α} {w' : World A R σ}
    (h : Exec exec ok t p.attempt w (.ret r) w') : Exec exec ok t p w (Outcome.ofExcept r) w' := by
  have hwp : wp exec ok free t p.attempt (fun o w' => ∀ r, o = .ret r →
      Exec exec ok t p w (Outcome.ofExcept r) w') w := by
    refine wp_attempt (wp_mono (wp_exec p w) fun o w' h => ?_)
    cases o with
    | ret x => exact fun r hr => by cases hr; exact h
    | exn e => exact fun r hr => by cases hr; exact h
    | crash => exact fun r hr => by cases hr
  exact wp_sound h hwp r rfl

/-- A run of a sequence is put together from runs of its parts. -/
theorem Exec.bind {p : Prog A R M ε β} {f : β → Prog A R M ε α} {b : β} {w w₁ w' : World A R σ} {o : Outcome ε α}
    (h : Exec exec ok t p w (.ret b) w₁) (hf : Exec exec ok t (f b) w₁ o w') :
    Exec exec ok t (p.bind f) w o w' := by
  induction p generalizing w with
  | pure x => cases h; exact hf
  | throw e => cases h
  | crash => cases h
  | act a k ih =>
    cases h with
    | act i hi h => exact .act i hi (ih _ h hf)
  | locked m p k _ ih =>
    cases h with
    | lockedRet hp h => exact .lockedRet hp (ih _ h hf)

theorem Exec.bind_exn {p : Prog A R M ε β} {f : β → Prog A R M ε α} {e : ε} {w w' : World A R σ}
    (h : Exec exec ok t p w (.exn e) w') : Exec exec ok t (p.bind f) w (.exn e) w' := by
  induction p generalizing w with
  | pure x => cases h
  | throw e => cases h; exact .throw e _
  | crash => cases h
  | act a k ih =>
    cases h with
    | act i hi h => exact .act i hi (ih _ h)
  | locked m p k _ ih =>
    cases h with
    | lockedRet hp h => exact .lockedRet hp (ih _ h)
    | lockedExn hp => exact .lockedExn hp

/-- A program is run by an attempt as it is by itself. -/
theorem Exec.attempt {p : Prog A R M ε α} {r : Except ε α} {w w' : World A R σ}
    (h : Exec exec ok t p w (.ofExcept r) w') : Exec exec ok t p.attempt w (.ret r) w' := by
  induction p generalizing w w' with
  | pure x => cases r <;> cases h; exact .pure _ _
  | throw e => cases r <;> cases h; exact .pure _ _
  | crash => cases r <;> cases h
  | act a k ih =>
    cases h with
    | act i hi h => exact .act i hi (ih _ h)
  | @locked α β m p k ihp ih =>
    have after : ∀ {b : β} {w₁ : World A R σ}, Exec exec ok t p w (.ret b) w₁ →
        Exec exec ok t (k b) w₁ (.ofExcept r) w' → Exec exec ok t (Prog.locked m p k).attempt w (.ret r) w' :=
      fun {b _} hp hk => .lockedRet (ihp (show Exec exec ok t p w (.ofExcept (.ok b)) _ from hp)) (ih b hk)
    cases r with
    | ok x =>
      cases h with
      | lockedRet hp hk => exact after hp hk
    | error e =>
      cases h with
      | lockedRet hp hk => exact after hp hk
      | lockedExn hp =>
        exact .lockedRet (ihp (show Exec exec ok t p w (.ofExcept (.error e)) _ from hp)) (.pure _ _)

/-! ## From what is known of a program to what is known of its parts -/

theorem of_wp_bind {p : Prog A R M ε β} {f : β → Prog A R M ε α}
    (h : wp exec ok must t (p.bind f) Q w) :
    wp exec ok must t p (fun o w' => o.andThen (fun x => wp exec ok must t (f x) Q) Q w') w := by
  induction p generalizing w with
  | pure x => exact h
  | throw e => exact h
  | crash => exact h
  | act a k ih => exact fun i hi => ⟨(h i hi).1, ih _ (h i hi).2⟩
  | locked m p k ihp ihk =>
    refine wp_locked (wp_mono (p := p) h fun o w₁ h₁ => ?_)
    cases o with
    | ret b => exact ihk b h₁
    | exn e => exact h₁
    | crash => exact h₁

theorem of_wp_attempt {p : Prog A R M ε α} {Q : Outcome ε (Except ε α) → World A R σ → Prop}
    (h : wp exec ok must t p.attempt Q w) :
    wp exec ok must t p (fun o w' => match o with
      | .ret x => Q (.ret (.ok x)) w'
      | .exn e => Q (.ret (.error e)) w'
      | .crash => Q .crash w') w := by
  induction p generalizing w with
  | pure x => exact h
  | throw e => exact h
  | crash => exact h
  | act a k ih => exact fun i hi => ⟨(h i hi).1, ih _ (h i hi).2⟩
  | locked m p k ihp ihk =>
    refine wp_locked (wp_mono (ihp h) fun o w₁ h₁ => ?_)
    cases o with
    | ret b => exact ihk b h₁
    | exn e => exact h₁
    | crash => exact h₁

theorem wp_and {p : Prog A R M ε α} {T : Outcome ε α → World A R σ → Prop}
    (h : wp exec ok must t p Q w) (h' : wp exec ok must t p T w) :
    wp exec ok must t p (fun o w' => Q o w' ∧ T o w') w :=
  wp_mono (wp_reached h) fun _ _ ho => ⟨ho.1, wp_sound ho.2 h'⟩

variable (exec t) in
/-- The run of `p` for the decisions `is`, and the decisions left over; when they
run out the environment decides `default`. -/
def run [Inhabited I] : {α : Type} → Prog A R M ε α → List I → World A R σ →
    Outcome ε α × World A R σ × List I
  | _, .pure x, is, w => (.ret x, w, is)
  | _, .throw e, is, w => (.exn e, w, is)
  | _, .crash, is, w => (.crash, w, is)
  | _, .act a k, is, w =>
    run (k (exec a (is.headD default) w.st).1) is.tail (w.after exec t a (is.headD default))
  | _, .locked _ p k, is, w =>
    match run p is w with
    | (.ret b, w₁, is₁) => run (k b) is₁ w₁
    | (.exn e, w₁, is₁) => (.exn e, w₁, is₁)
    | (.crash, w₁, is₁) => (.crash, w₁, is₁)

variable (exec) in
/-- A computed run is a run, if the guard accepts all its decisions. -/
theorem run_exec_of [Inhabited I] {G : I → Prop} (hd : G default)
    (hok : ∀ a i w, G i → ok t a i w) (p : Prog A R M ε α) :
    ∀ (is : List I) (w : World A R σ), (∀ i ∈ is, G i) →
      Exec exec ok t p w (run exec t p is w).1 (run exec t p is w).2.1 ∧
        ∀ i ∈ (run exec t p is w).2.2, G i := by
  induction p with
  | pure x => exact fun is w h => ⟨.pure x w, h⟩
  | throw e => exact fun is w h => ⟨.throw e w, h⟩
  | crash => exact fun is w h => ⟨.crash w, h⟩
  | act a k ih =>
    intro is w h
    have hi : G (is.headD default) := by
      cases is with
      | nil => exact hd
      | cons i is => exact h i List.mem_cons_self
    obtain ⟨he, hr⟩ := ih _ is.tail (w.after exec t a (is.headD default))
      fun i hi => h i (List.mem_of_mem_tail hi)
    exact ⟨.act _ (hok a _ w hi) he, hr⟩
  | locked m p k ihp ihk =>
    intro is w h
    -- the section takes its decisions first, what comes after it the rest
    obtain ⟨hp, hr⟩ := ihp is w h
    simp only [run]
    rcases hrun : run exec t p is w with ⟨o, w₁, is₁⟩
    rw [hrun] at hp hr
    cases o with
    | ret b =>
      obtain ⟨hk, hr'⟩ := ihk b is₁ w₁ hr
      exact ⟨.lockedRet hp hk, hr'⟩
    | exn e => exact ⟨.lockedExn hp, hr⟩
    | crash => exact ⟨.lockedCrash hp, hr⟩

variable (exec t) in
theorem run_exec [Inhabited I] (p : Prog A R M ε α) (is : List I) (w : World A R σ) :
    Exec exec free t p w (run exec t p is w).1 (run exec t p is w).2.1 :=
  (run_exec_of exec (G := fun _ => True) trivial (fun _ _ _ _ => trivial) p is w fun _ _ => trivial).1

section Admitted

variable [Inhabited I] [∀ t a i w, Decidable (ok t a i w)]

variable (exec ok t) in
/-- The guard accepts what the run of `p` for the decisions `is` performs. -/
def admits : {α : Type} → Prog A R M ε α → List I → World A R σ → Bool
  | _, .pure _, _, _ => true
  | _, .throw _, _, _ => true
  | _, .crash, _, _ => true
  | _, .act a k, is, w => decide (ok t a (is.headD default) w) &&
    admits (k (exec a (is.headD default) w.st).1) is.tail (w.after exec t a (is.headD default))
  | _, .locked _ p k, is, w => admits p is w &&
    match run exec t p is w with
    | (.ret b, w₁, is₁) => admits (k b) is₁ w₁
    | (.exn _, _, _) => true
    | (.crash, _, _) => true

/-- A computed run is a run, if the guard accepts what it performs. -/
theorem run_exec_admitted (p : Prog A R M ε α) :
    ∀ (is : List I) (w : World A R σ), admits exec ok t p is w = true →
      Exec exec ok t p w (run exec t p is w).1 (run exec t p is w).2.1 := by
  induction p with
  | pure x => exact fun is w _ => .pure x w
  | throw e => exact fun is w _ => .throw e w
  | crash => exact fun is w _ => .crash w
  | act a k ih =>
    intro is w h
    obtain ⟨ha, hk⟩ := Bool.and_eq_true_iff.1 h
    exact .act _ (of_decide_eq_true ha) (ih _ _ _ hk)
  | locked m p k ihp ihk =>
    intro is w h
    rw [admits] at h
    -- the decisions of the section come first, and what follows it has the rest
    obtain ⟨hp, hk⟩ := Bool.and_eq_true_iff.1 h
    have he := ihp is w hp
    simp only [run]
    rcases hrun : run exec t p is w with ⟨o, w₁, is₁⟩
    rw [hrun] at he hk
    cases o with
    | ret b => exact .lockedRet he (ihk b is₁ w₁ hk)
    | exn e => exact .lockedExn he
    | crash => exact .lockedCrash he

end Admitted

/-- Where no action is forbidden for good, a program has a run. -/
theorem exec_exists (h : ∀ a w, ∃ i, ok t a i w) (p : Prog A R M ε α) (w : World A R σ) :
    ∃ o w', Exec exec ok t p w o w' := by
  induction p generalizing w with
  | pure x => exact ⟨_, _, .pure x w⟩
  | throw e => exact ⟨_, _, .throw e w⟩
  | crash => exact ⟨_, _, .crash w⟩
  | act a k ih =>
    -- a program is finite, so an admitted answer to each action is enough
    obtain ⟨i, hi⟩ := h a w
    obtain ⟨o, w', he⟩ := ih (exec a i w.st).1 (w.after exec t a i)
    exact ⟨o, w', .act i hi he⟩
  | locked m p k ihp ihk =>
    obtain ⟨o, w₁, he⟩ := ihp w
    cases o with
    | ret b =>
      obtain ⟨o', w', hk⟩ := ihk b w₁
      exact ⟨o', w', .lockedRet he hk⟩
    | exn e => exact ⟨_, _, .lockedExn he⟩
    | crash => exact ⟨_, _, .lockedCrash he⟩

section Possible

variable [Inhabited I]

/-- Where nothing is forbidden, a program has a run. -/
theorem wp_possible {p : Prog A R M ε α} (h : wp exec free must t p Q w) : ∃ o w', Q o w' :=
  ⟨_, _, wp_sound (run_exec exec t p [] w) h⟩

/-- A first part that always returns is followed by the second. -/
theorem wp_next {p : Prog A R M ε β} {f : β → Prog A R M ε α} {T : β → World A R σ → Prop}
    (h : wp exec free must t (p.bind f) Q w)
    (hp : wp exec free must t p (fun o w' => ∃ x, o = .ret x ∧ T x w') w) :
    ∃ x w', T x w' ∧ wp exec free must t (f x) Q w' := by
  obtain ⟨o, w', ho, x, rfl, hx⟩ := wp_possible (wp_and (of_wp_bind h) hp)
  exact ⟨x, w', hx, ho⟩

/-- **The loop rule, read backwards.** If a round never crashes, and `Q` forbids it to throw
while `c` holds of the rounds to come, then it does not throw. -/
theorem of_wp_forEach {f : β → Prog A R M ε Unit} {l : List β}
    {Q : Outcome ε Unit → World A R σ → Prop} (J : List β → World A R σ → Prop)
    (c : List β → Prop) (hc : ∀ x r, c r → c (x :: r))
    (hstep : ∀ done x rest, l = done ++ x :: rest → ∀ w, J done w →
      wp exec free must t (f x)
        (Outcome.Sure (fun _ => J (done ++ [x])) fun e w' => c rest → ¬Q (.exn e) w') w)
    (h : wp exec free must t (Prog.forEach l f) Q w) (hw : J [] w) :
    (∀ done x rest, l = done ++ x :: rest → c rest →
      ∃ w', J done w' ∧ wp exec free must t (f x) (fun o _ => ∀ e, o ≠ .exn e) w') ∧
    (c [] → ∃ w', J l w' ∧ Q (.ret ()) w') := by
  -- a round that `Q` forbids to throw returns, and the loop goes on
  have round : ∀ done x rest, l = done ++ x :: rest → c rest → ∀ w, J done w →
      wp exec free must t (Prog.forEach (x :: rest) f) Q w →
      wp exec free must t (f x) (fun o _ => ∀ e, o ≠ .exn e) w ∧
        ∃ w', J (done ++ [x]) w' ∧ wp exec free must t (Prog.forEach rest f) Q w' := by
    intro done x rest hl hr w hJ hx
    have both := wp_and (of_wp_bind hx) (hstep done x rest hl w hJ)
    refine ⟨wp_mono both fun o w' ho e he => ?_, ?_⟩
    · subst he
      exact ho.2 hr ho.1
    · obtain ⟨o, w', ho⟩ := wp_possible both
      cases o with
      | ret u => exact ⟨w', ho.2, ho.1⟩
      | exn e => exact absurd ho.1 (ho.2 hr)
      | crash => exact ho.2.elim
  have loop : ∀ rest done, l = done ++ rest → ∀ w, J done w →
      wp exec free must t (Prog.forEach rest f) Q w →
      (∀ mid x after, rest = mid ++ x :: after → c after →
        ∃ w', J (done ++ mid) w' ∧ wp exec free must t (f x) (fun o _ => ∀ e, o ≠ .exn e) w') ∧
      (c [] → ∃ w', J l w' ∧ Q (.ret ()) w') := by
    intro rest
    induction rest with
    | nil =>
      intro done hl w hJ hx
      rw [List.append_nil] at hl
      subst hl
      refine ⟨fun mid x after hm => ?_, fun _ => ⟨w, hJ, hx⟩⟩
      simp at hm
    | cons y rest ih =>
      intro done hl w hJ hx
      have up : ∀ after : List β, c after → ∀ mid, c (mid ++ after) := fun after ha mid => by
        induction mid with
        | nil => exact ha
        | cons z mid ihm => exact hc z _ ihm
      have next : c rest → _ := fun hr => (round done y rest hl hr w hJ hx).2
      refine ⟨fun mid x after hm ha => ?_, fun h0 => ?_⟩
      · cases mid with
        | nil =>
          obtain ⟨rfl, rfl⟩ := List.cons.inj hm
          exact ⟨w, by rwa [List.append_nil], (round done y rest hl ha w hJ hx).1⟩
        | cons z mid =>
          obtain ⟨rfl, rfl⟩ := List.cons.inj hm
          obtain ⟨w', hJ', hx'⟩ := next (up _ (hc x after ha) mid)
          have hl' : l = (done ++ [y]) ++ (mid ++ x :: after) := by rw [hl]; simp
          obtain ⟨w₁, hw₁⟩ := (ih _ hl' w' hJ' hx').1 mid x after rfl ha
          exact ⟨w₁, by simpa using hw₁⟩
      · have hr : c rest := by simpa using up [] h0 rest
        obtain ⟨w', hJ', hx'⟩ := next hr
        exact (ih (done ++ [y]) (by rw [hl]; simp) w' hJ' hx').2 h0
  obtain ⟨hmid, hend⟩ := loop l [] rfl w hw h
  exact ⟨fun done x rest hl hr => by simpa using hmid done x rest hl hr, hend⟩

end Possible

end Interleave
