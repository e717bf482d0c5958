import EthercatInterface.Lib.Exec

/-!
# Abstract machines

A `Machine` says what actions may answer in an abstract state and how they change it.
`Leads` is the calculus of programs over a machine: where a program that does not
crash can end, from an abstract state. A world is related to a machine by an
abstraction that every action commutes with (`Simulates`); then what `Leads` says of
a program holds of its runs (`Leads.sound`).
-/

namespace Interleave

variable {A : Type} {R : A → Type} {M ε I σ C α β : Type}

/-- A machine with states `C`: the answers an action may give, and its effect. -/
structure Machine (A : Type) (R : A → Type) (C : Type) where
  answers : C → (a : A) → R a → Prop
  perform : C → (a : A) → R a → C

/-- `Q` of the end of a program, unless that is a crash. -/
def Outcome.Ends {X : Type} (Q : Except ε α → X → Prop) : Outcome ε α → X → Prop
  | .ret x => Q (.ok x)
  | .exn e => Q (.error e)
  | .crash => fun _ => True

namespace Machine

variable (m : Machine A R C)

/-- The machine as an interpretation; the environment chooses the answers. -/
def interp : Interp A R ((a : A) → R a) C := fun a i c => (i a, m.perform c a (i a))

def allowed : Guard A R ((a : A) → R a) C := fun _ a i w => m.answers w.st a (i a)

/-- From `c`, whatever the answers, `p` crashes or ends in `Q`. -/
def Leads (p : Prog A R M ε α) (c : C) (Q : Except ε α → C → Prop) : Prop :=
  ∀ h, wp m.interp m.allowed free 0 p (fun o w => o.Ends Q w.st) ⟨c, h⟩

variable {m} {c : C} {Q : Except ε α → C → Prop}

theorem Leads.pure {x : α} (h : Q (.ok x) c) : m.Leads (.pure x : Prog A R M ε α) c Q :=
  fun _ => h

theorem Leads.throw {e : ε} (h : Q (.error e) c) : m.Leads (.throw e : Prog A R M ε α) c Q :=
  fun _ => h

theorem Leads.crash : m.Leads (.crash : Prog A R M ε α) c Q := fun _ => trivial

theorem Leads.mono {p : Prog A R M ε α} {Q' : Except ε α → C → Prop} (h : m.Leads p c Q)
    (hQ : ∀ r c', Q r c' → Q' r c') : m.Leads p c Q' := fun hist =>
  wp_mono (h hist) fun o w' ho => by
    cases o with
    | ret x => exact hQ _ _ ho
    | exn e => exact hQ _ _ ho
    | crash => trivial

/-- What to show of `p` for `Q` to hold after going on with `f`. -/
def andThen (m : Machine A R C) (f : β → Prog A R M ε α) (Q : Except ε α → C → Prop) :
    Except ε β → C → Prop
  | .ok x, c => m.Leads (f x) c Q
  | .error e, c => Q (.error e) c

theorem Leads.bind {p : Prog A R M ε β} {f : β → Prog A R M ε α}
    (h : m.Leads p c (m.andThen f Q)) : m.Leads (p.bind f) c Q := fun hist =>
  wp_bind (wp_mono (h hist) fun o w' ho => by
    cases o with
    | ret x => exact ho w'.hist
    | exn e => exact ho
    | crash => trivial)

theorem Leads.perform {a : A} {Q : Except ε (R a) → C → Prop}
    (h : ∀ r, m.answers c a r → Q (.ok r) (m.perform c a r)) :
    m.Leads (Prog.perform a : Prog A R M ε (R a)) c Q := fun _ =>
  wp_perform fun i hi => ⟨trivial, h (i a) hi⟩

theorem Leads.withLock {l : M} {p : Prog A R M ε α} (h : m.Leads p c Q) :
    m.Leads (Prog.withLock l p) c Q :=
  fun hist => wp_withLock (h hist)

theorem Leads.attempt {p : Prog A R M ε α} {Q : Except ε (Except ε α) → C → Prop}
    (h : m.Leads p c fun r => Q (.ok r)) : m.Leads p.attempt c Q := fun hist =>
  wp_attempt (wp_mono (h hist) fun o w' ho => by cases o <;> exact ho)

theorem Leads.when {b : Bool} {p : Prog A R M ε Unit} {Q : Except ε Unit → C → Prop}
    (ht : b = true → m.Leads p c Q) (hf : b = false → Q (.ok ()) c) :
    m.Leads (Prog.when b p) c Q :=
  fun hist => wp_when (fun h => ht h hist) hf

theorem Leads.raiseIf {b : Bool} {e : ε} {Q : Except ε Unit → C → Prop}
    (ht : b = true → Q (.error e) c) (hf : b = false → Q (.ok ()) c) :
    m.Leads (Prog.raiseIf b e : Prog A R M ε Unit) c Q :=
  Leads.when (fun h => .throw (ht h)) hf

theorem Leads.forEach {f : β → Prog A R M ε Unit} {l : List β} {Q : Except ε Unit → C → Prop}
    (J : List β → C → Prop)
    (hstep : ∀ done x rest, l = done ++ x :: rest → ∀ c, J done c →
      m.Leads (f x) c (fun r c' => match r with
        | .ok _ => J (done ++ [x]) c'
        | .error e => Q (.error e) c'))
    (hend : ∀ c, J l c → Q (.ok ()) c) (h : J [] c) : m.Leads (Prog.forEach l f) c Q := by
  intro hist
  refine wp_forEach (fun done w => J done w.st) (fun done x rest hl w hw => ?_)
    (fun w hw => hend w.st hw) h
  refine wp_mono (hstep done x rest hl w.st hw w.hist) fun o w' ho => ?_
  cases o with
  | ret u => exact ho
  | exn e => exact ho
  | crash => trivial

/-- A program whose actions never change the state leaves it as it is. -/
theorem Leads.frame {S : A → Prop} (hS : ∀ a, S a → ∀ c r, m.perform c a r = c)
    {p : Prog A R M ε α} (hp : p.Uses S) : m.Leads p c fun _ c' => c' = c := by
  intro hist
  refine wp_mono (wp_uses (J := fun w => w.st = c) (S := S) (fun a ha i w _ hw => ?_) hp rfl)
    fun o w' hw' => ?_
  · exact ⟨trivial, (hS a ha w.st (i a)).trans hw⟩
  · cases o <;> first | exact hw' | trivial

theorem Leads.noThrow {p : Prog A R M ε α} (hp : p.NoThrow) (h : m.Leads p c Q) :
    m.Leads p c fun r c' => Q r c' ∧ ∃ x, r = .ok x := fun hist =>
  wp_mono (wp_noThrow hp (h hist)) fun o w' ho => by
    cases o with
    | ret x => exact ⟨ho.1, x, rfl⟩
    | exn e => exact absurd rfl (ho.2 e)
    | crash => trivial

end Machine

variable {exec : Interp A R I σ} {ok : Guard A R I σ} {t : ℕ}

/-- Every action of thread `t` commutes with the abstraction `abs`. -/
def Simulates (exec : Interp A R I σ) (ok : Guard A R I σ) (t : ℕ) (m : Machine A R C)
    (abs : World A R σ → C) : Prop :=
  ∀ a i w, ok t a i w → m.answers (abs w) a (exec a i w.st).1 ∧
    abs (w.after exec t a i) = m.perform (abs w) a (exec a i w.st).1

/-- **Simulation.** Runs end where the machine says they do. -/
theorem Machine.Leads.sound {m : Machine A R C} {abs : World A R σ → C}
    (hs : Simulates exec ok t m abs) {p : Prog A R M ε α} {w w' : World A R σ} {o : Outcome ε α}
    (he : Exec exec ok t p w o w') :
    ∀ {Q}, m.Leads p (abs w) Q → o.Ends Q (abs w') := by
  suffices key : ∀ {Q : Outcome ε α → World A R C → Prop} {h},
      wp m.interp m.allowed free 0 p Q ⟨abs w, h⟩ → ∃ h', Q o ⟨abs w', h'⟩ by
    intro Q hl
    obtain ⟨_, h'⟩ := key (hl [])
    exact h'
  -- the machine takes the answers of the run for its own
  induction he with
  | pure x w => exact fun h => ⟨_, h⟩
  | throw e w => exact fun h => ⟨_, h⟩
  | crash w => exact fun h => ⟨_, h⟩
  | @act _ a k w w' o i hi _ ih =>
    intro Q h hw
    obtain ⟨ha, hb⟩ := hs a i w hi
    have hk := (hw (fun b => (exec b i w.st).1) ha).2
    rw [World.after, Machine.interp, ← hb] at hk
    exact ih hk
  | lockedRet _ _ ihp ihk =>
    intro Q h hw
    obtain ⟨_, h₁⟩ := ihp hw
    exact ihk h₁
  | lockedExn _ ih => exact fun h => ih h
  | lockedCrash _ ih => exact fun h => ih h

end Interleave
