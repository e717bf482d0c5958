import Mathlib.Logic.Function.Basic
import Mathlib.Logic.Relation
import EthercatInterface.Lib.History

/-!
# Programs of many threads, interleaved

Each thread runs one call at a time; a step of the pool is one action, or one whole
section under mutexes, of one thread (`Step`), so sections are atomic and everything
else interleaves.

Proofs about a pool have two parts, joined by `Orderly.reaches`. Locally, every program
keeps a **promise** `P t a h`: thread `t` performs `a` only when its own past `h`
allows it (`Obeys`, the calculus of `wp` with arbitrary answers, so it says nothing
about the other threads). Globally, an invariant of the world is shown to be kept by
one action whose promise holds.
-/

namespace Interleave

variable {A : Type} {R : A → Type} {M ε I σ α β : Type}

/-- Every answer is possible. -/
def havoc : Interp A R ((a : A) → R a) Unit := fun a i _ => (i a, ())

/-- Thread `t` running `p` after its past `h` performs each action `a` at a past that
`P a` allows, and ends in `Q`. -/
def Obeys (P : A → List (Event A R) → Prop) (t : ℕ) (p : Prog A R M ε α)
    (Q : Outcome ε α → List (Event A R) → Prop) (h : List (Event A R)) : Prop :=
  wp havoc free (fun _ a _ w => P a w.hist) t p (fun o w => Q o w.hist) ⟨(), h⟩

section Obeys

variable {P : A → List (Event A R) → Prop} {t : ℕ} {Q : Outcome ε α → List (Event A R) → Prop}
  {h : List (Event A R)}

theorem Obeys.pure {x : α} (hQ : Q (.ret x) h) : Obeys P t (.pure x : Prog A R M ε α) Q h := hQ

theorem Obeys.throw {e : ε} (hQ : Q (.exn e) h) : Obeys P t (.throw e : Prog A R M ε α) Q h := hQ

theorem Obeys.crash (hQ : Q .crash h) : Obeys P t (.crash : Prog A R M ε α) Q h := hQ

theorem Obeys.mono {p : Prog A R M ε α} {Q' : Outcome ε α → List (Event A R) → Prop}
    (hp : Obeys P t p Q h) (hQ : ∀ o h', Q o h' → Q' o h') : Obeys P t p Q' h :=
  wp_mono hp fun o w => hQ o w.hist

/-- What to show of the end of `p` for `Q` to hold after going on with `f`. -/
abbrev andObeys (P : A → List (Event A R) → Prop) (t : ℕ) (f : β → Prog A R M ε α)
    (Q : Outcome ε α → List (Event A R) → Prop) : Outcome ε β → List (Event A R) → Prop
  | .ret x, h => Obeys P t (f x) Q h
  | .exn e, h => Q (.exn e) h
  | .crash, h => Q .crash h

theorem Obeys.bind {p : Prog A R M ε β} {f : β → Prog A R M ε α}
    (hp : Obeys P t p (andObeys P t f Q) h) : Obeys P t (p.bind f) Q h := by
  refine wp_bind (wp_mono hp fun o w hw => ?_)
  cases o <;> exact hw

/-- Going on after a part that ended in `K`. -/
theorem Obeys.seq {p : Prog A R M ε β} {f : β → Prog A R M ε α}
    {K : Outcome ε β → List (Event A R) → Prop} (hp : Obeys P t p K h)
    (hf : ∀ x h', K (.ret x) h' → Obeys P t (f x) (fun _ _ => True) h') :
    Obeys P t (p.bind f) (fun _ _ => True) h :=
  .bind (hp.mono fun o h' ho => by
    cases o with
    | ret x => exact hf x h' ho
    | exn e => trivial
    | crash => trivial)

/-- Going on after a return in `K`, where nothing is asked of any other end. -/
theorem Obeys.next {p : Prog A R M ε β} {f : β → Prog A R M ε α} {K : β → List (Event A R) → Prop}
    {T : α → List (Event A R) → Prop} (hp : Obeys P t p (Outcome.Settles K fun _ => True) h)
    (hf : ∀ x h', K x h' → Obeys P t (f x) (Outcome.Settles T fun _ => True) h') :
    Obeys P t (p.bind f) (Outcome.Settles T fun _ => True) h :=
  .bind (hp.mono fun o h' ho => by
    cases o with
    | ret x => exact hf x h' ho
    | exn e => trivial
    | crash => trivial)

theorem Obeys.perform {a : A} {Q : Outcome ε (R a) → List (Event A R) → Prop} (ha : P a h)
    (hQ : ∀ r, Q (.ret r) (⟨t, a, r⟩ :: h)) : Obeys P t (Prog.perform a : Prog A R M ε (R a)) Q h :=
  wp_perform fun i _ => ⟨ha, hQ (i a)⟩

theorem Obeys.act {a : A} {k : R a → Prog A R M ε α} (ha : P a h)
    (hk : ∀ r, Obeys P t (k r) Q (⟨t, a, r⟩ :: h)) : Obeys P t (.act a k) Q h :=
  fun i _ => ⟨ha, hk (i a)⟩

/-- Some answer is needed to see what is promised. -/
theorem Obeys.of_act {a : A} {k : R a → Prog A R M ε α} (ans : (a : A) → R a)
    (hp : Obeys P t (.act a k) Q h) : P a h :=
  (hp ans trivial).1

theorem Obeys.of_locked {m : M} {p : Prog A R M ε β} {k : β → Prog A R M ε α}
    (hp : Obeys P t (.locked m p k) Q h) :
    Obeys P t p (fun o h' => o.andThen (fun b => Obeys P t (k b) Q) Q h') h := by
  refine wp_mono hp fun o w hw => ?_
  cases o <;> exact hw

theorem Obeys.withLock {m : M} {p : Prog A R M ε α} (hp : Obeys P t p Q h) :
    Obeys P t (Prog.withLock m p) Q h :=
  wp_withLock hp

theorem Obeys.attempt {p : Prog A R M ε α} {Q : Outcome ε (Except ε α) → List (Event A R) → Prop}
    (hp : Obeys P t p (fun o h' => match o with
      | .ret x => Q (.ret (.ok x)) h'
      | .exn e => Q (.ret (.error e)) h'
      | .crash => Q .crash h') h) : Obeys P t p.attempt Q h := by
  refine wp_attempt (wp_mono hp fun o w hw => ?_)
  cases o <;> exact hw

theorem Obeys.foldEach {γ : Type} {f : γ → β → Prog A R M ε γ} {l : List β} {s : γ}
    {Q : Outcome ε γ → List (Event A R) → Prop} (J : List β → γ → List (Event A R) → Prop)
    (hstep : ∀ done x rest, l = done ++ x :: rest → ∀ s h, J done s h →
      Obeys P t (f s x) (fun o h' => o.andThen (fun s' => J (done ++ [x]) s') Q h') h)
    (hend : ∀ s h, J l s h → Q (.ret s) h) (hJ : J [] s h) :
    Obeys P t (Prog.foldEach l f s) Q h := by
  refine wp_foldEach (fun done s w => J done s w.hist) (fun done x rest hl s w hw => ?_)
    (fun s w => hend s w.hist) hJ
  refine wp_mono (hstep done x rest hl s w.hist hw) fun o w' hw' => ?_
  cases o <;> exact hw'

theorem Obeys.forEach {f : β → Prog A R M ε Unit} {l : List β}
    {Q : Outcome ε Unit → List (Event A R) → Prop} (J : List β → List (Event A R) → Prop)
    (hstep : ∀ done x rest, l = done ++ x :: rest → ∀ h, J done h →
      Obeys P t (f x) (fun o h' => o.andThen (fun _ => J (done ++ [x])) Q h') h)
    (hend : ∀ h, J l h → Q (.ret ()) h) (hJ : J [] h) : Obeys P t (Prog.forEach l f) Q h :=
  Obeys.foldEach (fun done _ => J done) (fun done x rest hl _ => hstep done x rest hl)
    (fun _ => hend) hJ

theorem Obeys.when {c : Bool} {p : Prog A R M ε Unit} {Q : Outcome ε Unit → List (Event A R) → Prop}
    (ht : c = true → Obeys P t p Q h) (hf : c = false → Q (.ret ()) h) :
    Obeys P t (Prog.when c p) Q h :=
  wp_when ht hf

theorem Obeys.raiseIf {c : Bool} {e : ε} {Q : Outcome ε Unit → List (Event A R) → Prop}
    (ht : c = true → Q (.exn e) h) (hf : c = false → Q (.ret ()) h) :
    Obeys P t (Prog.raiseIf c e : Prog A R M ε Unit) Q h :=
  wp_raiseIf ht hf

theorem Obeys.uses {S : A → Prop} {J : List (Event A R) → Prop}
    (hJ : ∀ a, S a → ∀ r h, J h → P a h ∧ J (⟨t, a, r⟩ :: h)) {p : Prog A R M ε α} (hp : p.Uses S)
    (h0 : J h) : Obeys P t p (fun _ => J) h :=
  wp_uses (J := fun w => J w.hist) (fun a ha i w _ hw => hJ a ha (i a) w.hist hw) hp h0

/-- What a longer past keeps, any program does. -/
theorem Obeys.grow {J : List (Event A R) → Prop} (hJ : ∀ e h, J h → J (e :: h)) (p : Prog A R M ε α)
    (h0 : J h) : Obeys (fun _ _ => True) t p (Outcome.Settles (fun _ => J) fun _ => True) h :=
  (Obeys.uses (S := fun _ => True) (fun _ _ _ h hh => ⟨trivial, hJ _ h hh⟩) p.uses_true h0).mono
    fun o _ ho => by cases o <;> first | exact ho | trivial

theorem Obeys.frame {S : A → Prop} {J : List (Event A R) → Prop}
    (hJ : ∀ a, S a → ∀ r h, J h → J (⟨t, a, r⟩ :: h)) {p : Prog A R M ε α} (hp : p.Uses S)
    (hq : Obeys P t p Q h) (h0 : J h) : Obeys P t p (fun o h' => Q o h' ∧ J h') h :=
  wp_frame havoc (J := fun w => J w.hist) (fun a ha i w hw => hJ a ha (i a) w.hist hw) hp hq h0

end Obeys

/-- With the answers that thread `t` got between its pasts `h` and `h'`, `p` returns `x`. -/
def Prog.Yields (t : ℕ) (p : Prog A R M ε α) (h : List (Event A R)) (x : α) (h' : List (Event A R)) : Prop :=
  Exec havoc free t p ⟨(), h⟩ (.ret x) ⟨(), h'⟩

/-- What a program returns is what it yields. -/
theorem Obeys.yields {P : A → List (Event A R) → Prop} {t : ℕ} {p : Prog A R M ε α}
    {Q : Outcome ε α → List (Event A R) → Prop} {h : List (Event A R)} (hp : Obeys P t p Q h) :
    Obeys P t p (fun o h' => Q o h' ∧ ∀ x, o = .ret x → p.Yields t h x h') h :=
  wp_mono (wp_reached hp) fun o w' ho => ⟨ho.1, fun x hx => by subst hx; exact ho.2⟩

/-- A run shows what a program yields. -/
theorem Exec.havoc {exec : Interp A R I σ} {ok : Guard A R I σ} {t : ℕ} {p : Prog A R M ε α}
    {w w' : World A R σ} {o : Outcome ε α} (he : Exec exec ok t p w o w') :
    Exec Interleave.havoc free t p ⟨(), w.hist⟩ o ⟨(), w'.hist⟩ := by
  induction he with
  | pure x w => exact .pure x _
  | throw e w => exact .throw e _
  | crash w => exact .crash _
  | @act _ a k w w' o i _ _ ih => exact .act (fun b => (exec b i w.st).1) trivial ih
  | lockedRet _ _ ihp ihk => exact .lockedRet ihp ihk
  | lockedExn _ ih => exact .lockedExn ih
  | lockedCrash _ ih => exact .lockedCrash ih

/-- Thread `t` can run `p` after any past and keep the promise. -/
def Honours (P : A → List (Event A R) → Prop) (t : ℕ) (p : Prog A R M ε α) : Prop :=
  ∀ h, Obeys P t p (fun _ _ => True) h

section Honours

variable {P : A → List (Event A R) → Prop} {t : ℕ}

theorem honours_pure {x : α} : Honours P t (.pure x : Prog A R M ε α) := fun _ => trivial

theorem honours_throw {e : ε} : Honours P t (.throw e : Prog A R M ε α) := fun _ => trivial

theorem honours_crash : Honours P t (.crash : Prog A R M ε α) := fun _ => trivial

/-- The rest of a program may rely on what its first part left behind. -/
theorem Obeys.honours {p : Prog A R M ε α} {Q : Outcome ε α → List (Event A R) → Prop}
    {h : List (Event A R)} (hp : Obeys P t p Q h) : Obeys P t p (fun _ _ => True) h :=
  hp.mono fun _ _ _ => trivial

theorem Honours.bind {p : Prog A R M ε β} {f : β → Prog A R M ε α} (hp : Honours P t p)
    (hf : ∀ x, Honours P t (f x)) : Honours P t (p.bind f) := fun h =>
  .seq (hp h) fun x h' _ => hf x h'

theorem Honours.perform {a : A} (ha : ∀ h, P a h) :
    Honours P t (Prog.perform a : Prog A R M ε (R a)) := fun h => .perform (ha h) fun _ => trivial

theorem Honours.uses {S : A → Prop} (hS : ∀ a, S a → ∀ h, P a h) {p : Prog A R M ε α}
    (hp : p.Uses S) : Honours P t p := fun _ =>
  (Obeys.uses (J := fun _ => True) (fun a ha _ h _ => ⟨hS a ha h, trivial⟩) hp trivial).honours

theorem Honours.withLock {m : M} {p : Prog A R M ε α} (hp : Honours P t p) :
    Honours P t (Prog.withLock m p) := fun h => .withLock (hp h)

theorem Honours.attempt {p : Prog A R M ε α} (hp : Honours P t p) : Honours P t p.attempt :=
  fun h => .attempt ((hp h).mono fun o _ _ => by cases o <;> trivial)

theorem Honours.when {c : Bool} {p : Prog A R M ε Unit} (hp : Honours P t p) :
    Honours P t (Prog.when c p) := fun h => .when (fun _ => hp h) fun _ => trivial

theorem Honours.raiseIf {c : Bool} {e : ε} :
    Honours P t (Prog.raiseIf c e : Prog A R M ε Unit) := .when honours_throw

theorem Honours.forEach {f : β → Prog A R M ε Unit} (hf : ∀ x, Honours P t (f x)) (l : List β) :
    Honours P t (Prog.forEach l f) := fun _ =>
  .forEach (fun _ _ => True) (fun _ x _ _ h _ => (hf x h).mono fun o _ _ => by cases o <;> trivial)
    (fun _ _ => trivial) trivial

end Honours

section Run

variable {exec : Interp A R I σ} {ok : Guard A R I σ} {P : A → List (Event A R) → Prop}

/-- A run of one thread keeps what each of its actions keeps, and brings the thread's
own past where its promise says. -/
theorem Exec.obeys {t : ℕ} {J : World A R σ → Prop}
    (hJ : ∀ a i w, ok t a i w → P a (own t w.hist) → J w → J (w.after exec t a i))
    {p : Prog A R M ε α} {w w' : World A R σ} {o : Outcome ε α} (he : Exec exec ok t p w o w') :
    ∀ {Q}, Obeys P t p Q (own t w.hist) → J w → J w' ∧ Q o (own t w'.hist) := by
  induction he with
  | pure x w => exact fun h hw => ⟨hw, h⟩
  | throw e w => exact fun h hw => ⟨hw, h⟩
  | crash w => exact fun h hw => ⟨hw, h⟩
  | @act _ a k w w' o i hi _ ih =>
    intro Q h hw
    -- the answer given is one of those that `Obeys` quantifies over
    have ha := h (fun b => (exec b i w.st).1) trivial
    refine ih (Q := Q) ?_ (hJ a i w hi ha.1 hw)
    rw [World.after_hist, own_cons_self]
    exact ha.2
  | lockedRet _ _ ihp ihk =>
    intro Q h hw
    obtain ⟨hw₁, h₁⟩ := ihp h.of_locked hw
    exact ihk h₁ hw₁
  | lockedExn _ ih => exact fun h hw => ih h.of_locked hw
  | lockedCrash _ ih => exact fun h hw => ih h.of_locked hw

theorem Exec.own_ne {t u : ℕ} (hut : t ≠ u) {p : Prog A R M ε α} {w w' : World A R σ}
    {o : Outcome ε α} (he : Exec exec ok t p w o w') : own u w'.hist = own u w.hist := by
  induction he with
  | pure x w => rfl
  | throw e w => rfl
  | crash w => rfl
  | act i _ _ ih => rw [ih, World.after_hist, own_cons_ne hut]
  | lockedRet _ _ ihp ihk => rw [ihk, ihp]
  | lockedExn _ ih => exact ih
  | lockedCrash _ ih => exact ih

end Run

/-- The world and what each thread still has to run of its call. -/
structure Conf (A : Type) (R : A → Type) (M ε σ : Type) where
  world : World A R σ
  pool : ℕ → Option (Prog A R M ε Unit)

/-- Nothing running. -/
def Conf.idle (w : World A R σ) : Conf A R M ε σ := ⟨w, fun _ => none⟩

/-- Thread `t` goes on with `p`. -/
def Conf.put (c : Conf A R M ε σ) (w : World A R σ) (t : ℕ) (p : Option (Prog A R M ε Unit)) :
    Conf A R M ε σ :=
  ⟨w, Function.update c.pool t p⟩

@[simp] theorem Conf.put_pool (c : Conf A R M ε σ) (w : World A R σ) (t : ℕ)
    (q : Option (Prog A R M ε Unit)) : (c.put w t q).pool t = q := by
  simp [Conf.put]

@[simp] theorem Conf.put_put (c : Conf A R M ε σ) (w w' : World A R σ) (t : ℕ)
    (q q' : Option (Prog A R M ε Unit)) : (c.put w t q).put w' t q' = c.put w' t q' := by
  simp [Conf.put]

variable (exec : Interp A R I σ) (ok : Guard A R I σ) (calls : ℕ → Prog A R M ε Unit → Prop)

/-- One step of the pool: a call begins, one action or one section is performed, a call
is over. A thread that crashed does not move. -/
inductive Step : Conf A R M ε σ → Conf A R M ε σ → Prop
  | call {c t p} : c.pool t = none → calls t p → Step c (c.put c.world t (some p))
  | act {c t a k} (i : I) : c.pool t = some (.act a k) → ok t a i c.world →
      Step c (c.put (c.world.after exec t a i) t (some (k (exec a i c.world.st).1)))
  | locked {c t} {β : Type} {m : M} {p : Prog A R M ε β} {k o w'} : c.pool t = some (.locked m p k) →
      Exec exec ok t p c.world o w' → Step c (c.put w' t (some (o.resume k)))
  | ret {c t} : c.pool t = some (.pure ()) → Step c (c.put c.world t none)
  | exn {c t e} : c.pool t = some (.throw e) → Step c (c.put c.world t none)

/-- Reachable in any number of steps, of any threads, in any order. -/
def Reaches : Conf A R M ε σ → Conf A R M ε σ → Prop :=
  Relation.ReflTransGen (Step exec ok calls)

/-- Of every running call, with its thread's past. -/
def Everyone (K : ℕ → Prog A R M ε Unit → List (Event A R) → Prop) (c : Conf A R M ε σ) : Prop :=
  ∀ t p, c.pool t = some p → K t p (own t c.world.hist)

theorem everyone_idle (K : ℕ → Prog A R M ε Unit → List (Event A R) → Prop) (w : World A R σ) :
    Everyone K (Conf.idle w : Conf A R M ε σ) := by
  intro t p h; cases h

theorem Everyone.put {K : ℕ → Prog A R M ε Unit → List (Event A R) → Prop} {c : Conf A R M ε σ}
    (hc : Everyone K c) {w : World A R σ} {t : ℕ} {q : Option (Prog A R M ε Unit)}
    (hq : ∀ p, q = some p → K t p (own t w.hist))
    (hne : ∀ u, t ≠ u → own u w.hist = own u c.world.hist) : Everyone K (c.put w t q) := by
  intro u p hp
  by_cases hut : u = t
  · subst hut
    simp only [Conf.put, Function.update_self] at hp
    exact hq p hp
  · simp only [Conf.put, Function.update_of_ne hut] at hp
    rw [show (c.put w t q).world = w from rfl, hne u (Ne.symm hut)]
    exact hc u p hp

/-- Every running call keeps its thread's promise. -/
abbrev Keeps (P : ℕ → A → List (Event A R) → Prop) : Conf A R M ε σ → Prop :=
  Everyone fun t p h => Obeys (P t) t p (fun _ _ => True) h

variable {exec ok calls}

theorem keeps_idle (P : ℕ → A → List (Event A R) → Prop) (w : World A R σ) :
    Keeps P (Conf.idle w : Conf A R M ε σ) :=
  everyone_idle _ w

/-- Every running call keeps its thread's promise and ends in `Q`, and the past of every
idle thread is in `N`. -/
structure Orderly (P : ℕ → A → List (Event A R) → Prop)
    (Q : ℕ → Outcome ε Unit → List (Event A R) → Prop) (N : ℕ → List (Event A R) → Prop)
    (c : Conf A R M ε σ) : Prop where
  running : Everyone (fun t p h => Obeys (P t) t p (Q t) h) c
  idle : ∀ t, c.pool t = none → N t (own t c.world.hist)

section Orderly

variable {P : ℕ → A → List (Event A R) → Prop} {Q : ℕ → Outcome ε Unit → List (Event A R) → Prop}
  {N : ℕ → List (Event A R) → Prop}

theorem orderly_idle {w : World A R σ} (hN : ∀ t, N t (own t w.hist)) :
    Orderly P Q N (Conf.idle w : Conf A R M ε σ) :=
  ⟨everyone_idle _ w, fun t _ => hN t⟩

/-- A thread goes on with `p`. -/
theorem Orderly.put_some {c : Conf A R M ε σ} (hc : Orderly P Q N c) {w : World A R σ} {t : ℕ}
    {p : Prog A R M ε Unit} (hp : Obeys (P t) t p (Q t) (own t w.hist))
    (hne : ∀ u, t ≠ u → own u w.hist = own u c.world.hist) :
    Orderly P Q N (c.put w t (some p)) := by
  refine ⟨hc.running.put (fun q h => by cases h; exact hp) hne, fun u hu => ?_⟩
  by_cases hut : u = t
  · subst hut
    simp [Conf.put] at hu
  · simp only [Conf.put, Function.update_of_ne hut] at hu ⊢
    rw [hne u (Ne.symm hut)]
    exact hc.idle u hu

/-- The call of a thread is over. -/
theorem Orderly.put_none {c : Conf A R M ε σ} (hc : Orderly P Q N c) {t : ℕ}
    (hN : N t (own t c.world.hist)) : Orderly P Q N (c.put c.world t none) := by
  refine ⟨hc.running.put (fun q h => by cases h) fun _ _ => rfl, fun u hu => ?_⟩
  by_cases hut : u = t
  · subst hut
    exact hN
  · simp only [Conf.put, Function.update_of_ne hut] at hu
    exact hc.idle u hu

/-- **One step** keeps the promises, the rest between calls and every invariant of the actions. -/
theorem Orderly.step {J : World A R σ → Prop}
    (hcalls : ∀ t p, calls t p → ∀ h, N t h → Obeys (P t) t p (Q t) h)
    (hret : ∀ t h, Q t (.ret ()) h → N t h) (hexn : ∀ t e h, Q t (.exn e) h → N t h)
    (hJ : ∀ t a i w, ok t a i w → P t a (own t w.hist) → J w → J (w.after exec t a i))
    {c c' : Conf A R M ε σ} (hs : Step exec ok calls c c') (hc : Orderly P Q N c) (hw : J c.world) :
    Orderly P Q N c' ∧ J c'.world := by
  cases hs with
  | @call t p hn hp => exact ⟨hc.put_some (hcalls t p hp _ (hc.idle t hn)) fun _ _ => rfl, hw⟩
  -- only the past of the thread that moves grows
  | @act t a k i hp hok =>
    have ha := hc.running t _ hp (fun b => (exec b i c.world.st).1) trivial
    refine ⟨hc.put_some ?_ fun u hu => ?_, hJ t a i _ hok ha.1 hw⟩
    · rw [World.after_hist, own_cons_self]
      exact ha.2
    · rw [World.after_hist, own_cons_ne hu]
  -- a section is one step, so its actions are gone through at once
  | @locked t β m p k o w' hp he =>
    obtain ⟨hw', ho⟩ := he.obeys (hJ t) (hc.running t _ hp).of_locked hw
    refine ⟨hc.put_some ?_ fun u hu => he.own_ne hu, hw'⟩
    cases o with
    | ret b => exact ho
    | exn e => exact ho
    | crash => exact ho
  | @ret t hp => exact ⟨hc.put_none (hret t _ (hc.running t _ hp)), hw⟩
  | @exn t e hp => exact ⟨hc.put_none (hexn t e _ (hc.running t _ hp)), hw⟩

/-- **Every run** keeps the promises, the rest between calls and every invariant of the actions. -/
theorem Orderly.reaches {J : World A R σ → Prop}
    (hcalls : ∀ t p, calls t p → ∀ h, N t h → Obeys (P t) t p (Q t) h)
    (hret : ∀ t h, Q t (.ret ()) h → N t h) (hexn : ∀ t e h, Q t (.exn e) h → N t h)
    (hJ : ∀ t a i w, ok t a i w → P t a (own t w.hist) → J w → J (w.after exec t a i))
    {c c' : Conf A R M ε σ} (hr : Reaches exec ok calls c c') (hc : Orderly P Q N c) (hw : J c.world) :
    Orderly P Q N c' ∧ J c'.world := by
  induction hr with
  | refl => exact ⟨hc, hw⟩
  | tail _ hs ih => exact Orderly.step hcalls hret hexn hJ hs ih.1 ih.2

end Orderly

/-- The same of calls that may come at any time. -/
theorem reaches_inv {P : ℕ → A → List (Event A R) → Prop} {J : World A R σ → Prop}
    (hcalls : ∀ t p, calls t p → Honours (P t) t p)
    (hJ : ∀ t a i w, ok t a i w → P t a (own t w.hist) → J w → J (w.after exec t a i))
    {c c' : Conf A R M ε σ} (hr : Reaches exec ok calls c c') (hc : Keeps P c) (hw : J c.world) :
    Keeps P c' ∧ J c'.world := by
  obtain ⟨h, hw'⟩ := Orderly.reaches (N := fun _ _ => True) (fun t p hp h _ => hcalls t p hp h)
    (fun _ _ _ => trivial) (fun _ _ _ _ => trivial) hJ hr ⟨hc, fun _ _ => trivial⟩ hw
  exact ⟨h.running, hw'⟩

/-- What a thread can run to its end, it can while the others rest. -/
theorem Exec.reaches {t : ℕ} {p : Prog A R M ε α} {x : α} {w w' : World A R σ}
    (he : Exec exec ok t p w (.ret x) w') (f : α → Prog A R M ε Unit) (c : Conf A R M ε σ) :
    Reaches exec ok calls (c.put w t (some (p.bind f))) (c.put w' t (some (f x))) := by
  have put : ∀ {w w' : World A R σ} {p : Prog A R M ε Unit} {q : Option (Prog A R M ε Unit)},
      Step exec ok calls (c.put w t (some p)) ((c.put w t (some p)).put w' t q) →
      Step exec ok calls (c.put w t (some p)) (c.put w' t q) := by
    intro w w' p q hs
    rwa [Conf.put_put] at hs
  induction p generalizing w with
  | pure y => cases he; exact .refl
  | throw e => cases he
  | crash => cases he
  | act a k ih =>
    cases he with
    | act i hi he => exact .head (put (.act i (c.put_pool w t _) hi)) (ih _ he f)
  | locked m p k _ ih =>
    cases he with
    | lockedRet hp he => exact .head (put (.locked (c.put_pool w t _) hp)) (ih _ he f)

/-! ## Runs that compute -/

/-- A choice of the scheduler: which thread moves, and what the environment decides. -/
inductive Choice (A : Type) (R : A → Type) (M ε I : Type)
  | call (t : ℕ) (p : Prog A R M ε Unit)
  | step (t : ℕ) (is : List I)

variable (exec) in
/-- The step a choice makes, if it can be made. -/
def Conf.next [Inhabited I] (c : Conf A R M ε σ) : Choice A R M ε I → Option (Conf A R M ε σ)
  | .call t p =>
    match c.pool t with
    | none => some (c.put c.world t (some p))
    | some _ => none
  | .step t is =>
    match c.pool t with
    | none => none
    | some (.pure _) => some (c.put c.world t none)
    | some (.throw _) => some (c.put c.world t none)
    | some .crash => none
    | some (.act a k) =>
      some (c.put (c.world.after exec t a (is.headD default)) t
        (some (k (exec a (is.headD default) c.world.st).1)))
    | some (.locked _ p k) =>
      some (c.put (run exec t p is c.world).2.1 t (some ((run exec t p is c.world).1.resume k)))

variable (exec) in
/-- The run of a whole schedule. -/
def Conf.runAll [Inhabited I] : Conf A R M ε σ → List (Choice A R M ε I) → Option (Conf A R M ε σ)
  | c, [] => some c
  | c, ch :: sched => (c.next exec ch).bind fun c' => c'.runAll sched

theorem step_of_next [Inhabited I] {c c' : Conf A R M ε σ} {ch : Choice A R M ε I}
    (hch : ∀ t p, ch = .call t p → calls t p) (h : c.next exec ch = some c') :
    Step exec free calls c c' := by
  cases ch with
  | call t p =>
    simp only [Conf.next] at h
    split at h
    · rename_i hp; cases h; exact .call hp (hch t p rfl)
    · cases h
  | step t is =>
    simp only [Conf.next] at h
    split at h
    · cases h
    · rename_i hp; cases h; exact .ret hp
    · rename_i hp; cases h; exact .exn hp
    · cases h
    · rename_i hp; cases h; exact .act _ hp trivial
    · rename_i hp; cases h; exact .locked hp (run_exec exec _ _ is c.world)

/-- A schedule that computes is a run. -/
theorem reaches_of_runAll [Inhabited I] {sched : List (Choice A R M ε I)} :
    ∀ {c c' : Conf A R M ε σ}, (∀ t p, Choice.call t p ∈ sched → calls t p) →
      c.runAll exec sched = some c' → Reaches exec free calls c c' := by
  induction sched with
  | nil => intro c c' _ h; cases h; exact .refl
  | cons ch sched ih =>
    intro c c' hch h
    simp only [Conf.runAll, Option.bind_eq_some_iff] at h
    obtain ⟨c₁, h₁, h₂⟩ := h
    exact .head (step_of_next (fun t p hp => hch t p (hp ▸ List.mem_cons_self)) h₁)
      (ih (fun t p hp => hch t p (List.mem_cons_of_mem _ hp)) h₂)

/-- Actions that the guard accepts anyway. -/
theorem Exec.guarded {ok : Guard A R I σ} {t : ℕ} {S : A → Prop}
    (hS : ∀ a, S a → ∀ i w, ok t a i w) {p : Prog A R M ε α} {w w' : World A R σ} {o : Outcome ε α}
    (he : Exec exec free t p w o w') : p.Uses S → Exec exec ok t p w o w' := by
  induction he with
  | pure x w => exact fun _ => .pure x w
  | throw e w => exact fun _ => .throw e w
  | crash w => exact fun _ => .crash w
  | act i _ _ ih => exact fun hp => .act i (hS _ hp.1 i _) (ih (hp.2 _))
  | lockedRet _ _ ihp ihk => exact fun hp => .lockedRet (ihp hp.1) (ihk (hp.2 _))
  | lockedExn _ ih => exact fun hp => .lockedExn (ih hp.1)
  | lockedCrash _ ih => exact fun hp => .lockedCrash (ih hp.1)

/-- A first action that the guard accepts here, and others that it accepts anyway. -/
theorem Exec.guarded_act {ok : Guard A R I σ} {t : ℕ} {S : A → Prop}
    (hS : ∀ a, S a → ∀ i w, ok t a i w) {a : A} {k : R a → Prog A R M ε α} {w w' : World A R σ}
    {o : Outcome ε α} (he : Exec exec free t (.act a k) w o w') (ha : ∀ i, ok t a i w)
    (hk : ∀ r, (k r).Uses S) : Exec exec ok t (.act a k) w o w' := by
  cases he with
  | act i _ he => exact .act i (ha i) (he.guarded hS (hk _))

/-- A run of calls whose actions the guard accepts anyway. -/
theorem Reaches.guarded {ok : Guard A R I σ} {calls' : ℕ → Prog A R M ε Unit → Prop} {S : A → Prop}
    (hS : ∀ a, S a → ∀ t i w, ok t a i w) (hcalls : ∀ t p, calls' t p → calls t p ∧ p.Uses S)
    {w : World A R σ} {c : Conf A R M ε σ} (hr : Reaches exec free calls' (Conf.idle w) c) :
    Reaches exec ok calls (Conf.idle w) c := by
  -- besides, every thread keeps to actions that the guard accepts
  suffices h : Reaches exec ok calls (Conf.idle w) c ∧ Everyone (fun _ p _ => p.Uses S) c from h.1
  induction hr with
  | refl => exact ⟨.refl, everyone_idle _ w⟩
  | @tail c c' _ hs ih =>
    obtain ⟨hr, hc⟩ := ih
    suffices h : Step exec ok calls c c' ∧ Everyone (fun _ p _ => p.Uses S) c' from ⟨hr.tail h.1, h.2⟩
    cases hs with
    | call hn hp =>
      refine ⟨.call hn (hcalls _ _ hp).1, hc.put (fun p h => ?_) fun _ _ => rfl⟩
      cases h
      exact (hcalls _ _ hp).2
    | act i hp hok =>
      obtain ⟨ha, hk⟩ := hc _ _ hp
      refine ⟨.act i hp (hS _ ha _ _ _), hc.put (fun p h => ?_) fun _ hu => own_cons_ne hu _ _ _⟩
      cases h
      exact hk _
    | @locked t β m p k o w' hp he =>
      obtain ⟨hb, hk⟩ := hc _ _ hp
      refine ⟨.locked hp (he.guarded (fun a ha => hS a ha _) hb), hc.put (fun q h => ?_) fun _ hu => he.own_ne hu⟩
      cases h
      cases o with
      | ret b => exact hk b
      | exn e => trivial
      | crash => trivial
    | ret hp => exact ⟨.ret hp, hc.put (fun p h => by cases h) fun _ _ => rfl⟩
    | exn hp => exact ⟨.exn hp, hc.put (fun p h => by cases h) fun _ _ => rfl⟩

/-- Where a schedule leads, if it can be followed. -/
def Conf.follow [Inhabited I] (exec : Interp A R I σ) (c : Conf A R M ε σ)
    (sched : List (Choice A R M ε I)) : Conf A R M ε σ :=
  (c.runAll exec sched).getD c

theorem reaches_follow [Inhabited I] {sched : List (Choice A R M ε I)} {c : Conf A R M ε σ}
    (hs : ∀ t p, Choice.call t p ∈ sched → calls t p) :
    Reaches exec free calls c (c.follow exec sched) := by
  rw [Conf.follow]
  rcases h : c.runAll exec sched with _ | c'
  · exact .refl
  · exact reaches_of_runAll hs h

section Admitted

variable [Inhabited I] {ok : Guard A R I σ} [∀ t a i w, Decidable (ok t a i w)]

variable (exec ok) in
/-- The guard accepts what a choice performs. -/
def Conf.admits (c : Conf A R M ε σ) : Choice A R M ε I → Bool
  | .call _ _ => true
  | .step t is =>
    match c.pool t with
    | some (.act a _) => decide (ok t a (is.headD default) c.world)
    | some (.locked _ p _) => Interleave.admits exec ok t p is c.world
    | _ => true

variable (exec ok) in
/-- The guard accepts what a schedule performs. -/
def Conf.admitsAll : Conf A R M ε σ → List (Choice A R M ε I) → Bool
  | _, [] => true
  | c, ch :: sched => c.admits exec ok ch && ((c.next exec ch).all fun c' => c'.admitsAll sched)

theorem step_of_admits {c c' : Conf A R M ε σ} {ch : Choice A R M ε I}
    (hch : ∀ t p, ch = .call t p → calls t p) (ha : c.admits exec ok ch = true)
    (h : c.next exec ch = some c') : Step exec ok calls c c' := by
  cases ch with
  | call t p =>
    simp only [Conf.next] at h
    split at h
    · rename_i hp; cases h; exact .call hp (hch t p rfl)
    · cases h
  | step t is =>
    simp only [Conf.next] at h
    simp only [Conf.admits] at ha
    split at h
    · cases h
    · rename_i hp; cases h; exact .ret hp
    · rename_i hp; cases h; exact .exn hp
    · cases h
    · rename_i hp
      rw [hp] at ha
      cases h
      exact .act _ hp (of_decide_eq_true ha)
    · rename_i hp
      rw [hp] at ha
      cases h
      exact .locked hp (run_exec_admitted _ is c.world ha)

/-- A schedule that the guard accepts is a run. -/
theorem reaches_of_admitsAll {sched : List (Choice A R M ε I)} :
    ∀ {c c' : Conf A R M ε σ}, (∀ t p, Choice.call t p ∈ sched → calls t p) →
      c.admitsAll exec ok sched = true → c.runAll exec sched = some c' → Reaches exec ok calls c c' := by
  induction sched with
  | nil => intro c c' _ _ h; cases h; exact .refl
  | cons ch sched ih =>
    intro c c' hch ha h
    simp only [Conf.runAll, Option.bind_eq_some_iff] at h
    obtain ⟨c₁, h₁, h₂⟩ := h
    simp only [Conf.admitsAll, Bool.and_eq_true, h₁, Option.all_some] at ha
    exact .head (step_of_admits (fun t p hp => hch t p (hp ▸ List.mem_cons_self)) ha.1 h₁)
      (ih (fun t p hp => hch t p (List.mem_cons_of_mem _ hp)) ha.2 h₂)

theorem reaches_admitted {sched : List (Choice A R M ε I)} {c : Conf A R M ε σ}
    (hs : ∀ t p, Choice.call t p ∈ sched → calls t p) (ha : c.admitsAll exec ok sched = true) :
    Reaches exec ok calls c (c.follow exec sched) := by
  rw [Conf.follow]
  rcases h : c.runAll exec sched with _ | c'
  · exact .refl
  · exact reaches_of_admitsAll hs ha h

end Admitted

/-- The call of thread `t` has returned. -/
def Conf.returned (c : Conf A R M ε σ) (t : ℕ) : Bool :=
  match c.pool t with
  | some (.pure _) => true
  | _ => false

theorem pool_of_returned {c : Conf A R M ε σ} {t : ℕ} (h : c.returned t = true) :
    c.pool t = some (.pure ()) := by
  unfold Conf.returned at h
  split at h
  · assumption
  · cases h

/-- Thread `t` moves `n` times, with default decisions. -/
def Choice.steps (t n : ℕ) : List (Choice A R M ε I) := List.replicate n (.step t [])

section Calls

variable {t u n : ℕ} {p q : Prog A R M ε Unit} {is : List I} {l : List (Choice A R M ε I)}

theorem Choice.call_mem_call : Choice.call t p ∈ Choice.call u q :: l ↔
    (t = u ∧ p = q) ∨ Choice.call t p ∈ l := by
  simp

theorem Choice.call_mem_step : Choice.call t p ∈ Choice.step u is :: l ↔ Choice.call t p ∈ l := by
  simp

theorem Choice.call_mem_replicate : Choice.call t p ∈ List.replicate n (Choice.step u is) ↔ False := by
  simp

theorem Choice.call_mem_steps : Choice.call t p ∈ (Choice.steps u n : List (Choice A R M ε I)) ↔ False :=
  Choice.call_mem_replicate

end Calls

end Interleave
