import EthercatInterface.Lib.Pool

/-!
# Invariants that hold between sections

An invariant that ties several members together does not survive every action: a
section breaks it and restores it. `Sustains` is a calculus for such invariants. A
thread may assume the invariant `J` and its own past before each action outside a
section and before each section, and has to restore `J` after it; what happens inside a
section is a matter of `wp`, since no other thread moves then. The invariant holds
whenever no thread is inside a section (`reaches_sustains`).

A promise that keeps an invariant through every action (`Obeys`) sustains it.
-/

namespace Interleave

variable {A : Type} {R : A → Type} {M ε I σ α β : Type}

/-- Thread `t` running `p` after its own past `h` keeps `J` with every action and every
section, and ends in `Q`. -/
def Sustains (exec : Interp A R I σ) (ok : Guard A R I σ) (J : World A R σ → Prop) (t : ℕ) :
    {α : Type} → Prog A R M ε α → (Outcome ε α → List (Event A R) → Prop) →
      List (Event A R) → Prop
  | _, .pure x, Q, h => Q (.ret x) h
  | _, .throw e, Q, h => Q (.exn e) h
  | _, .crash, Q, h => Q .crash h
  | _, .act a k, Q, h => ∀ i w, ok t a i w → J w → own t w.hist = h →
      J (w.after exec t a i) ∧
        Sustains exec ok J t (k (exec a i w.st).1) Q (⟨t, a, (exec a i w.st).1⟩ :: h)
  | _, .locked _ p k, Q, h => ∀ w, J w → own t w.hist = h →
      wp exec ok free t p (fun o w' => J w' ∧
        o.andThen (fun b => Sustains exec ok J t (k b) Q) Q (own t w'.hist)) w

variable {exec : Interp A R I σ} {ok : Guard A R I σ} {J : World A R σ → Prop} {t : ℕ}

section Sustains

variable {Q : Outcome ε α → List (Event A R) → Prop} {h : List (Event A R)}

theorem Sustains.mono {p : Prog A R M ε α} {Q' : Outcome ε α → List (Event A R) → Prop}
    (hp : Sustains exec ok J t p Q h) (hQ : ∀ o h', Q o h' → Q' o h') :
    Sustains exec ok J t p Q' h := by
  induction p generalizing h with
  | pure x => exact hQ _ _ hp
  | throw e => exact hQ _ _ hp
  | crash => exact hQ _ _ hp
  | act a k ih =>
    intro i w hi hw hh
    obtain ⟨hj, hk⟩ := hp i w hi hw hh
    exact ⟨hj, ih _ hk hQ⟩
  | locked m p k _ ih =>
    intro w hw hh
    refine wp_mono (hp w hw hh) fun o w' ⟨hj, ho⟩ => ⟨hj, ?_⟩
    cases o with
    | ret b => exact ih b ho hQ
    | exn e => exact hQ _ _ ho
    | crash => exact hQ _ _ ho

/-- What to show of the end of `p` for `Q` to hold after going on with `f`. -/
abbrev andSustains (exec : Interp A R I σ) (ok : Guard A R I σ) (J : World A R σ → Prop) (t : ℕ)
    (f : β → Prog A R M ε α) (Q : Outcome ε α → List (Event A R) → Prop) :
    Outcome ε β → List (Event A R) → Prop
  | .ret x, h => Sustains exec ok J t (f x) Q h
  | .exn e, h => Q (.exn e) h
  | .crash, h => Q .crash h

theorem Sustains.bind {p : Prog A R M ε β} {f : β → Prog A R M ε α}
    (hp : Sustains exec ok J t p (andSustains exec ok J t f Q) h) :
    Sustains exec ok J t (p.bind f) Q h := by
  induction p generalizing h with
  | pure x => exact hp
  | throw e => exact hp
  | crash => exact hp
  | act a k ih =>
    intro i w hi hw hh
    obtain ⟨hj, hk⟩ := hp i w hi hw hh
    exact ⟨hj, ih _ hk⟩
  | locked m p k _ ih =>
    intro w hw hh
    refine wp_mono (hp w hw hh) fun o w' ⟨hj, ho⟩ => ⟨hj, ?_⟩
    cases o with
    | ret b => exact ih b ho
    | exn e => exact ho
    | crash => exact ho

/-- Going on after a part that ended in `K`. -/
theorem Sustains.seq {p : Prog A R M ε β} {f : β → Prog A R M ε α}
    {K : Outcome ε β → List (Event A R) → Prop} (hp : Sustains exec ok J t p K h)
    (hf : ∀ x h', K (.ret x) h' → Sustains exec ok J t (f x) (fun _ _ => True) h') :
    Sustains exec ok J t (p.bind f) (fun _ _ => True) h :=
  .bind (hp.mono fun o h' ho => by
    cases o with
    | ret x => exact hf x h' ho
    | exn e => trivial
    | crash => trivial)

theorem Sustains.perform {a : A} {Q : Outcome ε (R a) → List (Event A R) → Prop}
    (ha : ∀ i w, ok t a i w → J w → own t w.hist = h →
      J (w.after exec t a i) ∧ Q (.ret (exec a i w.st).1) (⟨t, a, (exec a i w.st).1⟩ :: h)) :
    Sustains exec ok J t (Prog.perform a : Prog A R M ε (R a)) Q h := ha

/-- **A section** is a matter of `wp`. -/
theorem Sustains.withLock {m : M} {p : Prog A R M ε α}
    (hp : ∀ w, J w → own t w.hist = h →
      wp exec ok free t p (fun o w' => J w' ∧ Q o (own t w'.hist)) w) :
    Sustains exec ok J t (Prog.withLock m p) Q h := by
  intro w hw hh
  refine wp_mono (hp w hw hh) fun o w' ⟨hj, ho⟩ => ⟨hj, ?_⟩
  cases o <;> exact ho

theorem Sustains.attempt {p : Prog A R M ε α} {Q : Outcome ε (Except ε α) → List (Event A R) → Prop}
    (hp : Sustains exec ok J t p (fun o h' => match o with
      | .ret x => Q (.ret (.ok x)) h'
      | .exn e => Q (.ret (.error e)) h'
      | .crash => Q .crash h') h) : Sustains exec ok J t p.attempt Q h := by
  induction p generalizing h with
  | pure x => exact hp
  | throw e => exact hp
  | crash => exact hp
  | act a k ih =>
    intro i w hi hw hh
    obtain ⟨hj, hk⟩ := hp i w hi hw hh
    exact ⟨hj, ih _ hk⟩
  | locked m p k _ ih =>
    intro w hw hh
    refine wp_attempt (wp_mono (hp w hw hh) fun o w' ho => ?_)
    cases o with
    | ret b => exact ⟨ho.1, ih b ho.2⟩
    | exn e => exact ho
    | crash => exact ho

theorem Sustains.when {c : Bool} {p : Prog A R M ε Unit}
    {Q : Outcome ε Unit → List (Event A R) → Prop} (ht : c = true → Sustains exec ok J t p Q h)
    (hf : c = false → Q (.ret ()) h) : Sustains exec ok J t (Prog.when c p) Q h := by
  cases c
  · exact hf rfl
  · exact ht rfl

theorem Sustains.forEach {f : β → Prog A R M ε Unit} {l : List β}
    {Q : Outcome ε Unit → List (Event A R) → Prop} (K : List β → List (Event A R) → Prop)
    (hstep : ∀ done x rest, l = done ++ x :: rest → ∀ h, K done h →
      Sustains exec ok J t (f x) (fun o h' => o.andThen (fun _ => K (done ++ [x])) Q h') h)
    (hend : ∀ h, K l h → Q (.ret ()) h) (hK : K [] h) :
    Sustains exec ok J t (Prog.forEach l f) Q h := by
  have key : ∀ rest done, l = done ++ rest → ∀ h, K done h →
      Sustains exec ok J t (Prog.forEach rest f) Q h := by
    intro rest
    induction rest with
    | nil =>
      intro done hl h hK
      rw [List.append_nil] at hl; subst hl
      exact hend h hK
    | cons x rest ih =>
      intro done hl h hK
      refine .bind ((hstep done x rest hl h hK).mono fun o h' ho => ?_)
      cases o with
      | ret u => exact ih (done ++ [x]) (by rw [hl, List.append_assoc]; rfl) h' ho
      | exn e => exact ho
      | crash => exact ho
  exact key l [] rfl h hK

theorem Sustains.raiseIf {c : Bool} {e : ε} {Q : Outcome ε Unit → List (Event A R) → Prop}
    (ht : c = true → Q (.exn e) h) (hf : c = false → Q (.ret ()) h) :
    Sustains exec ok J t (Prog.raiseIf c e : Prog A R M ε Unit) Q h :=
  .when ht hf

/-- What a thread knows of its own past comes on top. -/
theorem Sustains.frame {S : A → Prop} {K : List (Event A R) → Prop}
    (hK : ∀ a, S a → ∀ r h, K h → K (⟨t, a, r⟩ :: h)) {p : Prog A R M ε α} (hp : p.Uses S)
    (hs : Sustains exec ok J t p Q h) (h0 : K h) :
    Sustains exec ok J t p (fun o h' => Q o h' ∧ K h') h := by
  induction p generalizing h with
  | pure x => exact ⟨hs, h0⟩
  | throw e => exact ⟨hs, h0⟩
  | crash => exact ⟨hs, h0⟩
  | act a k ih =>
    intro i w hi hw hh
    obtain ⟨hj, hk⟩ := hs i w hi hw hh
    exact ⟨hj, ih _ (hp.2 _) hk (hK a hp.1 _ h h0)⟩
  | locked m p k _ ih =>
    intro w hw hh
    subst hh
    refine wp_mono (wp_frame exec (J := fun w => K (own t w.hist)) (fun a ha i w hw => ?_) hp.1
      (hs w hw rfl) h0) fun o w' ⟨⟨hj, ho⟩, hk⟩ => ⟨hj, ?_⟩
    · rw [World.after_hist, own_cons_self]
      exact hK a ha _ _ hw
    · cases o with
      | ret b => exact ih b (hp.2 b) ho hk
      | exn e => exact ⟨ho, hk⟩
      | crash => exact ⟨ho, hk⟩

/-- A program that sustains `J` among other threads also does so when it runs alone. -/
theorem Sustains.alone {p : Prog A R M ε α} {w : World A R σ}
    (hs : Sustains exec ok J t p Q (own t w.hist)) (hw : J w) :
    wp exec ok free t p (fun o w' => J w' ∧ Q o (own t w'.hist)) w := by
  induction p generalizing w with
  | pure x => exact ⟨hw, hs⟩
  | throw e => exact ⟨hw, hs⟩
  | crash => exact ⟨hw, hs⟩
  | act a k ih =>
    intro i hi
    obtain ⟨hj, hk⟩ := hs i w hi hw rfl
    refine ⟨trivial, ih _ ?_ hj⟩
    rw [World.after_hist, own_cons_self]
    exact hk
  | locked m p k _ ih =>
    refine wp_locked (wp_mono (hs w hw rfl) fun o w' ⟨hj, ho⟩ => ?_)
    cases o with
    | ret b => exact ih b ho hj
    | exn e => exact ⟨hj, ho⟩
    | crash => exact ⟨hj, ho⟩

/-- What a program sustains with every action, it sustains as a section. -/
theorem Sustains.within {m : M} {p : Prog A R M ε α} (hs : Sustains exec ok J t p Q h) :
    Sustains exec ok J t (Prog.withLock m p) Q h := .withLock fun w hw hh => by
  subst hh
  exact hs.alone hw

/-- A promise under which every action keeps `J`. -/
theorem Obeys.sustains {P : A → List (Event A R) → Prop}
    (hJ : ∀ a i w, ok t a i w → P a (own t w.hist) → J w → J (w.after exec t a i))
    {p : Prog A R M ε α} (hp : Obeys P t p Q h) : Sustains exec ok J t p Q h := by
  induction p generalizing h with
  | pure x => exact hp
  | throw e => exact hp
  | crash => exact hp
  | act a k ih =>
    intro i w hi hw hh
    subst hh
    have ha := hp (fun b => (exec b i w.st).1) trivial
    exact ⟨hJ a i w hi ha.1 hw, ih _ ha.2⟩
  | locked m p k _ ih =>
    intro w hw hh
    subst hh
    refine wp_mono (wp_exec p w) fun o w' he => ?_
    obtain ⟨hj, ho⟩ := he.obeys hJ hp.of_locked hw
    refine ⟨hj, ?_⟩
    cases o with
    | ret b => exact ih b ho
    | exn e => exact ho
    | crash => exact ho

end Sustains

/-- Thread `t` can run `p` after any past and keep `J`. -/
def Upholds (exec : Interp A R I σ) (ok : Guard A R I σ) (J : World A R σ → Prop) (t : ℕ)
    (p : Prog A R M ε α) : Prop :=
  ∀ h, Sustains exec ok J t p (fun _ _ => True) h

section Upholds

theorem upholds_pure {x : α} : Upholds exec ok J t (.pure x : Prog A R M ε α) := fun _ => trivial

theorem upholds_throw {e : ε} : Upholds exec ok J t (.throw e : Prog A R M ε α) := fun _ => trivial

theorem upholds_crash : Upholds exec ok J t (.crash : Prog A R M ε α) := fun _ => trivial

theorem Upholds.bind {p : Prog A R M ε β} {f : β → Prog A R M ε α} (hp : Upholds exec ok J t p)
    (hf : ∀ x, Upholds exec ok J t (f x)) : Upholds exec ok J t (p.bind f) := fun h =>
  .seq (hp h) fun x h' _ => hf x h'

theorem Upholds.attempt {p : Prog A R M ε α} (hp : Upholds exec ok J t p) :
    Upholds exec ok J t p.attempt :=
  fun h => .attempt ((hp h).mono fun o _ _ => by cases o <;> trivial)

theorem Upholds.when {c : Bool} {p : Prog A R M ε Unit} (hp : Upholds exec ok J t p) :
    Upholds exec ok J t (Prog.when c p) := fun h => .when (fun _ => hp h) fun _ => trivial

theorem Upholds.forEach {f : β → Prog A R M ε Unit} (hf : ∀ x, Upholds exec ok J t (f x))
    (l : List β) : Upholds exec ok J t (Prog.forEach l f) := fun _ =>
  .forEach (fun _ _ => True) (fun _ x _ _ h _ => (hf x h).mono fun o _ _ => by cases o <;> trivial)
    (fun _ _ => trivial) trivial

theorem Upholds.uses {S : A → Prop}
    (hS : ∀ a, S a → ∀ i w, ok t a i w → J w → J (w.after exec t a i)) {p : Prog A R M ε α}
    (hp : p.Uses S) : Upholds exec ok J t p := fun h =>
  Obeys.sustains (P := fun a _ => S a) (fun a i w hi ha hw => hS a ha i w hi hw)
    ((Honours.uses (fun _ ha _ => ha) hp) h)

/-- A section that restores the invariant, run by itself, upholds it. -/
theorem Upholds.withLock {m : M} {p : Prog A R M ε α}
    (hp : ∀ w, J w → wp exec ok free t (Prog.withLock m p) (fun _ w' => J w') w) :
    Upholds exec ok J t (Prog.withLock m p) := fun _ =>
  .withLock fun w hw _ => wp_mono (of_wp_withLock (hp w hw)) fun _ _ hw' => ⟨hw', trivial⟩

end Upholds

variable {calls : ℕ → Prog A R M ε Unit → Prop}

/-- **One step** of the pool, sections taken as a whole. -/
theorem step_sustains (hcalls : ∀ t p, calls t p → Upholds exec ok J t p) {c c' : Conf A R M ε σ}
    (hs : Step exec ok calls c c')
    (hc : Everyone (fun t p h => Sustains exec ok J t p (fun _ _ => True) h) c) (hw : J c.world) :
    Everyone (fun t p h => Sustains exec ok J t p (fun _ _ => True) h) c' ∧ J c'.world := by
  cases hs with
  | call hn hp =>
    refine ⟨hc.put (fun p h => ?_) fun _ _ => rfl, hw⟩
    cases h
    exact hcalls _ _ hp _
  -- the past of the thread that moves grows, that of any other stays
  | @act t a k i hp hok =>
    obtain ⟨hj, hk⟩ := hc t _ hp i c.world hok hw rfl
    refine ⟨hc.put (fun p h => ?_) (fun u hu => ?_), hj⟩
    · cases h
      rw [World.after_hist, own_cons_self]
      exact hk
    · rw [World.after_hist, own_cons_ne hu]
  | @locked t β m p k o w' hp he =>
    obtain ⟨hj, ho⟩ := wp_sound he (hc t _ hp c.world hw rfl)
    refine ⟨hc.put (fun q h => ?_) (fun u hu => he.own_ne hu), hj⟩
    cases h
    cases o with
    | ret b => exact ho
    | exn e => exact trivial
    | crash => exact trivial
  | ret hp => exact ⟨hc.put (fun p h => by cases h) fun _ _ => rfl, hw⟩
  | exn hp => exact ⟨hc.put (fun p h => by cases h) fun _ _ => rfl, hw⟩

/-- **Every run** keeps what all calls uphold. -/
theorem reaches_sustains (hcalls : ∀ t p, calls t p → Upholds exec ok J t p) {w : World A R σ}
    {c : Conf A R M ε σ} (hr : Reaches exec ok calls (Conf.idle w) c) (hw : J w) : J c.world := by
  suffices h : Everyone (fun t p h => Sustains exec ok J t p (fun _ _ => True) h) c ∧ J c.world from h.2
  induction hr with
  | refl => exact ⟨everyone_idle _ w, hw⟩
  | tail _ hs ih => exact step_sustains hcalls hs ih.1 ih.2

end Interleave
