import EthercatInterface.Lib.Pool
import EthercatInterface.Lib.Triple

/-!
# Mutexes, step by step

In a pool a section is one step. Here it is opened (`Prog.opened`): the thread acquires the
mutexes together, performs the body action by action, and releases them however the body
ends. An action takes its time, from a start to a finish, when its effect takes place.

A mutex is held by the thread that has acquired it and not released it (`Holds`), and is
granted to a thread only while no thread holds it, not even the same one (`Granted`).

`no_circle`: if nested acquisitions climb in rank (`Climbs`), no thread waits for a mutex it
holds, and no threads wait for each other.
-/

namespace Interleave

/-- What a thread does when its sections are open. -/
inductive Fine (A L : Type)
  | start (a : A)
  | finish (a : A)
  | acquire (m : List L)
  | release (m : List L)

/-- Only the end of an action has an answer. -/
def Fine.Ans {A L : Type} (R : A → Type) : Fine A L → Type
  | .finish a => R a
  | _ => Unit

variable {A : Type} {R : A → Type} {L ε I σ α β : Type}

/-- Go on with `k` after a section that returned, rethrow what it threw. -/
def Prog.rethrow (r : Except ε β) (k : β → Prog A R L ε α) : Prog A R L ε α :=
  match r with
  | .ok b => k b
  | .error e => .throw e

/-- `p` with its sections open. -/
def Prog.opened : {α : Type} → Prog A R (List L) ε α → Prog (Fine A L) (Fine.Ans R) Empty ε α
  | _, .pure x => .pure x
  | _, .throw e => .throw e
  | _, .crash => .crash
  | _, .act a k => .act (.start a) fun _ => .act (.finish a) fun r => (k r).opened
  | _, .locked m p k => .act (.acquire m) fun _ => p.opened.attempt.bind fun r =>
      .act (.release m) fun _ => .rethrow r fun b => (k b).opened

/-- Mutexes are no part of the state: who holds one can be read off the history. -/
def Interp.opened (exec : Interp A R I σ) : Interp (Fine A L) (Fine.Ans R) I σ
  | .start _, _, s => ((), s)
  | .finish a, i, s => exec a i s
  | .acquire _, _, s => ((), s)
  | .release _, _, s => ((), s)

/-- The calls `calls`, with their sections open. -/
def openedCalls (calls : ℕ → Prog A R (List L) ε Unit → Prop) (t : ℕ)
    (q : Prog (Fine A L) (Fine.Ans R) Empty ε Unit) : Prop :=
  ∃ p, calls t p ∧ q = p.opened

/-- Something a thread did. -/
abbrev FineEvent (A : Type) (R : A → Type) (L : Type) := Event (Fine A L) (Fine.Ans (L := L) R)

/-- The mutex `l` is held after the past `h` of a thread. -/
def Holds (l : L) : List (FineEvent A R L) → Prop
  | [] => False
  | ⟨_, .acquire m, _⟩ :: h => l ∈ m ∨ Holds l h
  | ⟨_, .release m, _⟩ :: h => l ∉ m ∧ Holds l h
  | ⟨_, .start _, _⟩ :: h => Holds l h
  | ⟨_, .finish _, _⟩ :: h => Holds l h

/-- Mutexes are acquired together, once no thread holds any of them. -/
def Granted : Guard (Fine A L) (Fine.Ans R) I σ
  | _, .acquire m, _, w => ∀ l ∈ m, ∀ u, ¬Holds l (own u w.hist)
  | _, _, _, _ => True

def decideHolds [DecidableEq L] (l : L) : ∀ h : List (FineEvent A R L), Decidable (Holds l h)
  | [] => inferInstanceAs (Decidable False)
  | ⟨_, .acquire m, _⟩ :: h =>
    have := decideHolds l h
    inferInstanceAs (Decidable (l ∈ m ∨ Holds l h))
  | ⟨_, .release m, _⟩ :: h =>
    have := decideHolds l h
    inferInstanceAs (Decidable (l ∉ m ∧ Holds l h))
  | ⟨_, .start _, _⟩ :: h => decideHolds l h
  | ⟨_, .finish _, _⟩ :: h => decideHolds l h

instance [DecidableEq L] (l : L) : DecidablePred (Holds (A := A) (R := R) l) := decideHolds l

/-- Only threads that have done something can hold a mutex. -/
theorem unheld_iff (l : L) (h : List (FineEvent A R L)) :
    (∀ e ∈ h, ¬Holds l (own e.tid h)) ↔ ∀ u, ¬Holds l (own u h) := by
  refine ⟨fun hp u hu => ?_, fun hp e _ => hp e.tid⟩
  rcases hown : own u h with _ | ⟨e, k⟩
  · rw [hown] at hu
    exact hu
  · obtain ⟨hmem, htid⟩ := List.mem_filter.1 (hown ▸ List.mem_cons_self : e ∈ own u h)
    rw [← of_decide_eq_true htid] at hu
    exact hp e hmem hu

instance [DecidableEq L] (l : L) (h : List (FineEvent A R L)) :
    Decidable (∀ u, ¬Holds l (own u h)) :=
  decidable_of_iff _ (unheld_iff l h)

instance [DecidableEq L] : ∀ t (a : Fine A L) (i : I) (w : World (Fine A L) (Fine.Ans R) σ),
    Decidable (Granted t a i w)
  | _, .start _, _, _ => isTrue trivial
  | _, .finish _, _, _ => isTrue trivial
  | _, .release _, _, _ => isTrue trivial
  | _, .acquire m, _, w => inferInstanceAs (Decidable (∀ l ∈ m, ∀ u, ¬Holds l (own u w.hist)))

/-- No mutex has two owners. -/
def Exclusive (h : List (FineEvent A R L)) : Prop :=
  ∀ l t u, Holds l (own t h) → Holds l (own u h) → t = u

/-- What a thread does to a mutex changes only what it holds. -/
theorem exclusive_after {exec : Interp A R I σ} {w : World (Fine A L) (Fine.Ans R) σ} {t : ℕ}
    {a : Fine A L} {i : I} (hg : Granted t a i w) (hw : Exclusive w.hist) :
    Exclusive (w.after exec.opened t a i).hist := by
  -- a mutex is held as before, or has just been granted while nobody held it
  have before : ∀ l u, Holds l (own u (w.after exec.opened t a i).hist) →
      Holds l (own u w.hist) ∨ (u = t ∧ ∀ v, ¬Holds l (own v w.hist)) := by
    intro l u hu
    by_cases hut : t = u
    · subst hut
      rw [World.after_hist, own_cons_self] at hu
      cases a with
      | start a => exact .inl hu
      | finish a => exact .inl hu
      | release m => exact .inl hu.2
      | acquire m =>
        rcases hu with hl | hu
        · exact .inr ⟨rfl, hg l hl⟩
        · exact .inl hu
    · rw [World.after_hist, own_cons_ne hut] at hu
      exact .inl hu
  intro l u v hu hv
  rcases before l u hu with hu | ⟨rfl, hn⟩
  · rcases before l v hv with hv | ⟨-, hn⟩
    · exact hw l u v hu hv
    · exact absurd hu (hn u)
  · rcases before l v hv with hv | ⟨rfl, -⟩
    · exact absurd hv (hn v)
    · rfl

/-! ## Programs with their sections open -/

theorem opened_bind (p : Prog A R (List L) ε β) (f : β → Prog A R (List L) ε α) :
    (p.bind f).opened = p.opened.bind fun x => (f x).opened := by
  induction p with
  | pure x => rfl
  | throw e => rfl
  | crash => rfl
  | act a k ih =>
    exact congrArg (Prog.act _) (funext fun _ => congrArg (Prog.act _) (funext fun r => ih r f))
  -- the continuation moves past the release, on both exits
  | locked m p k _ ih =>
    refine congrArg (Prog.act _) (funext fun _ => ?_)
    rw [Prog.bind_assoc]
    refine congrArg (Prog.bind _) (funext fun r => congrArg (Prog.act _) (funext fun _ => ?_))
    cases r with
    | ok b => exact ih b f
    | error e => rfl

section Rules

variable {P : Fine A L → List (FineEvent A R L) → Prop} {t : ℕ}
  {Q : Outcome ε α → List (FineEvent A R L) → Prop} {h : List (FineEvent A R L)}

/-- An action. -/
theorem Obeys.opened_perform {a : A} {Q : Outcome ε (R a) → List (FineEvent A R L) → Prop}
    (hs : P (.start a) h) (hf : P (.finish a) (⟨t, .start a, ()⟩ :: h))
    (hQ : ∀ r : R a, Q (.ret r) (⟨t, .finish a, r⟩ :: ⟨t, .start a, ()⟩ :: h)) :
    Obeys P t (Prog.perform a : Prog A R (List L) ε (R a)).opened Q h :=
  .act hs fun _ => .act hf hQ

/-- A section: what to show of the end of its body. -/
abbrev afterSection (P : Fine A L → List (FineEvent A R L) → Prop) (t : ℕ) (m : List L)
    (Q : Outcome ε α → List (FineEvent A R L) → Prop) :
    Outcome ε α → List (FineEvent A R L) → Prop
  | .crash, h => Q .crash h
  | o, h => P (.release m) h ∧ Q o (⟨t, .release m, ()⟩ :: h)

theorem Obeys.opened_locked {m : List L} {p : Prog A R (List L) ε β}
    {k : β → Prog A R (List L) ε α} (ha : P (.acquire m) h)
    (hp : Obeys P t p.opened (afterSection P t m fun o h' =>
      o.andThen (fun b => Obeys P t (k b).opened Q) Q h') (⟨t, .acquire m, ()⟩ :: h)) :
    Obeys P t (Prog.locked m p k).opened Q h := by
  refine .act ha fun _ => .bind (.attempt (hp.mono fun o h' ho => ?_))
  cases o with
  | ret b => exact .act ho.1 fun _ => ho.2
  | exn e => exact .act ho.1 fun _ => .throw ho.2
  | crash => exact ho

theorem Obeys.opened_withLock {m : List L} {p : Prog A R (List L) ε α} (ha : P (.acquire m) h)
    (hp : Obeys P t p.opened (afterSection P t m Q) (⟨t, .acquire m, ()⟩ :: h)) :
    Obeys P t (Prog.withLock m p).opened Q h := by
  refine .opened_locked ha (hp.mono fun o h' ho => ?_)
  cases o with
  | ret x => exact ho
  | exn e => exact ho
  | crash => exact ho

theorem Obeys.opened_attempt {p : Prog A R (List L) ε α} :
    ∀ {Q : Outcome ε (Except ε α) → List (FineEvent A R L) → Prop} {h : List (FineEvent A R L)},
      Obeys P t p.opened (fun o h' => match o with
        | .ret x => Q (.ret (.ok x)) h'
        | .exn e => Q (.ret (.error e)) h'
        | .crash => Q .crash h') h → Obeys P t p.attempt.opened Q h := by
  induction p with
  | pure x => exact fun hp => hp
  | throw e => exact fun hp => hp
  | crash => exact fun hp => hp
  | act a k ih =>
    exact fun hp i hi => ⟨(hp i hi).1, fun j hj => ⟨((hp i hi).2 j hj).1, ih _ ((hp i hi).2 j hj).2⟩⟩
  | @locked α β m p k ihp ihk =>
    intro Q h hp i hi
    refine ⟨(hp i hi).1, ?_⟩
    -- the body may end in anything that the release goes on from
    have body : Obeys P t p.attempt.opened (fun o h' => match o with
        | .ret r =>
          Obeys P t (.act (.release m) fun _ => (Prog.resume r fun b => (k b).attempt).opened) Q h'
        | .exn e => Obeys (M := Empty) P t (.act (.release m) fun _ => .throw e) Q h'
        | .crash => Q .crash h') (⟨t, .acquire m, ()⟩ :: h) := by
      refine ihp (wp_mono (of_wp_attempt (of_wp_bind (hp i hi).2)) fun o w ho => ?_)
      cases o with
      | ret b => exact fun j hj => ⟨(ho j hj).1, ihk b (ho j hj).2⟩
      | exn e => exact ho
      | crash => exact ho
    exact Obeys.bind (.attempt (body.mono fun o h' ho => by cases o <;> exact ho))

end Rules

/-- The actions of `p` and the mutexes of its sections. -/
def Fine.Within (S : A → Prop) (V : List L → Prop) : Fine A L → Prop
  | .start a => S a
  | .finish a => S a
  | .acquire m => V m
  | .release m => V m

theorem Prog.Fits.opened {S : A → Prop} {V : List L → Prop} {p : Prog A R (List L) ε α}
    (hp : p.Fits S V) : p.opened.Uses (Fine.Within S V) := by
  induction p generalizing V with
  | pure x => trivial
  | throw e => trivial
  | crash => trivial
  | act a k ih => exact ⟨hp.1, fun _ => ⟨hp.1, fun r => ih r (hp.2 r)⟩⟩
  | locked m p k ihp ihk =>
    -- the section has its own clauses in between its acquisition and its release
    refine ⟨hp.1, fun _ => ((ihp hp.2.1).mono fun a ha => ?_).attempt.bind fun r => ⟨hp.1, fun _ => ?_⟩⟩
    · cases a with
      | start a => exact ha
      | finish a => exact ha
      | acquire m => exact ha.elim
      | release m => exact ha.elim
    · cases r with
      | ok b => exact ihk b (hp.2.2 b)
      | error e => trivial

theorem Prog.Uses.opened {S : A → Prop} {p : Prog A R (List L) ε α} (hp : p.Uses S) :
    p.opened.Uses (Fine.Within S fun _ => True) := by
  induction p with
  | pure x => trivial
  | throw e => trivial
  | crash => trivial
  | act a k ih => exact ⟨hp.1, fun _ => ⟨hp.1, fun r => ih r (hp.2 r)⟩⟩
  | locked m p k ihp ihk =>
    refine ⟨trivial, fun _ => (ihp hp.1).attempt.bind fun r => ⟨trivial, fun _ => ?_⟩⟩
    cases r with
    | ok b => exact ihk b (hp.2 b)
    | error e => trivial

/-- The actions that were finished. -/
def finished (h : List (FineEvent A R L)) : List (Event A R) :=
  h.filterMap fun
    | ⟨t, .finish a, r⟩ => some ⟨t, a, r⟩
    | _ => none

/-- Thread `t` is in the middle of `a`. -/
def Running (t : ℕ) (a : A) (h : List (FineEvent A R L)) : Prop :=
  ∃ u r past, own t h = ⟨u, .start a, r⟩ :: past

/-- Who is in the middle of an action after a step has just started it, or was before. -/
theorem running_after {exec : Interp A R I σ} {w : World (Fine A L) (Fine.Ans R) σ} {t u : ℕ}
    {f : Fine A L} {i : I} {a : A} (hr : Running u a (w.after exec.opened t f i).hist) :
    (u = t ∧ f = .start a) ∨ (u ≠ t ∧ Running u a w.hist) := by
  obtain ⟨v, r, past, h⟩ := hr
  by_cases hut : t = u
  · subst hut
    rw [World.after_hist, own_cons_self] at h
    injection h with h _
    injection h with _ hf _
    exact .inl ⟨rfl, hf⟩
  · rw [World.after_hist, own_cons_ne hut] at h
    exact .inr ⟨fun h => hut h.symm, v, r, past, h⟩

/-! ## What a thread carries along -/

/-- From `J`, thread `t` keeps its promise in `p` and ends in `K` if it returns, in `E` if it
throws. -/
def Carries (P : Fine A L → List (FineEvent A R L) → Prop) (t : ℕ)
    (J : List (FineEvent A R L) → Prop) (p : Prog A R (List L) ε α)
    (K : α → List (FineEvent A R L) → Prop) (E : ε → List (FineEvent A R L) → Prop) : Prop :=
  ∀ h, J h → Obeys P t p.opened (Outcome.Meets K E) h

section Carries

variable {P : Fine A L → List (FineEvent A R L) → Prop} {t : ℕ}
  {J : List (FineEvent A R L) → Prop} {K : α → List (FineEvent A R L) → Prop}
  {E : ε → List (FineEvent A R L) → Prop}

theorem Carries.mono {J' : List (FineEvent A R L) → Prop} {K' : α → List (FineEvent A R L) → Prop}
    {E' : ε → List (FineEvent A R L) → Prop} {p : Prog A R (List L) ε α} (hp : Carries P t J p K E)
    (hJ : ∀ h, J' h → J h) (hK : ∀ x h, K x h → K' x h) (hE : ∀ e h, E e h → E' e h) :
    Carries P t J' p K' E' := by
  refine fun h hj => (hp h (hJ h hj)).mono fun o h' ho => ?_
  cases o with
  | ret x => exact hK x h' ho
  | exn e => exact hE e h' ho
  | crash => trivial

theorem Carries.pure {x : α} (hK : ∀ h, J h → K x h) :
    Carries P t J (.pure x : Prog A R (List L) ε α) K E := hK

theorem Carries.throw {e : ε} (hE : ∀ h, J h → E e h) :
    Carries P t J (.throw e : Prog A R (List L) ε α) K E := hE

theorem carries_crash : Carries P t J (.crash : Prog A R (List L) ε α) K E := fun _ _ => trivial

theorem Carries.bind {p : Prog A R (List L) ε β} {f : β → Prog A R (List L) ε α}
    {T : β → List (FineEvent A R L) → Prop} (hp : Carries P t J p T E)
    (hf : ∀ x, Carries P t (T x) (f x) K E) : Carries P t J (p.bind f) K E := by
  intro h hj
  rw [opened_bind]
  refine .bind ((hp h hj).mono fun o h' ho => ?_)
  cases o with
  | ret x => exact hf x h' ho
  | exn e => exact ho
  | crash => trivial

theorem Carries.perform {a : A} {K : R a → List (FineEvent A R L) → Prop}
    (hs : ∀ h, J h → P (.start a) h ∧ P (.finish a) (⟨t, .start a, ()⟩ :: h))
    (hK : ∀ (r : R a) h, J h → K r (⟨t, .finish a, r⟩ :: ⟨t, .start a, ()⟩ :: h)) :
    Carries P t J (Prog.perform a : Prog A R (List L) ε (R a)) K E := fun h hj =>
  .opened_perform (hs h hj).1 (hs h hj).2 fun r => hK r h hj

/-- **A section**: the body from where the mutexes are held. -/
theorem Carries.withLock {m : List L} {p : Prog A R (List L) ε α}
    {N : List (FineEvent A R L) → Prop} {T : α → List (FineEvent A R L) → Prop}
    {X : ε → List (FineEvent A R L) → Prop}
    (ha : ∀ h, J h → P (.acquire m) h ∧ N (⟨t, .acquire m, ()⟩ :: h))
    (hp : Carries P t N p T X)
    (hK : ∀ x h, T x h → P (.release m) h ∧ K x (⟨t, .release m, ()⟩ :: h))
    (hE : ∀ e h, X e h → P (.release m) h ∧ E e (⟨t, .release m, ()⟩ :: h)) :
    Carries P t J (Prog.withLock m p) K E := by
  refine fun h hj => .opened_withLock (ha h hj).1 ((hp _ (ha h hj).2).mono fun o h' ho => ?_)
  cases o with
  | ret x => exact hK x h' ho
  | exn e => exact hE e h' ho
  | crash => trivial

theorem Carries.attempt {K : Except ε α → List (FineEvent A R L) → Prop}
    {p : Prog A R (List L) ε α} (hp : Carries P t J p (fun x => K (.ok x)) fun e => K (.error e)) :
    Carries P t J p.attempt K E := by
  refine fun h hj => .opened_attempt ((hp h hj).mono fun o h' ho => ?_)
  cases o <;> exact ho

theorem Carries.when {b : Bool} {p : Prog A R (List L) ε Unit}
    {K : Unit → List (FineEvent A R L) → Prop} (ht : b = true → Carries P t J p K E)
    (hf : b = false → ∀ h, J h → K () h) : Carries P t J (Prog.when b p) K E := by
  cases b
  · exact hf rfl
  · exact ht rfl

theorem Carries.raiseIf {b : Bool} {e : ε} {K : Unit → List (FineEvent A R L) → Prop}
    (ht : b = true → ∀ h, J h → E e h) (hf : b = false → ∀ h, J h → K () h) :
    Carries P t J (Prog.raiseIf b e : Prog A R (List L) ε Unit) K E :=
  .when ht hf

/-- What every round of a loop keeps. -/
theorem Carries.forEach {f : β → Prog A R (List L) ε Unit}
    (hf : ∀ x, Carries P t J (f x) (fun _ => J) E) (l : List β) :
    Carries P t J (Prog.forEach l f) (fun _ => J) E := by
  induction l with
  | nil => exact .pure fun _ hj => hj
  | cons x l ih => exact .bind (hf x) fun _ => ih

theorem Carries.of_opened {T : Fine A L → Prop} {p : Prog A R (List L) ε α}
    (hJ : ∀ f, T f → ∀ r h, J h → P f h ∧ J (⟨t, f, r⟩ :: h)) (hp : p.opened.Uses T) :
    Carries P t J p (fun _ => J) fun _ => J := by
  refine fun h h0 => (Obeys.uses (J := J) hJ hp h0).mono fun o h' ho => ?_
  cases o with
  | ret x => exact ho
  | exn e => exact ho
  | crash => trivial

/-- What all actions and mutexes of a part keep. -/
theorem Carries.uses {S : A → Prop} {p : Prog A R (List L) ε α}
    (hJ : ∀ f : Fine A L, f.Within S (fun _ => True) → ∀ r h, J h → P f h ∧ J (⟨t, f, r⟩ :: h))
    (hp : p.Uses S) : Carries P t J p (fun _ => J) fun _ => J :=
  .of_opened hJ hp.opened

/-- The same, where it matters which mutexes those are. -/
theorem Carries.fits {S : A → Prop} {V : List L → Prop} {p : Prog A R (List L) ε α}
    (hJ : ∀ f : Fine A L, f.Within S V → ∀ r h, J h → P f h ∧ J (⟨t, f, r⟩ :: h))
    (hp : p.Fits S V) : Carries P t J p (fun _ => J) fun _ => J :=
  .of_opened hJ hp.opened

end Carries

/-! ## Ranks -/

/-- Mutexes are acquired in `p` above `n`, and inside a section above its own. -/
def Prog.Climbs (rank : L → ℕ) : ℕ → {α : Type} → Prog A R (List L) ε α → Prop
  | _, _, .pure _ => True
  | _, _, .throw _ => True
  | _, _, .crash => True
  | n, _, .act _ k => ∀ r, (k r).Climbs rank n
  | n, _, .locked m p k => (∃ top, n ≤ top ∧ (∀ l ∈ m, n ≤ rank l ∧ rank l < top) ∧
      p.Climbs rank top) ∧ ∀ b, (k b).Climbs rank n

section Climbs

variable {rank : L → ℕ} {n : ℕ}

theorem Prog.Climbs.bind {p : Prog A R (List L) ε β} {f : β → Prog A R (List L) ε α}
    (hp : p.Climbs rank n) (hf : ∀ x, (f x).Climbs rank n) : (p.bind f).Climbs rank n := by
  induction p with
  | pure x => exact hf x
  | throw e => trivial
  | crash => trivial
  | act a k ih => exact fun r => ih r (hp r) hf
  | locked m p k _ ih => exact ⟨hp.1, fun b => ih b (hp.2 b) hf⟩

theorem Prog.Climbs.attempt {p : Prog A R (List L) ε α} (hp : p.Climbs rank n) :
    p.attempt.Climbs rank n := by
  induction p generalizing n with
  | pure x => trivial
  | throw e => trivial
  | crash => trivial
  | act a k ih => exact fun r => ih r (hp r)
  | locked m p k ihp ihk =>
    obtain ⟨⟨top, hn, hm, hp⟩, hk⟩ := hp
    refine ⟨⟨top, hn, hm, ihp hp⟩, fun b => ?_⟩
    cases b with
    | ok b => exact ihk b (hk b)
    | error e => trivial

theorem Prog.climbs_withLock {m : List L} {p : Prog A R (List L) ε α} (top : ℕ) (hn : n ≤ top)
    (hm : ∀ l ∈ m, n ≤ rank l ∧ rank l < top) (hp : p.Climbs rank top) :
    (Prog.withLock m p).Climbs rank n :=
  ⟨⟨top, hn, hm, hp⟩, fun _ => trivial⟩

/-- Sections that are not nested. -/
theorem Prog.Fits.climbs {S : A → Prop} {V : List L → Prop} {p : Prog A R (List L) ε α}
    (hp : p.Fits S V) (hV : ∀ m, V m → ∃ top, n ≤ top ∧ ∀ l ∈ m, n ≤ rank l ∧ rank l < top) :
    p.Climbs rank n := by
  induction p generalizing n V with
  | pure x => trivial
  | throw e => trivial
  | crash => trivial
  | act a k ih => exact fun r => ih r (hp.2 r) hV
  | locked m p k ihp ihk =>
    obtain ⟨top, hn, hm⟩ := hV m hp.1
    exact ⟨⟨top, hn, hm, ihp hp.2.1 fun _ h => h.elim⟩, fun b => ihk b (hp.2.2 b) hV⟩

/-- What is acquired ranks above what is held. -/
def Above (rank : L → ℕ) : Fine A L → List (FineEvent A R L) → Prop
  | .acquire m, h => ∀ l ∈ m, ∀ l', Holds l' h → rank l' < rank l
  | _, _ => True

/-- **A program that climbs acquires above what it holds**, and ends with what it began. -/
theorem Prog.Climbs.obeys {t : ℕ} {p : Prog A R (List L) ε α} {h : List (FineEvent A R L)}
    (hp : p.Climbs rank n) (hn : ∀ l, Holds l h → rank l < n) :
    Obeys (Above rank) t p.opened (fun o h' => o = .crash ∨ ∀ l, Holds l h' ↔ Holds l h) h := by
  induction p generalizing n h with
  | pure x => exact .pure (.inr fun _ => Iff.rfl)
  | throw e => exact .throw (.inr fun _ => Iff.rfl)
  | crash => exact .crash (.inl rfl)
  | act a k ih =>
    exact .act trivial fun _ => .act trivial fun r =>
      ih r (hp r) (h := ⟨t, .finish a, r⟩ :: ⟨t, .start a, ()⟩ :: h) hn
  | locked m p k ihp ihk =>
    obtain ⟨⟨top, hnt, hm, hp⟩, hk⟩ := hp
    refine .opened_locked (fun l hl l' hl' => ?_) ((ihp hp fun l hl => ?_).mono fun o h' ho => ?_)
    · have h₁ := hn l' hl'
      have h₂ := (hm l hl).1
      omega
    · rcases hl with hl | hl
      · exact (hm l hl).2
      · have h₁ := hn l hl
        omega
    · -- the section gives back what it took
      have back : (∀ l, Holds l h' ↔ Holds l (⟨t, .acquire m, ()⟩ :: h)) →
          ∀ l, Holds l (⟨t, .release m, ()⟩ :: h') ↔ Holds l h := by
        intro hh l
        refine ⟨fun hl => ((hh l).1 hl.2).resolve_left hl.1, fun hl => ⟨fun hlm => ?_, (hh l).2 (.inr hl)⟩⟩
        have h₁ := hn l hl
        have h₂ := (hm l hlm).1
        omega
      cases o with
      | crash => exact .inl rfl
      | exn e => exact ⟨trivial, .inr (back (ho.resolve_left nofun))⟩
      | ret b =>
        have hb := back (ho.resolve_left nofun)
        -- what follows holds what was held before, so it climbs from the same rank
        have rest : Obeys (Above rank) t (k b).opened (fun o h'' => o = .crash ∨ ∀ l, Holds l h'' ↔ Holds l h)
            (⟨t, .release m, ()⟩ :: h') :=
          (ihk b (hk b) fun l hl => hn l ((hb l).1 hl)).mono fun o h'' ho =>
            ho.imp id fun hh l => (hh l).trans (hb l)
        exact ⟨trivial, rest⟩

/-! ## No circle -/

/-- Thread `t` is about to acquire `l`. -/
def Awaits (c : Conf (Fine A L) (Fine.Ans R) Empty ε σ) (t : ℕ) (l : L) : Prop :=
  ∃ m k, c.pool t = some (.act (.acquire m) k) ∧ l ∈ m

/-- Thread `t` has acquired `l` and not released it. -/
def Owns (c : Conf (Fine A L) (Fine.Ans R) Empty ε σ) (t : ℕ) (l : L) : Prop :=
  Holds l (own t c.world.hist)

instance [DecidableEq L] (c : Conf (Fine A L) (Fine.Ans R) Empty ε σ) (t : ℕ) (l : L) :
    Decidable (Owns c t l) :=
  inferInstanceAs (Decidable (Holds l _))

/-- Threads that climb, from call to call. -/
abbrev Climbing (rank : L → ℕ) : Conf (Fine A L) (Fine.Ans R) Empty ε σ → Prop :=
  Orderly (fun _ => Above rank) (fun _ o h => o = .crash ∨ ∀ l, ¬Holds l h) fun _ h => ∀ l, ¬Holds l h

variable {c : Conf (Fine A L) (Fine.Ans R) Empty ε σ} {t : ℕ} {l : L}

/-- Calls that climb from nothing. -/
theorem reaches_climbing {exec : Interp A R I σ} {calls : ℕ → Prog A R (List L) ε Unit → Prop}
    (hcalls : ∀ t p, calls t p → p.Climbs rank 0) {s : σ}
    (hr : Reaches exec.opened Granted (openedCalls calls) (Conf.idle ⟨s, []⟩) c) :
    Climbing rank c := by
  refine (Orderly.reaches (J := fun _ => True) ?_ ?_ ?_ (fun _ _ _ _ _ _ _ => trivial) hr
    (orderly_idle fun _ _ h => h) trivial).1
  · rintro t q ⟨p, hp, rfl⟩ h hN
    refine ((hcalls t p hp).obeys fun l hl => absurd hl (hN l)).mono fun o h' ho => ?_
    exact ho.imp id fun hh l hl => hN l ((hh l).1 hl)
  · exact fun t h hQ => hQ.resolve_left nofun
  · exact fun t e h hQ => hQ.resolve_left nofun

/-- An answer to everything. -/
def Fine.someAns (ans : (a : A) → R a) : (a : Fine A L) → Fine.Ans R a
  | .start _ => ()
  | .finish a => ans a
  | .acquire _ => ()
  | .release _ => ()

theorem Climbing.above (ans : (a : A) → R a) (hc : Climbing rank c) (hw : Awaits c t l) {l' : L} (ho : Owns c t l') :
    rank l' < rank l := by
  obtain ⟨m, k, hp, hl⟩ := hw
  exact (hc.running t _ hp).of_act (Fine.someAns ans) l hl l' ho

theorem Climbing.not_self (ans : (a : A) → R a) (hc : Climbing rank c) (hw : Awaits c t l) : ¬Owns c t l := by
  intro ho
  have h := hc.above ans hw ho
  omega

/-- **No threads wait for each other.** -/
theorem Climbing.no_circle (ans : (a : A) → R a) {N : ℕ} (hN : ∀ l, rank l < N) (hc : Climbing rank c)
    {S : Set ℕ} (hne : S.Nonempty) : ¬∀ t ∈ S, ∃ l, Awaits c t l ∧ ∃ u ∈ S, Owns c u l := by
  intro hS
  -- whoever owns what a thread waits for waits for something higher
  have higher : ∀ n, ∃ l, n ≤ rank l ∧ ∃ u ∈ S, Owns c u l := by
    intro n
    induction n with
    | zero =>
      obtain ⟨t, ht⟩ := hne
      obtain ⟨l, -, hu⟩ := hS t ht
      exact ⟨l, Nat.zero_le _, hu⟩
    | succ n ih =>
      obtain ⟨l, hn, u, hu, ho⟩ := ih
      obtain ⟨l', hw, hv⟩ := hS u hu
      have h := hc.above ans hw ho
      exact ⟨l', by omega, hv⟩
  obtain ⟨l, hl, -⟩ := higher N
  have h := hN l
  omega

end Climbs

end Interleave
