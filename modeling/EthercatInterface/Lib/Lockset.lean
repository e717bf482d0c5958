import EthercatInterface.Lib.Locks

/-!
# What is done under which mutexes

A discipline says which actions a thread may perform, and which mutexes it may acquire,
while it holds what it holds (`Discipline`). A program that respects it on every path
(`Prog.Under`) respects it in every interleaving: a thread in the middle of an action holds
mutexes that allow the action (`Disciplined.running`), and one that waits for mutexes holds
some that allow it to (`Disciplined.waiting`).
-/

namespace Interleave

/-- The actions and acquisitions that are allowed, by the mutexes held. -/
structure Discipline (A L : Type) where
  act : A → List L → Prop
  acquire : List L → List L → Prop

variable {A : Type} {R : A → Type} {L ε I σ α β γ : Type} {D : Discipline A L} {held : List L}

/-- What `p` does is allowed by `held` and the mutexes of its own sections, none of which it
acquires twice. -/
def Prog.Under (D : Discipline A L) : List L → {α : Type} → Prog A R (List L) ε α → Prop
  | _, _, .pure _ => True
  | _, _, .throw _ => True
  | _, _, .crash => True
  | held, _, .act a k => D.act a held ∧ ∀ r, (k r).Under D held
  | held, _, .locked m p k =>
    (m.Disjoint held ∧ D.acquire m held ∧ p.Under D (m ++ held)) ∧ ∀ b, (k b).Under D held

theorem Prog.under_perform {a : A} (ha : D.act a held) :
    (Prog.perform a : Prog A R (List L) ε (R a)).Under D held :=
  ⟨ha, fun _ => trivial⟩

theorem Prog.under_withLock {m : List L} {p : Prog A R (List L) ε α} (hm : m.Disjoint held)
    (ha : D.acquire m held) (hp : p.Under D (m ++ held)) : (Prog.withLock m p).Under D held :=
  ⟨⟨hm, ha, hp⟩, fun _ => trivial⟩

theorem Prog.Under.bind {p : Prog A R (List L) ε β} {f : β → Prog A R (List L) ε α}
    (hp : p.Under D held) (hf : ∀ x, (f x).Under D held) : (p.bind f).Under D held := by
  induction p with
  | pure x => exact hf x
  | throw e => trivial
  | crash => trivial
  | act a k ih => exact ⟨hp.1, fun r => ih r (hp.2 r) hf⟩
  | locked m p k _ ih => exact ⟨hp.1, fun b => ih b (hp.2 b) hf⟩

theorem Prog.Under.attempt {p : Prog A R (List L) ε α} (hp : p.Under D held) :
    p.attempt.Under D held := by
  induction p generalizing held with
  | pure x => trivial
  | throw e => trivial
  | crash => trivial
  | act a k ih => exact ⟨hp.1, fun r => ih r (hp.2 r)⟩
  | locked m p k ihp ihk =>
    obtain ⟨⟨hm, ha, hp⟩, hk⟩ := hp
    refine ⟨⟨hm, ha, ihp hp⟩, fun b => ?_⟩
    cases b with
    | ok b => exact ihk b (hk b)
    | error e => trivial

theorem Prog.under_when {c : Bool} {p : Prog A R (List L) ε Unit} (hp : p.Under D held) :
    (Prog.when c p).Under D held := by
  cases c
  · trivial
  · exact hp

theorem Prog.under_raiseIf {c : Bool} {e : ε} :
    (Prog.raiseIf c e : Prog A R (List L) ε Unit).Under D held :=
  Prog.under_when trivial

theorem Prog.Under.foldEach {f : γ → β → Prog A R (List L) ε γ} (hf : ∀ s x, (f s x).Under D held) :
    ∀ l s, (Prog.foldEach l f s).Under D held := by
  intro l
  induction l with
  | nil => exact fun _ => trivial
  | cons x l ih => exact fun s => (hf s x).bind fun s' => ih s'

theorem Prog.Under.forEach {f : β → Prog A R (List L) ε Unit} (hf : ∀ x, (f x).Under D held)
    (l : List β) : (Prog.forEach l f).Under D held :=
  Prog.Under.foldEach (fun _ x => hf x) l ()

/-- A part without sections, whose actions are allowed. -/
theorem Prog.Fits.under {S : A → Prop} {p : Prog A R (List L) ε α} (hp : p.Fits S fun _ => False)
    (hS : ∀ a, S a → D.act a held) : p.Under D held := by
  induction p with
  | pure x => trivial
  | throw e => trivial
  | crash => trivial
  | act a k ih => exact ⟨hS a hp.1, fun r => ih r (hp.2 r)⟩
  | locked m p k => exact hp.1.elim

/-! ## In every interleaving -/

/-- The past leaves the mutexes in `held`, and no others. -/
def HoldsAll (held : List L) (h : List (FineEvent A R L)) : Prop := ∀ l, Holds l h ↔ l ∈ held

/-- Performed, or acquired, where what is held allows it. -/
def Allowed (D : Discipline A L) : Fine A L → List (FineEvent A R L) → Prop
  | .start a, h => ∃ held, HoldsAll held h ∧ D.act a held
  | .acquire m, h => ∃ held, HoldsAll held h ∧ D.acquire m held
  | _, _ => True

/-- **A program under a discipline** does what is allowed, and ends holding what it began with. -/
theorem Prog.Under.obeys {t : ℕ} {p : Prog A R (List L) ε α} {h : List (FineEvent A R L)}
    (hp : p.Under D held) (hh : HoldsAll held h) :
    Obeys (Allowed D) t p.opened (fun o h' => o = .crash ∨ HoldsAll held h') h := by
  induction p generalizing held h with
  | pure x => exact .pure (.inr hh)
  | throw e => exact .throw (.inr hh)
  | crash => exact .crash (.inl rfl)
  | act a k ih =>
    exact .act ⟨held, hh, hp.1⟩ fun _ => .act trivial fun r =>
      ih r (hp.2 r) (h := ⟨t, .finish a, r⟩ :: ⟨t, .start a, ()⟩ :: h) hh
  | locked m p k ihp ihk =>
    obtain ⟨⟨hm, ha, hp⟩, hk⟩ := hp
    have inside : HoldsAll (m ++ held) (⟨t, .acquire m, ()⟩ :: h) := fun l =>
      (or_congr_right (hh l)).trans List.mem_append.symm
    refine .opened_locked ⟨held, hh, ha⟩ ((ihp hp inside).mono fun o h' ho => ?_)
    -- what the section acquired was not held before, so its release leaves `held`
    have back : HoldsAll (m ++ held) h' → HoldsAll held (⟨t, .release m, ()⟩ :: h') := by
      intro hin l
      refine ⟨fun hl => (List.mem_append.1 ((hin l).1 hl.2)).resolve_left hl.1, fun hl => ?_⟩
      exact ⟨fun hlm => hm hlm hl, (hin l).2 (List.mem_append_right m hl)⟩
    cases o with
    | crash => exact .inl rfl
    | exn e => exact ⟨trivial, .inr (back (ho.resolve_left nofun))⟩
    | ret b => exact ⟨trivial, ihk b (hk b) (back (ho.resolve_left nofun))⟩

/-- Every thread does what its discipline allows, mutexes have one owner, and what runs was
allowed to start. -/
structure Disciplined (D : ℕ → Discipline A L) (c : Conf (Fine A L) (Fine.Ans R) Empty ε σ) : Prop where
  orderly : Orderly (fun t => Allowed (D t)) (fun _ o h => o = .crash ∨ HoldsAll [] h)
    (fun _ => HoldsAll []) c
  exclusive : Exclusive c.world.hist
  running : ∀ t a, Running t a c.world.hist →
    ∃ held, HoldsAll held (own t c.world.hist) ∧ (D t).act a held

variable {E : ℕ → Discipline A L} {c : Conf (Fine A L) (Fine.Ans R) Empty ε σ}

/-- **Calls that each respect their thread's discipline** respect it in every interleaving. -/
theorem reaches_disciplined {exec : Interp A R I σ} {calls : ℕ → Prog A R (List L) ε Unit → Prop}
    (hcalls : ∀ t p, calls t p → p.Under (E t) []) {s : σ}
    (hr : Reaches exec.opened Granted (openedCalls calls) (Conf.idle ⟨s, []⟩) c) : Disciplined E c := by
  have empty : HoldsAll [] ([] : List (FineEvent A R L)) := fun l => ⟨False.elim, fun hl => nomatch hl⟩
  have h := Orderly.reaches (P := fun t => Allowed (E t)) (Q := fun _ o h => o = .crash ∨ HoldsAll [] h)
    (N := fun _ => HoldsAll [])
    (J := fun w => Exclusive w.hist ∧ ∀ t a, Running t a w.hist →
      ∃ held, HoldsAll held (own t w.hist) ∧ (E t).act a held) ?_ ?_ ?_ ?_ hr
    (orderly_idle fun _ => empty) ⟨fun l t u ht => ht.elim, fun t a ha => ?_⟩
  · exact ⟨h.1, h.2.1, h.2.2⟩
  · rintro t q ⟨p, hp, rfl⟩ h hN
    exact (hcalls t p hp).obeys hN
  · exact fun t h hQ => hQ.resolve_left nofun
  · exact fun t e h hQ => hQ.resolve_left nofun
  -- an action that has just started was allowed, and starting it changes nothing it holds
  · rintro t f i w hg hP ⟨hx, hrun⟩
    refine ⟨exclusive_after hg hx, fun u a ha => ?_⟩
    rcases running_after ha with ⟨rfl, rfl⟩ | ⟨hu, ha⟩
    · obtain ⟨held, hh, hact⟩ := hP
      refine ⟨held, ?_, hact⟩
      rw [World.after_hist, own_cons_self]
      exact hh
    · rw [World.after_hist, own_cons_ne fun h => hu h.symm]
      exact hrun u a ha
  · obtain ⟨u, r, past, hn⟩ := ha
    exact nomatch hn

/-- A thread that waits for mutexes may acquire them. -/
theorem Disciplined.waiting (ans : (a : A) → R a) (hc : Disciplined E c) {t : ℕ} {l : L}
    (hw : Awaits c t l) :
    ∃ m held, l ∈ m ∧ HoldsAll held (own t c.world.hist) ∧ (E t).acquire m held := by
  obtain ⟨m, k, hp, hl⟩ := hw
  obtain ⟨held, hh, ha⟩ := (hc.orderly.running t _ hp).of_act (Fine.someAns ans)
  exact ⟨m, held, hl, hh, ha⟩

end Interleave
