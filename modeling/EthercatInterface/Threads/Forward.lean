import EthercatInterface.Lifecycle.Run
import EthercatInterface.Threads.State

/-!
# The bus state moves forward

Any number of threads call `update_service` while one calls `shutdown`.
`state_forward_iff`: the state never moves backwards **exactly when no store comes
late**, after another thread has stored a later state since the storing thread last
looked. `update_service` looks at the state once, and stores `Operational` many steps
later.
-/

namespace EthercatInterface

open Interleave

/-! ## The property -/

/-- No store moves the state of the bus, `s₀` at first, backwards. -/
def Forward (s₀ : BusState) : List Ev → Prop :=
  Always fun e h => ∀ v ∈ stored e.act, stateAfter s₀ h ≤ v

/-- The states stored, by any thread, since thread `t` last loaded the state. -/
def sinceLoad (t : ℕ) : List Ev → List BusState
  | [] => []
  | e :: h =>
    if e.tid = t ∧ (loaded e.act e.ans).isSome then [] else (stored e.act).toList ++ sinceLoad t h

/-- No store came after a later state had been stored behind the back of its thread. -/
def Timely : List Ev → Prop :=
  Always fun e h => ∀ v ∈ stored e.act, ∀ u ∈ sinceLoad e.tid h, u ≤ v

instance (s₀ : BusState) : DecidablePred (Forward s₀) := inferInstanceAs (DecidablePred (Always _))

instance : DecidablePred Timely := inferInstanceAs (DecidablePred (Always _))

/-! ## Histories -/

/-- Every load answered what was in `state_`. -/
def Truthful (s₀ : BusState) : List Ev → Prop :=
  Always fun e h => ∀ v ∈ loaded e.act e.ans, v = stateAfter s₀ h

/-- Every store went forward from what its thread had last loaded. -/
def Founded : List Ev → Prop :=
  Always fun e h => ∀ v ∈ stored e.act, ∃ s, lastLoad (own e.tid h) = some s ∧ s ≤ v

theorem BusState.le_refl (s : BusState) : s ≤ s := Nat.le_refl s.rank

theorem BusState.le_trans {a b c : BusState} (h : a ≤ b) (h' : b ≤ c) : a ≤ c := Nat.le_trans h h'

theorem stored_of_loaded {a : Act} {r : Ans a} {v : BusState} (h : loaded a r = some v) :
    stored a = none := by
  cases a <;> cases h
  rfl

/-- What is in `state_`: the last store since a thread looked, or what it saw. -/
theorem stateAfter_sinceLoad {s₀ s : BusState} {t : ℕ} {h : List Ev} (ht : Truthful s₀ h)
    (hl : lastLoad (own t h) = some s) : stateAfter s₀ h = (sinceLoad t h).headD s := by
  induction h with
  | nil => cases hl
  | cons e h ih =>
    obtain ⟨hload, ht⟩ := ht
    rw [stateAfter_cons, sinceLoad]
    by_cases he : e.tid = t
    · subst he
      have hown : own e.tid (e :: h) = e :: own e.tid h := own_cons_self _ _ _ _
      rw [hown, lastLoad_cons] at hl
      -- a load of `t` ends the search; anything else leaves it to what comes before
      cases hv : loaded e.act e.ans with
      | some v =>
        rw [hv] at hl
        obtain rfl : v = s := Option.some.inj hl
        rw [if_pos ⟨rfl, rfl⟩, stored_of_loaded hv]
        exact (hload v hv).symm
      | none =>
        rw [hv] at hl
        rw [if_neg (by simp), ih ht hl]
        cases stored e.act <;> rfl
    · have hown : own t (e :: h) = own t h := own_cons_ne he _ _ _
      rw [hown] at hl
      rw [if_neg (by simp [he]), ih ht hl]
      cases stored e.act <;> rfl

/-- Going forward, the state is the latest of those stored. -/
theorem sinceLoad_le {s₀ : BusState} {t : ℕ} {h : List Ev} (hf : Forward s₀ h) :
    ∀ u ∈ sinceLoad t h, u ≤ stateAfter s₀ h := by
  induction h with
  | nil => intro u hu; cases hu
  | cons e h ih =>
    obtain ⟨hstore, hf⟩ := hf
    intro u hu
    rw [sinceLoad] at hu
    rw [stateAfter_cons]
    split at hu
    · cases hu
    · cases hv : stored e.act with
      | none =>
        rw [hv] at hu
        exact ih hf u hu
      | some v =>
        rw [hv] at hu
        rcases List.mem_cons.1 hu with rfl | hu
        · exact BusState.le_refl u
        · exact BusState.le_trans (ih hf u hu) (hstore v hv)

/-- **Forward is timely.** -/
theorem forward_iff_timely {s₀ : BusState} {h : List Ev} (ht : Truthful s₀ h) (hfd : Founded h) :
    Forward s₀ h ↔ Timely h := by
  induction h with
  | nil => exact Iff.rfl
  | cons e h ih =>
    obtain ⟨-, ht⟩ := ht
    obtain ⟨hseen, hfd⟩ := hfd
    constructor
    · rintro ⟨hstore, hf⟩
      refine ⟨fun v hv u hu => ?_, (ih ht hfd).1 hf⟩
      exact BusState.le_trans (sinceLoad_le hf u hu) (hstore v hv)
    · rintro ⟨hsince, htm⟩
      refine ⟨fun v hv => ?_, (ih ht hfd).2 htm⟩
      obtain ⟨s, hs, hle⟩ := hseen v hv
      rw [stateAfter_sinceLoad ht hs]
      rcases hl : sinceLoad e.tid h with _ | ⟨u, l⟩
      · exact hle
      · exact hsince v hv u (hl ▸ List.mem_cons_self)

/-! ## The promise -/

/-- Store only states from the one last loaded on. -/
def forwards : Act → List Ev → Prop
  | .updateBusState v, h => ∃ s, lastLoad h = some s ∧ s ≤ v
  | _, _ => True

variable {ps : Parameters} {hk : UserCode} {t : ℕ}

theorem forwards_of_stored {a : Act} (ha : stored a = none) (h : List Ev) : forwards a h := by
  cases a <;> first | exact trivial | cases ha

theorem forwards_plain (a : Act) (ha : Plain a) (h : List Ev) : forwards a h :=
  forwards_of_stored ha.calm.stored h

theorem le_shutdown (s : BusState) : s ≤ .shutdown := by cases s <;> decide

/-- A thread that has looked may store `Shutdown`. -/
theorem forwards_storeShutdown {h : List Ev} (hl : (lastLoad h).isSome) :
    forwards (.updateBusState .shutdown) h := by
  obtain ⟨s, hs⟩ := Option.isSome_iff_exists.1 hl
  exact ⟨s, hs, le_shutdown s⟩

/-- Having looked is never undone. -/
theorem looked_cons (e : Ev) {h : List Ev} (hl : (lastLoad h).isSome) :
    (lastLoad (e :: h)).isSome := by
  rw [lastLoad_cons]
  cases loaded e.act e.ans
  · exact hl
  · rfl

/-- A part without a store, after a load. -/
theorem forwards_looked {α : Type} {p : P α} {h : List Ev} (hp : p.Uses fun a => stored a = none)
    (hl : (lastLoad h).isSome) : Obeys forwards t p (fun _ h' => (lastLoad h').isSome) h :=
  Obeys.uses (J := fun h => (lastLoad h).isSome)
    (fun _ ha _ h hl => ⟨forwards_of_stored ha h, looked_cons _ hl⟩) hp hl

section Calls

variable (hok : hk.Ok ps)
include hok

theorem forwards_teardown {s : BusState} (hs : s ≤ .shuttingDown) (h : List Ev) :
    Obeys forwards t (teardown hk) (fun _ _ => True) (⟨t, .getBusState, s⟩ :: h) := by
  have plain : ∀ {α : Type} {p : P α}, p.Uses Plain → p.Uses fun a => stored a = none :=
    fun hp => hp.mono fun _ ha => ha.calm.stored
  refine .bind (.perform ⟨s, lastLoad_cons _ _, hs⟩ fun _ => ?_)
  have hl : (lastLoad (⟨t, .updateBusState .shuttingDown, ()⟩ ::
      ⟨t, .getBusState, s⟩ :: h : List Ev)).isSome := rfl
  refine .seq (forwards_looked (stores_callbacks hok _) hl) fun _ h₁ hl => ?_
  refine .seq (forwards_looked (plain (plain_setDeviceTargetState _ _)) hl) fun _ h₂ hl => ?_
  refine .seq (forwards_looked (plain (plain_waitForDeviceTargetState _ _)) hl) fun _ h₃ hl => ?_
  refine .seq (K := fun _ _ => True) (.withLock (.bind (.perform trivial fun _ => .perform
    (forwards_storeShutdown (looked_cons _ hl)) fun _ => trivial))) fun _ h₄ _ => ?_
  exact (Honours.uses (fun _ => forwards_of_stored) ((stores_callbacks hok _).bind fun _ =>
    uses_act rfl)) h₄

theorem forwards_shutdown : Honours forwards t (shutdown hk) := by
  refine honours_ifState (fun _ => trivial) (fun _ _ _ => trivial) ?_
  refine honours_ifState (fun _ => trivial) (fun s hs h => ?_) ?_
  · exact .perform ⟨s, lastLoad_cons _ _, le_shutdown s⟩ fun _ => trivial
  refine honours_ifState (fun _ => trivial) (fun s hs h => ?_) ?_
  · have hl : (lastLoad (⟨t, .clearDevices, ()⟩ :: ⟨t, .getBusState, s⟩ :: h : List Ev)).isSome := rfl
    exact .withLock (.bind (.perform trivial fun _ => .bind (.perform (forwards_storeShutdown hl)
      fun _ => .perform trivial fun _ => trivial)))
  refine honours_ifState (fun _ => trivial) (fun s hs h => forwards_teardown hok ?_ h) honours_throw
  have : ∀ s ∈ [BusState.configured, .activated, .operational], s ≤ .shuttingDown := by decide
  exact this s hs

theorem forwards_updateService : Honours forwards t (updateService ps hk) := by
  refine honours_updateService forwards_plain (fun _ => trivial) fun h => ?_
  have keeps : ∀ a, Serving a → ∀ (r : Ans a) h, lastLoad h = some .activated →
      forwards a h ∧ lastLoad (⟨t, a, r⟩ :: h) = some .activated := by
    intro a ha r h hl
    refine ⟨forwards_of_stored ha.stored h, ?_⟩
    rw [lastLoad_cons, ha.loaded]
    exact hl
  exact obeys_bringOperational keeps (obeys_allInOperational keeps fun h hl => ⟨_, hl, by decide⟩)
    (forwards_shutdown hok) (lastLoad_cons _ _)

end Calls

/-! ## All threads together -/

/-- What every action keeps. -/
structure ForwardInv (s₀ : BusState) (w : W) : Prop where
  state : w.st.state = stateAfter s₀ w.hist
  truthful : Truthful s₀ w.hist
  founded : Founded w.hist

theorem ForwardInv.after {s₀ : BusState} {w : W} (hw : ForwardInv s₀ w) {a : Act} {i : Env}
    (hf : forwards a (own t w.hist)) : ForwardInv s₀ (w.after exec t a i) where
  state := state_after hw.state t a i
  truthful := ⟨fun v hv => by rw [← hw.state]; exact loaded_exec hv, hw.truthful⟩
  founded := ⟨fun v hv => by cases a <;> cases hv; exact hf, hw.founded⟩

/-- Any number of threads with the service. -/
def services (ps : Parameters) (t : ℕ) (p : P Unit) : Prop :=
  t ≠ 0 ∧ ∃ hk : UserCode, hk.Ok ps ∧ p = Op.updateService.invoke ps hk

/-- Thread `0` is about to call `shutdown`. -/
def aboutToShutDown (ps : Parameters) (hk : UserCode) (s : St) : Conf Act Ans (List Mutex) Exn St :=
  (Conf.idle ⟨s, []⟩).put ⟨s, []⟩ 0 (some (Op.shutdown.invoke ps hk))

theorem keeps_aboutToShutDown (hok : hk.Ok ps) (s : St) :
    Keeps (fun _ => forwards) (aboutToShutDown ps hk s) := by
  refine (keeps_idle _ _).put (fun p hp => ?_) fun _ _ => rfl
  cases hp
  exact Honours.invoke (fun _ => trivial) (fun _ _ => trivial) (forwards_shutdown hok) _

/-- **The bus state moves forward exactly when every store is timely.** -/
theorem state_forward_iff (hok : hk.Ok ps) {s : St} {c : Conf Act Ans (List Mutex) Exn St}
    (hr : Reaches exec free (services ps) (aboutToShutDown ps hk s) c) :
    c.world.st.state = stateAfter s.state c.world.hist ∧
      (Forward s.state c.world.hist ↔ Timely c.world.hist) := by
  have hcalls : ∀ t p, services ps t p → Honours forwards t p := by
    rintro t _ ⟨-, hk, hok, rfl⟩
    exact Honours.invoke (fun _ => trivial) (fun _ _ => trivial) (Honours.void (forwards_updateService hok))
  have h := (reaches_inv (P := fun _ => forwards) (J := ForwardInv s.state) hcalls
    (fun _ _ _ _ _ hf hw => hw.after hf) hr (keeps_aboutToShutDown hok s) ⟨rfl, trivial, trivial⟩).2
  exact ⟨h.state, forward_iff_timely h.truthful h.founded⟩

/-- A service call that has seen `Activated`, then `n` more steps of it after the shutdown. -/
def overtaken (n : ℕ) : List (Choice Act Ans (List Mutex) Exn Env) :=
  .call 1 (Op.updateService.invoke {} .none) :: Choice.steps 1 13 ++ Choice.steps 0 17 ++
    Choice.steps 1 n

theorem reaches_overtaken (n : ℕ) : Reaches exec free (services {})
    (aboutToShutDown {} .none activatedOne)
    ((aboutToShutDown {} .none activatedOne).follow exec (overtaken n)) := by
  refine reaches_follow fun t p hp => ?_
  obtain ⟨rfl, rfl⟩ : t = 1 ∧ p = Op.updateService.invoke {} .none := by
    simpa [overtaken, Choice.steps] using hp
  exact ⟨by decide, .none, UserCode.none_ok _, rfl⟩

/-- Up to the last step of the service, the shutdown is in order. -/
theorem state_forward_until :
    Forward .activated ((aboutToShutDown {} .none activatedOne).follow exec (overtaken 3)).world.hist :=
  (state_forward_iff (UserCode.none_ok _) (reaches_overtaken 3)).2.2 (by decide)

/-- The service reports `Operational` on a bus that has been shut down. -/
theorem state_backward : ¬∀ (ps : Parameters) (hk : UserCode) (s : St) c, hk.Ok ps → hk.Quiet →
    Reaches exec free (services ps) (aboutToShutDown ps hk s) c → Forward s.state c.world.hist := by
  intro h
  exact absurd (h {} .none activatedOne _ (UserCode.none_ok _) UserCode.none_quiet
    (reaches_overtaken 4)) (by decide)

end EthercatInterface
