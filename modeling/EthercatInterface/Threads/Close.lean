import EthercatInterface.Lifecycle.Run
import EthercatInterface.Threads.State

/-!
# No exchange after the interface is closed

One thread calls `update_rt`, another `update_service` (as `SingleBusExecutor` runs
them). `exchange_before_close`: process data is exchanged only before `ecx_close`, in
every interleaving in which **no cycle is in flight when the interface is closed**. The
check of the bus state in `update_rt` and the exchange are separate steps, and a
`shutdown` by the operational timeout fits between them.

* `phase`: how far the `update_rt` a thread is in has got.
* `closing`: who may store which state, exchange and close, by the thread's own past.
* `CloseInv`: kept by every action whose promise holds.
-/

namespace EthercatInterface

open Interleave

/-! ## The property -/

/-- How far an `update_rt` has got: it compares the state with `Activated`, then with
`Operational`, and exchanges process data only when one comparison has succeeded. -/
inductive Phase
  | idle | first | second | passed
  deriving DecidableEq

def Phase.next (f : Phase) : (a : Act) → Ans a → Phase
  | .call .updateRt, _ => .first
  | .done .updateRt _, _ => .idle
  | .getBusState, s =>
    match f with
    | .first => if s = .activated then .passed else .second
    | .second => if s = .operational then .passed else .idle
    | f => f
  | _, _ => f

/-- The phase of a thread with the past `h`. -/
def phase (h : List Ev) : Phase := h.foldr (fun e f => f.next e.act e.ans) .idle

/-- `ecx_send_processdata` and `ecx_receive_processdata`. -/
def Act.exchanges : Act → Bool
  | .ecxSendProcessdata | .ecxReceiveProcessdata => true
  | _ => false

/-- `ecx_close` has been called. -/
def closed (h : List Ev) : Bool := h.any fun e => e.act.closes

/-- Every exchange took place before the first `ecx_close`. -/
def ExchangedOpen : List Ev → Prop :=
  Always fun e h => e.act.exchanges = true → closed h = false

/-- Whenever the interface was closed, no thread was in a cycle. -/
def Undisturbed : List Ev → Prop :=
  Always fun e h => e.act.closes = true → ∀ t, phase (own t h) ≠ .passed

/-- Only threads that have done something can be in a cycle. -/
theorem no_cycle_iff (h : List Ev) :
    (∀ e ∈ h, phase (own e.tid h) ≠ .passed) ↔ ∀ t, phase (own t h) ≠ .passed := by
  refine ⟨fun hp t ht => ?_, fun hp e _ => hp e.tid⟩
  rcases hown : own t h with _ | ⟨e, l⟩
  · rw [hown] at ht
    cases ht
  · have he : e ∈ own t h := hown ▸ List.mem_cons_self
    obtain ⟨hmem, htid⟩ := List.mem_filter.1 he
    rw [← of_decide_eq_true htid] at ht
    exact hp e hmem ht

instance (h : List Ev) : Decidable (∀ t, phase (own t h) ≠ .passed) :=
  decidable_of_iff _ (no_cycle_iff h)

instance : DecidablePred ExchangedOpen := inferInstanceAs (DecidablePred (Always _))

instance : DecidablePred Undisturbed := inferInstanceAs (DecidablePred (Always _))

theorem phase_cons (e : Ev) (h : List Ev) : phase (e :: h) = (phase h).next e.act e.ans := rfl

theorem closed_cons (e : Ev) (h : List Ev) : closed (e :: h) = (e.act.closes || closed h) := rfl

/-! ## The promise -/

/-- Thread `1` runs the service, any thread may run cycles. -/
def closing (t : ℕ) : Act → List Ev → Prop
  | .ecxSendProcessdata, h => phase h = .passed
  | .ecxReceiveProcessdata, h => phase h = .passed
  | .updateBusState s, h => t = 1 ∧ (s = .shuttingDown ∨ s = .shutdown ∨
      (s = .operational ∧ lastSeen h = some .activated))
  | .ecxClose, h => t = 1 ∧ (lastStore h = some .shuttingDown ∨ lastStore h = some .shutdown)
  | _, _ => True

variable {ps : Parameters} {hk : UserCode} {t : ℕ}

theorem closing_plain (a : Act) (ha : Plain a) (h : List Ev) : closing t a h := by
  cases a <;> first | exact trivial | exact absurd ha Bool.noConfusion

theorem closing_uses {α : Type} {p : P α} (hp : p.Uses Plain) : Honours (closing t) t p :=
  honours_plain closing_plain hp

/-! ## `update_rt` keeps it -/

theorem closing_check {h : List Ev} (hf : phase h = .first) :
    Obeys (closing t) t (stateIn [.activated, .operational])
      (fun o h' => ∀ b, o = .ret b → b = true → phase h' = .passed) h := by
  refine .bind (.perform trivial fun s => ?_)
  by_cases hs : s = .activated
  · simp only [andObeys, if_pos hs]
    intro b _ _
    rw [phase_cons, hf]
    simp [Phase.next, hs]
  simp only [andObeys, if_neg hs]
  refine .bind (.perform trivial fun s' => ?_)
  by_cases hs' : s' = .operational
  · simp only [andObeys, if_pos hs']
    intro b _ _
    rw [phase_cons, phase_cons, hf]
    simp [Phase.next, hs, hs']
  · simp only [andObeys, if_neg hs']
    intro b hb hb'
    cases hb
    cases hb'

/-- Nothing inside a cycle leaves the phase. -/
theorem closing_inner {a : Act} (ha : Inner a) (r : Ans a) {h : List Ev} (hf : phase h = .passed) :
    closing t a h ∧ phase (⟨t, a, r⟩ :: h) = .passed := by
  cases a <;> first | exact ⟨trivial, hf⟩ | exact ⟨hf, hf⟩ | exact absurd ha Bool.noConfusion | skip
  refine ⟨trivial, ?_⟩
  rw [phase_cons, hf]
  rfl

theorem closing_updateRt {h : List Ev} (hf : phase h = .first) :
    Obeys (closing t) t (updateRt ps) (fun _ _ => True) h := by
  refine .bind ((closing_check hf).mono fun o h' hb => ?_)
  cases o with
  | exn e => trivial
  | crash => trivial
  | ret b =>
    refine .bind (.raiseIf (fun _ => trivial) fun hn => ?_)
    have hp := hb b rfl (by simpa using hn)
    have hu : (internalPdoUpdate ps).Uses Inner := uses_internalPdoUpdate (fun _ h => h.plain.inner)
      fun a ha => by cases a <;> cases ha <;> rfl
    exact (Obeys.uses (J := fun h => phase h = .passed)
      (fun a ha r h hf => closing_inner ha r hf) hu hp).honours

/-- A call of `update_rt`, from its beginning. -/
theorem closing_cycle : Honours (closing t) t (Op.updateRt.invoke ps hk) := by
  refine fun h => .bind (.perform trivial fun _ => .bind (.attempt (.bind ?_)))
  have hf : phase (⟨t, .call .updateRt, ()⟩ :: h : List Ev) = .first := rfl
  refine (closing_updateRt hf).mono fun o h' _ => ?_
  cases o with
  | ret x =>
    change Obeys (closing t) t (act (.done .updateRt true)) (fun _ _ => True) h'
    exact .perform trivial fun _ => trivial
  | exn e => exact .bind (.perform trivial fun _ => trivial)
  | crash => trivial

theorem closing_transfers {o : Op} (ho : o.transfers = true) :
    Honours (closing t) t (o.invoke ps hk) := by
  have copies : ∀ {a : Act}, Plain a → ∀ h, closing t a h := fun ha h => closing_plain _ ha h
  cases o
  case updateRt => exact closing_cycle
  case readRxPdo id =>
    refine Honours.invoke (fun _ => trivial) (fun _ _ => trivial) (Honours.void ?_)
    exact .uses (S := fun a => ∀ h, closing t a h) (fun _ ha => ha)
      (uses_readRxPdo (fun _ h => copies h.plain) id fun _ _ => trivial)
  case writeRxPdo id data =>
    refine Honours.invoke (fun _ => trivial) (fun _ _ => trivial) ?_
    exact .uses (S := fun a => ∀ h, closing t a h) (fun _ ha => ha)
      (uses_writeRxPdo (fun _ h => copies h.plain) id data fun _ => trivial)
  case readTxPdo id n =>
    refine Honours.invoke (fun _ => trivial) (fun _ _ => trivial) (Honours.void ?_)
    exact .uses (S := fun a => ∀ h, closing t a h) (fun _ ha => ha)
      (uses_readTxPdo (fun _ h => copies h.plain) id n fun _ _ => trivial)
  case setGenericRxPdo p rx =>
    refine Honours.invoke (fun _ => trivial) (fun _ _ => trivial) ?_
    exact .uses (S := fun a => ∀ h, closing t a h) (fun _ ha => ha) (fits_setGenericRxPdo
      (V := AnyLock) (fun _ h => copies h.modest.still.plain) trivial fun _ => trivial).uses
  all_goals cases ho

theorem closing_user {p : P Unit} (h : User ps p) : Honours (closing t) t p :=
  h.honours closing_plain (fun _ _ _ => ⟨trivial, fun _ => trivial⟩) fun _ _ => closing_transfers

/-! ## `update_service` keeps it -/

/-- A part of the teardown without a store leaves the last one. -/
theorem closing_stays {α : Type} {p : P α} {s : BusState} {h : List Ev}
    (hp : Honours (closing t) t p) (hu : p.Uses fun a => stored a = none)
    (hs : lastStore h = some s) : Obeys (closing t) t p (fun _ h' => lastStore h' = some s) h := by
  refine (Obeys.frame (J := fun h => lastStore h = some s) (fun a ha r h hs => ?_) hu (hp h) hs).mono
    fun _ _ h => h.2
  rw [lastStore_cons, ha]
  exact hs

theorem closing_closeInitialized : Honours (closing 1) 1 closeInitialized := by
  refine fun h => .withLock (.bind (.perform trivial fun _ => .bind (.perform ?_ fun _ => ?_)))
  · exact ⟨rfl, .inr (.inl rfl)⟩
  · exact .perform ⟨rfl, .inr (lastStore_cons _ _)⟩ fun _ => trivial

theorem closing_closeRunning {h : List Ev} (hs : lastStore h = some .shuttingDown) :
    Obeys (closing 1) 1 closeRunning (fun _ _ => True) h :=
  .withLock (.bind (.perform ⟨rfl, .inl hs⟩ fun _ => .perform ⟨rfl, .inr (.inl rfl)⟩ fun _ => trivial))

section Service

variable (hok : hk.Ok ps)
include hok

theorem closing_callbacks (h : Hook) :
    Honours (closing t) t (forDevices (.callback h) fun p _ => onCallback hk h p) :=
  honours_callbacks (fun _ => trivial) (fun _ _ => trivial) (fun _ _ => trivial)
    fun p => closing_user (hok.hook h p)

theorem closing_teardown : Honours (closing 1) 1 (teardown hk) := by
  have calm : ∀ a, Plain a → stored a = none := fun a ha => ha.calm.stored
  refine fun h => .bind (.perform ⟨rfl, .inl rfl⟩ fun _ => ?_)
  have hs : lastStore (⟨1, .updateBusState .shuttingDown, ()⟩ :: h : List Ev) = some .shuttingDown :=
    lastStore_cons _ _
  refine .seq (closing_stays (closing_callbacks hok _) (uses_callbacks rfl (fun _ => rfl)
    (fun _ => rfl) fun p => (hok.hook _ p).calm.mono fun a ha => ha.stored) hs) fun _ h₁ hs => ?_
  refine .seq (closing_stays (closing_uses (plain_setDeviceTargetState _ _))
    (uses_plain calm (plain_setDeviceTargetState _ _)) hs) fun _ h₂ hs => ?_
  refine .seq (closing_stays (closing_uses (plain_waitForDeviceTargetState _ _))
    (uses_plain calm (plain_waitForDeviceTargetState _ _)) hs) fun _ h₃ hs => ?_
  refine .seq (closing_closeRunning hs) fun _ h₄ _ => ?_
  exact .seq (closing_callbacks hok _ h₄) fun _ _ _ => .perform trivial fun _ => trivial

theorem closing_shutdown : Honours (closing 1) 1 (shutdown hk) := by
  refine .bind (closing_uses (plain_stateIn _)) fun b => ?_
  split
  · exact honours_pure
  refine .bind (closing_uses (plain_stateIn _)) fun b => ?_
  split
  · exact honours_act fun _ => ⟨rfl, .inr (.inl rfl)⟩
  refine .bind (closing_uses (plain_stateIn _)) fun b => ?_
  split
  · exact closing_closeInitialized
  refine .bind (closing_uses (plain_stateIn _)) fun b => ?_
  split
  · exact closing_teardown hok
  · exact honours_throw

theorem closing_updateService : Honours (closing 1) 1 (updateService ps hk) := by
  refine honours_updateService closing_plain (fun _ => trivial) fun h => ?_
  have keeps : ∀ a, Serving a → ∀ (r : Ans a) h, lastSeen h = some .activated →
      closing 1 a h ∧ lastSeen (⟨1, a, r⟩ :: h) = some .activated := by
    intro a ha r h hs
    refine ⟨?_, ?_⟩
    · rcases ha with ha | ha
      · exact closing_plain a ha.plain h
      · cases a <;> first | exact trivial | cases ha
    · rw [lastSeen_cons, ha.stored, ha.loaded]
      exact hs
  exact obeys_bringOperational keeps
    (obeys_allInOperational keeps fun h hs => ⟨rfl, .inr (.inr ⟨rfl, hs⟩)⟩) (closing_shutdown hok)
    (lastSeen_cons _ _)

end Service

/-! ## All threads together -/

/-- What one thread with cycles and one with the service keep. -/
structure CloseInv (w : W) : Prop where
  store : ∀ s, lastStore (own 1 w.hist) = some s → w.st.state = s
  look : ∀ s, lastSeen (own 1 w.hist) = some s → w.st.state = s
  shut : closed w.hist = true → w.st.state = .shuttingDown ∨ w.st.state = .shutdown
  cycle : Undisturbed w.hist → ∀ t, phase (own t w.hist) = .passed → closed w.hist = false
  exchanged : Undisturbed w.hist → ExchangedOpen w.hist

/-- A thread gets into a cycle by seeing `Activated` or `Operational`. -/
theorem phase_passed {t : ℕ} {a : Act} {r : Ans a} {h : List Ev}
    (hp : phase (⟨t, a, r⟩ :: h) = .passed) :
    phase h = .passed ∨ loaded a r = some .activated ∨ loaded a r = some .operational := by
  rw [phase_cons] at hp
  cases a
  case getBusState =>
    simp only [Phase.next] at hp
    cases hf : phase h with
    | idle => rw [hf] at hp; cases hp
    | passed => exact .inl rfl
    | first =>
      rw [hf] at hp
      by_cases hs : r = .activated
      · exact .inr (.inl (congrArg some hs))
      · simp [hs] at hp
    | second =>
      rw [hf] at hp
      by_cases hs : r = .operational
      · exact .inr (.inr (congrArg some hs))
      · simp [hs] at hp
  case call o => cases o <;> first | exact .inl hp | cases hp
  case done o ok => cases o <;> first | exact .inl hp | cases hp
  all_goals exact .inl hp

theorem closing_store {a : Act} {h : List Ev} {v : BusState} (hc : closing t a h)
    (hv : stored a = some v) : t = 1 ∧ (v = .shuttingDown ∨ v = .shutdown ∨
      (v = .operational ∧ lastSeen h = some .activated)) := by
  cases a <;> cases hv
  exact hc

theorem closing_other {a : Act} {h : List Ev} (hc : closing t a h) (ht : t ≠ 1) :
    stored a = none := by
  cases hv : stored a with
  | none => rfl
  | some v => exact absurd (closing_store hc hv).1 ht

section Step

variable {w : W} {a : Act} {i : Env} (hw : CloseInv w) (hc : closing t a (own t w.hist))
include hw hc

theorem CloseInv.store_after (s : BusState) (hs : lastStore (own 1 (w.after exec t a i).hist) = some s) :
    (w.after exec t a i).st.state = s := by
  rw [World.after_st, state_exec]
  by_cases ht : t = 1
  · subst ht
    rw [World.after_hist, own_cons_self, lastStore_cons] at hs
    cases hv : stored a with
    | none => rw [hv] at hs; exact hw.store s hs
    | some v => rw [hv] at hs; exact Option.some.inj hs
  · rw [World.after_hist, own_cons_ne ht] at hs
    rw [closing_other hc ht]
    exact hw.store s hs

theorem CloseInv.look_after (s : BusState) (hs : lastSeen (own 1 (w.after exec t a i).hist) = some s) :
    (w.after exec t a i).st.state = s := by
  rw [World.after_st, state_exec]
  by_cases ht : t = 1
  · subst ht
    rw [World.after_hist, own_cons_self, lastSeen_cons] at hs
    cases hv : stored a with
    | some v => rw [hv] at hs; exact Option.some.inj hs
    | none =>
      rw [hv, Option.none_or] at hs
      cases hl : loaded a (exec a i w.st).1 with
      | none => rw [hl] at hs; exact hw.look s hs
      | some v =>
        rw [hl] at hs
        rw [← Option.some.inj hs, loaded_exec hl]
        rfl
  · rw [World.after_hist, own_cons_ne ht] at hs
    rw [closing_other hc ht]
    exact hw.look s hs

theorem CloseInv.shut_after (hcl : closed (w.after exec t a i).hist = true) :
    (w.after exec t a i).st.state = .shuttingDown ∨ (w.after exec t a i).st.state = .shutdown := by
  rw [World.after_hist, closed_cons] at hcl
  rcases Bool.or_eq_true_iff.1 hcl with hnow | hbefore
  · -- closed by the thread that has stored one of the two states
    cases a <;> cases hnow
    obtain ⟨rfl, h | h⟩ := hc
    · exact .inl (hw.store _ h)
    · exact .inr (hw.store _ h)
  rw [World.after_st, state_exec]
  cases hv : stored a with
  | none => exact hw.shut hbefore
  | some v =>
    obtain ⟨rfl, h | h | ⟨-, hs⟩⟩ := closing_store hc hv
    · exact .inl h
    · exact .inr h
    · have hact := hw.look _ hs
      rcases hw.shut hbefore with h | h <;> rw [hact] at h <;> cases h

omit hc in
/-- A cycle begins while the bus is not shut down, and no closing overtakes it. -/
theorem CloseInv.cycle_after (hu : Undisturbed (w.after exec t a i).hist) (u : ℕ)
    (hp : phase (own u (w.after exec t a i).hist) = .passed) :
    closed (w.after exec t a i).hist = false := by
  obtain ⟨hcycle, hu⟩ := hu
  have hbefore : phase (own u w.hist) = .passed ∨
      loaded a (exec a i w.st).1 = some .activated ∨
      loaded a (exec a i w.st).1 = some .operational := by
    by_cases ht : t = u
    · subst ht
      rw [World.after_hist, own_cons_self] at hp
      exact phase_passed hp
    · rw [World.after_hist, own_cons_ne ht] at hp
      exact .inl hp
  rw [World.after_hist, closed_cons]
  refine Bool.or_eq_false_iff.2 ?_
  rcases hbefore with hp | hl
  · refine ⟨?_, hw.cycle hu u hp⟩
    by_contra hcl
    exact hcycle (Bool.of_not_eq_false hcl) u hp
  · refine ⟨by cases a <;> first | rfl | (rcases hl with hl | hl <;> cases hl), ?_⟩
    by_contra hcl
    have hs := hw.shut (Bool.of_not_eq_false hcl)
    rcases hl with hl | hl <;> rw [← loaded_exec hl] at hs <;> rcases hs with hs | hs <;> cases hs

/-- **One action** of any thread. -/
theorem CloseInv.after : CloseInv (w.after exec t a i) where
  store := hw.store_after hc
  look := hw.look_after hc
  shut := hw.shut_after hc
  cycle := hw.cycle_after
  exchanged := fun hu => by
    refine ⟨fun he => ?_, hw.exchanged hu.2⟩
    refine hw.cycle hu.2 t ?_
    cases a <;> first | exact hc | cases he

end Step

/-- The calls of the executor: cycles on thread `0`, the service on thread `1`. -/
def executor (ps : Parameters) (t : ℕ) (p : P Unit) : Prop :=
  (t = 0 ∧ p = Op.updateRt.invoke ps .none) ∨
    (t = 1 ∧ ∃ hk : UserCode, hk.Ok ps ∧ p = Op.updateService.invoke ps hk)

theorem closing_executor (p : P Unit) (hp : executor ps t p) : Honours (closing t) t p := by
  rcases hp with ⟨rfl, rfl⟩ | ⟨rfl, hk, hok, rfl⟩
  · exact closing_cycle
  · exact Honours.invoke (fun _ => trivial) (fun _ _ => trivial) (Honours.void (closing_updateService hok))

/-- **Process data is exchanged only before the interface is closed**, in every
interleaving in which no cycle is in flight when it is closed. -/
theorem exchange_before_close {s : St} {c : Conf Act Ans (List Mutex) Exn St}
    (hr : Reaches exec free (executor ps) (Conf.idle ⟨s, []⟩) c) (hu : Undisturbed c.world.hist) :
    ExchangedOpen c.world.hist := by
  have h0 : CloseInv ⟨s, []⟩ := ⟨(fun _ h => by cases h), (fun _ h => by cases h),
    (fun h => by cases h), (fun _ _ h => by cases h), fun _ => trivial⟩
  have h := (reaches_inv (P := closing) (J := CloseInv) (fun _ => closing_executor)
    (fun _ _ _ _ _ hc hw => CloseInv.after hw hc) hr (keeps_idle closing _) h0).2
  exact h.exchanged hu

/-- A service call that runs into the operational timeout and closes the interface. -/
def timedOut : List (Choice Act Ans (List Mutex) Exn Env) :=
  .call 1 (Op.updateService.invoke {} .none) :: Choice.steps 1 11 ++
    .step 1 [{ clock := 2000000000 }] :: Choice.steps 1 15

theorem reaches_executor {l : List (Choice Act Ans (List Mutex) Exn Env)}
    (h : ∀ t p, Choice.call t p ∈ l → (t = 0 ∧ p = Op.updateRt.invoke {} .none) ∨
      (t = 1 ∧ p = Op.updateService.invoke {} .none)) :
    Reaches exec free (executor {}) (Conf.idle ⟨activatedOne, []⟩)
      ((Conf.idle ⟨activatedOne, []⟩).follow exec l) :=
  reaches_follow fun t p hp => (h t p hp).imp id fun h => ⟨h.1, .none, UserCode.none_ok _, h.2⟩

/-- A cycle that is over when the service closes the interface. -/
theorem exchange_before_close_inTurn : ExchangedOpen ((Conf.idle ⟨activatedOne, []⟩).follow exec
    (.call 0 (Op.updateRt.invoke {} .none) :: Choice.steps 0 14 ++ timedOut)).world.hist :=
  exchange_before_close (reaches_executor (by simp [timedOut, Choice.steps])) (by decide)

/-- A cycle that has checked the state before the service closes the interface, and sends after. -/
theorem exchange_after_close : ¬∀ (ps : Parameters) (s : St) (c : Conf Act Ans (List Mutex) Exn St),
    s.state = .activated → Reaches exec free (executor ps) (Conf.idle ⟨s, []⟩) c →
      ExchangedOpen c.world.hist := by
  intro h
  have hr := reaches_executor (l := .call 0 (Op.updateRt.invoke {} .none) :: Choice.steps 0 2 ++
    timedOut ++ Choice.steps 0 5) (by simp [timedOut, Choice.steps])
  exact absurd (h {} activatedOne _ (by decide) hr) (by decide)

end EthercatInterface
