import EthercatInterface.Executor.Workers
import EthercatInterface.Lib.Triple

/-!
# Spin, then stop

`stopped_once` (hooks do not throw; any number of other threads run operations outside the
lifecycle): when `stop` returns, both threads have ended, the bus is in `Shutdown`, its
interface has been closed once, and every device has received `on_pre_shutdown` and
`on_post_shutdown` once, whether the bus was shut down by `stop` or, on a timeout, by the
service thread.

The controlling thread knows at each of its steps what the workers cannot change any more:
a thread that was not started stays so, and so does one that has ended.
-/

namespace EthercatInterface

open Interleave

variable {k₀ : Core} {v : Worker} {w w' : SystemW} {i : Env × Option Exn} {ps : Parameters}
  {hk : UserCode}

/-! ## What the controlling thread knows -/

def Spins (b : Bool) (w : SystemW) : Prop := w.st.2.spinning = b

def Handle (v : Worker) (b : Bool) (w : SystemW) : Prop := (jthread w v).joinable = b

def Phased (v : Worker) (p : ThreadPhase) (w : SystemW) : Prop := (jthread w v).phase = p

/-- The service thread is not at work, and the bus is in use or shut down. -/
def Safe (k₀ : Core) (p : ThreadPhase) (w : SystemW) : Prop :=
  Phased .service p w ∧ InUse k₀ (view w)

/-- Not started yet, or over. -/
def ThreadPhase.Still (p : ThreadPhase) : Prop := p = .idle ∨ p = .ended

theorem ThreadPhase.Still.not_live {p : ThreadPhase} (h : p.Still) (hw : Phased v p w) : ¬(jthread w v).Live := by
  rintro (hl | hl) <;> rcases h with rfl | rfl <;> cases hw.symm.trans hl

theorem spins_stable (b : Bool) : (pact k₀).Stable 0 (Spins b) :=
  fun _ _ _ hr h => hr.spinning.trans h

theorem handle_stable (v : Worker) (b : Bool) : (pact k₀).Stable 0 (Handle v b) :=
  fun _ _ _ hr h => (hr.joinable v).trans h

theorem phased_stable (v : Worker) {p : ThreadPhase} (hp : p.Still) : (pact k₀).Stable 0 (Phased v p) :=
  fun _ _ _ hr h => (hr.phase v (hp.not_live h)).trans h

theorem safe_stable {p : ThreadPhase} (hp : p.Still) : (pact k₀).Stable 0 (Safe k₀ p) := by
  intro w w' hi hr h
  have hphased : (pact k₀).Stable 0 (Phased .service p) := phased_stable .service hp
  refine ⟨hphased w w' hi hr h.1, ?_⟩
  rw [hr.view (hp.not_live h.1)]
  exact h.2

/-! ## What it does -/

/-- An action that moves no thread is within the pact. -/
theorem controls {a : ExecutorAct} (ha : ∀ u p, a.phase u p = p) :
    Controlled w (w.after systemExec 0 (.inr a) i) := by
  refine ⟨fun u hu => ?_, fun _ => rfl⟩
  have hphase := a.phase_exec i.2 w.st.2 u
  rw [ha] at hphase
  exact hphase.trans hu

theorem controls_admits {a : ExecutorAct} (ha : ∀ u p, a.phase u p = p) (hb : ∀ u b, a.handle u b = b)
    (hi : (pact k₀).inv w) : (pact k₀).Admits 0 w (w.after systemExec 0 (.inr a) i) := by
  have hphase := a.phase_exec i.2 w.st.2 .service
  have hjoin := a.joinable_exec i.2 w.st.2 .service
  rw [ha] at hphase
  rw [hb] at hjoin
  exact ⟨controls ha, inv_congr hi hphase hjoin rfl⟩

/-- A thread that is not running may be started. -/
theorem start_controlled (hv : Phased v .idle w) :
    Controlled w (w.after systemExec 0 (.inr (.start v)) i) := by
  refine ⟨fun u hu => ?_, fun _ => rfl⟩
  have hne : u ≠ v := by
    rintro rfl
    cases hu.symm.trans hv
  exact (ExecutorAct.phase_exec (.start v) i.2 w.st.2 u).trans ((if_neg hne).trans hu)

theorem phase_start_ne {u : Worker} (hu : u ≠ v) :
    (jthread (w.after systemExec 0 (.inr (.start v)) i) u).phase = (jthread w u).phase :=
  (ExecutorAct.phase_exec (.start v) i.2 w.st.2 u).trans (if_neg hu)

theorem joinable_start_ne {u : Worker} (hu : u ≠ v) :
    (jthread (w.after systemExec 0 (.inr (.start v)) i) u).joinable = (jthread w u).joinable :=
  (ExecutorAct.joinable_exec (.start v) i.2 w.st.2 u).trans (if_neg hu)

theorem handle_start : Handle v true (w.after systemExec 0 (.inr (.start v)) i) :=
  (ExecutorAct.joinable_exec (.start v) i.2 w.st.2 v).trans (if_pos rfl)

/-- Where the controlling thread is to end, if it returns. -/
abbrev Finishes (T : SystemW → Prop) : Outcome Exn Unit → SystemW → Prop :=
  Outcome.Meets (fun _ => T) fun _ _ => True

/-- Going on after a part that ended in `T`. -/
theorem Finishes.seq {p : X Unit} {f : Unit → X Unit} {T T' : SystemW → Prop}
    (hp : Abides k₀ 0 p (Finishes T) w) (hf : ∀ w, T w → Abides k₀ 0 (f ()) (Finishes T') w) :
    Abides k₀ 0 (p.bind f) (Finishes T') w :=
  Secures.seq hp (fun _ w _ hw => hf w hw) (fun _ _ _ _ => trivial) fun _ _ _ => trivial

/-- After `spin`, both threads have been started. -/
def Spun (w : SystemW) : Prop := Spins true w ∧ Handle .rt true w ∧ Handle .service true w

theorem spun_stable : (pact k₀).Stable 0 Spun :=
  (spins_stable true).and ((handle_stable .rt true).and (handle_stable .service true))

/-- `spin` of an executor that has never been used. -/
theorem abides_spin (hw : Spins false w ∧ Phased .rt .idle w ∧ Safe k₀ .idle w) :
    Abides k₀ 0 spin (Finishes Spun) w := by
  have hidle : ThreadPhase.Still .idle := .inl rfl
  have start : (pact k₀).Stable 0 fun w => Phased .rt .idle w ∧ Safe k₀ .idle w :=
    (phased_stable .rt hidle).and (safe_stable hidle)
  refine Secures.step ((spins_stable false).and start) hw fun i w _ hi hw => ?_
  refine ⟨controls_admits (fun _ _ => rfl) (fun _ _ => rfl) hi, ?_⟩
  have hspin : (systemExec (.inr .spinning) i w.st).1 = false := hw.1
  rw [hspin]
  refine Secures.step start hw.2 fun i w _ hi hw => ?_
  refine ⟨controls_admits (fun _ _ => rfl) (fun _ _ => rfl) hi, ?_⟩
  -- the RT thread is started
  refine Secures.step ((spins_stable true).and start) (w := w.after systemExec 0 _ i) ⟨rfl, hw⟩
    fun i w _ hi hw => ?_
  have hservice := phase_start_ne (w := w) (i := i) (v := .rt) (u := .service) (by decide)
  have hjoin := joinable_start_ne (w := w) (i := i) (v := .rt) (u := .service) (by decide)
  refine ⟨⟨start_controlled hw.2.1, inv_congr hi hservice hjoin rfl⟩, ?_⟩
  -- and the service thread, on a bus that is in use
  refine Secures.perform ((spins_stable true).and ((handle_stable .rt true).and (safe_stable hidle)))
    ⟨hw.1, handle_start, hservice.trans hw.2.2.1, hw.2.2.2⟩ fun i w _ hi hw => ?_
  refine ⟨⟨start_controlled hw.2.2.1, fun _ => hw.2.2.2⟩, ?_⟩
  intro w' hi' hr
  exact spun_stable _ w' hi' hr ⟨hw.1, (joinable_start_ne (by decide)).trans hw.2.1, handle_start⟩

/-- `stopThread` of a thread with a handle, with all that is known besides. -/
theorem abides_stopThread {P T : SystemW → Prop} (hP : (pact k₀).Stable 0 P) (hT : (pact k₀).Stable 0 T)
    (hkeep : ∀ a w i, a = .joinable v ∨ a = .requestStop v → P w → P (w.after systemExec 0 (.inr a) i))
    (hjoin : ∀ w i, (pact k₀).inv w → P w → Handle v true w → Phased v .ended w →
      (pact k₀).inv (w.after systemExec 0 (.inr (.join v)) i) ∧ T (w.after systemExec 0 (.inr (.join v)) i))
    (hw : Handle v true w ∧ P w) : Abides k₀ 0 (stopThread v) (Finishes T) w := by
  have known : (pact k₀).Stable 0 fun w => Handle v true w ∧ P w := (handle_stable v true).and hP
  refine Secures.step known hw fun i w _ hi hw => ?_
  refine ⟨controls_admits (fun _ _ => rfl) (fun _ _ => rfl) hi, ?_⟩
  have hjoinable : (systemExec (.inr (.joinable v)) i w.st).1 = true := hw.1
  rw [hjoinable]
  refine Secures.step known (w := w.after systemExec 0 _ i) ⟨hw.1, hkeep _ w i (.inl rfl) hw.2⟩
    fun i w _ hi hw => ?_
  have hhandle : Handle v true (w.after systemExec 0 (.inr (.requestStop v)) i) :=
    (ExecutorAct.joinable_exec (.requestStop v) i.2 w.st.2 v).trans hw.1
  refine ⟨controls_admits (fun _ _ => rfl) (fun _ _ => rfl) hi, ?_⟩
  -- `join` returns when the thread has ended
  refine Secures.perform known ⟨hhandle, hkeep _ w i (.inr rfl) hw.2⟩ fun i w hok hi hw => ?_
  obtain ⟨hi', ht⟩ := hjoin w i hi hw.2 hw.1 hok
  exact ⟨⟨controls fun _ _ => rfl, hi'⟩, fun w' hi' hr => hT _ w' hi' hr ht⟩

theorem phase_join (u : Worker) :
    (jthread (w.after systemExec 0 (.inr (.join v)) i) u).phase = (jthread w u).phase :=
  ExecutorAct.phase_exec (.join v) i.2 w.st.2 u

theorem joinable_join (u : Worker) : (jthread (w.after systemExec 0 (.inr (.join v)) i) u).joinable =
    if u = v then false else (jthread w u).joinable :=
  ExecutorAct.joinable_exec (.join v) i.2 w.st.2 u

/-- Both threads are joined, and nobody but the controlling thread uses the lifecycle. -/
def Joined (w : SystemW) : Prop :=
  Phased .rt .ended w ∧ Phased .service .ended w ∧ Handle .service false w

theorem joined_stable : (pact k₀).Stable 0 Joined :=
  (phased_stable .rt (.inr rfl)).and ((phased_stable .service (.inr rfl)).and (handle_stable .service false))

/-- Nobody else changes the bus any more. -/
theorem settled_stable : (pact k₀).Stable 0 fun w => Joined w ∧ InUse k₀ (view w) := by
  intro w w' hi hr hs
  refine ⟨joined_stable w w' hi hr hs.1, ?_⟩
  exact (safe_stable (.inr rfl) w w' hi hr ⟨hs.1.2.1, hs.2⟩).2

/-- The invariant asks nothing of a service thread that has been joined. -/
theorem Joined.inv (h : Joined w) : (pact k₀).inv w := fun hr => by
  cases (hr.2 h.2.1).symm.trans h.2.2

/-- Both threads have ended, and the bus has been shut down, once. -/
def Stopped (k₀ : Core) (w : SystemW) : Prop :=
  Phased .rt .ended w ∧ Phased .service .ended w ∧ view w = k₀.shutDown

/-- The `shutdown` of a bus that is in use or shut down already. -/
theorem abides_shutdown (hok : hk.Ok ps) (hq : hk.Quiet) (hw : Joined w ∧ InUse k₀ (view w)) :
    Abides k₀ 0 (bus (shutdown hk)) (Finishes (Stopped k₀)) w := by
  have hhooks : Hooks ps False hk := ⟨hok, fun _ => hq⟩
  have hleads : lifecycle.Leads (shutdown hk) (core w.left) fun _ c' => c' = k₀.shutDown :=
    (leads_shutdown hhooks).mono fun r c' h => h.inUse hw.2
  have hconf : Confined exec executorExec systemGuard (pact k₀) 0 Joined := by
    intro a i w _ _ hj
    refine ⟨hj, ⟨fun _ hv => hv, fun hv => ?_⟩, Joined.inv (w := w.after systemExec 0 _ i) hj⟩
    cases hv.symm.trans hj.2.1
  have hstay : ∀ w w' : SystemW, (pact k₀).inv w' → (pact k₀).rely 0 w w' → Joined w →
      Joined w' ∧ core w'.left = core w.left := by
    intro w w' hi hr hj
    exact ⟨joined_stable w w' hi hr hj, hr.view (ThreadPhase.Still.not_live (.inr rfl) hj.2.1)⟩
  refine (Secures.lift (core_simulates free 0) hconf hstay hleads hw.1).mono fun o w' _ ho => ?_
  cases o with
  | ret u => exact ⟨ho.1.1, ho.1.2.1, ho.2⟩
  | exn e => trivial
  | crash => trivial

/-- `stop`, after `spin`. -/
theorem abides_stop (hok : hk.Ok ps) (hq : hk.Quiet) (hw : Spun w) :
    Abides k₀ 0 (stop hk) (Finishes (Stopped k₀)) w := by
  have hended : ThreadPhase.Still .ended := .inr rfl
  refine Secures.step spun_stable hw fun i w _ hi hw => ?_
  refine ⟨controls_admits (fun _ _ => rfl) (fun _ _ => rfl) hi, ?_⟩
  have hspin : (systemExec (.inr .spinning) i w.st).1 = true := hw.1
  rw [hspin]
  -- the RT thread
  refine Finishes.seq (T := fun w => Phased .rt .ended w ∧ Handle .service true w)
    (abides_stopThread (P := Handle .service true) (handle_stable .service true)
      ((phased_stable .rt hended).and (handle_stable .service true)) ?_ ?_ ⟨hw.2.1, hw.2.2⟩) fun w hw => ?_
  · rintro a w i (rfl | rfl) hs
    · exact hs
    · exact (ExecutorAct.joinable_exec (.requestStop .rt) i.2 w.st.2 .service).trans hs
  · intro w i hi hs _ he
    have hservice := (joinable_join (w := w) (i := i) (v := .rt) .service).trans (if_neg (by decide))
    exact ⟨inv_congr hi (phase_join _) hservice rfl, (phase_join _).trans he, hservice.trans hs⟩
  -- the service thread, which leaves the bus in use or shut down
  refine Finishes.seq (T := fun w => Joined w ∧ InUse k₀ (view w))
    (abides_stopThread (P := Phased .rt .ended) (phased_stable .rt hended) settled_stable ?_ ?_
      ⟨hw.2, hw.1⟩) fun w hw => ?_
  · rintro a w i (rfl | rfl) hs
    · exact hs
    · exact (ExecutorAct.phase_exec (.requestStop .service) i.2 w.st.2 .rt).trans hs
  · intro w i hi hs hh he
    have huse : InUse k₀ (view w) := hi ⟨fun hr => (by cases hr.symm.trans he), fun _ => hh⟩
    have hj : Joined (w.after systemExec 0 (.inr (.join .service)) i) := ⟨(phase_join _).trans hs,
      (phase_join _).trans he, (joinable_join _).trans (if_pos rfl)⟩
    exact ⟨hj.inv, hj, huse⟩
  refine Secures.step settled_stable hw fun i w _ hi hw => ?_
  refine ⟨controls_admits (fun _ _ => rfl) (fun _ _ => rfl) hi, ?_⟩
  exact abides_shutdown (w := w.after systemExec 0 _ i) hok hq hw

/-! ## Every run -/

/-- Where each thread is to end. -/
def aims (k₀ : Core) (t : ℕ) : Outcome Exn Unit → SystemW → Prop :=
  if t = 0 then Finishes (Stopped k₀) else fun _ _ => True

theorem SystemCall.abides {t : ℕ} {p : X Unit} (hp : SystemCall ps t p) (w : SystemW) :
    Abides k₀ t p (aims k₀ t) w := by
  cases hp with
  | rtThread n => exact abides_rtThread n w
  | serviceThread n hok hq => exact abides_serviceThread hok hq n w
  | user t ho hok => exact abides_user ho hok t w

theorem secured_handOver {w : W} (hs : w.st.state = .activated) (hok : hk.Ok ps) (hq : hk.Quiet) :
    Secured systemExec systemGuard (pact (core w)) (aims (core w)) (handOver w hk) := by
  have hview : view (handOver w hk).world = core w := congrArg core (World.lift_left w _)
  have huse : InUse (core w) (view (handOver w hk).world) := by
    have hup : (core w).setState .activated = core w := by rw [← hs]; rfl
    rw [hview, ← hup]
    exact InUse.up (.inl rfl)
  refine ⟨fun _ => huse, fun t p hp => ?_⟩
  simp only [handOver] at hp
  split at hp
  · next ht =>
    subst ht
    cases hp
    refine Finishes.seq (abides_spin ⟨rfl, rfl, rfl, huse⟩) fun w hw => ?_
    exact abides_stop hok hq hw
  · cases hp

/-- **`stop` returns once** both threads have ended and the bus has been shut down, once. -/
theorem stopped_once {w : W} (hr : Run ps free UserCode.Quiet w) (hs : w.st.state = .activated)
    (hok : hk.Ok ps) (hq : hk.Quiet) {c : Conf SystemAct SystemAns (List Mutex) Exn System}
    (hc : Reaches systemExec systemGuard (SystemCall ps) (handOver w hk) c)
    (hret : c.pool 0 = some (.pure ())) :
    (∀ v, (jthread c.world v).phase = .ended) ∧ c.world.left.st.state = .shutdown ∧
      (port c.world.left.hist).count .closed = 1 ∧
      ∀ p < w.st.devCount, (calls c.world.left.hist p).count .onPreShutdown = 1 ∧
        (calls c.world.left.hist p).count .onPostShutdown = 1 := by
  have hend := (reaches_secured (fun t p hp w _ => hp.abides w) hc (secured_handOver hs hok hq)).returned hret
  obtain ⟨hrt, hservice, hview⟩ : Stopped (core w) c.world := hend
  have hstate : (core w).state = .activated := hs
  have hopen : (core w).state.open := by rw [hstate]; decide
  -- the callbacks so far are those of a bus that has been activated and not shut down
  obtain ⟨hdevs, word, hword, hof⟩ := (run_callInv hr).range hopen
  rw [hstate] at hof
  obtain rfl : word = [.onStartup, .onPdoConfigured, .onPreActivate, .onPostActivate] := hof
  -- what `stop` has done to the core is one shutdown of a running bus
  have htorn : ShutDown False (core w) (.ok ()) (core w).shutDown := .torn (.inr (.inl hstate))
  obtain ⟨hst, -, hheard⟩ := ShutDown.heard_running (.inr (.inl hstate)) hdevs hword htorn
  refine ⟨fun v => by cases v <;> assumption, ?_, ?_, fun p hp => ?_⟩
  · exact (congrArg Core.state hview).trans hst
  · have hport : port c.world.left.hist = .closed :: port w.hist :=
      (congrArg Core.port hview).trans (by simp [Core.shutDown, Core.clear, Core.tornDown, Core.close,
        Core.setState, core])
    have hclosed : PortEvent.closed ∉ port w.hist := run_unclosed hr (by rw [hstate]; decide)
    rw [hport, List.count_cons_self, List.count_eq_zero_of_not_mem hclosed]
  · have hcalls : calls c.world.left.hist p = _ := (congrFun (congrArg Core.calls hview) p).trans (hheard p)
    have hcount : (core w).shutDown.devCount = w.st.devCount := by
      simp [Core.shutDown, Core.clear, Core.tornDown, Core.close, Core.setState, core]
    rw [hcalls, hcount, if_pos hp]
    decide

/-- A bus with one device, handed over in `Activated`. -/
def activatedBus : W := world [initializeOne, { op := .startup }, activateOne]

/-- Both threads are told to stop before their first round. -/
def stopSoon : List (Choice SystemAct SystemAns (List Mutex) Exn (Env × Option Exn)) :=
  Choice.steps 0 7 ++ .call 1 (rtThread {} 1) :: Choice.steps 1 5 ++ Choice.steps 0 3 ++
    .call 2 (serviceThread {} .none 1) :: Choice.steps 2 5 ++ Choice.steps 0 18

theorem stopped_once_soon :
    let c := (handOver activatedBus .none).follow systemExec stopSoon
    (∀ v, (jthread c.world v).phase = .ended) ∧ c.world.left.st.state = .shutdown ∧
      (port c.world.left.hist).count .closed = 1 ∧
      ∀ p < 1, (calls c.world.left.hist p).count .onPreShutdown = 1 ∧
        (calls c.world.left.hist p).count .onPostShutdown = 1 := by
  have hcalls : ∀ t p, Choice.call t p ∈ stopSoon → SystemCall {} t p := by
    intro t p hp
    simp only [stopSoon, List.append_assoc, List.cons_append, List.mem_append, Choice.call_mem_call,
      Choice.call_mem_steps, false_or, or_false] at hp
    rcases hp with ⟨rfl, rfl⟩ | ⟨rfl, rfl⟩
    · exact .rtThread 1
    · exact .serviceThread 1 (UserCode.none_ok {}) UserCode.none_quiet
  exact stopped_once (run_world _ (by simp [initializeOne, activateOne, UserCode.none_ok, UserCode.none_quiet]))
    (by decide) (UserCode.none_ok {}) UserCode.none_quiet (reaches_admitted hcalls (by decide +kernel))
    (pool_of_returned (by decide +kernel))

end EthercatInterface
