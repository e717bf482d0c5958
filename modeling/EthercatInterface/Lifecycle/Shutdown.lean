import EthercatInterface.Lifecycle.Interface

/-!
# A safe exit from every state

`shutdown_safe_iff` (hooks may have thrown at any call): with hooks that return,
`shutdown` returns, leaves the bus in `Shutdown` and the interface closed, exactly when
the bus is **not in `ShuttingDown`**, where an `on_pre_shutdown` hook that threw has left
it for good.
-/

namespace EthercatInterface

open Interleave

variable {ps : Parameters} {hk : UserCode} {w : W}

/-- No hook ends the process. -/
def UserCode.Survives (hk : UserCode) : Prop :=
  ∀ h p w w', ¬Exec exec free 0 (hk.hook h p) w .crash w'

/-! ## No crash of its own -/

section NoCrash

variable {α : Type} {Q : Outcome Exn α → W → Prop}

theorem wp_stateIn {Q : Outcome Exn Bool → W → Prop} : ∀ (l : List BusState) {w : W},
    (∀ b w', core w' = core w → Q (.ret b) w') → wp exec free free 0 (stateIn l) Q w
  | [], w, h => h false w rfl
  | s :: l, w, h => by
    refine wp_bind (wp_perform fun i _ => ⟨trivial, ?_⟩)
    change wp exec free free 0 (if w.st.state = s then _ else _) Q _
    split
    · exact h true _ rfl
    · exact wp_stateIn l fun b w' hw' => h b w' hw'

theorem wp_setDeviceTargetState {id : DeviceId} {s : ℕ} {Q : Outcome Exn Bool → W → Prop}
    (h : ∀ b w', core w' = core w → Q (.ret b) w') :
    wp exec free free 0 (setDeviceTargetState id s) Q w := by
  refine wp_withLock (wp_bind (wp_bind (wp_perform fun i _ => ⟨trivial, ?_⟩)))
  change wp exec free free 0 (if _ then _ else _) Q _
  split
  · exact h false _ rfl
  · refine wp_bind (wp_perform fun i _ => ⟨trivial, wp_bind (wp_perform fun j _ => ⟨trivial, ?_⟩)⟩)
    exact h _ _ rfl

theorem wp_waitForDeviceTargetState {id : DeviceId} {s : ℕ} {Q : Outcome Exn Bool → W → Prop}
    (h : ∀ b w', core w' = core w → Q (.ret b) w') :
    wp exec free free 0 (waitForDeviceTargetState id s) Q w := by
  refine wp_withLock (wp_bind (wp_perform fun i _ => ⟨trivial, ?_⟩))
  exact h _ _ (core_after w 0 _ i)

/-- A callback loop crashes only if a hook does. -/
theorem wp_callbacks (hok : hk.Ok ps) (hs : hk.Survives) (h : Hook) :
    wp exec free free 0 (forDevices (.callback h) fun p _ => onCallback hk h p)
      (fun o _ => o ≠ .crash) w := by
  refine wp_bind (wp_perform fun i _ => ⟨trivial, ?_⟩)
  refine wp_forEach (fun _ w' => w'.st.devices = w.st.devices) ?_ (fun _ _ => by simp) rfl
  intro done p rest hl w₁ hw₁
  refine wp_bind (wp_perform fun i _ => ⟨trivial, ?_⟩)
  have hmem : p ∈ w₁.st.devices := by
    rw [hw₁, show w.st.devices = _ from hl]
    simp
  rw [show (exec (.deref p) i w₁.st).1 = some (w₁.st.dev p).deviceInfo.id from if_pos hmem]
  refine wp_bind (wp_perform fun i _ => ⟨trivial, ?_⟩)
  refine wp_iff_exec.2 fun o w₂ he => ?_
  have hd := (leads_calm (Q := fun _ c => c.devices = w.st.devices) (hok.hook h p).calm
    fun _ => by exact hw₁).sound (core_simulates free 0) he
  cases o with
  | ret u => exact hd
  | exn e => simp [Outcome.andThen]
  | crash => exact absurd he (hs h p _ _)

theorem wp_teardown (hok : hk.Ok ps) (hs : hk.Survives) :
    wp exec free free 0 (teardown hk) (fun o _ => o ≠ .crash) w := by
  refine wp_bind (wp_perform fun i _ => ⟨trivial, ?_⟩)
  refine wp_bind (wp_mono (wp_callbacks hok hs _) fun o w₁ ho => ?_)
  cases o with
  | crash => exact absurd rfl ho
  | exn e => exact ho
  | ret u =>
    refine wp_bind (wp_setDeviceTargetState fun _ w₂ _ => wp_bind (wp_waitForDeviceTargetState
      fun _ w₃ _ => ?_))
    refine wp_bind (wp_withLock (wp_bind (wp_perform fun i _ => ⟨trivial, wp_perform fun j _ =>
      ⟨trivial, ?_⟩⟩)))
    refine wp_bind (wp_mono (wp_callbacks hok hs _) fun o w₄ ho => ?_)
    cases o with
    | crash => exact absurd rfl ho
    | exn e => exact ho
    | ret u => exact wp_perform fun i _ => ⟨trivial, by simp⟩

/-- `shutdown` crashes only if a hook does. -/
theorem wp_shutdown (hok : hk.Ok ps) (hs : hk.Survives) :
    wp exec free free 0 (shutdown hk) (fun o _ => o ≠ .crash) w := by
  have ifState : ∀ {l : List BusState} {p q : P Unit} {w : W},
      (∀ w, wp exec free free 0 p (fun o _ => o ≠ .crash) w) →
      (∀ w, wp exec free free 0 q (fun o _ => o ≠ .crash) w) →
      wp exec free free 0 (stateIn l >>= fun b => if b = true then p else q) (fun o _ => o ≠ .crash) w := by
    intro l p q w hp hq
    refine wp_bind (wp_stateIn l fun b w' _ => ?_)
    cases b
    · exact hq w'
    · exact hp w'
  refine ifState (fun w => by simp [wp]) fun w => ifState (fun w => ?_) fun w =>
    ifState (fun w => ?_) fun w => ifState (fun w => wp_teardown hok hs) fun w => by simp [wp]
  · exact wp_perform fun i _ => ⟨trivial, by simp⟩
  · refine wp_withLock (wp_bind (wp_perform fun i _ => ⟨trivial, wp_bind (wp_perform fun j _ =>
      ⟨trivial, wp_perform fun k _ => ⟨trivial, by simp⟩⟩)⟩))

end NoCrash

theorem wp_invoke_noCrash {o : Op}
    (h : ∀ w, wp exec free free 0 (o.body ps hk) (fun o _ => o ≠ .crash) w) :
    wp exec free free 0 (o.invoke ps hk) (fun o _ => o ≠ .crash) w := by
  refine wp_bind (wp_perform fun i _ => ⟨trivial, wp_bind (wp_attempt (wp_mono (h _) ?_))⟩)
  rintro (u | e | _) w' ho
  · exact wp_perform fun i _ => ⟨trivial, by simp⟩
  · exact wp_bind (wp_perform fun i _ => ⟨trivial, by simp [Outcome.andThen, wp]⟩)
  · exact ho

/-! ## What every run keeps -/

/-- The interface has been opened and closed. -/
def Closed (l : List PortEvent) : Prop := l.head? = some .closed

/-- Kept whatever hooks throw. -/
structure ExitInv (c : Core) : Prop where
  preInit : c.state = .preInit → c.initialized = false
  closed : c.state = .shutdown → c.initialized = true → Closed c.port

variable {c c' : Core} {throws : Prop}

theorem ExitInv.of_open (h : c.state.open) : ExitInv c :=
  ⟨fun hs => absurd hs h.1, fun hs => absurd hs h.2⟩

theorem ShutDown.exitInv {r : Except Exn Unit} (h : ExitInv c) (hm : ShutDown throws c r c') :
    ExitInv c' := by
  cases hm with
  | already => exact h
  | unopened hs =>
    refine ⟨by simp [Core.setState], fun _ hi => ?_⟩
    rw [show (c.setState .shutdown).initialized = c.initialized from rfl, h.preInit hs] at hi
    cases hi
  | initialized => exact ⟨by simp [Core.close, Core.setState], fun _ _ => rfl⟩
  | stuck => exact h
  | preThrew => exact .of_open (by simp [Core.setState, BusState.open])
  | postThrew => exact ⟨by simp [Core.tornDown, Core.setState], fun _ _ => by
      simp [Core.tornDown, Core.setState, Core.close, Closed]⟩
  | torn => exact ⟨by simp [Core.clear, Core.tornDown, Core.setState], fun _ _ => by
      simp [Core.clear, Core.tornDown, Core.setState, Core.close, Closed]⟩

theorem Initialized.exitInv {r : Except Exn ℤ} (h : ExitInv c) (hm : Initialized c r c') :
    ExitInv (c'.finish .initializeBus (r.map fun _ => ())) := by
  cases hm with
  | refused => exact h
  | unopened => exact h
  | noDevices hs => exact ⟨h.preInit, fun hs' => absurd (hs.symm.trans hs') (by decide)⟩
  | opened n =>
    refine .of_open ?_
    cases r <;> simp [Except.map, Core.finish, Core.perform, Core.setState, BusState.open]

theorem StartedUp.exitInv {r : Except Exn Unit} (h : ExitInv c) (hm : StartedUp throws c r c') :
    ExitInv c' := by
  have keep : ∀ l, c.state = .initialized → ExitInv (c.notifyAll .onStartup l) := fun l hs =>
    .of_open (by simp [hs, BusState.open])
  cases hm with
  | refused => exact h
  | hookThrew _ hs => exact keep _ hs
  | aborted hs hsd => exact hsd.exitInv (keep _ hs)
  | pdoThrew => exact .of_open (by simp [Core.configured, Core.setState, BusState.open])
  | configured => exact .of_open (by simp [Core.configured, Core.setState, BusState.open])

theorem Activated.exitInv {r : Except Exn Unit} (h : ExitInv c) (hm : Activated throws c r c') :
    ExitInv c' := by
  have keep : ∀ l, c.state = .configured → ExitInv (c.notifyAll .onPreActivate l) := fun l hs =>
    .of_open (by simp [hs, BusState.open])
  cases hm with
  | refused => exact h
  | preThrew _ hs => exact keep _ hs
  | aborted hs hsd => exact hsd.exitInv (keep _ hs)
  | postThrew => exact .of_open (by simp [Core.activated, Core.setState, BusState.open])
  | activated => exact .of_open (by simp [Core.activated, Core.setState, BusState.open])

theorem Serviced.exitInv {r : Except Exn Bool} (h : ExitInv c) (hm : Serviced throws c r c') :
    ExitInv c' := by
  cases hm with
  | unchanged => exact h
  | operational => exact .of_open (by simp [Core.setState, BusState.open])
  | timeout _ hsd => exact hsd.exitInv h

theorem Destroyed.exitInv {r : Except Exn Unit} (h : ExitInv c) (hm : Destroyed throws c r c') :
    ExitInv c' := by
  obtain ⟨hsd⟩ := hm
  have h' := hsd.exitInv (c := c.clearBusAll) (by
    rw [Core.clearBusAll, Core.clearBus_eq]
    exact ⟨h.preInit, h.closed⟩)
  exact ⟨h'.preInit, h'.closed⟩

theorem Moved.exitInv {o : Op} {r : Except Exn Unit} (h : ExitInv c) (hm : Moved throws c o r c') :
    ExitInv c' := by
  cases hm with
  | initialized hi => exact hi.exitInv h
  | startedUp hi => exact hi.exitInv h
  | activated hi => exact hi.exitInv h
  | shutDown hi => exact hi.exitInv h
  | serviced hi => exact hi.exitInv h
  | destroyed hi => exact hi.exitInv h
  | other => exact h

theorem run_exitInv (hr : Run ps free (fun _ => True) w) : ExitInv (core w) :=
  hr.core_inv True (fun _ _ ht => absurd trivial ht)
    ⟨fun _ => rfl, fun _ h => by cases h⟩ fun _ hm h => hm.exitInv h

/-! ## The safe exit -/

/-- A call of `shutdown`, whatever SOEM answers, returns, leaves the bus in `Shutdown`,
and the interface is closed if `initialize` has ever succeeded. -/
def SafeExit (ps : Parameters) (w : W) : Prop :=
  ∀ hk out w', hk.Ok ps → hk.Quiet → hk.Survives →
    Exec exec free 0 (Op.shutdown.invoke ps hk) w out w' →
    out = .ret () ∧ w'.st.state = .shutdown ∧ (initSucceeded w'.hist = true → Closed (port w'.hist))

/-- From that state, `shutdown` throws. -/
theorem ShutDown.not_stuck {u : Unit} (hm : ShutDown throws c (.ok u) c') :
    c.state ≠ .shuttingDown := by
  cases hm with
  | already h => rw [h]; decide
  | unopened h => rw [h]; decide
  | initialized h => rw [h]; decide
  | torn h => rcases h with h | h | h <;> rw [h] <;> decide

theorem Moved.of_shutdown {r : Except Exn Unit} (hm : Moved throws c .shutdown r c') :
    ShutDown throws c r c' := by
  cases hm with
  | shutDown h => exact h
  | other h => cases h

/-- **`shutdown` is a safe exit from every reachable state but `ShuttingDown`.** -/
theorem shutdown_safe_iff (hr : Run ps free (fun _ => True) w) :
    SafeExit ps w ↔ w.st.state ≠ .shuttingDown := by
  constructor
  · intro h hs
    have he := run_exec exec 0 (Op.shutdown.invoke ps .none) [] w
    have hsurv : UserCode.none.Survives := fun _ _ _ _ he => by cases he
    have hret := (h _ _ _ (UserCode.none_ok ps) UserCode.none_quiet hsurv he).1
    obtain ⟨r, hm, hr⟩ := invoke_moved True
      ⟨UserCode.none_ok ps, fun ht => absurd trivial ht⟩ he (by rw [hret]; simp)
    obtain rfl := hr.2 hret
    exact hm.of_shutdown.not_stuck hs
  · intro hs hk out w' hok hq hsurv he
    have hc : out ≠ .crash := wp_sound he (wp_invoke_noCrash fun _ => wp_shutdown hok hsurv)
    obtain ⟨r, hm, hr'⟩ := invoke_moved False ⟨hok, fun _ => hq⟩ he hc
    obtain ⟨rfl, hst⟩ := hm.of_shutdown.safe hs
    exact ⟨hr'.1 rfl, hst, (hm.exitInv (run_exitInv hr)).closed hst⟩

/-- A configured bus is shut down safely. -/
theorem shutdown_safe_configured : SafeExit {} (world [initializeOne, { op := .startup }]) :=
  (shutdown_safe_iff (run_world _ (by simp [initializeOne, UserCode.none_ok]))).2 (by decide)

/-- An `on_pre_shutdown` hook that throws. -/
def throwing : UserCode :=
  { UserCode.none with
    hook := fun h _ => if h = .onPreShutdown then .throw (.user true) else pure () }

/-- After an `on_pre_shutdown` hook has thrown, no `shutdown` succeeds. -/
theorem shutdown_stuck : ¬∀ ps w, Run ps free (fun _ => True) w → SafeExit ps w := by
  intro h
  have hok : throwing.Ok {} := ⟨fun k p => by
    simp only [throwing]
    split
    · exact .throw _
    · exact .ret, fun _ => .ret, fun _ => .ret⟩
  have hr : Run {} free (fun _ => True) (world [initializeOne, { op := .startup },
      { op := .shutdown, code := throwing }]) :=
    run_world _ (by simp [initializeOne, UserCode.none_ok, hok])
  have hs := h _ _ hr .none _ _ (UserCode.none_ok _) UserCode.none_quiet (fun _ _ _ _ he => by cases he)
    (run_exec exec 0 _ [] _)
  exact absurd hs.2.1 (by decide)

end EthercatInterface
