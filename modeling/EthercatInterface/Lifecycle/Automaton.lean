import EthercatInterface.Timing.OperationalTimeout

/-!
# The lifecycle as users see it

A user sees the state of the bus before a call, whether the call returns or throws, and the state
after it. `Transition.into` is the table of what can be seen, whatever SOEM answers and whichever
hooks throw: `taken_iff` shows that the bus takes the transitions of the table and no others.

* `Moved.into`: what an operation does to `Core` is in the table, ticks aside.
* `ticks_into`: a tick in `Activated` throws only with the bus shut down, or on the way there.
* `drives`: the run that takes a transition of the table.
-/

namespace EthercatInterface

open Interleave

/-- The operations that move a bus. -/
inductive Transition
  | initializeBus | startup | activate | updateService | shutdown | destroy
  deriving DecidableEq

namespace Transition

def op : Transition → Op
  | .initializeBus => .initializeBus
  | .startup => .startup
  | .activate => .activate
  | .updateService => .updateService
  | .shutdown => .shutdown
  | .destroy => .destroyBus

/-- Where a call that returns leaves a bus in state `s`. -/
def returns : Transition → BusState → List BusState
  | .initializeBus, .preInit => [.initialized]
  | .startup, .initialized => [.configured]
  | .activate, .configured => [.activated]
  | .updateService, .initialized => [.initialized]
  | .updateService, .configured => [.configured]
  | .updateService, .activated => [.activated, .operational]
  | .updateService, .operational => [.operational]
  | .shutdown, .shuttingDown => []
  | .shutdown, _ => [.shutdown]
  | .destroy, .shuttingDown => [.shuttingDown]
  | .destroy, .configured | .destroy, .activated | .destroy, .operational => [.shuttingDown, .shutdown]
  | .destroy, _ => [.shutdown]
  | _, _ => []

/-- Where a call that throws leaves it. -/
def throws : Transition → BusState → List BusState
  | .initializeBus, .preInit => [.preInit, .initialized]
  | .startup, .initialized => [.initialized, .configured, .shutdown]
  | .activate, .configured => [.configured, .activated, .shuttingDown, .shutdown]
  | .initializeBus, s | .startup, s | .activate, s => [s]
  | .updateService, .activated => [.shuttingDown, .shutdown]
  | .updateService, .preInit => [.preInit]
  | .updateService, .shuttingDown => [.shuttingDown]
  | .updateService, .shutdown => [.shutdown]
  | .shutdown, .shuttingDown => [.shuttingDown]
  | .shutdown, .configured | .shutdown, .activated | .shutdown, .operational => [.shuttingDown, .shutdown]
  | _, _ => []

/-- Where a call leaves the bus, by whether it returns. -/
def into (t : Transition) (returned : Bool) (s : BusState) : List BusState :=
  if returned then t.returns s else t.throws s

end Transition

variable {ps : Parameters} {hk : UserCode} {c c' : Core} {w w' : W}

/-! ## What is in the table -/

section Into

variable {th : Prop} {r : Except Exn Unit} {α : Type}

theorem mem_returns (t : Transition) {x : α} {s u : BusState} (hs : c.state = s) (hu : c'.state = u)
    (h : u ∈ t.returns s) : c'.state ∈ t.into (Except.ok x : Except Exn α).isOk c.state := by
  rw [hs, hu]
  exact h

theorem mem_throws (t : Transition) {e : Exn} {s u : BusState} (hs : c.state = s) (hu : c'.state = u)
    (h : u ∈ t.throws s) : c'.state ∈ t.into (Except.error e : Except Exn α).isOk c.state := by
  rw [hs, hu]
  exact h

theorem ShutDown.into (h : ShutDown th c r c') : c'.state ∈ Transition.shutdown.into r.isOk c.state := by
  cases h with
  | already h => exact mem_returns _ h h (by decide)
  | unopened h => exact mem_returns _ h (u := .shutdown) rfl (by decide)
  | initialized h => exact mem_returns _ h (u := .shutdown) rfl (by decide)
  | stuck h => exact mem_throws _ h h (by decide)
  | preThrew _ hs =>
    rcases hs with hs | hs | hs <;>
      exact mem_throws _ hs (u := .shuttingDown) (Core.notifyAll_state _ _ _) (by decide)
  | postThrew _ hs =>
    rcases hs with hs | hs | hs <;>
      exact mem_throws _ hs (u := .shutdown) (Core.notifyAll_state _ _ _) (by decide)
  | torn hs =>
    rcases hs with hs | hs | hs <;>
      exact mem_returns _ hs (u := .shutdown) (Core.notifyAll_state _ _ _) (by decide)

/-- Where a teardown ends that an operation has begun. -/
theorem ShutDown.among {c₀ : Core} {s : BusState} {l : List BusState} (h : ShutDown th c₀ r c')
    (hs : c₀.state = s) (hl : ∀ u ∈ Transition.shutdown.returns s ++ Transition.shutdown.throws s, u ∈ l) :
    c'.state ∈ l := by
  have hinto := h.into
  rw [hs] at hinto
  refine hl _ (List.mem_append.2 ?_)
  cases r with
  | ok u => exact .inl hinto
  | error e => exact .inr hinto

/-- Operations that are refused leave the state as it is. -/
theorem throws_refused {t : Transition} {s u : BusState} (ht : t = .initializeBus ∧ u = .preInit ∨
    t = .startup ∧ u = .initialized ∨ t = .activate ∧ u = .configured) (hs : s ≠ u) : s ∈ t.throws s := by
  rcases ht with ⟨rfl, rfl⟩ | ⟨rfl, rfl⟩ | ⟨rfl, rfl⟩ <;> cases s <;> first | exact absurd rfl hs | decide

theorem Initialized.into {r : Except Exn ℤ} (h : Initialized c r c') :
    c'.state ∈ Transition.initializeBus.into r.isOk c.state := by
  cases h with
  | refused hs => exact mem_throws _ rfl rfl (throws_refused (.inl ⟨rfl, rfl⟩) hs)
  | unopened hs => exact mem_throws _ hs hs (by decide)
  | noDevices hs => exact mem_throws _ hs (u := .preInit) hs (by decide)
  | opened n hs =>
    cases r with
    | ok k => exact mem_returns _ hs (u := .initialized) (Core.emplaceN_state _ _) (by decide)
    | error e => exact mem_throws _ hs (u := .initialized) (Core.emplaceN_state _ _) (by decide)

theorem StartedUp.into (h : StartedUp th c r c') : c'.state ∈ Transition.startup.into r.isOk c.state := by
  cases h with
  | refused hs => exact mem_throws _ rfl rfl (throws_refused (.inr (.inl ⟨rfl, rfl⟩)) hs)
  | hookThrew _ hs => exact mem_throws _ hs ((Core.notifyAll_state _ _ _).trans hs) (by decide)
  | aborted hs hd =>
    exact mem_throws _ hs rfl (hd.among ((Core.notifyAll_state _ _ _).trans hs) (by decide))
  | pdoThrew _ hs => exact mem_throws _ hs (u := .configured) (Core.notifyAll_state _ _ _) (by decide)
  | configured hs => exact mem_returns _ hs (u := .configured) (Core.notifyAll_state _ _ _) (by decide)

theorem Activated.into (h : Activated th c r c') : c'.state ∈ Transition.activate.into r.isOk c.state := by
  cases h with
  | refused hs => exact mem_throws _ rfl rfl (throws_refused (.inr (.inr ⟨rfl, rfl⟩)) hs)
  | preThrew _ hs => exact mem_throws _ hs ((Core.notifyAll_state _ _ _).trans hs) (by decide)
  | aborted hs hd =>
    exact mem_throws _ hs rfl (hd.among ((Core.notifyAll_state _ _ _).trans hs) (by decide))
  | postThrew _ hs => exact mem_throws _ hs (u := .activated) (Core.notifyAll_state _ _ _) (by decide)
  | activated hs => exact mem_returns _ hs (u := .activated) (Core.notifyAll_state _ _ _) (by decide)

theorem Destroyed.into (h : Destroyed th c r c') : c'.state ∈ Transition.destroy.into r.isOk c.state := by
  cases h with
  | @destroyed r₀ c₀ hd =>
    have hclear : c.clearBusAll.state = c.state := by rw [Core.clearBusAll, Core.clearBus_eq]
    refine mem_returns _ rfl (u := c₀.state) rfl (hd.among hclear ?_)
    cases c.state <;> decide

/-- **What an operation does to the core is in the table**, ticks aside. -/
theorem Moved.into {t : Transition} (h : Moved th c t.op r c') (ht : t ≠ .updateService) :
    c'.state ∈ t.into r.isOk c.state := by
  cases t
  case updateService => exact absurd rfl ht
  case initializeBus =>
    cases h with
    | @initialized r₀ c₀ hi =>
      have hinto := hi.into
      cases r₀ <;> exact hinto
    | other ho => cases ho
  all_goals
    cases h with
    | other ho => cases ho
    | _ h => exact h.into

end Into

/-! ## Ticks -/

section Tick

variable {ok : Guard Act Ans Env St} {α : Type} {s : BusState} {Q : α → W → Prop} {E : Exn → W → Prop}

/-- The bus is in state `s`. -/
abbrev In (s : BusState) (w : W) : Prop := w.st.state = s

theorem keeps_in {a : Act} (ha : stored a = none) : (single ok free).Keeps (In s) a := fun i w _ hw =>
  ⟨trivial, (state_exec _ i w.st).trans (by rw [ha]; exact hw)⟩

/-- What never stores a state and never throws. -/
theorem in_quiet {p : P α} (hp : p.Uses fun a => stored a = none) (hn : p.NoThrow) :
    (single ok free).Triple (In s) p (fun _ => In s) E :=
  (Setting.Triple.of_keeps (fun _ => keeps_in) hp).noThrow hn

theorem in_plain {p : P α} (hp : p.Uses Plain) (hn : p.NoThrow) :
    (single ok free).Triple (In s) p (fun _ => In s) E :=
  in_quiet (hp.mono fun _ ha => ha.calm.stored) hn

theorem in_act {a : Act} (ha : stored a = none) : (single ok free).Triple (In s) (act a) (fun _ => In s) E :=
  in_quiet (uses_act ha) Prog.noThrow_perform

/-- The activation has begun. -/
def Begun (w : W) : Prop := w.st.activationStartTp.isSome = true ∧ In .activated w

theorem in_operationalTimeout : (single ok free).Triple Begun (operationalTimeout ps)
    (fun _ => In .activated) E := by
  unfold operationalTimeout
  split
  · refine .bind (T := fun _ => Begun) (.perform fun i w _ hw => ⟨trivial, hw⟩) fun now => ?_
    refine .bind (T := fun tp w => tp.isSome = true ∧ In .activated w) (.perform fun i w _ hw =>
      ⟨trivial, hw.1, hw.2⟩) fun tp => ?_
    cases tp with
    | none => exact .assume (c := False) (fun w hw => (by cases hw.1)) False.elim
    | some tp => exact .pure fun w hw => hw.2
  · exact .pure fun w hw => hw.2

theorem in_abort (hok : hk.Ok ps) {e : Exn} {Q : Unit → W → Prop} : (single ok free).Triple (In .activated)
    ((shutdown hk).bind fun _ => (.throw e : P Unit)) Q fun _ w => w.st.state ∈ [.shuttingDown, .shutdown] := by
  refine .bind (T := fun _ w => w.st.state ∈ [.shuttingDown, .shutdown]) (fun w hw => ?_) fun _ =>
    .throw fun w hw => hw
  have hh : Hooks ps True hk := ⟨hok, fun h => absurd trivial h⟩
  refine wp_iff_exec.2 fun o w' he => ?_
  have hsd := (leads_shutdown hh).sound (core_simulates ok 0) he
  cases o with
  | ret u => exact hsd.among hw (by decide)
  | exn e => exact hsd.among hw (by decide)
  | crash => trivial

theorem in_bringOperational (hok : hk.Ok ps) : (single ok free).Triple (In .activated) (bringOperational ps hk)
    (fun _ w => w.st.state ∈ [.activated, .operational])
    fun _ w => w.st.state ∈ [.shuttingDown, .shutdown] := by
  refine .bind (T := fun start w => start = w.st.activationStartTp ∧ In .activated w)
    (.perform fun i w _ hw => ⟨trivial, rfl, hw⟩) fun start => ?_
  -- the first tick stores a start, later ones find it
  refine .bind (T := fun _ => Begun) (.when (fun hn => ?_) fun hn w hw => ⟨?_, hw.2⟩) fun _ => ?_
  · exact (in_act (a := .now) rfl).mono (fun w hw => hw.2) (fun _ _ h => h) (fun _ _ h => h) |>.bind
      fun now => .perform fun i w _ hw => ⟨trivial, rfl, hw⟩
  · rw [← hw.1]
    cases start
    · cases hn
    · rfl
  refine .bind in_operationalTimeout fun late => .bind (T := fun _ => In .activated)
    (.when (fun _ => in_abort hok) fun _ _ hw => hw) fun _ => ?_
  refine .bind (in_quiet (Uses.forDevices rfl (fun _ => rfl) fun _ id =>
      ((plain_setDeviceTargetState id _).mono fun _ ha => ha.calm.stored).bind fun _ => trivial)
    (noThrow_forDevices fun _ id => (noThrow_setDeviceTargetState id _).bind fun _ => trivial)) fun _ => ?_
  refine .bind (in_quiet (uses_updateDeviceStates rfl) noThrow_updateDeviceStates) fun _ => ?_
  refine .bind (in_quiet (uses_allInOperational rfl (fun _ => rfl) fun _ => rfl) noThrow_allInOperational)
    fun all => ?_
  refine .when (fun _ => .perform fun i w _ _ => ⟨trivial, ?_⟩) fun _ w hw => by rw [hw]; decide
  exact List.mem_cons_of_mem BusState.activated List.mem_cons_self

/-- **A tick** throws in `Activated` only if it has begun to shut the bus down. -/
theorem in_updateService (hok : hk.Ok ps) : (single ok free).Triple (In s) (updateService ps hk)
    (fun _ w => w.st.state ∈ Transition.updateService.returns s)
    fun _ w => w.st.state ∈ Transition.updateService.throws s := by
  refine triple_ifState (keeps_in rfl) (fun w hw => hw) ?_
  by_cases hs : s ∈ [.preInit, .shutdown, .shuttingDown]
  · rw [decide_eq_true hs]
    intro w hw
    have hrefused : ∀ u ∈ [BusState.preInit, .shutdown, .shuttingDown],
      u ∈ Transition.updateService.throws u := by
      decide
    change w.st.state ∈ Transition.updateService.throws s
    rw [hw]
    exact hrefused s hs
  rw [decide_eq_false hs]
  have hstays : s ∈ Transition.updateService.returns s := by
    cases s <;> first | decide | exact absurd (by decide) hs
  change (single ok free).Triple (In s) (internalServiceUpdate ps hk) _ _
  refine .bind (T := fun _ => In s) (in_act rfl) fun up => .bind (T := fun _ => In s) (in_act rfl) fun _ => ?_
  refine .bind (T := fun _ => In s) (in_act rfl) fun owns => .bind (T := fun _ => In s) (in_plain
    (Prog.uses_when (Prog.uses_withLock plain_drainMailboxEvents))
    (Prog.noThrow_when (Prog.noThrow_withLock noThrow_drainMailboxEvents))) fun _ => ?_
  refine triple_branch (keeps_in rfl) (fun w hw => hw) (fun ha => ?_) fun _ => ?_
  · obtain rfl := List.mem_singleton.1 ha
    exact (in_bringOperational hok).bind fun _ => .pure fun w hw => hw
  · refine .bind (T := fun _ => In s) (in_quiet (Prog.uses_when ?_) noThrow_backgroundDiagnostics) fun _ =>
      .pure fun w hw => by rw [hw]; exact hstays
    exact (uses_updateDeviceStates (S := fun a => stored a = none) rfl).bind fun _ =>
      Prog.uses_when (plain_updateDiagnosticsSlow.mono fun _ ha => ha.calm.stored)

theorem in_tick (hok : hk.Ok ps) : (single ok free).Triple (In s) (Op.updateService.invoke ps hk)
    (fun _ w => w.st.state ∈ Transition.updateService.returns s)
    fun _ w => w.st.state ∈ Transition.updateService.throws s :=
  triple_invoke (K := In s) (keeps_in rfl) (triple_void (in_updateService hok))
    (fun _ _ _ _ hw => ⟨trivial, hw⟩) fun _ _ _ _ hw => ⟨trivial, hw⟩

end Tick

/-! ## The table is exact -/

/-- In some run of some bus, a call that returns or throws takes the bus from `s` to `s'`. -/
def Taken (t : Transition) (returned : Bool) (s s' : BusState) : Prop :=
  ∃ (ps : Parameters) (hk : UserCode) (w w' : W) (out : Outcome Exn Unit), Run ps free (fun _ => True) w ∧
    t.op.Allowed w.st ∧ hk.Ok ps ∧ Exec exec free 0 (t.op.invoke ps hk) w out w' ∧ out ≠ .crash ∧
    (returned = true ↔ out = .ret ()) ∧ w.st.state = s ∧ w'.st.state = s'

/-- A call takes a transition of the table. -/
theorem call_into {ok : Guard Act Ans Env St} {t : Transition} {out : Outcome Exn Unit} (hok : hk.Ok ps)
    (he : Exec exec ok 0 (t.op.invoke ps hk) w out w') (hc : out ≠ .crash) :
    ∃ b, (b = true ↔ out = .ret ()) ∧ w'.st.state ∈ t.into b w.st.state := by
  by_cases ht : t = .updateService
  · subst ht
    have h := (in_tick (s := w.st.state) hok).sound he rfl
    cases out with
    | ret u => exact ⟨true, by simp, h⟩
    | exn e => exact ⟨false, by simp, h⟩
    | crash => exact absurd rfl hc
  · have hh : Hooks ps True hk := ⟨hok, fun h => absurd trivial h⟩
    obtain ⟨r, hm, hr⟩ := invoke_moved True hh he hc
    refine ⟨r.isOk, ?_, hm.into ht⟩
    rw [← hr]
    cases r <;> simp [Except.isOk, Except.toBool]

/-- The hook `h` throws. -/
def throwsIn (h : Hook) : UserCode :=
  { UserCode.none with hook := fun h' _ => if h' = h then .throw (.user true) else pure () }

theorem throwsIn_ok (h : Hook) (ps : Parameters) : (throwsIn h).Ok ps := by
  refine ⟨fun h' p => ?_, fun _ => .ret, fun _ => .ret⟩
  change User ps (if h' = h then .throw (.user true) else pure ())
  split
  · exact .throw _
  · exact .ret

/-- All slaves report OPERATIONAL. -/
def operationalTick : Call :=
  { op := .updateService, env := List.replicate 40 { slaves := fun _ => { state := EC_STATE_OPERATIONAL } } }

/-- Two seconds pass between the readings of the first tick. -/
def lateFirstTick (code : UserCode) : Call :=
  { op := .updateService, code := code, env := List.replicate 11 {} ++ [{ clock := 2 * 1000000000 }] }

/-- Calls that take a new bus to a state. -/
def pathTo : BusState → List Call
  | .preInit => []
  | .initialized => [initializeOne]
  | .configured => [initializeOne, { op := .startup }]
  | .activated => [initializeOne, { op := .startup }, activateOne]
  | .operational => [initializeOne, { op := .startup }, activateOne, operationalTick]
  | .shuttingDown => [initializeOne, { op := .startup }, { op := .shutdown, code := throwsIn .onPreShutdown }]
  | .shutdown => [{ op := .shutdown }]

/-- The call that takes a transition of the table. -/
def Transition.taking : Transition → Bool → BusState → BusState → Call
  | .initializeBus, true, _, _ => initializeOne
  -- SOEM returns more slaves than it has listed
  | .initializeBus, false, _, .initialized => { initializeOne with env := List.replicate 4 { ret := 1 } }
  | .startup, false, .initialized, .initialized => { op := .startup, code := throwsIn .onStartup }
  | .startup, false, .initialized, .configured => { op := .startup, code := throwsIn .onPdoConfigured }
  | .startup, false, .initialized, .shutdown => { op := .startup, env := List.replicate 20 { ret := 9000 } }
  | .activate, true, _, _ => activateOne
  | .activate, false, .configured, .configured => { op := .activate, code := throwsIn .onPreActivate }
  | .activate, false, .configured, .activated => { activateOne with code := throwsIn .onPostActivate }
  | .activate, false, .configured, .shuttingDown => { op := .activate, code := throwsIn .onPreShutdown }
  | .updateService, true, .activated, .operational => operationalTick
  | .updateService, false, .activated, .shuttingDown => lateFirstTick (throwsIn .onPreShutdown)
  | .updateService, false, .activated, _ => lateFirstTick .none
  | .shutdown, false, _, .shuttingDown => { op := .shutdown, code := throwsIn .onPreShutdown }
  | .shutdown, false, _, .shutdown => { op := .shutdown, code := throwsIn .onPostShutdown }
  | .destroy, true, _, .shuttingDown => { op := .destroyBus, code := throwsIn .onPreShutdown }
  | t, _, _, _ => { op := t.op }

/-- How a call ends that does not crash. -/
def returned : Outcome Exn Unit → Option Bool
  | .ret _ => some true
  | .exn _ => some false
  | .crash => none

/-- The call takes the transition. -/
def Transition.drives (t : Transition) (b : Bool) (s u : BusState) : Bool :=
  let call := t.taking b s u
  let w := world (pathTo s)
  let r := run exec 0 (t.op.invoke {} call.code) call.env w
  w.st.alive && w.st.state = s && returned r.1 = some b && r.2.1.st.state = u

theorem drives (t : Transition) (b : Bool) (s : BusState) : ∀ u ∈ t.into b s, t.drives b s u = true := by
  cases t <;> cases b <;> cases s <;> decide +kernel

theorem taking_ok (t : Transition) (b : Bool) (s u : BusState) (ps : Parameters) :
    (t.taking b s u).code.Ok ps := by
  unfold Transition.taking
  split <;> first | exact UserCode.none_ok ps | exact throwsIn_ok _ ps

theorem pathTo_ok (s : BusState) : ∀ c ∈ pathTo s, c.code.Ok {} := by
  cases s <;> simp [pathTo, initializeOne, activateOne, operationalTick, UserCode.none_ok, throwsIn_ok]

/-- **The lifecycle is exactly the table.** Whatever SOEM answers and whichever hooks throw, a
call takes a transition of the table, and each transition of the table is taken by some call. -/
theorem taken_iff (t : Transition) (b : Bool) (s u : BusState) : Taken t b s u ↔ u ∈ t.into b s := by
  constructor
  · rintro ⟨ps, hk, w, w', out, -, -, hok, he, hc, hb, rfl, rfl⟩
    obtain ⟨b', hb', hinto⟩ := call_into hok he hc
    rwa [Bool.eq_iff_iff.2 (hb.trans hb'.symm)]
  · intro hu
    have hd := drives t b s u hu
    simp only [Transition.drives, Bool.and_eq_true, decide_eq_true_eq] at hd
    obtain ⟨⟨⟨halive, hs⟩, hend⟩, hstate⟩ := hd
    have hrun : Run {} free (fun _ => True) (world (pathTo s)) :=
      run_world _ fun c hc => ⟨pathTo_ok s c hc, trivial⟩
    have hfree : ∀ a i w, True → (free : Guard Act Ans Env St) 0 a i w := fun _ _ _ _ => trivial
    have he := (run_exec_of exec (G := fun _ => True) trivial hfree
      (t.op.invoke {} (t.taking b s u).code) (t.taking b s u).env (world (pathTo s)) fun _ _ => trivial).1
    refine ⟨{}, _, _, _, _, hrun, ?_, taking_ok t b s u {}, he, ?_, ?_, hs, hstate⟩
    · cases t <;> exact halive
    · intro hc
      rw [hc] at hend
      cases hend
    · revert hend
      cases (run exec 0 (t.op.invoke {} (t.taking b s u).code) (t.taking b s u).env (world (pathTo s))).1 <;>
        cases b <;> simp [returned]

/-! ## One way -/

theorem Transition.forward (t : Transition) (b : Bool) (s : BusState) : ∀ u ∈ t.into b s, s ≤ u := by
  cases t <;> cases b <;> cases s <;> decide

theorem transition_of_lifecycle {o : Op} (h : o.lifecycle = true) : ∃ t : Transition, t.op = o := by
  cases o
  case initializeBus => exact ⟨.initializeBus, rfl⟩
  case startup => exact ⟨.startup, rfl⟩
  case activate => exact ⟨.activate, rfl⟩
  case shutdown => exact ⟨.shutdown, rfl⟩
  case updateService => exact ⟨.updateService, rfl⟩
  case destroyBus => exact ⟨.destroy, rfl⟩
  all_goals cases h

theorem Moved.same {th : Prop} {o : Op} {r : Except Exn Unit} (h : Moved th c o r c')
    (hl : o.lifecycle = false) :
    c' = c := by
  cases h <;> first | rfl | cases hl

/-- **Whichever hooks throw, a bus never goes back.** -/
theorem later_forward {ok : Guard Act Ans Env St} {good : UserCode → Prop} {v : W} (h : Later ps ok good v w) :
    v.st.state ≤ w.st.state := by
  induction h with
  | now => exact BusState.le_refl _
  | @call w₁ w₂ o hk out _ _ hok _ he hc ih =>
    refine BusState.le_trans ih ?_
    by_cases hl : o.lifecycle = false
    · obtain ⟨r, hm, -⟩ := invoke_moved True ⟨hok, fun h => absurd trivial h⟩ he hc
      rw [show w₂.st.state = w₁.st.state from congrArg Core.state (hm.same hl)]
      exact BusState.le_refl _
    · obtain ⟨t, rfl⟩ := transition_of_lifecycle (Bool.not_eq_false _ ▸ hl)
      obtain ⟨b, -, hinto⟩ := call_into hok he hc
      exact t.forward b _ _ hinto

end EthercatInterface
