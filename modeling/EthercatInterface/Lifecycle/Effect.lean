import EthercatInterface.Lifecycle.Rules

/-!
# What the lifecycle operations do

For each lifecycle function of the backend, the ways it can end and the view of the
bus it leaves, as a relation on `Core` (`ShutDown`, `Initialized`, `StartedUp`,
`Activated`, `Serviced`, `Destroyed`), and the proof that the function ends in one of
them. Every result on the lifecycle is derived from these relations: no other proof
unfolds the functions.
-/

namespace EthercatInterface

open Interleave

variable {throws : Prop} {c : Core} {ps : Parameters} {hk : UserCode}

/-- The states with devices that have to be shut down. -/
def BusState.running (s : BusState) : Prop := s = .configured ∨ s = .activated ∨ s = .operational

/-- The states in which `initialize` has opened the interface. -/
def BusState.open (s : BusState) : Prop := s ≠ .preInit ∧ s ≠ .shutdown

instance (s : BusState) : Decidable s.open := inferInstanceAs (Decidable (_ ∧ _))

instance (s : BusState) : Decidable s.running := inferInstanceAs (Decidable (_ ∨ _ ∨ _))

theorem BusState.running.open {s : BusState} (h : s.running) : s.open := by
  rcases h with rfl | rfl | rfl <;> decide

namespace Core

/-- `shutdown` up to the closing of the interface. -/
def tornDown (c : Core) : Core :=
  (((c.setState .shuttingDown).notifyAll .onPreShutdown c.devices).close).setState .shutdown

@[simp] theorem tornDown_devices (c : Core) : c.tornDown.devices = c.devices :=
  notifyAll_devices .onPreShutdown c.devices (c.setState .shuttingDown)

/-- `startup` up to the notification of the devices. -/
def configured (c : Core) : Core := (c.notifyAll .onStartup c.devices).setState .configured

/-- `activate` up to the last callbacks. -/
def activated (c : Core) : Core := (c.notifyAll .onPreActivate c.devices).setState .activated

/-- `~EthercatBus` up to the destruction of the backend. -/
def clearBusAll (c : Core) : Core := { c.devices.foldl Core.clearBus c with swept := some c.devices }

theorem clearBus_devices (l : List Addr) (c : Core) : (l.foldl clearBus c).devices = c.devices := by
  induction l generalizing c with
  | nil => rfl
  | cons x l ih => exact ih (c.clearBus x)

/-- `n` devices are created. -/
def emplaceN : ℕ → Core → Core
  | 0, c => c
  | n + 1, c => (emplaceN n c).emplace

/-- `initialize` has opened the interface. -/
def opened (c : Core) : Core := { c with port := .opened :: c.port }

end Core

/-! ## `shutdown` -/

inductive ShutDown (throws : Prop) (c : Core) : Except Exn Unit → Core → Prop
  | already : c.state = .shutdown → ShutDown throws c (.ok ()) c
  | unopened : c.state = .preInit → ShutDown throws c (.ok ()) (c.setState .shutdown)
  | initialized : c.state = .initialized →
      ShutDown throws c (.ok ()) (c.clear.setState .shutdown).close
  | stuck {e} : c.state = .shuttingDown → ShutDown throws c (.error e) c
  | preThrew {l x rest e} : throws → c.state.running → c.devices = l ++ x :: rest →
      ShutDown throws c (.error e) ((c.setState .shuttingDown).notifyAll .onPreShutdown (l ++ [x]))
  | postThrew {l x rest e} : throws → c.state.running → c.devices = l ++ x :: rest →
      ShutDown throws c (.error e) (c.tornDown.notifyAll .onPostShutdown (l ++ [x]))
  | torn : c.state.running →
      ShutDown throws c (.ok ()) (c.tornDown.notifyAll .onPostShutdown c.devices).clear

theorem leads_closeRunning {Q : Except Exn Unit → Core → Prop}
    (h : Q (.ok ()) (c.close.setState .shutdown)) : lifecycle.Leads closeRunning c Q :=
  .withLock (.bind (leads_act fun _ _ => leads_act fun _ _ => h))

theorem leads_teardown (hh : Hooks ps throws hk) (hs : c.state.running) :
    lifecycle.Leads (teardown hk) c (ShutDown throws c) := by
  refine .bind (leads_act fun _ _ => .bind ((leads_callbacks hh .onPreShutdown).mono ?_))
  rintro _ _ (_ | ⟨ht, hl⟩)
  swap
  · exact .preThrew ht hs hl
  refine .bind (leads_quiet (plain_setDeviceTargetState _ _) (noThrow_setDeviceTargetState _ _)
    fun _ => .bind (leads_quiet (plain_waitForDeviceTargetState _ _)
      (noThrow_waitForDeviceTargetState _ _) fun _ => .bind (leads_closeRunning ?_)))
  refine .bind ((leads_callbacks hh .onPostShutdown).mono ?_)
  rintro _ _ (_ | ⟨ht, hl⟩)
  · refine leads_act fun _ _ => ?_
    change ShutDown throws c _ (c.tornDown.notifyAll .onPostShutdown c.tornDown.devices).clear
    rw [Core.tornDown_devices]
    exact .torn hs
  · exact .postThrew ht hs (c.tornDown_devices ▸ hl)

theorem leads_shutdown (hh : Hooks ps throws hk) :
    lifecycle.Leads (shutdown hk) c (ShutDown throws c) := by
  refine leads_ifState (fun h => .pure (.already (by simpa using h))) fun h₁ => ?_
  refine leads_ifState (fun h => leads_act fun _ _ => .unopened (by simpa using h)) fun h₂ => ?_
  refine leads_ifState (fun h => ?_) fun h₃ => ?_
  · exact .withLock (.bind (leads_act fun _ _ => .bind (leads_act fun _ _ => leads_act fun _ _ =>
      .initialized (by simpa using h))))
  refine leads_ifState (fun h => leads_teardown hh (by simpa [BusState.running] using h)) fun h₄ => ?_
  refine .throw (.stuck ?_)
  cases hs : c.state <;> simp_all

/-- From every state but one, without throwing hooks, `shutdown` gets to `Shutdown`. -/
theorem ShutDown.safe {c' : Core} {r : Except Exn Unit} (hs : c.state ≠ .shuttingDown)
    (hm : ShutDown False c r c') : r = .ok () ∧ c'.state = .shutdown := by
  cases hm with
  | already h => exact ⟨rfl, h⟩
  | unopened => exact ⟨rfl, rfl⟩
  | initialized => exact ⟨rfl, rfl⟩
  | stuck h => exact absurd h hs
  | preThrew ht => exact ht.elim
  | postThrew ht => exact ht.elim
  | torn => exact ⟨rfl, by simp [Core.clear, Core.tornDown, Core.setState]⟩

/-! ## `initialize` -/

inductive Initialized (c : Core) : Except Exn ℤ → Core → Prop
  | refused {e} : c.state ≠ .preInit → Initialized c (.error e) c
  | unopened {e} : c.state = .preInit → Initialized c (.error e) c
  | noDevices {e} : c.state = .preInit →
      Initialized c (.error e) { c.opened with discoveryFailed := true }
  | opened {r} (n : ℕ) : c.state = .preInit →
      Initialized c r ((c.opened.setState .initialized).emplaceN n)

theorem leads_initializeBus : lifecycle.Leads (initializeBus ps) c (Initialized c) := by
  refine leads_require (fun h => .refused (by simpa using h)) fun h => ?_
  have hs : c.state = .preInit := by simpa using h
  refine .bind (leads_act fun ec _ => .bind (.raiseIf (fun he => ?_) fun he => ?_))
  · change Initialized c _ (c.openPort ec)
    rw [Core.openPort, if_neg (by simpa using he)]
    exact .unopened hs
  have hc : c.perform .ecxInit ec = c.opened := if_pos (by simpa using he)
  rw [hc]
  refine .bind (leads_act fun n _ => .bind (.raiseIf (fun hn => ?_) fun hn => ?_))
  · change Initialized c _ (c.opened.discover n)
    rw [Core.discover, if_pos (by simpa using hn)]
    exact .noDevices hs
  have hd : c.opened.perform .ecxConfigInit n = c.opened := if_neg (by simpa using hn)
  rw [hd]
  refine .bind (leads_neutral (fun _ _ => rfl) fun _ => ?_)
  refine .bind (leads_quiet plain_slaveIds noThrow_slaveIds fun ids => .bind ?_)
  refine leads_silent (.forEach (fun id => ?_) ids) (.forEach (fun id => ?_) ids) fun _ => ?_
  · exact (uses_act fun _ _ => rfl).bind fun _ => Prog.uses_when trivial
  · exact Prog.noThrow_perform.bind fun _ => noThrow_crashUnless _
  refine .bind (leads_neutral (fun _ _ => rfl) fun up => .bind (leads_neutral (fun _ _ => rfl)
    fun _ => .bind (leads_act fun _ _ => .bind ?_)))
  -- the devices found so far, whether or not the next scan fails
  refine .forEach (fun done c' => c' = (c.opened.setState .initialized).emplaceN done.length)
    ?_ ?_ rfl
  · rintro done id rest - c' rfl
    refine .bind (leads_plain (plain_scanDevice id) fun r => ?_)
    cases r with
    | ok info =>
      refine leads_act fun _ _ => ?_
      rw [List.length_append]
      rfl
    | error e => exact .opened _ hs
  · rintro c' rfl
    exact .pure (.opened _ hs)

/-! ## `startup` -/

inductive StartedUp (throws : Prop) (c : Core) : Except Exn Unit → Core → Prop
  | refused {e} : c.state ≠ .initialized → StartedUp throws c (.error e) c
  | hookThrew {l x rest e} : throws → c.state = .initialized → c.devices = l ++ x :: rest →
      StartedUp throws c (.error e) (c.notifyAll .onStartup (l ++ [x]))
  | aborted {e r c'} : c.state = .initialized →
      ShutDown throws (c.notifyAll .onStartup c.devices) r c' → StartedUp throws c (.error e) c'
  | pdoThrew {l x rest e} : throws → c.state = .initialized → c.devices = l ++ x :: rest →
      StartedUp throws c (.error e) (c.configured.notifyAll .onPdoConfigured (l ++ [x]))
  | configured : c.state = .initialized →
      StartedUp throws c (.ok ()) (c.configured.notifyAll .onPdoConfigured c.devices)

/-- The error exits: shut down, then throw. -/
theorem leads_abort (hh : Hooks ps throws hk) {b : Bool} {e : Exn}
    {Q : Except Exn Unit → Core → Prop} (ht : ∀ r c' e, ShutDown throws c r c' → Q (.error e) c')
    (hf : Q (.ok ()) c) :
    lifecycle.Leads (Prog.when b (shutdown hk >>= fun _ => Prog.throw e)) c Q := by
  refine .when (fun _ => .bind ((leads_shutdown hh).mono fun r c' hr => ?_)) fun _ => hf
  cases r with
  | ok u => exact .throw (ht _ _ _ hr)
  | error e => exact ht _ _ _ hr

theorem leads_setupDc {Q : Except Exn Unit → Core → Prop} (h : Q (.ok ()) c) :
    lifecycle.Leads (setupDc ps) c Q := by
  refine .bind (leads_quiet plain_slaveIds noThrow_slaveIds fun ids => .bind ?_)
  refine leads_silent (.forEach (fun id => ?_) ids) (.forEach (fun id => ?_) ids) fun _ => ?_
  · exact (uses_act fun _ _ => rfl).bind fun _ => Prog.uses_when trivial
  · exact Prog.noThrow_perform.bind fun _ => noThrow_crashUnless _
  refine .when (fun _ => ?_) fun _ => h
  refine .bind (leads_quiet plain_slaveIds noThrow_slaveIds fun ids => ?_)
  refine leads_silent (.forEach (fun id => ?_) ids) (.forEach (fun id => ?_) ids) fun _ => h
  · exact (uses_act fun _ _ => rfl).bind fun _ => Prog.uses_when (uses_act fun _ _ => rfl)
  · exact Prog.noThrow_perform.bind fun _ => Prog.noThrow_when Prog.noThrow_perform

theorem leads_onPdoConfigured (hh : Hooks ps throws hk) (x : Addr) (n m : ℕ)
    {Q : Except Exn Unit → Core → Prop} (hok : Q (.ok ()) (c.notify .onPdoConfigured x))
    (hex : throws → ∀ e, Q (.error e) (c.notify .onPdoConfigured x)) :
    lifecycle.Leads (onPdoConfigured hk x n m) c Q := by
  have silent : ∀ {a : Act}, (∀ (c : Core) r, lifecycle.perform c a r = c) → Neutral a := fun h => h
  refine .bind (leads_act fun _ _ => ?_)
  refine .bind (leads_neutral (silent fun _ _ => rfl) fun _ => .bind (leads_neutral
    (silent fun _ _ => rfl) fun _ => .bind (leads_neutral (silent fun _ _ => rfl) fun _ => ?_)))
  refine .bind (leads_neutral (silent fun _ _ => rfl) fun _ => .bind (leads_neutral
    (silent fun _ _ => rfl) fun _ => .bind (leads_neutral (silent fun _ _ => rfl) fun _ => ?_)))
  exact .bind (leads_neutral (silent fun _ _ => rfl) fun _ => leads_hook hh _ x hok hex)

theorem leads_startup (hh : Hooks ps throws hk) :
    lifecycle.Leads (startup ps hk) c (StartedUp throws c) := by
  refine leads_require (fun h => .refused (by simpa using h)) fun h => ?_
  have hs : c.state = .initialized := by simpa using h
  refine .bind (.bind ((leads_callbacks hh .onStartup).mono ?_))
  rintro _ _ (_ | ⟨ht, hl⟩)
  swap
  · exact .hookThrew ht hs hl
  refine .bind (leads_neutral (fun _ _ => rfl) fun _ => .bind (leads_neutral (fun _ _ => rfl)
    fun _ => leads_neutral (fun _ _ => rfl) fun size => ?_))
  refine .bind (leads_abort hh (fun _ _ _ => .aborted hs) ?_)
  refine .bind (leads_neutral (fun _ _ => rfl) fun dc => .bind (leads_abort hh
    (fun _ _ _ => .aborted hs) (.bind (leads_setupDc (.bind (leads_act fun _ _ => ?_))))))
  refine (leads_notify throws (c := c.configured) .onPdoConfigured fun x id c' Q hok hex => ?_).mono ?_
  · exact .bind (leads_neutral (fun _ _ => rfl) fun _ => .bind (leads_neutral (fun _ _ => rfl)
      fun _ => leads_onPdoConfigured hh x _ _ hok hex))
  · have hd : c.configured.devices = c.devices := Core.notifyAll_devices ..
    rintro _ _ (_ | ⟨ht, hl⟩)
    · rw [hd]
      exact .configured hs
    · exact .pdoThrew ht hs (hd ▸ hl)

/-! ## `activate` -/

inductive Activated (throws : Prop) (c : Core) : Except Exn Unit → Core → Prop
  | refused {e} : c.state ≠ .configured → Activated throws c (.error e) c
  | preThrew {l x rest e} : throws → c.state = .configured → c.devices = l ++ x :: rest →
      Activated throws c (.error e) (c.notifyAll .onPreActivate (l ++ [x]))
  | aborted {e r c'} : c.state = .configured →
      ShutDown throws (c.notifyAll .onPreActivate c.devices) r c' → Activated throws c (.error e) c'
  | postThrew {l x rest e} : throws → c.state = .configured → c.devices = l ++ x :: rest →
      Activated throws c (.error e) (c.activated.notifyAll .onPostActivate (l ++ [x]))
  | activated : c.state = .configured →
      Activated throws c (.ok ()) (c.activated.notifyAll .onPostActivate c.devices)

/-- A loop that requests or awaits a state of every slave, and gives up at the first failure. -/
theorem leads_orAbort (hh : Hooks ps throws hk) {l : Loop} (hl : Neutral (.devices l))
    {f : DeviceId → P Bool} (hp : ∀ id, (f id).Uses Plain) (hn : ∀ id, (f id).NoThrow) {e : Exn}
    {Q : Except Exn Unit → Core → Prop} (ht : ∀ r c' e, ShutDown throws c r c' → Q (.error e) c')
    (hf : Q (.ok ()) c) :
    lifecycle.Leads (forDevices l fun _ id => f id >>= fun b =>
      Prog.when (!b) (shutdown hk >>= fun _ => Prog.throw e)) c Q := by
  refine leads_forDevices (fun _ c' => c' = c) (fun _ _ h => by rw [h]) ?_ ?_ (hl c c.devices)
  · rintro done x rest - id c' rfl
    exact .bind (leads_quiet (hp id) (hn id) fun b => leads_abort hh ht rfl)
  · rintro c' rfl
    exact hf

theorem leads_activate (hh : Hooks ps throws hk) :
    lifecycle.Leads (activate hk) c (Activated throws c) := by
  refine leads_require (fun h => .refused (by simpa using h)) fun h => ?_
  have hs : c.state = .configured := by simpa using h
  refine .bind ((leads_callbacks hh .onPreActivate).mono ?_)
  rintro _ _ (_ | ⟨ht, hl⟩)
  swap
  · exact .preThrew ht hs hl
  refine .bind (leads_neutral (fun _ _ => rfl) fun _ => .bind ?_)
  refine leads_orAbort hh (fun _ _ => rfl) (fun id => plain_setDeviceTargetState id _)
    (fun id => noThrow_setDeviceTargetState id _) (fun _ _ _ => .aborted hs) (.bind ?_)
  refine leads_orAbort hh (fun _ _ => rfl) (fun id => plain_waitForDeviceTargetState id _)
    (fun id => noThrow_waitForDeviceTargetState id _) (fun _ _ _ => .aborted hs) ?_
  refine .bind (leads_act fun _ _ => (leads_callbacks (c := c.activated) hh .onPostActivate).mono ?_)
  have hd : c.activated.devices = c.devices := Core.notifyAll_devices ..
  rintro _ _ (_ | ⟨ht, hl⟩)
  · rw [hd]
    exact .activated hs
  · exact .postThrew ht hs (hd ▸ hl)

/-! ## `update_service` -/

inductive Serviced (throws : Prop) (c : Core) : Except Exn Bool → Core → Prop
  | unchanged {r} : Serviced throws c r c
  | operational {r} : c.state = .activated → Serviced throws c r (c.setState .operational)
  | timeout {e r c'} : c.state = .activated → ShutDown throws c r c' →
      Serviced throws c (.error e) c'

/-- The part of `bringOperational` after the timeout. -/
theorem leads_requestOperational :
    lifecycle.Leads (do
      forDevices .requestOperational fun _ id => do
        let _ ← setDeviceTargetState id EC_STATE_OPERATIONAL
        pure ()
      updateDeviceStates
      Prog.when (← allInOperational) (act (.updateBusState .operational))) c
      fun _ c' => c' = c ∨ c' = c.setState .operational := by
  refine .bind (leads_unseen (Uses.forDevices (S := Neutral) (l := .requestOperational)
    (fun _ _ => rfl) (fun _ _ _ => rfl) fun _ id => ?_) fun r => ?_)
  · exact ((plain_setDeviceTargetState id _).mono fun _ h => h.calm.neutral).bind fun _ => trivial
  cases r with
  | error e => exact .inl rfl
  | ok u =>
    refine .bind (leads_unseen (uses_updateDeviceStates fun _ _ => rfl) fun r => ?_)
    cases r with
    | error e => exact .inl rfl
    | ok u =>
      refine .bind (leads_unseen (uses_allInOperational (fun _ _ => rfl) (fun _ _ _ => rfl)
        fun _ _ _ => rfl) fun r => ?_)
      cases r with
      | error e => exact .inl rfl
      | ok b => exact .when (fun _ => leads_act fun _ _ => .inr rfl) fun _ => .inl rfl

theorem leads_bringOperational (hh : Hooks ps throws hk) :
    lifecycle.Leads (bringOperational ps hk) c fun r c' =>
      (c' = c ∨ c' = c.setState .operational) ∨
        ∃ e r', r = .error e ∧ ShutDown throws c r' c' := by
  refine .bind (leads_neutral (fun _ _ => rfl) fun start => .bind (.when (fun _ => ?_) fun _ => ?_))
  on_goal 1 =>
    refine .bind (leads_neutral (fun _ _ => rfl) fun now => leads_neutral (fun _ _ => rfl) fun _ => ?_)
  all_goals
    refine .bind (leads_plain plain_operationalTimeout fun r => ?_)
    cases r with
    | error e => exact .inl (.inl rfl)
    | ok b =>
      refine .bind (leads_abort hh (fun r c' e h => .inr ⟨e, r, rfl, h⟩) ?_)
      exact leads_requestOperational.mono fun r c' h => .inl h

theorem leads_updateService (hh : Hooks ps throws hk) :
    lifecycle.Leads (updateService ps hk) c (Serviced throws c) := by
  refine .bind (leads_stateIn _ (.bind (.raiseIf (fun _ => .unchanged) fun _ => ?_)))
  refine .bind (leads_neutral (fun _ _ => rfl) fun up => .bind (leads_neutral (fun _ _ => rfl)
    fun _ => .bind (leads_neutral (fun _ _ => rfl) fun owns => .bind ?_)))
  refine leads_plain (Prog.uses_when (Prog.uses_withLock plain_drainMailboxEvents)) fun r => ?_
  cases r with
  | error e => exact .unchanged
  | ok u =>
    -- only a bus that is `Activated` is brought on; any other one has its diagnostics read
    refine leads_ifState (fun h => ?_) fun _ => ?_
    · have hs : c.state = .activated := by simpa using h
      refine .bind ((leads_bringOperational hh).mono ?_)
      rintro (e | u) c' ((rfl | rfl) | ⟨e', r', he, h'⟩)
      · exact .unchanged
      · exact .operational hs
      · exact .timeout hs h'
      · exact .pure .unchanged
      · exact .pure (.operational hs)
      · cases he
    · refine .bind (leads_unseen (Prog.uses_when ?_) fun r => ?_)
      · refine (uses_updateDeviceStates fun _ _ => rfl).bind fun _ => Prog.uses_when ?_
        exact plain_updateDiagnosticsSlow.mono fun _ h => h.calm.neutral
      · cases r with
        | error e => exact .unchanged
        | ok u => exact .pure .unchanged

/-! ## Destruction -/

inductive Destroyed (throws : Prop) (c : Core) : Except Exn Unit → Core → Prop
  | destroyed {r c'} : ShutDown throws c.clearBusAll r c' →
      Destroyed throws c (.ok ()) { c'.clear with alive := false }

theorem leads_destroyBackend (hh : Hooks ps throws hk) {Q : Except Exn Unit → Core → Prop}
    (h : ∀ r c', ShutDown throws c r c' → Q (.ok ()) { c'.clear with alive := false }) :
    lifecycle.Leads (destroyBackend hk) c Q := by
  refine .bind (.bind (.attempt ((leads_shutdown hh).mono fun r c' hr => ?_)))
  cases r with
  | ok u => exact .pure (leads_act fun _ _ => h _ _ hr)
  | error e =>
    simp only [Machine.andThen]
    split
    · exact .pure (leads_act fun _ _ => h _ _ hr)
    · exact .crash

theorem leads_destroyBus (hh : Hooks ps throws hk) :
    lifecycle.Leads (destroyBus hk) c (Destroyed throws c) := by
  refine .bind (leads_forDevices (l := .clearBus)
    (fun done c' => c' = { done.foldl Core.clearBus c with swept := some c.devices }) ?_ ?_ ?_ rfl)
  · rintro done c' rfl
    exact Core.clearBus_devices done c
  · rintro done x rest - id c' rfl
    exact leads_act fun _ _ => by rw [List.foldl_append]; rfl
  · rintro c' rfl
    exact leads_destroyBackend hh fun r c' => .destroyed

/-! ## Every operation -/

/-- The view after an operation has marked its end. -/
def Core.finish (c : Core) (o : Op) : Except Exn Unit → Core
  | .ok _ => c.perform (.done o true) ()
  | .error _ => c

/-- What an operation that ends in `r` does to the view of the bus. -/
inductive Moved (throws : Prop) (c : Core) : Op → Except Exn Unit → Core → Prop
  | initialized {r c'} : Initialized c r c' →
      Moved throws c .initializeBus (r.map fun _ => ()) (c'.finish .initializeBus (r.map fun _ => ()))
  | startedUp {r c'} : StartedUp throws c r c' → Moved throws c .startup r c'
  | activated {r c'} : Activated throws c r c' → Moved throws c .activate r c'
  | shutDown {r c'} : ShutDown throws c r c' → Moved throws c .shutdown r c'
  | serviced {r c'} : Serviced throws c r c' → Moved throws c .updateService (r.map fun _ => ()) c'
  | destroyed {r c'} : Destroyed throws c r c' → Moved throws c .destroyBus r c'
  | other {o r} : o.lifecycle = false → Moved throws c o r c

theorem leads_void {α : Type} {p : P α} {Q : Except Exn Unit → Core → Prop}
    (h : lifecycle.Leads p c fun r => Q (r.map fun _ => ())) : lifecycle.Leads (void p) c Q :=
  .bind (h.mono fun r c' hr => by
    cases r with
    | ok x => exact .pure hr
    | error e => exact hr)

/-- A call does what its body does. -/
theorem leads_invoke {o : Op} {Q : Except Exn Unit → Core → Prop}
    (h : lifecycle.Leads (o.body ps hk) c fun r c' => Q r (c'.finish o r)) :
    lifecycle.Leads (o.invoke ps hk) c Q := by
  refine .bind (leads_act fun _ _ => .bind (.attempt (h.mono fun r c' hr => ?_)))
  cases r with
  | ok u => exact leads_act fun _ _ => hr
  | error e => exact .bind (leads_neutral (fun _ _ => by cases o <;> rfl) fun _ => .throw hr)

theorem Core.finish_of_ne {o : Op} (ho : o ≠ .initializeBus) (c : Core) (r : Except Exn Unit) :
    c.finish o r = c := by
  cases r with
  | error e => rfl
  | ok u => cases o <;> first | rfl | exact absurd rfl ho

theorem leads_op (hh : Hooks ps throws hk) (o : Op) :
    lifecycle.Leads (o.invoke ps hk) c (Moved throws c o) := by
  refine leads_invoke ?_
  by_cases hl : o.lifecycle = false
  · -- outside the lifecycle nothing that the core records is performed
    refine leads_calm (calm_body o hl (fun r => (hh.ok.sdoReadCallback r).calm)
      fun r => (hh.ok.sdoWriteCallback r).calm) fun r => ?_
    rw [Core.finish_of_ne (by rintro rfl; cases hl)]
    exact .other hl
  · cases o with
    | initializeBus => exact leads_void (leads_initializeBus.mono fun _ _ h => .initialized h)
    | startup =>
      exact (leads_startup hh).mono fun r c' h => by
        rw [Core.finish_of_ne (by decide)]; exact .startedUp h
    | activate =>
      exact (leads_activate hh).mono fun r c' h => by
        rw [Core.finish_of_ne (by decide)]; exact .activated h
    | shutdown =>
      exact (leads_shutdown hh).mono fun r c' h => by
        rw [Core.finish_of_ne (by decide)]; exact .shutDown h
    | updateService =>
      exact leads_void ((leads_updateService hh).mono fun r c' h => by
        rw [Core.finish_of_ne (by decide)]; exact .serviced h)
    | destroyBus =>
      exact (leads_destroyBus hh).mono fun r c' h => by
        rw [Core.finish_of_ne (by decide)]; exact .destroyed h
    | _ => exact absurd rfl hl

/-- **The backend refines the lifecycle.** Every operation that does not crash moves the
view of the bus as `Moved` says. -/
theorem invoke_moved (throws : Prop) {ok : Guard Act Ans Env St} (hh : Hooks ps throws hk) {o : Op} {w w' : W}
    {out : Outcome Exn Unit} (he : Exec exec ok 0 (o.invoke ps hk) w out w') (hc : out ≠ .crash) :
    ∃ r, Moved throws (core w) o r (core w') ∧ (r = .ok () ↔ out = .ret ()) := by
  have h := (leads_op hh o).sound (core_simulates ok 0) he
  cases out with
  | ret u => exact ⟨.ok u, h, by simp⟩
  | exn e => exact ⟨.error e, h, by simp⟩
  | crash => exact absurd rfl hc

end EthercatInterface
