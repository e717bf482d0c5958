import EthercatInterface.Lifecycle.Run
import EthercatInterface.Proof.Members
import EthercatInterface.Threads.State

/-!
# Operational means confirmed

Any number of threads call `update_service` on a bus in `Activated`. A request writes
the requested state where `ecx_readstate` writes the reported one and where the test
of the devices reads it. `operational_confirmed`: `Operational` is stored only after
every device has reported OPERATIONAL, in every interleaving in which **no test reads a
request back**, and none runs over a list that a `shutdown` has emptied.

* `reported`: what the last `ecx_readstate` reported, unless something else has been
  written there since.
* `testing`: a thread stores `Operational` only after testing every device.
* `ServiceInv`: kept by every action whose promise holds.
-/

namespace EthercatInterface

open Interleave

/-! ## The property -/

/-- What an action leaves in the cached state of slave `id`, if it changes it: the value
read from the bus, or one that `ecx_readstate` did not report. -/
def cache (id : DeviceId) : (a : Act) → Ans a → Option (Option ℕ)
  | .ecxReadstate, states => some (some (states id))
  | .setSlaveState id' _, _ => if id' = id then some none else none
  | .ecxStatecheck id' _, _ => if id' = id then some none else none
  | _, _ => none

/-- What `ecx_readstate` reported last, if it is still in the cached state. -/
def reported (id : DeviceId) (h : List Ev) : Option ℕ :=
  (h.findSome? fun e => cache id e.act e.ans).join

/-- `devices_` has been emptied. -/
def cleared (h : List Ev) : Bool := h.any fun e => e.act.clears

/-- An `ecx_readstate` that found slave `id` in OPERATIONAL. -/
def confirms (id : DeviceId) : (a : Act) → Ans a → Bool
  | .ecxReadstate, states => lowNibble (states id) = EC_STATE_OPERATIONAL
  | _, _ => false

/-- `Operational` was stored only after every device of `s` had reported OPERATIONAL. -/
def Confirmed (s : St) : List Ev → Prop :=
  Always fun e h => stored e.act = some .operational → ∀ p ∈ s.devices, ∃ e' ∈ h,
    confirms (s.dev p).deviceInfo.id e'.act e'.ans = true

/-- A test of a device reads what `ecx_readstate` has reported, a loop of tests runs over
the devices of the bus. -/
def steadyAt (h : List Ev) : Act → Bool
  | .slaveState id => (reported id h).isSome
  | .devices .allInOperational => !cleared h
  | _ => true

/-- No test read a request back, and none ran over an emptied list. -/
def Steady : List Ev → Prop := Always fun e h => steadyAt h e.act = true

instance (s : St) : DecidablePred (Confirmed s) := inferInstanceAs (DecidablePred (Always _))

instance : DecidablePred Steady := inferInstanceAs (DecidablePred (Always _))

theorem reported_cons (id : DeviceId) (e : Ev) (h : List Ev) :
    reported id (e :: h) = (cache id e.act e.ans).getD (reported id h) := by
  rw [reported, List.findSome?_cons]
  cases cache id e.act e.ans <;> rfl

/-- What is reported was read from the bus. -/
theorem saw_of_reported {id v : ℕ} {h : List Ev} (hr : reported id h = some v) :
    ∃ states, Saw .ecxReadstate states h ∧ states id = v := by
  induction h with
  | nil => cases hr
  | cons e h ih =>
    obtain ⟨t, a, r⟩ := e
    rw [reported_cons] at hr
    by_cases ha : a = .ecxReadstate
    · subst ha
      exact ⟨r, saw_cons t _ r h, Option.some.inj hr⟩
    · have hr : reported id h = some v := by
        cases a <;> first | exact hr | exact absurd rfl ha | (simp only [cache] at hr; split at hr; cases hr; exact hr)
      obtain ⟨states, hs, hv⟩ := ih hr
      exact ⟨states, hs.cons _, hv⟩

/-! ## The promise -/

/-- The thread has seen `p` in OPERATIONAL. -/
def Found (p : Addr) (h : List Ev) : Prop :=
  ∃ id state, Saw (.deref p) (some id) h ∧ Saw (.slaveState id) state h ∧
    lowNibble state = EC_STATE_OPERATIONAL

/-- The thread has seen every device of some list of devices in OPERATIONAL. -/
def Tested (h : List Ev) : Prop :=
  ∃ l, Saw (.devices .allInOperational) l h ∧ ∀ p ∈ l, Found p h

/-- `Operational` is stored after a test; the service finds no devices and maps nothing. -/
def testing : Act → List Ev → Prop
  | .updateBusState .operational, h => Tested h
  | .emplaceDevice _, _ | .ecxConfigInit, _ | .ecxConfigMapGroup, _ => False
  | _, _ => True

variable {ps : Parameters} {hk : UserCode} {t : ℕ}

theorem testing_calm (a : Act) (ha : Calm a) (h : List Ev) : testing a h := by
  cases a <;> first | exact trivial | exact absurd ha Bool.noConfusion

theorem testing_plain (a : Act) (ha : Plain a) (h : List Ev) : testing a h :=
  testing_calm a ha.calm h

theorem testing_serving (a : Act) (ha : Serving a) (h : List Ev) : testing a h := by
  rcases ha with ha | ha
  · exact testing_plain a ha.plain h
  · cases a <;> first | exact trivial | cases ha

theorem Found.cons {p : Addr} {h : List Ev} (hf : Found p h) (e : Ev) : Found p (e :: h) := by
  obtain ⟨id, state, hd, hs, hop⟩ := hf
  exact ⟨id, state, hd.cons e, hs.cons e, hop⟩

/-- The loop that tests the devices: a test that fails is not forgotten. -/
theorem testing_allInOperational (h : List Ev) :
    Obeys testing t allInOperational (fun o h' => o = .ret true → Tested h') h := by
  refine .bind (.perform trivial fun l => ?_)
  refine .foldEach (fun done all h' => Saw (.devices .allInOperational) l h' ∧
    (all = true → ∀ p ∈ done, Found p h')) (fun done p rest _ all h' hJ => ?_) (fun all h' hJ => ?_)
    ⟨saw_cons _ _ _ _, fun _ p hp => by cases hp⟩
  · obtain ⟨hl, hdone⟩ := hJ
    refine .bind (.perform trivial fun r => ?_)
    cases r with
    | none => exact fun h => by cases h
    | some id =>
      refine .bind (.withLock (.bind (.perform trivial fun state => ?_)))
      refine ⟨(hl.cons _).cons _, fun hall q hq => ?_⟩
      obtain ⟨hall, hop⟩ := Bool.and_eq_true_iff.1 hall
      rcases List.mem_append.1 hq with hq | hq
      · exact ((hdone hall q hq).cons _).cons _
      · obtain rfl := List.mem_singleton.1 hq
        exact ⟨id, state, (saw_cons _ _ _ _).cons _, saw_cons _ _ _ _, of_decide_eq_true hop⟩
  · intro hall
    exact ⟨l, hJ.1, hJ.2 (by injection hall)⟩

section Service

variable (hok : hk.Ok ps)
include hok

theorem testing_callbacks (h : Hook) :
    Honours testing t (forDevices (.callback h) fun p _ => onCallback hk h p) :=
  honours_callbacks (fun _ => trivial) (fun _ _ => trivial) (fun _ _ => trivial)
    fun p => .uses testing_calm (hok.hook h p).calm

theorem testing_teardown : Honours testing t (teardown hk) := by
  refine .bind (honours_act fun _ => trivial) fun _ => .bind (testing_callbacks hok _) fun _ => ?_
  refine .bind (honours_plain testing_plain (plain_setDeviceTargetState _ _)) fun _ =>
    .bind (honours_plain testing_plain (plain_waitForDeviceTargetState _ _)) fun _ => ?_
  refine .bind (p := closeRunning) ?_ fun _ => .bind (testing_callbacks hok _) fun _ => ?_
  · exact .withLock (.bind (honours_act fun _ => trivial) fun _ => honours_act fun _ => trivial)
  · exact honours_act fun _ => trivial

theorem testing_shutdown : Honours testing t (shutdown hk) := by
  have look : ∀ h, testing .getBusState h := fun _ => trivial
  refine honours_ifState look (fun _ _ _ => trivial) ?_
  refine honours_ifState look (fun _ _ h => (honours_act fun _ => trivial) _) ?_
  refine honours_ifState look (fun _ _ _ => ?_) ?_
  · exact .withLock (.bind (.perform trivial fun _ => .bind (.perform trivial fun _ =>
      .perform trivial fun _ => trivial)))
  exact honours_ifState look (fun _ _ h => testing_teardown hok _) honours_throw

theorem testing_updateService : Honours testing t (updateService ps hk) := by
  refine honours_updateService testing_plain (fun _ => trivial) fun h => ?_
  exact obeys_bringOperational (J := fun _ => True)
    (fun a ha _ h _ => ⟨testing_serving a ha h, trivial⟩) (fun h _ => testing_allInOperational h)
    (testing_shutdown hok) trivial

end Service

/-! ## All threads together -/

theorem testing_emplaces {a : Act} {h : List Ev} (hp : testing a h) : a.emplaces = false := by
  cases a <;> first | rfl | exact hp.elim

theorem testing_remaps {a : Act} {h : List Ev} (hp : testing a h) : a.remaps = false := by
  cases a <;> first | rfl | exact hp.elim

/-- The cached state of a slave, where an action does not change it. -/
theorem slaveState_exec {a : Act} {h : List Ev} (hp : testing a h) (i : Env) (s : St)
    {id : DeviceId} (hc : cache id a (exec a i s).1 = none) :
    ((exec a i s).2.slave id).state = (s.slave id).state := by
  cases a
  case ecxConfigInit => exact hp.elim
  case ecxReadstate => cases hc
  case setSlaveState id' state =>
    have hne : id ≠ id' := fun h => by simp [cache, h] at hc
    simp [exec, St.modifySlave, St.setSlavelist, St.slave, hne]
  case ecxStatecheck id' state =>
    have hne : id ≠ id' := fun h => by simp [cache, h] at hc
    simp only [exec]
    split
    · rfl
    · simp [St.modifySlave, St.setSlavelist, St.slave, hne]
  all_goals rfl

/-- What every action keeps, from the state `s` on. -/
structure ServiceInv (s : St) (w : W) : Prop where
  slavecount : w.st.context.ecatSlavecount = s.context.ecatSlavecount
  deviceId : ∀ p, (w.st.dev p).deviceInfo.id = (s.dev p).deviceInfo.id
  devices : cleared w.hist = false → w.st.devices = s.devices
  cached : ∀ id ≤ s.context.ecatSlavecount, ∀ v, reported id w.hist = some v →
    (w.st.slave id).state = v
  sawDevices : Steady w.hist → ∀ l, Saw (.devices .allInOperational) l w.hist → l = s.devices
  sawDeref : ∀ p id, Saw (.deref p) (some id) w.hist → id = (s.dev p).deviceInfo.id
  sawState : Steady w.hist → ∀ id ≤ s.context.ecatSlavecount, ∀ v,
    Saw (.slaveState id) v w.hist → ∃ states, Saw .ecxReadstate states w.hist ∧ states id = v
  confirmed : Steady w.hist → Confirmed s w.hist

section Step

variable {s : St} {w : W} {a : Act} {i : Env} (hw : ServiceInv s w)
include hw

theorem ServiceInv.cached_after (hp : testing a (own t w.hist)) (id : DeviceId)
    (hid : id ≤ s.context.ecatSlavecount) (v : ℕ)
    (hr : reported id (w.after exec t a i).hist = some v) :
    ((w.after exec t a i).st.slave id).state = v := by
  rw [World.after_hist, reported_cons] at hr
  cases hc : cache id a (exec a i w.st).1 with
  | none =>
    rw [hc] at hr
    rw [World.after_st, slaveState_exec hp i w.st hc]
    exact hw.cached id hid v hr
  | some c =>
    rw [hc] at hr
    -- only `ecx_readstate` leaves a value that counts as reported
    cases a
    case ecxReadstate =>
      cases hc
      have hle : id ≤ w.st.context.ecatSlavecount := by rw [hw.slavecount]; exact hid
      rw [← Option.some.inj hr]
      simp [exec, St.setSlavelist, St.slave, hle]
    all_goals first
      | cases hc
      | (simp only [cache] at hc; split at hc <;> cases hc; cases hr)

theorem ServiceInv.sawDevices_after (hs : Steady (w.after exec t a i).hist) (l : List Addr)
    (hl : Saw (.devices .allInOperational) l (w.after exec t a i).hist) : l = s.devices := by
  obtain ⟨hnow, hs⟩ := hs
  rcases hl.of_after with hl | ⟨rfl, rfl⟩
  · exact hw.sawDevices hs l hl
  · exact hw.devices (by simpa [steadyAt] using hnow)

theorem ServiceInv.sawDeref_after (p : Addr) (id : DeviceId)
    (hd : Saw (.deref p) (some id) (w.after exec t a i).hist) :
    id = (s.dev p).deviceInfo.id := by
  rcases hd.of_after with hd | ⟨rfl, hr⟩
  · exact hw.sawDeref p id hd
  · rw [← hw.deviceId p]
    simp only [exec] at hr
    split at hr
    · exact Option.some.inj hr
    · cases hr

theorem ServiceInv.sawState_after (hs : Steady (w.after exec t a i).hist) (id : DeviceId)
    (hid : id ≤ s.context.ecatSlavecount) (v : ℕ)
    (hv : Saw (.slaveState id) v (w.after exec t a i).hist) :
    ∃ states, Saw .ecxReadstate states (w.after exec t a i).hist ∧ states id = v := by
  obtain ⟨hnow, hs⟩ := hs
  have before : (∃ states, Saw .ecxReadstate states w.hist ∧ states id = v) →
      ∃ states, Saw .ecxReadstate states (w.after exec t a i).hist ∧ states id = v :=
    fun ⟨states, hr, hv⟩ => ⟨states, hr.cons _, hv⟩
  rcases hv.of_after with hv | ⟨rfl, rfl⟩
  · exact before (hw.sawState hs id hid v hv)
  · obtain ⟨v, hv⟩ := Option.isSome_iff_exists.1 hnow
    exact before (by rw [show (exec (.slaveState id) i w.st).1 = v from hw.cached id hid v hv]
                     exact saw_of_reported hv)

/-- A thread that stores `Operational` has read the states of all devices off the bus. -/
theorem ServiceInv.confirmed_after (hids : ∀ p ∈ s.devices,
    (s.dev p).deviceInfo.id ≤ s.context.ecatSlavecount) (hp : testing a (own t w.hist))
    (hs : Steady (w.after exec t a i).hist) : Confirmed s (w.after exec t a i).hist := by
  obtain ⟨-, hs⟩ := hs
  refine ⟨fun ha p hpd => ?_, hw.confirmed hs⟩
  have htested : Tested (own t w.hist) := by
    cases a <;> cases ha
    exact hp
  obtain ⟨l, hl, hall⟩ := htested
  have hmem : p ∈ l := by rw [hw.sawDevices hs l hl.of_own]; exact hpd
  obtain ⟨id, state, hd, hstate, hop⟩ := hall p hmem
  obtain rfl := hw.sawDeref p id hd.of_own
  obtain ⟨states, ⟨u, hr⟩, rfl⟩ := hw.sawState hs _ (hids p hpd) state hstate.of_own
  exact ⟨_, hr, decide_eq_true hop⟩

/-- **One action** of any thread. -/
theorem ServiceInv.after (hids : ∀ p ∈ s.devices,
    (s.dev p).deviceInfo.id ≤ s.context.ecatSlavecount) (hp : testing a (own t w.hist)) :
    ServiceInv s (w.after exec t a i) where
  slavecount := (slavecount_exec (testing_remaps hp) i w.st).trans hw.slavecount
  deviceId p := (deviceId_exec (testing_emplaces hp) i w.st p).trans (hw.deviceId p)
  devices hc := by
    obtain ⟨hnow, hc⟩ := Bool.or_eq_false_iff.1 hc
    exact (devices_exec (testing_emplaces hp) hnow i w.st).trans (hw.devices hc)
  cached := hw.cached_after hp
  sawDevices := hw.sawDevices_after
  sawDeref := hw.sawDeref_after
  sawState := hw.sawState_after
  confirmed := hw.confirmed_after hids hp

end Step

/-- Every thread calls `update_service`, and nothing else. -/
def onlyService (ps : Parameters) (_ : ℕ) (p : P Unit) : Prop :=
  ∃ hk : UserCode, hk.Ok ps ∧ p = Op.updateService.invoke ps hk

theorem testing_onlyService (p : P Unit) (hp : onlyService ps t p) : Honours testing t p := by
  obtain ⟨hk, hok, rfl⟩ := hp
  exact Honours.invoke (fun _ => trivial) (fun _ _ => trivial) (Honours.void (testing_updateService hok))

/-- **`Operational` is stored only after every device has reported OPERATIONAL**, in every
interleaving in which no test reads a request back. -/
theorem operational_confirmed {s : St}
    (hids : ∀ p ∈ s.devices, (s.dev p).deviceInfo.id ≤ s.context.ecatSlavecount)
    {c : Conf Act Ans (List Mutex) Exn St}
    (hr : Reaches exec free (onlyService ps) (Conf.idle ⟨s, []⟩) c) (hs : Steady c.world.hist) :
    Confirmed s c.world.hist := by
  have nothing : ∀ (a : Act) (r : Ans a), ¬Saw a r ([] : List Ev) := fun _ _ ⟨_, h⟩ => by cases h
  have h0 : ServiceInv s ⟨s, []⟩ := ⟨rfl, fun _ => rfl, fun _ => rfl, (fun _ _ _ h => by cases h),
    fun _ _ h => absurd h (nothing _ _), fun _ _ h => absurd h (nothing _ _),
    fun _ _ _ _ h => absurd h (nothing _ _), fun _ => trivial⟩
  have h := (reaches_inv (P := fun _ => testing) (J := ServiceInv s) (fun _ => testing_onlyService)
    (fun _ _ _ _ _ hp hw => hw.after hids hp) hr (keeps_idle _ _) h0).2
  exact h.confirmed hs

theorem reaches_onlyService {l : List (Choice Act Ans (List Mutex) Exn Env)}
    (h : ∀ t p, Choice.call t p ∈ l → p = Op.updateService.invoke {} .none) :
    Reaches exec free (onlyService {}) (Conf.idle ⟨activatedOne, []⟩)
      ((Conf.idle ⟨activatedOne, []⟩).follow exec l) :=
  reaches_follow fun t p hp => ⟨.none, UserCode.none_ok _, h t p hp⟩

/-- One service call, with a device that reports OPERATIONAL. -/
theorem operational_confirmed_alone : Confirmed activatedOne
    ((Conf.idle ⟨activatedOne, []⟩).follow exec (.call 0 (Op.updateService.invoke {} .none) ::
      Choice.steps 0 16 ++ .step 0 [{ slaves := fun _ => { state := 8 } }] ::
        Choice.steps 0 4)).world.hist :=
  operational_confirmed (by decide) (reaches_onlyService (by simp [Choice.steps])) (by decide)

/-- A second call requests OPERATIONAL between the refresh and the test of the first, which takes
the request for a report. -/
theorem operational_unconfirmed : ¬∀ (ps : Parameters) (s : St)
    (c : Conf Act Ans (List Mutex) Exn St), s.state = .activated →
      (∀ p ∈ s.devices, (s.dev p).deviceInfo.id ≤ s.context.ecatSlavecount) →
      Reaches exec free (onlyService ps) (Conf.idle ⟨s, []⟩) c → Confirmed s c.world.hist := by
  intro h
  have hr := reaches_onlyService (l := .call 0 (Op.updateService.invoke {} .none) ::
    Choice.steps 0 17 ++ .call 1 (Op.updateService.invoke {} .none) :: Choice.steps 1 14 ++
    Choice.steps 0 4) (by simp +contextual [Choice.steps, or_imp])
  exact absurd (h {} activatedOne _ (by decide) (by decide) hr) (by decide)

end EthercatInterface
