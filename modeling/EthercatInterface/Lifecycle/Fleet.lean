import EthercatInterface.Lib.Progress
import EthercatInterface.Lifecycle.Buffers
import EthercatInterface.Lifecycle.Tables

/-!
# A bus that nothing goes wrong on

`healthy` is SOEM with `n` slaves that do as they are told, one of them with a clock if there is
need of one, and ticks that are made in time if there is a timeout; what comes back with a frame is
open. `Fleet` is what the functions of the backend test before
they throw or end the process: the tables, the sizes, the pointers to the bus and the start of the
activation, and whether the slaves have reported OPERATIONAL.

* `Brings`: programs that return, and what becomes of the fleet.
* `brings_hook`: so does a hook, if it returns wherever its device is there.
-/

namespace EthercatInterface

open Interleave

variable {ps : Parameters} {hk : UserCode} {n : ℕ} {w : W} {α β : Type}

/-! ## The world outside -/

/-- A clock that says `now` is in time for a timeout that runs from `tp`, if there is a timeout. -/
def Parameters.InTime (ps : Parameters) (now tp : ℤ) : Prop :=
  0 < ps.timeoutTransitionOperational →
    toInt64 (now - tp) ≤ toInt64 (ps.timeoutTransitionOperational * 1000000)

instance (now tp : ℤ) : Decidable (ps.InTime now tp) := inferInstanceAs (Decidable (_ → _))

/-- SOEM opens the interface and finds `n` slaves, one of them with a clock if distributed clocks are
enabled; their process data fits, they take every state they are asked to, and no tick is too late. -/
def healthy (ps : Parameters) (n : ℕ) : Guard Act Ans Env St := fun _ a i w =>
  match a with
  | .ecxInit => 0 < i.ret
  | .ecxConfigInit => i.ret = n ∧ i.slavecount = n
  | .ecxConfigMapGroup => i.ret ≤ toInt ps.pdoBufferSize
  | .ecxConfigdc => ps.dcEnabled = true → i.flag = true
  | .ecxWritestate _ => 0 < i.ret
  | .ecxStatecheck id state => lowNibble (i.slaves id).state = state
  | .now => ∀ tp ∈ w.st.activationStartTp, w.st.state = .activated → ps.InTime i.clock tp
  | _ => True

instance (t : ℕ) (a : Act) (i : Env) (w : W) : Decidable (healthy ps n t a i w) :=
  decidable_of_iff
    ((match a with
      | .ecxInit => decide (0 < i.ret)
      | .ecxConfigInit => decide (i.ret = n ∧ i.slavecount = n)
      | .ecxConfigMapGroup => decide (i.ret ≤ toInt ps.pdoBufferSize)
      | .ecxConfigdc => decide (ps.dcEnabled = true → i.flag = true)
      | .ecxWritestate _ => decide (0 < i.ret)
      | .ecxStatecheck id state => decide (lowNibble (i.slaves id).state = state)
      | .now => decide (∀ tp ∈ w.st.activationStartTp, w.st.state = .activated → ps.InTime i.clock tp)
      | _ => true) = true)
    (by cases a <;> simp [healthy, -Bool.decide_or, imp_iff_not_or])

/-- An answer of `ecx_readstate` that finds all of `n` slaves in OPERATIONAL. -/
def allReport (n : ℕ) (states : DeviceId → ℕ) : Bool :=
  (List.range n).all fun p => lowNibble (states (p + 1)) = EC_STATE_OPERATIONAL

/-- Since the bus was activated, all slaves have reported OPERATIONAL at once. -/
def haveReported (n : ℕ) : List Ev → Bool
  | [] => false
  | ⟨_, .ecxReadstate, states⟩ :: h => allReport n states || haveReported n h
  | ⟨_, .updateBusState .activated, _⟩ :: _ => false
  | _ :: h => haveReported n h

/-! ## The view -/

structure Fleet where
  roster : Roster
  sizing : Sizing
  bus : Addr → Bool
  start : Option ℤ
  reported : Bool

def fleet (n : ℕ) (w : W) : Fleet where
  roster := roster w.st
  sizing := sizing w.st
  bus p := (w.st.dev p).bus
  start := w.st.activationStartTp
  reported := haveReported n w.hist

/-- Leaves the fleet alone. -/
def Act.passive (a : Act) : Bool :=
  !a.enrols && !a.sizes && match a with
    | .clearBus _ | .setActivationStartTp _ | .ecxReadstate => false
    | _ => true

/-- Changes a device's pointer to the bus. -/
def Act.binds : Act → Bool
  | .emplaceDevice _ | .clearBus _ => true
  | _ => false

theorem bus_exec {a : Act} (ha : a.binds = false) (i : Env) (s : St) (p : Addr) :
    ((exec a i s).2.dev p).bus = (s.dev p).bus := by
  cases a
  case ecxStatecheck id state =>
    simp only [exec]
    split <;> rfl
  all_goals first
    | rfl
    | (cases ha; done)
    | (simp only [exec, dev_modifyDev]; split <;> rfl)

theorem start_exec {a : Act} (ha : ∀ tp, a ≠ .setActivationStartTp tp) (i : Env) (s : St) :
    (exec a i s).2.activationStartTp = s.activationStartTp := by
  cases a
  case ecxStatecheck id state =>
    simp only [exec]
    split <;> rfl
  all_goals first | rfl | exact absurd rfl (ha _)

theorem haveReported_cons {a : Act} (hr : a ≠ .ecxReadstate) (hs : a ≠ .updateBusState .activated)
    {t : ℕ} {r : Ans a} {h : List Ev} : haveReported n (⟨t, a, r⟩ :: h) = haveReported n h := by
  cases a
  case ecxReadstate => exact absurd rfl hr
  case updateBusState s => cases s <;> first | rfl | exact absurd rfl hs
  all_goals rfl

theorem fleet_after {a : Act} (ha : a.passive = true) (t : ℕ) (i : Env) :
    fleet n (w.after exec t a i) = fleet n w := by
  have he : a.enrols = false := by cases a <;> first | rfl | cases ha
  have hs : a.sizes = false := by cases a <;> first | rfl | cases ha
  have hb : a.binds = false := by cases a <;> first | rfl | cases ha
  have ht : ∀ tp, a ≠ .setActivationStartTp tp := fun tp h => by subst h; cases ha
  have hr : a ≠ .ecxReadstate := fun h => by subst h; cases ha
  have hact : a ≠ .updateBusState .activated := fun h => by subst h; cases ha
  unfold fleet
  congr 1
  · exact roster_exec he i w.st
  · exact sizing_exec hs i w.st
  · exact funext fun p => bus_exec hb i w.st p
  · exact start_exec ht i w.st
  · exact haveReported_cons hr hact

theorem Plain.passive {a : Act} (h : Plain a) : a.passive = true := by
  cases a <;> first | rfl | cases h

/-! ## Programs that return -/

/-- With a fleet in `J`, the program returns on a healthy bus, with a fleet in `Q`. -/
def Brings (ps : Parameters) (n : ℕ) (J : Fleet → Prop) (p : P α) (Q : α → Fleet → Prop) : Prop :=
  (single (healthy ps n) free).Returns (fun w => J (fleet n w)) p fun x w => Q x (fleet n w)

variable {J : Fleet → Prop} {Q : α → Fleet → Prop}

theorem Brings.bind {p : P β} {f : β → P α} {T : β → Fleet → Prop} (hp : Brings ps n J p T)
    (hf : ∀ x, Brings ps n (T x) (f x) Q) : Brings ps n J (p.bind f) Q :=
  Setting.Returns.bind hp hf

theorem Brings.assume {c : Prop} {p : P α} (hc : ∀ v, J v → c) (h : c → Brings ps n J p Q) :
    Brings ps n J p Q :=
  Setting.Returns.assume (fun _ hw => hc _ hw) h

theorem Brings.mono {p : P α} {J' : Fleet → Prop} {Q' : α → Fleet → Prop} (h : Brings ps n J p Q)
    (hJ : ∀ v, J' v → J v) (hQ : ∀ x v, Q x v → Q' x v) : Brings ps n J' p Q' :=
  Setting.Returns.mono h (fun _ hw => hJ _ hw) fun x _ hx => hQ x _ hx

theorem brings_pure {x : α} (h : ∀ v, J v → Q x v) : Brings ps n J (.pure x : P α) Q :=
  Setting.Returns.pure fun _ hw => h _ hw

/-- An action that leaves the fleet alone, and what its answer tells. -/
theorem brings_ask {a : Act} (ha : a.passive = true) {f : Ans a → P α} (A : Ans a → Fleet → Prop)
    (hA : ∀ i w, healthy ps n 0 a i w → J (fleet n w) → A (exec a i w.st).1 (fleet n w))
    (hf : ∀ r, Brings ps n (fun v => A r v ∧ J v) (f r) Q) : Brings ps n J ((act a).bind f) Q := by
  refine Setting.Returns.ask (T := fun r w => A r (fleet n w) ∧ J (fleet n w)) (fun i w hi hw => ?_) hf
  refine ⟨trivial, ?_⟩
  rw [fleet_after ha]
  exact ⟨hA i w hi hw, hw⟩

/-- An action that leaves the fleet alone, whatever it answers. -/
theorem brings_skip {a : Act} (ha : a.passive = true) {f : Ans a → P α} (hf : ∀ r, Brings ps n J (f r) Q) :
    Brings ps n J ((act a).bind f) Q :=
  brings_ask ha (fun _ _ => True) (fun _ _ _ _ => trivial)
    fun r => (hf r).mono (fun _ hv => hv.2) fun _ _ h => h

/-- An action whose answer the fleet tells. -/
theorem brings_told {a : Act} (ha : a.passive = true) {f : Ans a → P α} {r : Ans a}
    (hA : ∀ i w, healthy ps n 0 a i w → J (fleet n w) → (exec a i w.st).1 = r)
    (hf : Brings ps n J (f r) Q) : Brings ps n J ((act a).bind f) Q :=
  brings_ask ha (fun x _ => x = r) hA fun x => .assume (fun _ hv => hv.1) fun hx => by
    subst hx
    exact hf.mono (fun _ hv => hv.2) fun _ _ h => h

/-- An action that changes the fleet. -/
theorem brings_step {a : Act} {f : Ans a → P α} (T : Ans a → Fleet → Prop)
    (ha : ∀ i w, healthy ps n 0 a i w → J (fleet n w) →
      T (exec a i w.st).1 (fleet n (w.after exec 0 a i)))
    (hf : ∀ r, Brings ps n (T r) (f r) Q) : Brings ps n J ((act a).bind f) Q :=
  Setting.Returns.ask (fun i w hi hw => ⟨trivial, ha i w hi hw⟩) hf

theorem brings_act {a : Act} (ha : a.passive = true) : Brings ps n J (act a) fun _ => J :=
  (brings_skip ha (f := .pure) fun _ => brings_pure fun _ h => h : Brings ps n J ((act a).bind .pure) fun _ => J)

/-- Total programs of actions that leave the fleet alone. -/
theorem brings_total {p : P α} (hp : p.Uses fun a => a.passive = true) (ht : p.Total) :
    Brings ps n J p fun _ => J :=
  .keeps (fun a ha i w _ hw => ⟨trivial, by rw [fleet_after ha]; exact hw⟩) hp ht

theorem brings_plain {p : P α} (hp : p.Uses Plain) (ht : p.Total) : Brings ps n J p fun _ => J :=
  brings_total (hp.mono fun _ => Plain.passive) ht

theorem Brings.withLock {m : List Mutex} {p : P α} (h : Brings ps n J p Q) :
    Brings ps n J (Prog.withLock m p) Q :=
  Setting.Returns.withLock h

theorem Brings.when {c : Bool} {p : P Unit} {Q : Unit → Fleet → Prop} (ht : c = true → Brings ps n J p Q)
    (hf : c = false → ∀ v, J v → Q () v) : Brings ps n J (Prog.when c p) Q :=
  Setting.Returns.when ht fun hc _ hw => hf hc _ hw

/-- A test that passes. -/
theorem Brings.passed {c : Bool} {e : Exn} {f : Unit → P α} (hc : ∀ v, J v → c = false)
    (hf : Brings ps n J (f ()) Q) : Brings ps n J ((Prog.raiseIf c e).bind f) Q :=
  Setting.Returns.passed (fun _ hw => hc _ hw) hf

theorem Brings.survives {c : Bool} {f : Unit → P α} (hc : ∀ v, J v → c = true)
    (hf : Brings ps n J (f ()) Q) : Brings ps n J ((crashUnless c).bind f) Q :=
  .assume hc fun h => by
    subst h
    exact hf

/-- A loop over consecutive numbers. -/
theorem Brings.forRange {f : ℕ → P Unit} {a m : ℕ} {I : ℕ → Fleet → Prop}
    (hstep : ∀ k < m, Brings ps n (I k) (f (a + k)) fun _ => I (k + 1)) :
    Brings ps n (I 0) (Prog.forEach (List.range' a m) f) fun _ => I m :=
  Setting.Returns.forRange (J := fun k w => I k (fleet n w)) hstep

/-! ## Tests of the bus -/

/-- A test of `state_`, whose outcome the fleet tells. -/
theorem brings_stateIn {s : BusState} (hs : ∀ v, J v → v.roster.state = s) (l : List BusState) {f : Bool → P α}
    (hf : Brings ps n J (f (decide (s ∈ l))) Q) : Brings ps n J ((stateIn l).bind f) Q := by
  induction l with
  | nil => exact hf
  | cons b l ih =>
    refine brings_told (a := .getBusState) (r := s) rfl (fun i w _ hw => hs _ hw) ?_
    change Brings ps n J ((if s = b then Prog.pure true else stateIn l).bind f) Q
    by_cases hb : s = b
    · rw [if_pos hb]
      simpa [hb] using hf
    · rw [if_neg hb]
      exact ih (by simpa [hb] using hf)

/-- `if (state_ is not in l) throw e`, in a state that is. -/
theorem brings_require {s : BusState} (hs : ∀ v, J v → v.roster.state = s) {l : List BusState} {e : Exn}
    {f : Unit → P α} (hl : s ∈ l) (hf : Brings ps n J (f ()) Q) :
    Brings ps n J ((stateIn l).bind fun b => (Prog.raiseIf (!b) e).bind f) Q :=
  brings_stateIn hs l (.passed (fun _ _ => by simp [hl]) hf)

/-- `if (state_ is in l) throw e`, in a state that is not. -/
theorem brings_refuse {s : BusState} (hs : ∀ v, J v → v.roster.state = s) {l : List BusState} {e : Exn}
    {f : Unit → P α} (hl : s ∉ l) (hf : Brings ps n J (f ()) Q) :
    Brings ps n J ((stateIn l).bind fun b => (Prog.raiseIf b e).bind f) Q :=
  brings_stateIn hs l (.passed (fun _ _ => by simp [hl]) hf)

/-! ## A bus with its devices -/

/-- **A bus with `n` devices** in state `s`: the tables are aligned, and the devices have their
pointer to the bus. -/
structure Fleet.Manned (n : ℕ) (s : BusState) (v : Fleet) : Prop where
  alive : v.roster.alive = true
  state : v.roster.state = s
  count : v.roster.count = n
  entries : v.roster.entries = n
  devices : v.roster.devices = List.range n
  id : ∀ p < n, v.roster.id p = p + 1
  bus : ∀ p < n, v.bus p = true

/-- What a hook may rely on when it is called on a device. -/
def Fleet.At (v : Fleet) (p : Addr) : Prop := v.roster.alive = true ∧ p ∈ v.roster.devices ∧ v.bus p = true

theorem Fleet.Manned.at {s : BusState} {v : Fleet} (h : v.Manned n s) {p : Addr} (hp : p < n) : v.At p :=
  ⟨h.alive, by rw [h.devices]; exact List.mem_range.2 hp, h.bus p hp⟩

/-- The loop over the devices. -/
theorem brings_forDevices {l : Loop} {body : Addr → DeviceId → P Unit} {s : BusState} (I : ℕ → Fleet → Prop)
    (hI : ∀ k v, I k v → v.Manned n s)
    (hb : ∀ p < n, Brings ps n (I p) (body p (p + 1)) fun _ => I (p + 1)) :
    Brings ps n (I 0) (forDevices l body) fun _ => I n := by
  have hdev : ∀ {k : ℕ} {w : W}, I k (fleet n w) → w.st.devices = List.range n :=
      fun hw => (hI _ _ hw).devices
  refine brings_told (a := .devices l) (r := List.range n) rfl (fun i w _ hw => hdev hw) ?_
  rw [List.range_eq_range']
  refine Brings.forRange fun p hp => ?_
  rw [Nat.zero_add]
  refine brings_told (a := .deref p) (r := some (p + 1)) rfl (fun i w _ hw => ?_) (hb p hp)
  have hmem : p ∈ w.st.devices := by
    rw [hdev hw]
    exact List.mem_range.2 hp
  exact (if_pos hmem).trans (congrArg some ((hI _ _ hw).id p hp))

/-! ## Hooks -/

/-- In service all devices are fitted. -/
def Fleet.Fit (v : Fleet) : Prop := v.roster.state.inService → ∀ p ∈ v.roster.devices, v.sizing.Fitted p

/-- **Hooks that return**, wherever their device is on a living bus. -/
def UserCode.Returning (ps : Parameters) (n : ℕ) (hk : UserCode) : Prop :=
  ∀ h p w o w', w.st.alive = true → p ∈ w.st.devices → (w.st.dev p).bus = true →
    Exec exec (healthy ps n) 0 (hk.hook h p) w o w' → ∃ u, o = .ret u

theorem UserCode.none_returning : UserCode.none.Returning ps n := by
  intro h p w o w' _ _ _ he
  cases he
  exact ⟨(), rfl⟩

/-- What an action outside the lifecycle leaves alone. -/
theorem Calm.fleet {a : Act} (ha : Calm a) (t : ℕ) (i : Env) :
    roster (w.after exec t a i).st = roster w.st ∧
      (∀ p, ((w.after exec t a i).st.dev p).bus = (w.st.dev p).bus) ∧
      (w.after exec t a i).st.activationStartTp = w.st.activationStartTp ∧
      haveReported n (w.after exec t a i).hist = haveReported n w.hist := by
  have he : a.enrols = false := by cases a <;> first | rfl | cases ha
  have hb : a.binds = false := by cases a <;> first | rfl | cases ha
  have ht : ∀ tp, a ≠ .setActivationStartTp tp := fun tp h => by subst h; cases ha
  have hr : a ≠ .ecxReadstate := fun h => by subst h; cases ha
  have hs : a ≠ .updateBusState .activated := fun h => by subst h; cases ha
  exact ⟨roster_exec he i w.st, bus_exec hb i w.st, start_exec ht i w.st, haveReported_cons hr hs⟩

/-- **Code of users** leaves the fleet alone. -/
theorem User.fleet {p : P Unit} (hp : User ps p) {o : Outcome Exn Unit} {w' : W}
    (he : Exec exec (healthy ps n) 0 p w o w') (ho : o ≠ .crash) (hw : (fleet n w).Fit) :
    fleet n w' = fleet n w := by
  have hcalm : roster w'.st = roster w.st ∧ (∀ p, (w'.st.dev p).bus = (w.st.dev p).bus) ∧
      w'.st.activationStartTp = w.st.activationStartTp ∧
      haveReported n w'.hist = haveReported n w.hist := by
    have hwp : wp exec (healthy ps n) free 0 p (fun _ v => roster v.st = roster w.st ∧
        (∀ p, (v.st.dev p).bus = (w.st.dev p).bus) ∧ v.st.activationStartTp = w.st.activationStartTp ∧
        haveReported n v.hist = haveReported n w.hist) w := by
      refine wp_uses (fun a ha i v _ hv => ⟨trivial, ?_⟩) hp.calm ⟨rfl, fun _ => rfl, rfl, rfl⟩
      obtain ⟨hr, hb, ht, hrep⟩ := Calm.fleet (w := v) (n := n) ha 0 i
      exact ⟨hr.trans hv.1, fun p => (hb p).trans (hv.2.1 p), ht.trans hv.2.2.1, hrep.trans hv.2.2.2⟩
    exact wp_sound he hwp
  have hsizing : sizing w'.st = sizing w.st := by
    have hrests : Rests (healthy ps n) p := hp.rests
    have hmeets := (hrests (sizing w.st) hw).sound he rfl
    cases o with
    | ret u => exact hmeets
    | exn e => exact hmeets
    | crash => exact absurd rfl ho
  obtain ⟨hr, hb, ht, hrep⟩ := hcalm
  unfold EthercatInterface.fleet
  rw [hr, hsizing, ht, hrep]
  congr 1
  exact funext hb

/-- A hook that returns. -/
theorem brings_hook (hok : hk.Ok ps) (hr : hk.Returning ps n) {h : Hook} {p : Addr}
    (hJ : ∀ v, J v → v.At p ∧ v.Fit) : Brings ps n J (hk.hook h p) fun _ => J := by
  refine Setting.Returns.of_exec fun w o w' hw he => ?_
  obtain ⟨⟨halive, hmem, hbus⟩, hfit⟩ := hJ _ hw
  obtain ⟨u, rfl⟩ := hr h p w o w' halive hmem hbus he
  refine ⟨u, rfl, ?_⟩
  rw [(hok.hook h p).fleet he (by simp) hfit]
  exact hw

/-- The loop that calls a hook of every device. -/
theorem brings_callbacks (hok : hk.Ok ps) (hr : hk.Returning ps n) {h : Hook} {s : BusState}
    (hJ : ∀ v, J v → v.Manned n s ∧ v.Fit) :
    Brings ps n J (forDevices (.callback h) fun p _ => onCallback hk h p) fun _ => J :=
  brings_forDevices (fun _ => J) (fun _ v hv => (hJ v hv).1) fun _ hp => brings_skip rfl fun _ =>
    brings_hook hok hr fun v hv => ⟨(hJ v hv).1.at hp, (hJ v hv).2⟩

/-! ## States of the slaves -/

/-- Every slave takes the state it is asked for. -/
theorem brings_setDeviceTargetState {s : BusState} (hJ : ∀ v, J v → v.Manned n s) {p : Addr} (hp : p < n)
    {state : ℕ} : Brings ps n J (setDeviceTargetState (p + 1) state) fun b v => b = true ∧ J v := by
  refine .withLock ?_
  refine brings_told (a := .slavecount) (r := n) rfl (fun i w _ hw => (hJ _ hw).count) ?_
  have honBus : ¬(p + 1 ≠ 0 ∧ (decide (0 < p + 1) && decide (p + 1 ≤ n)) = false) := by
    simp [Nat.succ_le_of_lt hp]
  change Brings ps n J (if _ then _ else _) _
  rw [if_neg honBus]
  refine brings_skip rfl fun _ => brings_ask (a := .ecxWritestate (p + 1)) rfl (fun wkc _ => 0 < wkc)
    (fun i w hi _ => hi) fun wkc => brings_pure fun v hv => ⟨?_, hv.2⟩
  exact decide_eq_true hv.1

theorem brings_waitForDeviceTargetState {s : BusState} (hJ : ∀ v, J v → v.Manned n s) {p : Addr} (hp : p < n)
    {state : ℕ} : Brings ps n J (waitForDeviceTargetState (p + 1) state) fun b v => b = true ∧ J v := by
  refine .withLock (brings_ask (a := .ecxStatecheck (p + 1) state) rfl (fun r _ => r = state)
    (fun i w hi hw => ?_) fun r => brings_pure fun v hv => ⟨decide_eq_true hv.1, hv.2⟩)
  have hcount : w.st.context.ecatSlavecount = n := (hJ _ hw).count
  change (if w.st.context.ecatSlavecount < p + 1 then _ else _ : ℕ × St).1 = state
  rw [if_neg (by rw [hcount]; exact Nat.not_lt.2 hp)]
  exact hi

end EthercatInterface
