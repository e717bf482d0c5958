import EthercatInterface.Lifecycle.Run
import EthercatInterface.Proof.Members

/-!
# Hooks that only use devices

Hooks made of `sdo_read`, `sdo_write` and accesses to process data (`DeviceCode`) take no part
in a teardown themselves: they leave no trace in its log (`DeviceCode.hushed`). In the
destructor of the bus the devices have lost their bus. What such a hook can do there depends
on **the buffers of the devices alone** (`DeviceCode.transfer`), and it does not crash
(`DeviceCode.cut`).

* `teardownLog`: what the devices and the slaves see of a teardown.
* `CutFrom`: the state a hook finds in the destructor.
-/

namespace EthercatInterface

open Interleave

variable {ps : Parameters} {hk : UserCode}

/-! ## What is seen of a teardown -/

/-- A step of a teardown; requests and waits are those for all slaves. -/
inductive TeardownStep
  | preShutdown (p : Addr)
  | request (state : ℕ)
  | send
  | wait (state : ℕ)
  | close
  | postShutdown (p : Addr)
  deriving DecidableEq

def teardownStep : Act → Option TeardownStep
  | .callback .onPreShutdown p => some (.preShutdown p)
  | .setSlaveState 0 s => some (.request s)
  | .ecxWritestate 0 => some .send
  | .ecxStatecheck 0 s => some (.wait s)
  | .ecxClose => some .close
  | .callback .onPostShutdown p => some (.postShutdown p)
  | _ => none

/-- The teardown steps of a history, oldest first. -/
def teardownLog (h : List Ev) : List TeardownStep := (h.filterMap fun e => teardownStep e.act).reverse

theorem teardownLog_after (w : W) (a : Act) (i : Env) :
    teardownLog (w.after exec 0 a i).hist = teardownLog w.hist ++ (teardownStep a).toList := by
  simp only [teardownLog, World.after_hist, List.filterMap_cons]
  cases teardownStep a <;> simp

/-- The teardown of a bus with devices `D`. -/
def teardownOf (D : List Addr) : List TeardownStep :=
  D.map .preShutdown ++ ([.request EC_STATE_PRE_OP, .send, .wait EC_STATE_PRE_OP, .close] ++
    D.map .postShutdown)

/-! ## Hooks that only use devices -/

/-- `sdo_read`, `sdo_write` and the access to the process data of a device. -/
def Op.onDevice : Op → Bool
  | .deviceSdoRead .. | .deviceSdoWrite .. | .getGenericRxPdo _ _ | .setGenericRxPdo _ _
  | .getGenericTxPdo _ _ => true
  | _ => false

/-- Code of users that only performs operations of devices. It may look at what they did, and
throw. -/
inductive DeviceCode (ps : Parameters) : P Unit → Prop
  | ret : DeviceCode ps (.pure ())
  | throw (e : Exn) : DeviceCode ps (.throw e)
  | decide {k : ℤ → P Unit} : (∀ x, DeviceCode ps (k x)) →
      DeviceCode ps ((act .userDecision).bind k)
  | call {o : Op} {k : Except Exn Unit → P Unit} : o.onDevice = true →
      (∀ r, DeviceCode ps (k r)) → DeviceCode ps ((o.invoke ps .none).attempt.bind k)

/-- Nothing that a teardown is made of. -/
def Hushed (a : Act) : Prop :=
  ((teardownStep a).isSome || (stored a).isSome || a.emplaces || a.clears) = false

theorem Mailing.hushed {a : Act} (h : Mailing a) : Hushed a := by
  cases a <;> first | rfl | cases h

theorem hushed_act {a : Act}
    (h : ((teardownStep a).isSome || (stored a).isSome || a.emplaces || a.clears) = false) :
    (act a).Uses Hushed :=
  uses_act h

theorem hushed_throughBus {α : Type} {p : Addr} {k : DeviceId → P α} (hk : ∀ id, (k id).Uses Hushed) :
    (throughBus p k).Uses Hushed := by
  refine (hushed_act rfl).bind fun _ => Prog.uses_raiseIf.bind fun _ =>
    (hushed_act rfl).bind fun _ => Prog.Uses.bind ?_ fun _ =>
      (hushed_act rfl).bind hk
  exact (fits_crashUnless (V := AnyLock) _).uses

theorem MailboxSection.hushed {α : Type} {p : P α} (h : MailboxSection p) : p.Uses Hushed := by
  obtain ⟨body, rfl, hb⟩ := h
  exact Prog.uses_withLock (hb.uses.mono fun _ => Mailing.hushed)

theorem hushed_body {o : Op} (ho : o.onDevice = true) : (o.body ps hk).Uses Hushed := by
  cases o
  case deviceSdoRead p n i s c =>
    exact Uses.void (hushed_throughBus fun id => (access_readSdoUntyped n id i s c).mailbox.hushed)
  case deviceSdoWrite p data i s =>
    exact Uses.void (hushed_throughBus fun id => (access_writeSdoUntyped data id i s).mailbox.hushed)
  case getGenericRxPdo p n =>
    refine Uses.void ((hushed_act rfl).bind fun _ => Prog.uses_raiseIf.bind fun _ =>
      (hushed_act rfl).bind fun _ => Prog.uses_raiseIf.bind fun _ => ?_)
    exact Prog.uses_withLock (hushed_act rfl)
  case setGenericRxPdo p rx =>
    refine (hushed_act rfl).bind fun _ => Prog.uses_raiseIf.bind fun _ =>
      (hushed_act rfl).bind fun _ => Prog.uses_raiseIf.bind fun _ => ?_
    exact Prog.uses_withLock (hushed_act rfl)
  case getGenericTxPdo p n =>
    refine Uses.void ((hushed_act rfl).bind fun _ => Prog.uses_raiseIf.bind fun _ =>
      (hushed_act rfl).bind fun _ => Prog.uses_raiseIf.bind fun _ => ?_)
    exact Prog.uses_withLock (hushed_act rfl)
  all_goals cases ho

theorem DeviceCode.hushed {p : P Unit} (h : DeviceCode ps p) : p.Uses Hushed := by
  induction h with
  | ret => trivial
  | throw e => trivial
  | decide _ ih => exact (hushed_act rfl).bind ih
  | call ho _ ih =>
    refine Prog.Uses.bind (Prog.Uses.attempt ?_) ih
    exact Uses.invoke (S := Hushed) rfl (fun _ => rfl) (hushed_body ho)

/-! ## Devices without a bus -/

/-- The buffers have the sizes they have in `s`. -/
structure SameBuffers (s u : St) : Prop where
  initialized : ∀ p, (u.dev p).pdoInitialized = (s.dev p).pdoInitialized
  rx : ∀ p, (u.dev p).rxPdo.length = (s.dev p).rxPdo.length
  tx : ∀ p, (u.dev p).txPdo.length = (s.dev p).txPdo.length

/-- No device has a bus, and the buffers have the sizes they have in `s`. -/
structure CutFrom (s u : St) : Prop extends SameBuffers s u where
  bus : ∀ p, (u.dev p).bus = false

/-- Changes which buffers there are, or binds a device. -/
def Act.reshapes : Act → Bool
  | .emplaceDevice _ | .resizeRxPdo _ _ | .resizeTxPdo _ _ | .setPdoInitialized _ | .setRxPdo _ _
  | .setTxPdo _ _ => true
  | _ => false

/-- An action leaves the buffers of a device alone. -/
theorem buffers_exec {a : Act} (ha : a.reshapes = false) (i : Env) (s : St) (p : Addr) :
    ((exec a i s).2.dev p).pdoInitialized = (s.dev p).pdoInitialized ∧
      ((exec a i s).2.dev p).rxPdo = (s.dev p).rxPdo ∧
      ((exec a i s).2.dev p).txPdo = (s.dev p).txPdo := by
  cases a
  case ecxStatecheck id state =>
    simp only [exec]
    split <;> exact ⟨rfl, rfl, rfl⟩
  all_goals first
    | exact ⟨rfl, rfl, rfl⟩
    | (cases ha; done)
    | (simp only [exec, dev_modifyDev]; split <;> simp [*])

/-- Only a new device gets a bus. -/
theorem unbound_exec {a : Act} (ha : a.emplaces = false) (i : Env) {s : St} {p : Addr}
    (hp : (s.dev p).bus = false) : ((exec a i s).2.dev p).bus = false := by
  cases a
  case ecxStatecheck id state =>
    simp only [exec]
    split <;> exact hp
  all_goals first
    | exact hp
    | (cases ha; done)
    | (simp only [exec, dev_modifyDev]; split <;> simp_all)

theorem emplaces_of_reshapes {a : Act} (ha : a.reshapes = false) : a.emplaces = false := by
  cases a <;> first | rfl | cases ha

section Cut

variable {s u : St} {a : Act}

theorem SameBuffers.exec (h : SameBuffers s u) (ha : a.reshapes = false) (i : Env) :
    SameBuffers s (exec a i u).2 where
  initialized p := (buffers_exec ha i u p).1.trans (h.initialized p)
  rx p := (congrArg List.length (buffers_exec ha i u p).2.1).trans (h.rx p)
  tx p := (congrArg List.length (buffers_exec ha i u p).2.2).trans (h.tx p)

theorem CutFrom.exec (h : CutFrom s u) (ha : a.reshapes = false) (i : Env) : CutFrom s (exec a i u).2 :=
  ⟨h.toSameBuffers.exec ha i, fun p => unbound_exec (emplaces_of_reshapes ha) i (h.bus p)⟩

theorem CutFrom.setRxPdo (h : CutFrom s u) {q : Addr} {data : List UInt8}
    (hl : data.length = (u.dev q).rxPdo.length) (i : Env) :
    CutFrom s (EthercatInterface.exec (.setRxPdo q data) i u).2 := by
  have dev : ∀ p, (EthercatInterface.exec (.setRxPdo q data) i u).2.dev p =
      if p = q then { u.dev p with rxPdo := data } else u.dev p :=
    fun p => dev_modifyDev u q p fun d => { d with rxPdo := data }
  refine ⟨⟨fun p => ?_, fun p => ?_, fun p => ?_⟩, fun p => unbound_exec rfl i (h.bus p)⟩
  · rw [dev p, ← h.initialized p]
    split <;> rfl
  · rw [dev p, ← h.rx p]
    split
    · next hp => rw [hp]; exact hl
    · rfl
  · rw [dev p, ← h.tx p]
    split <;> rfl

end Cut

/-! ## Hooks in the destructor -/

/-- The program returns or throws, as `r` says. -/
def Outcome.Is {α : Type} (r : Except Exn Unit) : Outcome Exn α → Prop
  | .ret _ => r = .ok ()
  | .exn e => r = .error e
  | .crash => False

/-- Where the devices have lost their bus, the program does what `r` says, and leaves them so. -/
def Ends (s : St) (r : Except Exn Unit) {α : Type} (p : P α) : Prop :=
  ∀ u : W, CutFrom s u.st → wp exec free free 0 p (fun o w => Outcome.Is r o ∧ CutFrom s w.st) u

section Ends

variable {s : St} {r : Except Exn Unit} {α β : Type}

theorem Ends.bind {p : P β} {f : β → P α} (hp : Ends s (.ok ()) p) (hf : ∀ x, Ends s r (f x)) :
    Ends s r (p.bind f) := fun u hu =>
  wp_bind (wp_mono (hp u hu) fun o w ho => by
    cases o with
    | ret x => exact hf x w ho.2
    | exn e => cases ho.1
    | crash => exact ho.1.elim)

theorem Ends.stop {e : Exn} {p : P β} {f : β → P α} (hp : Ends s (.error e) p) :
    Ends s (.error e) (p.bind f) := fun u hu =>
  wp_bind (wp_mono (hp u hu) fun o w ho => by
    cases o with
    | ret x => cases ho.1
    | exn e => exact ho
    | crash => exact ho.1.elim)

theorem ends_pure {x : α} : Ends s (.ok ()) (.pure x : P α) := fun _ hu => ⟨rfl, hu⟩

theorem ends_throw {e : Exn} : Ends s (.error e) (.throw e : P α) := fun _ hu => ⟨rfl, hu⟩

theorem ends_act {a : Act} (ha : a.reshapes = false) : Ends s (.ok ()) (act a) := fun _ hu =>
  wp_perform fun i _ => ⟨trivial, rfl, hu.exec ha i⟩

/-- Go on with what an action answers. -/
theorem ends_answer {a : Act} {x : Ans a} {f : Ans a → P α} (ha : a.reshapes = false)
    (hx : ∀ i u, CutFrom s u → (exec a i u).1 = x) (hf : Ends s r (f x)) :
    Ends s r ((act a).bind f) := fun u hu =>
  wp_bind (wp_perform fun i _ => ⟨trivial, by
    change wp exec free free 0 (f (exec a i u.st).1) _ _
    rw [hx i u.st hu]
    exact hf _ (hu.exec ha i)⟩)

theorem ends_withLock {m : List Mutex} {p : P α} (hp : Ends s r p) : Ends s r (Prog.withLock m p) :=
  fun u hu => wp_withLock (hp u hu)

theorem Ends.void {p : P α} (hp : Ends s r p) : Ends s r (void p) := fun u hu =>
  wp_bind (wp_mono (hp u hu) fun o w ho => by
    cases o with
    | ret x => exact ho
    | exn e => exact ho
    | crash => exact ho)

/-- An operation that goes through the bus throws. -/
theorem ends_throughBus {p : Addr} {k : DeviceId → P α} :
    Ends s (.error busNotInitialized) (throughBus p k) :=
  ends_answer (a := .busPtr p) (x := false) rfl (fun _ _ hu => hu.bus p) ends_throw.stop

/-- One that checks the buffer of its device first. -/
theorem ends_buffered {p : Addr} {a : Act} {n m : ℕ} {e e' : Exn} {size : Ans a → ℕ} {k : P α}
    (ha : a.reshapes = false) (hm : ∀ i u, CutFrom s u → size (exec a i u).1 = m)
    (hk : n = m → Ends s (.ok ()) k) :
    ∃ r, Ends s r ((act (.pdoInitialized p)).bind fun b => (Prog.raiseIf (!b) e).bind fun _ =>
      (act a).bind fun x => (Prog.raiseIf (n ≠ size x) e').bind fun _ => k) := by
  have answer : ∀ {r : Except Exn Unit} {f : Bool → P α}, Ends s r (f (s.dev p).pdoInitialized) →
      Ends s r ((act (.pdoInitialized p)).bind f) := fun hf =>
    ends_answer (a := .pdoInitialized p) rfl (fun _ u hu => hu.initialized p) hf
  have sized : ∀ {r : Except Exn Unit} {f : ℕ → P α}, Ends s r (f m) →
      Ends s r ((act a).bind fun x => f (size x)) := fun {_ f} hf u hu =>
    wp_bind (wp_perform fun i _ => ⟨trivial, by
      change wp exec free free 0 (f (size (exec a i u.st).1)) _ _
      rw [hm i u.st hu]
      exact hf _ (hu.exec ha i)⟩)
  -- the buffer has no size yet, the right one or a wrong one
  cases hb : (s.dev p).pdoInitialized
  · refine ⟨.error e, answer ?_⟩
    rw [hb]
    exact ends_throw.stop
  · by_cases hn : n = m
    · refine ⟨.ok (), answer ?_⟩
      rw [hb]
      refine ends_pure.bind fun _ => sized (f := fun y => (Prog.raiseIf (n ≠ y) e').bind fun _ => k) ?_
      rw [show decide (n ≠ m) = false by simpa using hn]
      exact ends_pure.bind fun _ => hk hn
    · refine ⟨.error e', answer ?_⟩
      rw [hb]
      refine ends_pure.bind fun _ => sized (f := fun y => (Prog.raiseIf (n ≠ y) e').bind fun _ => k) ?_
      rw [show decide (n ≠ m) = true by simpa using hn]
      exact ends_throw.stop

theorem ends_invoke {o : Op} (hb : Ends s r (o.body ps hk)) : Ends s r (o.invoke ps hk) := by
  refine (ends_act rfl).bind fun _ w hw => wp_bind (wp_attempt (wp_mono (hb w hw) fun out w ho => ?_))
  cases out with
  | ret x => exact wp_perform fun i _ => ⟨trivial, ho.1, ho.2.exec rfl i⟩
  | exn e =>
    exact wp_bind (wp_perform fun i _ => ⟨trivial, ho.1, ho.2.exec rfl i⟩)
  | crash => exact ho.1.elim

/-- **What an operation of a device does in the destructor** depends on the buffers alone. -/
theorem ends_onDevice {o : Op} (ho : o.onDevice = true) (s : St) :
    ∃ r, Ends s r (o.invoke ps .none) := by
  cases o
  case deviceSdoRead p n i s' c => exact ⟨_, ends_invoke ends_throughBus.void⟩
  case deviceSdoWrite p data i s' => exact ⟨_, ends_invoke ends_throughBus.void⟩
  case getGenericRxPdo p n =>
    obtain ⟨r, hr⟩ : ∃ r, Ends s r (getGenericRxPdo p n) :=
      ends_buffered rfl (fun _ u hu => hu.rx p) fun _ => ends_withLock (ends_act rfl)
    exact ⟨r, ends_invoke hr.void⟩
  case setGenericRxPdo p rx =>
    obtain ⟨r, hr⟩ : ∃ r, Ends s r (setGenericRxPdo p rx) :=
      ends_buffered rfl (fun _ u hu => hu.rx p) fun hn => ends_withLock fun u hu =>
        wp_perform fun i _ => ⟨trivial, rfl, hu.setRxPdo (hn.trans (hu.rx p).symm) i⟩
    exact ⟨r, ends_invoke hr⟩
  case getGenericTxPdo p n =>
    obtain ⟨r, hr⟩ : ∃ r, Ends s r (getGenericTxPdo p n) :=
      ends_buffered rfl (fun _ u hu => hu.tx p) fun _ => ends_withLock (ends_act rfl)
    exact ⟨r, ends_invoke hr.void⟩
  all_goals cases ho

end Ends

section Cut

variable {s : St} {p : P Unit} {u v : W}

theorem Ends.attempt {r : Except Exn Unit} (hp : Ends s r p) (hu : CutFrom s u.st) :
    wp exec free free 0 p.attempt (fun o w => ∃ x, o = .ret x ∧ x = r ∧ CutFrom s w.st) u := by
  refine wp_attempt (wp_mono (hp u hu) fun o w ho => ?_)
  cases o with
  | ret x => exact ⟨_, rfl, ho.1.symm, ho.2⟩
  | exn e => exact ⟨_, rfl, ho.1.symm, ho.2⟩
  | crash => exact ho.1.elim

/-- **Code for devices** neither crashes in the destructor nor changes what it depends on. -/
theorem DeviceCode.cut (h : DeviceCode ps p) (hu : CutFrom s u.st) :
    wp exec free free 0 p (fun o w => o ≠ .crash ∧ CutFrom s w.st) u := by
  induction h generalizing u with
  | ret => exact ⟨by simp, hu⟩
  | throw e => exact ⟨by simp, hu⟩
  | decide _ ih => exact wp_bind (wp_perform fun i _ => ⟨trivial, ih _ (hu.exec rfl i)⟩)
  | @call o k ho _ ih =>
    obtain ⟨r, hr⟩ : ∃ r, Ends s r (o.invoke ps .none) := ends_onDevice ho s
    refine wp_bind (wp_mono (hr.attempt hu) ?_)
    rintro _ w ⟨x, rfl, _, hw⟩
    exact ih x hw

/-- Whether it can throw there depends on the buffers alone. -/
theorem DeviceCode.transfer (h : DeviceCode ps p) (hu : CutFrom s u.st) (hv : CutFrom s v.st)
    (hq : wp exec free free 0 p (fun o _ => ∀ e, o ≠ .exn e) v) :
    wp exec free free 0 p (fun o _ => ∀ e, o ≠ .exn e) u := by
  induction h generalizing u v with
  | ret => exact hq
  | throw e => exact hq
  | decide _ ih =>
    refine wp_bind (wp_perform fun i hi => ⟨trivial, ?_⟩)
    have hu' : CutFrom s (u.after exec 0 .userDecision i).st := hu.exec rfl i
    have hv' : CutFrom s (v.after exec 0 .userDecision i).st := hv.exec rfl i
    exact ih _ hu' hv' (hq i hi).2
  | @call o k ho _ ih =>
    obtain ⟨r, hr⟩ : ∃ r, Ends s r (o.invoke ps .none) := ends_onDevice ho s
    obtain ⟨x, v', ⟨rfl, hv'⟩, hx⟩ := wp_next hq (hr.attempt hv)
    refine wp_bind (wp_mono (hr.attempt hu) ?_)
    rintro _ w ⟨y, rfl, rfl, hw⟩
    exact ih y hw hv' hx

end Cut

end EthercatInterface
