import EthercatInterface.Lifecycle.Run
import EthercatInterface.Proof.Members
import EthercatInterface.Proof.Triples

/-!
# Buffers as large as SOEM has configured

`startup` stores `Configured` and then, device by device, sizes the buffers and calls the
hook `on_pdo_configured`. A hook that throws leaves the devices after it without buffers
on a bus that can be activated. `buffers_sized`: in every state that a single-threaded run
comes by, inside operations too, a bus in `Activated` or `Operational` has sized the buffers
of all its devices, and `update_rt` finds no size mismatch, **as long as
`on_pdo_configured` does not throw at a device other than the last**.

* `Sizing`: the view of the state that the sizes depend on.
* `Rests`: programs that leave this view alone, code of users among them.
-/

namespace EthercatInterface

open Interleave

variable {ps : Parameters} {hk : UserCode} {ok : Guard Act Ans Env St}

/-! ## The view -/

/-- What the sizes of the buffers have to do with. -/
structure Sizing where
  state : BusState
  devices : List Addr
  initialized : Addr → Bool
  rx : Addr → ℕ
  tx : Addr → ℕ
  id : Addr → DeviceId
  Obytes : DeviceId → ℕ
  Ibytes : DeviceId → ℕ

def sizing (s : St) : Sizing where
  state := s.state
  devices := s.devices
  initialized p := (s.dev p).pdoInitialized
  rx p := (s.dev p).rxPdo.length
  tx p := (s.dev p).txPdo.length
  id p := (s.dev p).deviceInfo.id
  Obytes id := (s.slave id).Obytes
  Ibytes id := (s.slave id).Ibytes

/-- The buffers of a device have the sizes of its process data. -/
structure Sizing.Fitted (v : Sizing) (p : Addr) : Prop where
  initialized : v.initialized p = true
  rx : v.rx p = v.Obytes (v.id p)
  tx : v.tx p = v.Ibytes (v.id p)

/-- The states in which `update_rt` runs. -/
def BusState.inService (s : BusState) : Prop := s = .activated ∨ s = .operational

instance (s : BusState) : Decidable s.inService := inferInstanceAs (Decidable (_ ∨ _))

/-- A bus in service has sized the buffers of all its devices. -/
def Sizing.Sound (v : Sizing) : Prop := v.state.inService → ∀ p ∈ v.devices, v.Fitted p

/-- So has one that can go into service. -/
def Sizing.Ready (v : Sizing) : Prop := v.state.running → ∀ p ∈ v.devices, v.Fitted p

theorem BusState.inService.running {s : BusState} (h : s.inService) : s.running := .inr h

theorem Sizing.Ready.sound {v : Sizing} (h : v.Ready) : v.Sound := fun hs => h hs.running

namespace Sizing

def setState (v : Sizing) (s : BusState) : Sizing := { v with state := s }

def setRx (v : Sizing) (p : Addr) (n : ℕ) : Sizing := { v with rx := Function.update v.rx p n }

def setTx (v : Sizing) (p : Addr) (n : ℕ) : Sizing := { v with tx := Function.update v.tx p n }

def setInitialized (v : Sizing) (p : Addr) : Sizing :=
  { v with initialized := Function.update v.initialized p true }

@[simp] theorem setRx_self (v : Sizing) (p : Addr) : v.setRx p (v.rx p) = v := by
  simp [setRx]

@[simp] theorem setTx_self (v : Sizing) (p : Addr) : v.setTx p (v.tx p) = v := by
  simp [setTx]

end Sizing

/-- The view after an action that changes it, where the action alone decides. -/
def Sizing.perform (v : Sizing) : Act → Sizing
  | .updateBusState s => v.setState s
  | .clearDevices | .destroyBackend => { v with devices := [] }
  | .resizeRxPdo p n => v.setRx p n
  | .resizeTxPdo p n => v.setTx p n
  | .setRxPdo p data => v.setRx p data.length
  | .setTxPdo p data => v.setTx p data.length
  | .setPdoInitialized p => v.setInitialized p
  | _ => v

/-- Changes what the sizes depend on. -/
def Act.sizes : Act → Bool
  | .updateBusState _ | .emplaceDevice _ | .clearDevices | .destroyBackend | .resizeRxPdo _ _
  | .resizeTxPdo _ _ | .setPdoInitialized _ | .setRxPdo _ _ | .setTxPdo _ _ | .ecxConfigInit
  | .ecxConfigMapGroup => true
  | _ => false

theorem pdoInitialized_exec {a : Act} (ha : a.sizes = false) (i : Env) (s : St) (p : Addr) :
    ((exec a i s).2.dev p).pdoInitialized = (s.dev p).pdoInitialized := by
  cases a
  case ecxStatecheck id state =>
    simp only [exec]
    split <;> rfl
  all_goals first
    | rfl
    | (cases ha; done)
    | (simp only [exec, dev_modifyDev]; split <;> simp [*])

theorem sizing_exec {a : Act} (ha : a.sizes = false) (i : Env) (s : St) :
    sizing (exec a i s).2 = sizing s := by
  have hst : stored a = none := by cases a <;> first | rfl | cases ha
  have he : a.emplaces = false := by cases a <;> first | rfl | cases ha
  have hc : a.clears = false := by cases a <;> first | rfl | cases ha
  have hr : a.rebuffers = false := by cases a <;> first | rfl | cases ha
  have hm : a.remaps = false := by cases a <;> first | rfl | cases ha
  have hrx : ∀ p, rxWritten p a = none := fun p => by cases a <;> first | rfl | cases ha
  have htx : ∀ p, txWritten p a = none := fun p => by cases a <;> first | rfl | cases ha
  have hreg : ∀ id, ((exec a i s).2.slave id).region = (s.slave id).region :=
    fun id => congrFun (region_exec hm i s) id
  unfold sizing
  congr 1
  · rw [state_exec, hst]
    rfl
  · exact devices_exec he hc i s
  · exact funext fun p => pdoInitialized_exec ha i s p
  · exact funext fun p => by rw [rxPdo_exec he hr, hrx]; rfl
  · exact funext fun p => by rw [txPdo_exec he hr, htx]; rfl
  · exact funext fun p => deviceId_exec he i s p
  · exact funext fun id => congrArg Region.Obytes (hreg id)
  · exact funext fun id => congrArg Region.Ibytes (hreg id)

/-- Changes the view by what the environment decides: the discovery and the mapping. -/
def Act.discovers : Act → Bool
  | .emplaceDevice _ | .ecxConfigInit | .ecxConfigMapGroup => true
  | _ => false

theorem sizing_modifyDev (s : St) (p : Addr) (f : EthercatDevice → EthercatDevice) :
    sizing (s.modifyDev p f) = { sizing s with
      initialized := Function.update (sizing s).initialized p (f (s.dev p)).pdoInitialized
      rx := Function.update (sizing s).rx p (f (s.dev p)).rxPdo.length
      tx := Function.update (sizing s).tx p (f (s.dev p)).txPdo.length
      id := Function.update (sizing s).id p (f (s.dev p)).deviceInfo.id } := by
  unfold sizing
  congr 1
  all_goals
    funext q
    simp only [dev_modifyDev, Function.update_apply]
    split
    · next h => rw [h]
    · rfl

theorem sizing_perform {a : Act} (ha : a.discovers = false) (i : Env) (s : St) :
    sizing (exec a i s).2 = (sizing s).perform a := by
  by_cases hs : a.sizes = false
  · rw [sizing_exec hs]
    cases a <;> first | rfl | cases hs
  · -- five of these actions write to a device, the others to the bus
    cases a
    case updateBusState b => rfl
    case clearDevices => rfl
    case destroyBackend => rfl
    case resizeRxPdo p n =>
      refine (sizing_modifyDev s p _).trans ?_
      simp [Sizing.perform, Sizing.setRx, sizing, length_resize]
    case resizeTxPdo p n =>
      refine (sizing_modifyDev s p _).trans ?_
      simp [Sizing.perform, Sizing.setTx, sizing, length_resize]
    case setRxPdo p data =>
      refine (sizing_modifyDev s p _).trans ?_
      simp [Sizing.perform, Sizing.setRx, sizing]
    case setTxPdo p data =>
      refine (sizing_modifyDev s p _).trans ?_
      simp [Sizing.perform, Sizing.setTx, sizing]
    case setPdoInitialized p =>
      refine (sizing_modifyDev s p _).trans ?_
      simp [Sizing.perform, Sizing.setInitialized, sizing]
    all_goals first | exact absurd rfl hs | cases ha

theorem Plain.sizes {a : Act} (h : Plain a) : a.sizes = false := by
  cases a <;> first | rfl | cases h

/-! ## Programs that leave the view alone -/

/-- Every world that an action leads to is sound. -/
def staysSound : Guard Act Ans Env St := fun t a i w => (sizing (w.after exec t a i).st).Sound

/-- The view of a world is `v`. -/
def Has (v : Sizing) (w : W) : Prop := sizing w.st = v

variable {v : Sizing}

/-- The action leads from a world with view `v` to one with a view that is sound. -/
theorem triple_perform {a : Act} (ha : a.discovers = false) (hv : (v.perform a).Sound)
    {E : Exn → W → Prop} :
    (single ok staysSound).Triple (Has v) (act a) (fun _ => Has (v.perform a)) E := by
  refine .perform fun i w _ hw => ?_
  have hw' : Has (v.perform a) (w.after exec 0 a i) := (sizing_perform ha i w.st).trans (by rw [hw])
  refine ⟨?_, hw'⟩
  change (sizing (w.after exec 0 a i).st).Sound
  rw [hw']
  exact hv

theorem keeps_sizing {a : Act} (ha : a.sizes = false) (hv : v.Sound) :
    (single ok staysSound).Keeps (Has v) a := fun i w _ hw => by
  have hw' : Has v (w.after exec 0 a i) := (sizing_exec ha i w.st).trans hw
  refine ⟨?_, hw'⟩
  change (sizing (w.after exec 0 a i).st).Sound
  rw [hw']
  exact hv

/-- From any sound view, the program comes by sound worlds only and ends with the same view. -/
def Rests (ok : Guard Act Ans Env St) {α : Type} (p : P α) : Prop :=
  ∀ v : Sizing, v.Sound → (single ok staysSound).Triple (Has v) p (fun _ => Has v) fun _ => Has v

section Rests

variable {α β : Type}

theorem Rests.bind {p : P β} {f : β → P α} (hp : Rests ok p) (hf : ∀ x, Rests ok (f x)) :
    Rests ok (p.bind f) := fun v hv =>
  .bind (hp v hv) fun x => hf x v hv

theorem Rests.attempt {p : P α} (hp : Rests ok p) : Rests ok p.attempt := fun v hv =>
  .attempt (hp v hv)

theorem rests_uses {p : P α} (hp : p.Uses fun a => a.sizes = false) : Rests ok p := fun _ hv =>
  .of_keeps (fun _ ha => keeps_sizing ha hv) hp

theorem rests_act {a : Act} (ha : a.sizes = false) : Rests ok (act a) := rests_uses (uses_act ha)

theorem rests_plain {p : P α} (hp : p.Uses Plain) : Rests ok p :=
  rests_uses (hp.mono fun _ => Plain.sizes)

theorem boxed_rests : Boxed fun p => Rests ok p :=
  .of_plain Rests.bind Rests.attempt rests_plain

theorem Rests.forDevices {l : Loop} {body : Addr → DeviceId → P Unit}
    (hb : ∀ p id, Rests ok (body p id)) : Rests ok (forDevices l body) := fun v hv =>
  triple_forDevices (keeps_sizing rfl hv) (fun _ => keeps_sizing rfl hv) fun p id => hb p id v hv

/-- What an action answers, given the view. -/
theorem triple_answer {a : Act} (ha : a.sizes = false) (hv : v.Sound) {Q : Ans a → Prop}
    {E : Exn → W → Prop} (hQ : ∀ i w, Has v w → Q (exec a i w.st).1) :
    (single ok staysSound).Triple (Has v) (act a) (fun r w => Q r ∧ Has v w) E :=
  .perform fun i w hi hw => by
    have keeps : (single ok staysSound).Keeps (Has v) a := keeps_sizing ha hv
    obtain ⟨hm, hw'⟩ := keeps i w hi hw
    exact ⟨hm, hQ i w hw, hw'⟩

theorem rests_setGenericRxPdo (p : Addr) (rx : List UInt8) : Rests ok (setGenericRxPdo p rx) := by
  intro v hv
  refine .bind (rests_act rfl v hv) fun _ => .bind (rests_uses Prog.uses_raiseIf v hv) fun _ => ?_
  refine .bind (triple_answer (a := .rxSize p) (Q := fun n => n = v.rx p) rfl hv ?_) fun n => ?_
  · rintro i w rfl
    rfl
  refine .assume (c := n = v.rx p) (fun w hw => hw.1) fun hn => ?_
  refine .bind (T := fun _ w => rx.length = n ∧ Has v w) (.raiseIf (fun _ w hw => hw.2)
    fun h w hw => ⟨by simpa using h, hw.2⟩) fun _ => ?_
  refine .assume (c := rx.length = n) (fun w hw => hw.1) fun hlen => ?_
  have hself : v.perform (.setRxPdo p rx) = v := by
    simp [Sizing.perform, hlen, hn]
  refine (Setting.Triple.withLock (triple_perform rfl (hself.symm ▸ hv))).mono (fun w hw => hw.2)
    (fun _ _ h => ?_) fun _ _ h => h
  rwa [hself] at h

theorem rests_updateWrite (p : Addr) (tp : ℤ) : Rests ok (updateWrite p tp) :=
  rests_uses (uses_updateWrite (fun _ ha => ha.plain.sizes) p tp fun _ _ => rfl)

/-- What is read has the size of the buffer it is read for. -/
theorem triple_readTxPdo (hv : v.Sound) (id : DeviceId) (n : ℕ) :
    (single ok staysSound).Triple (Has v) (readTxPdo id n) (fun data w => data.length = n ∧ Has v w)
      fun _ => Has v := by
  refine .bind (rests_plain (plain_checkPdoAccess id) v hv) fun _ => .bind (rests_act rfl v hv) fun size => ?_
  refine .bind (T := fun _ w => n = size ∧ Has v w) (.raiseIf (fun _ w hw => hw)
    fun h w hw => ⟨by simpa using h, hw⟩) fun _ => ?_
  refine .assume (c := n = size) (fun w hw => hw.1) fun hn => ?_
  refine .withLock (.mono (.bind (triple_answer (a := .copyFromInputs id size)
    (Q := fun r => r.2.length = size) rfl hv fun i w _ => ?_) fun r => .pure fun w hw => ⟨?_, hw.2⟩)
    (fun w hw => hw.2) (fun _ _ h => h) fun _ _ h => h)
  · exact Memory.length_read _ _ _
  · exact hw.1.trans hn.symm

theorem rests_updateRead (p : Addr) (tp : ℤ) : Rests ok (updateRead p tp) := by
  intro v hv
  refine .withLock (.bind (rests_act rfl v hv) fun _ => .bind (rests_plain (fits_crashUnless
    (V := AnyLock) _).uses v hv) fun _ => .bind (rests_act rfl v hv) fun id => ?_)
  refine .bind (triple_answer (a := .txSize p) (Q := fun n => n = v.tx p) rfl hv ?_) fun n => ?_
  · rintro i w rfl
    rfl
  refine .assume (c := n = v.tx p) (fun w hw => hw.1) fun hn => ?_
  refine .bind ((triple_readTxPdo hv id n).mono (fun w hw => hw.2) (fun _ _ h => h) fun _ _ h => h)
    fun data => .assume (c := data.length = n) (fun w hw => hw.1) fun hlen => ?_
  have hself : v.perform (.setTxPdo p data) = v := by
    simp [Sizing.perform, hlen, hn]
  refine .bind ((triple_perform rfl (hself.symm ▸ hv)).mono (fun w hw => hw.2) (fun _ _ h => h)
    fun _ _ h => h) fun _ => ?_
  rw [hself]
  exact rests_act rfl v hv

theorem sizeless_exchange : (exchange ps).Uses fun a => a.sizes = false :=
  (fits_exchange (V := AnyLock) (fun _ ha => ha.still.plain.sizes) trivial fun a ha => by
    cases a <;> first | rfl | cases ha).uses

theorem rests_updateRt : Rests ok (updateRt ps) := by
  refine (rests_plain (plain_stateIn _)).bind fun _ => (rests_uses Prog.uses_raiseIf).bind fun _ => ?_
  refine (rests_act rfl).bind fun now => .bind (.forDevices fun p _ => rests_updateWrite p now)
    fun _ => .bind ?_ fun cycle => .bind (.forDevices fun p _ => rests_updateRead p now) fun _ => ?_
  · exact rests_uses sizeless_exchange
  · exact (rests_plain (Prog.uses_when (plain_updateDiagnosticsFast _ _))).bind fun _ => rests_plain trivial

theorem rests_transfers {o : Op} (ho : o.transfers = true) : Rests ok (o.invoke ps hk) := by
  refine boxed_rests.invoke (rests_act rfl) (fun _ => rests_act rfl) ?_
  cases o
  case readRxPdo id =>
    exact rests_uses (Uses.void (uses_readRxPdo (fun _ ha => ha.plain.sizes) id fun _ => rfl))
  case writeRxPdo id data =>
    exact rests_uses (uses_writeRxPdo (fun _ ha => ha.plain.sizes) id data rfl)
  case readTxPdo id n =>
    exact rests_uses (Uses.void (uses_readTxPdo (fun _ ha => ha.plain.sizes) id n fun _ => rfl))
  case updateRt => exact boxed_rests.void rests_updateRt
  case setGenericRxPdo p rx => exact rests_setGenericRxPdo p rx
  all_goals cases ho

/-- **Code of users** leaves the sizes alone. -/
theorem User.rests {p : P Unit} (h : User ps p) : Rests ok p :=
  User.holds boxed_rests (fun _ _ => ⟨rests_act rfl, fun _ => rests_act rfl⟩)
    (fun _ _ ho => rests_transfers ho) h

/-- So do the operations outside the lifecycle. -/
theorem rests_invoke (hok : hk.Ok ps) {o : Op} (hl : o.lifecycle = false) :
    Rests ok (o.invoke ps hk) := by
  by_cases ho : o.transfers = true
  · exact rests_transfers ho
  · refine boxed_rests.invoke (rests_act rfl) (fun _ => rests_act rfl) (boxed_rests.body o hl ?_ ?_ ?_)
    · simpa using ho
    · exact fun r => (hok.sdoReadCallback r).rests
    · exact fun r => (hok.sdoWriteCallback r).rests

end Rests

/-! ## Out of service -/

/-- The bus is in a state from which it does not go into service by itself. -/
def Quiesced (w : W) : Prop := ¬w.st.state.running

/-- A bus that can go into service has sized its buffers. -/
def Fair (w : W) : Prop := (sizing w.st).Ready

/-- The bus is in state `s`. -/
def InState (s : BusState) (w : W) : Prop := w.st.state = s

theorem Quiesced.fair {w : W} (h : Quiesced w) : Fair w := fun hs => absurd hs h

theorem Sizing.Ready.has (hv : v.Ready) {w : W} (hw : Has v w) : Fair w := by
  unfold Fair
  rw [show sizing w.st = v from hw]
  exact hv

section Out

variable {s : BusState} (hs : ¬s.running)
include hs

theorem InState.quiesced {w : W} (h : InState s w) : Quiesced w := fun hr => hs (h ▸ hr)

theorem sound_of_not_running (h : v.state = s) : v.Sound := fun hv => absurd (h ▸ hv.running) hs

/-- Out of service nothing has to be shown of an action. -/
theorem keeps_out {J : W → Prop} (hJ : ∀ w, J w → InState s w) {a : Act}
    (ha : ∀ i w, J w → J (w.after exec 0 a i)) : (single ok staysSound).Keeps J a := fun i w _ hw =>
  ⟨sound_of_not_running hs (hJ _ (ha i w hw)), ha i w hw⟩

theorem triple_out {α : Type} {p : P α} (hp : p.Uses fun a => stored a = none) :
    (single ok staysSound).Triple (InState s) p (fun _ => InState s) fun _ => InState s := by
  refine .of_keeps (fun a ha => keeps_out hs (fun _ h => h) fun i w hw => ?_) hp
  unfold InState
  rw [World.after_st, state_exec, ha]
  exact hw

theorem triple_store {J : W → Prop} {E : Exn → W → Prop} :
    (single ok staysSound).Triple J (act (.updateBusState s)) (fun _ => InState s) E :=
  .perform fun _ _ _ _ => ⟨sound_of_not_running hs rfl, rfl⟩

end Out

theorem stored_act {a : Act} (h : stored a = none) : (act a).Uses fun a => stored a = none := uses_act h

/-! ## The lifecycle -/

section Lifecycle

variable (hok : hk.Ok ps)
include hok

/-- `shutdown` takes the bus out of service first. -/
theorem triple_teardown {J : W → Prop} :
    (single ok staysSound).Triple J (teardown hk) (fun _ => Quiesced) fun _ => Quiesced := by
  have hsd : ¬BusState.shuttingDown.running := by decide
  have hs : ¬BusState.shutdown.running := by decide
  have plain : ∀ {α : Type} {p : P α}, p.Uses Plain → p.Uses fun a => stored a = none :=
    fun hp => hp.mono fun _ ha => ha.calm.stored
  have before : ∀ {α : Type} {p : P α}, p.Uses (fun a => stored a = none) →
      (single ok staysSound).Triple (InState .shuttingDown) p (fun _ => InState .shuttingDown)
        fun _ => Quiesced :=
    fun hp => (triple_out hsd hp).mono (fun _ h => h) (fun _ _ h => h) fun _ _ h => h.quiesced hsd
  have after : ∀ {α : Type} {p : P α}, p.Uses (fun a => stored a = none) →
      (single ok staysSound).Triple (InState .shutdown) p (fun _ => InState .shutdown)
        fun _ => Quiesced :=
    fun hp => (triple_out hs hp).mono (fun _ h => h) (fun _ _ h => h) fun _ _ h => h.quiesced hs
  refine .bind (triple_store hsd) fun _ => .bind (before (stores_callbacks hok .onPreShutdown)) fun _ => ?_
  refine .bind (before (plain (plain_setDeviceTargetState _ _))) fun _ =>
    .bind (before (plain (plain_waitForDeviceTargetState _ _))) fun _ => ?_
  refine .bind (.withLock (.bind (before (stored_act rfl)) fun _ => triple_store hs)) fun _ => ?_
  refine .bind (after (stores_callbacks hok .onPostShutdown)) fun _ => ?_
  exact (after (stored_act rfl)).mono (fun _ h => h) (fun _ _ h => h.quiesced hs) fun _ _ h => h

theorem triple_shutdown {J : W → Prop} {s : BusState} (hr : (single ok staysSound).Keeps J .getBusState)
    (hst : ∀ w, J w → InState s w) :
    (single ok staysSound).Triple J (shutdown hk) (fun _ => Quiesced) fun _ => Quiesced := by
  have hs : ¬BusState.shutdown.running := by decide
  have hi : ¬BusState.initialized.running := by decide
  have store : ∀ {J : W → Prop}, (single ok staysSound).Triple J (act (.updateBusState .shutdown))
      (fun _ => Quiesced) fun _ => Quiesced := fun {J} =>
    (triple_store hs (J := J)).mono (fun _ h => h) (fun _ _ h => h.quiesced hs) fun _ _ h => h
  refine triple_branch hr hst (fun h => .pure fun w hw => ?_) fun h₁ => ?_
  · have hw' : InState .shutdown w := (hst w hw).trans (List.mem_singleton.1 h)
    exact hw'.quiesced hs
  refine triple_branch hr hst (fun h => store) fun h₂ => triple_branch hr hst (fun h => ?_) fun h₃ => ?_
  · refine .withLock (.bind (T := fun _ => InState .initialized) ?_ fun _ => .bind (triple_store hs)
      fun _ => (triple_out hs (stored_act rfl)).mono (fun _ h => h) (fun _ _ h => h.quiesced hs)
        fun _ _ h => h.quiesced hs)
    exact (triple_out hi (stored_act rfl)).mono (fun w hw => (hst w hw).trans (List.mem_singleton.1 h))
      (fun _ _ h => h) fun _ _ h => h.quiesced hi
  refine triple_branch hr hst (fun h => triple_teardown hok) fun h₄ => .throw fun w hw => ?_
  rw [Quiesced, hst w hw, BusState.running]
  simpa using h₄

/-- The error exits. -/
theorem triple_abort {J : W → Prop} {s : BusState} (hr : (single ok staysSound).Keeps J .getBusState)
    (hst : ∀ w, J w → InState s w) {b : Bool} {e : Exn} :
    (single ok staysSound).Triple J (Prog.when b (shutdown hk >>= fun _ => Prog.throw e))
      (fun _ => J) fun _ => Quiesced :=
  .when (fun _ => .bind (triple_shutdown hok hr hst) fun _ => .throw fun _ h => h) fun _ _ h => h

/-! ### `startup` -/

/-- Where the notification loop is: the devices before it are fitted. -/
structure FittedUpTo (D done : List Addr) (v : Sizing) : Prop where
  state : v.state = .configured
  devices : v.devices = D
  fitted : ∀ p ∈ done, v.Fitted p

omit hok in
theorem FittedUpTo.sound {D done : List Addr} (h : FittedUpTo D done v) : v.Sound := fun hs => by
  rcases hs with hs | hs <;> cases h.state.symm.trans hs

omit hok in
theorem FittedUpTo.ready {D : List Addr} (h : FittedUpTo D D v) : v.Ready := fun _ p hp =>
  h.fitted p (h.devices ▸ hp)

/-- What `on_pdo_configured` makes of the view before it runs the hook. -/
def Sizing.fit (v : Sizing) (p : Addr) : Sizing :=
  ((v.setRx p (v.Obytes (v.id p))).setTx p (v.Ibytes (v.id p))).setInitialized p

omit hok in
theorem FittedUpTo.fit {D done : List Addr} (h : FittedUpTo D done v) (p : Addr) :
    FittedUpTo D (done ++ [p]) (v.fit p) := by
  refine ⟨h.state, h.devices, fun q hq => ?_⟩
  by_cases hqp : q = p
  · subst hqp
    exact ⟨Function.update_self .., Function.update_self .., Function.update_self ..⟩
  · have hf : v.Fitted q := h.fitted q (by simpa [hqp] using hq)
    exact ⟨(Function.update_of_ne hqp ..).trans hf.initialized, (Function.update_of_ne hqp ..).trans hf.rx,
      (Function.update_of_ne hqp ..).trans hf.tx⟩

/-- A hook that does not throw in `Configured`, with devices `D`. -/
def Returns (ok : Guard Act Ans Env St) (D : List Addr) (p : P Unit) : Prop :=
  ∀ w e w', InState .configured w → w.st.devices = D → ¬Exec exec ok 0 p w (.exn e) w'

/-- One round of the notification loop. -/
theorem triple_onPdoConfigured {D done rest : List Addr} {p : Addr} (hv : FittedUpTo D done v)
    (hD : D = done ++ p :: rest) (hr : rest ≠ [] → Returns ok D (hk.hook .onPdoConfigured p)) :
    (single ok staysSound).Triple (Has v) (onPdoConfigured hk p (v.Obytes (v.id p)) (v.Ibytes (v.id p)))
      (fun _ w => FittedUpTo D (done ++ [p]) (sizing w.st)) fun _ => Fair := by
  have sound : ∀ {v' : Sizing}, v'.state = .configured → v'.Sound := fun hs hv => by
    rcases hv with hv | hv <;> cases hs.symm.trans hv
  have idle : ∀ {v' : Sizing} {a : Act} {E : Exn → W → Prop}, a.sizes = false → v'.state = .configured →
      (single ok staysSound).Triple (Has v') (act a) (fun _ => Has v') E := fun ha hs =>
    .perform (keeps_sizing ha (sound hs))
  have step : ∀ {v' : Sizing} {a : Act} {E : Exn → W → Prop}, a.discovers = false →
      (v'.perform a).state = .configured →
      (single ok staysSound).Triple (Has v') (act a) (fun _ => Has (v'.perform a)) E :=
    fun ha hs => triple_perform ha (sound hs)
  have hs := hv.state
  refine .bind (idle rfl hs) fun _ => .bind (step (a := .resizeRxPdo p _) rfl hs) fun _ =>
    .bind (idle rfl hs) fun t => .bind (idle (a := .setRxTime p t) rfl hs) fun _ => ?_
  refine .bind (step (a := .resizeTxPdo p _) rfl hs) fun _ => .bind (idle rfl hs) fun t =>
    .bind (idle (a := .setTxTime p t) rfl hs) fun _ => .bind (step (a := .setPdoInitialized p) rfl hs)
      fun _ => ?_
  change (single ok staysSound).Triple (Has (v.fit p)) _ _ _
  have hfit := hv.fit p
  have rests : Rests ok (hk.hook .onPdoConfigured p) := (hok.hook .onPdoConfigured p).rests
  have hook := rests (v.fit p) hfit.sound
  have hret : ∀ w, Has (v.fit p) w → FittedUpTo D (done ++ [p]) (sizing w.st) := fun w hw => by
    rw [show sizing w.st = v.fit p from hw]
    exact hfit
  -- a hook that throws leaves the devices after its own unfitted, unless there are none
  by_cases hrest : rest = []
  · refine hook.mono (fun _ h => h) (fun _ w hw => hret w hw) fun _ w hw => ?_
    have hlast := hret w hw
    rw [show done ++ [p] = D by rw [hD, hrest]] at hlast
    exact hlast.ready
  · refine (hook.never fun w e w' hw => hr hrest w e w' ?_ ?_).mono (fun _ h => h)
      (fun _ w hw => hret w hw) fun _ _ h => h
    · exact (congrArg Sizing.state hw).trans hfit.state
    · exact (congrArg Sizing.devices hw).trans hfit.devices

omit hok in
theorem keeps_fittedUpTo {D done : List Addr} {a : Act} (ha : a.sizes = false) :
    (single ok staysSound).Keeps (fun w => FittedUpTo D done (sizing w.st)) a := fun i w _ hw => by
  have hw' : FittedUpTo D done (sizing (w.after exec 0 a i).st) := by
    rw [World.after_st, sizing_exec ha]
    exact hw
  exact ⟨hw'.sound, hw'⟩

/-- The notification loop fits every device, unless a hook throws before the last. -/
theorem triple_notifyAll {D : List Addr}
    (hret : ∀ p ∈ D.dropLast, Returns ok D (hk.hook .onPdoConfigured p)) :
    (single ok staysSound).Triple (fun w => FittedUpTo D [] (sizing w.st))
      (forDevices (.callback .onPdoConfigured) fun p id => do
        let rxSize ← act (.obytes id)
        let txSize ← act (.ibytes id)
        onPdoConfigured hk p rxSize txSize) (fun _ => Fair) fun _ => Fair := by
  refine (triple_loop (D := D) (fun done w => FittedUpTo D done (sizing w.st)) (fun i w hi hw => ?_)
    (fun done p => keeps_fittedUpTo rfl) fun done p rest hD id => ?_).mono (fun _ h => h)
      (fun _ _ h => h.ready) fun _ _ h => h
  · have keeps : (single ok staysSound).Keeps (fun w => FittedUpTo D [] (sizing w.st))
        (.devices (.callback .onPdoConfigured)) := keeps_fittedUpTo rfl
    obtain ⟨hm, hw'⟩ := keeps i w hi hw
    exact ⟨hm, hw.devices, hw'⟩
  rintro w ⟨rfl, hw⟩
  have hr : rest ≠ [] → Returns ok D (hk.hook .onPdoConfigured p) := fun hr => by
    refine hret p ?_
    rw [hD, List.dropLast_append_of_ne_nil (by simp), List.dropLast_cons_of_ne_nil hr]
    simp
  -- the sizes asked for are those of the slave list, which no hook changes
  have answer : ∀ {v : Sizing} {a : Act} {x : Ans a} {E : Exn → W → Prop} {f : Ans a → P Unit},
      a.sizes = false → v.Sound → (∀ i w, Has v w → (exec a i w.st).1 = x) →
      (single ok staysSound).Triple (Has v) (f x) (fun _ w => FittedUpTo D (done ++ [p]) (sizing w.st)) E →
      (single ok staysSound).Triple (Has v) ((act a).bind f)
        (fun _ w => FittedUpTo D (done ++ [p]) (sizing w.st)) E := fun {v a x E f} ha hv hx hf =>
    .bind (triple_answer (Q := fun r => r = x) ha hv hx) fun r => .assume (c := r = x) (fun w hw => hw.1)
      fun h => by
        subst h
        exact hf.mono (fun _ hw => hw.2) (fun _ _ h => h) fun _ _ h => h
  refine answer (v := sizing w.st) (x := (sizing w.st).Obytes _) rfl hw.sound ?_
    (answer (x := (sizing w.st).Ibytes _) rfl hw.sound ?_ (triple_onPdoConfigured hok hw hD hr)) w rfl
  · intro i w' hw'
    exact congrFun (congrArg Sizing.Obytes hw') _
  · intro i w' hw'
    exact congrFun (congrArg Sizing.Ibytes hw') _

omit hok in
/-- Before `Configured` is stored, only the state and the list of devices matter. -/
theorem keeps_listed {D : List Addr} {a : Act}
    (ha : stored a = none ∧ a.emplaces = false ∧ a.clears = false) :
    (single ok staysSound).Keeps (fun w => InState .initialized w ∧ w.st.devices = D) a := by
  refine keeps_out (s := .initialized) (by decide) (fun _ h => h.1) fun i w hw => ⟨?_, ?_⟩
  · unfold InState
    rw [World.after_st, state_exec, ha.1]
    exact hw.1
  · rw [World.after_st, devices_exec ha.2.1 ha.2.2]
    exact hw.2

theorem triple_startup (hv : v.Ready) (hret : v.state = .initialized →
      ∀ p ∈ v.devices.dropLast, Returns ok v.devices (hk.hook .onPdoConfigured p)) :
    (single ok staysSound).Triple (Has v) (startup ps hk) (fun _ => Fair) fun _ => Fair := by
  refine triple_require (keeps_sizing rfl hv.sound) (fun w hw => congrArg Sizing.state hw)
    (fun _ => hv.has) fun h => ?_
  have hs : v.state = .initialized := List.mem_singleton.1 h
  -- until `Configured` is stored the list of devices is what it was
  have listed : ∀ {α : Type} {p : P α},
      p.Uses (fun a => stored a = none ∧ a.emplaces = false ∧ a.clears = false) →
      (single ok staysSound).Triple (fun w => InState .initialized w ∧ w.st.devices = v.devices) p
        (fun _ w => InState .initialized w ∧ w.st.devices = v.devices) fun _ => Fair :=
    fun hp => (Setting.Triple.of_keeps (fun _ => keeps_listed) hp).mono (fun _ h => h) (fun _ _ h => h)
      fun _ w hw => (hw.1.quiesced (by decide)).fair
  have abort : ∀ {b : Bool} {e : Exn}, (single ok staysSound).Triple
      (fun w => InState .initialized w ∧ w.st.devices = v.devices)
      (Prog.when b (shutdown hk >>= fun _ => Prog.throw e))
      (fun _ w => InState .initialized w ∧ w.st.devices = v.devices) fun _ => Fair :=
    (triple_abort hok (keeps_listed ⟨rfl, rfl, rfl⟩) fun _ hw => hw.1).mono (fun _ h => h)
      (fun _ _ h => h) fun _ _ h => h.fair
  have calm : ∀ a, Calm a → stored a = none ∧ a.emplaces = false ∧ a.clears = false := fun a ha => by
    cases a <;> first | exact ⟨rfl, rfl, rfl⟩ | cases ha
  have act_ : ∀ {a : Act}, stored a = none ∧ a.emplaces = false ∧ a.clears = false →
      (act a).Uses fun a => stored a = none ∧ a.emplaces = false ∧ a.clears = false := fun ha => uses_act ha
  refine Setting.Triple.mono (P := fun w => InState .initialized w ∧ w.st.devices = v.devices) ?_
    (fun w hw => ⟨(congrArg Sizing.state hw).trans hs, congrArg Sizing.devices hw⟩) (fun _ _ h => h)
      fun _ _ h => h
  refine .bind (listed ?_) fun size => .bind abort fun _ => .bind (listed (act_ ⟨rfl, rfl, rfl⟩)) fun dc =>
    .bind abort fun _ => .bind (listed ?_) fun _ => ?_
  · refine (uses_callbacks ⟨rfl, rfl, rfl⟩ (fun _ => ⟨rfl, rfl, rfl⟩) (fun _ => ⟨rfl, rfl, rfl⟩)
      fun p => (hok.hook .onStartup p).calm.mono calm).bind fun _ => (act_ ⟨rfl, rfl, rfl⟩).bind fun _ => ?_
    exact (act_ ⟨rfl, rfl, rfl⟩).bind fun _ => act_ ⟨rfl, rfl, rfl⟩
  · exact uses_setupDc (fun a ha => calm a ha.plain.calm) (fun _ => ⟨rfl, rfl, rfl⟩)
      fun _ _ _ => ⟨rfl, rfl, rfl⟩
  refine .bind (.perform fun i w _ hw => ?_) fun _ => triple_notifyAll hok (hret hs)
  have hw' : FittedUpTo v.devices [] (sizing (w.after exec 0 (.updateBusState .configured) i).st) :=
    ⟨rfl, hw.2, fun _ h => by cases h⟩
  exact ⟨hw'.sound, hw'⟩

/-! ### `activate` and `update_service` -/

theorem rests_callbacks (h : Hook) :
    Rests ok (forDevices (.callback h) fun p _ => onCallback hk h p) :=
  .forDevices fun p _ => (rests_act rfl).bind fun _ => (hok.hook h p).rests

omit hok in
/-- What rests, ends with a view that is as ready as before. -/
theorem Rests.fair {α : Type} {p : P α} (hp : Rests ok p) (hv : v.Ready) :
    (single ok staysSound).Triple (Has v) p (fun _ => Has v) fun _ => Fair :=
  (hp v hv.sound).mono (fun _ h => h) (fun _ _ h => h) fun _ _ => hv.has

/-- The error exits, from a view that is ready. -/
theorem triple_abortReady (hv : v.Ready) {b : Bool} {e : Exn} :
    (single ok staysSound).Triple (Has v) (Prog.when b (shutdown hk >>= fun _ => Prog.throw e))
      (fun _ => Has v) fun _ => Fair :=
  (triple_abort hok (keeps_sizing rfl hv.sound) fun _ hw => congrArg Sizing.state hw).mono
    (fun _ h => h) (fun _ _ h => h) fun _ _ h => h.fair

omit hok in
theorem Sizing.Ready.serve {s : BusState} (hv : v.Ready) (hr : v.state.running) :
    (v.setState s).Ready := fun _ p hp =>
  have hf := hv hr p hp
  ⟨hf.initialized, hf.rx, hf.tx⟩

omit hok in
/-- A bus that is ready goes into service. -/
theorem triple_serve {s : BusState} (hv : v.Ready) (hr : v.state.running) {E : Exn → W → Prop} :
    (single ok staysSound).Triple (Has v) (act (.updateBusState s)) (fun _ => Has (v.setState s)) E :=
  triple_perform (a := .updateBusState s) rfl (hv.serve hr).sound

theorem triple_activate (hv : v.Ready) :
    (single ok staysSound).Triple (Has v) (activate hk) (fun _ => Fair) fun _ => Fair := by
  refine triple_require (keeps_sizing rfl hv.sound) (fun w hw => congrArg Sizing.state hw)
    (fun _ => hv.has) fun h => ?_
  have hr : v.state.running := .inl (List.mem_singleton.1 h)
  have loop : ∀ {l : Loop} {ask : DeviceId → P Bool} {e : Exn}, (∀ id, (ask id).Uses Plain) →
      (single ok staysSound).Triple (Has v)
        (forDevices l fun _ id => (ask id).bind fun b =>
          Prog.when (!b) (shutdown hk >>= fun _ => Prog.throw e)) (fun _ => Has v) fun _ => Fair :=
    fun ha => triple_forDevices (keeps_sizing rfl hv.sound) (fun _ => keeps_sizing rfl hv.sound)
      fun _ id => .bind ((rests_plain (ha id)).fair hv) fun _ => triple_abortReady hok hv
  refine .bind ((rests_callbacks hok .onPreActivate).fair hv) fun _ =>
    .bind ((rests_act rfl).fair hv) fun _ => ?_
  refine .bind (loop fun id => plain_setDeviceTargetState id _) fun _ =>
    .bind (loop fun id => plain_waitForDeviceTargetState id _) fun _ => ?_
  refine .bind (triple_serve hv hr) fun _ => ?_
  exact ((rests_callbacks hok .onPostActivate).fair (hv.serve hr)).mono (fun _ h => h)
    (fun _ _ => (hv.serve hr).has) fun _ _ h => h

theorem triple_bringOperational (hv : v.Ready) (hr : v.state.running) :
    (single ok staysSound).Triple (Has v) (bringOperational ps hk) (fun _ => Fair) fun _ => Fair := by
  have rests : ∀ {α : Type} {p : P α}, Rests ok p →
      (single ok staysSound).Triple (Has v) p (fun _ => Has v) fun _ => Fair := fun hp => hp.fair hv
  have set : ∀ x, (act (.setActivationStartTp x)).Uses fun a => a.sizes = false := fun _ => uses_act rfl
  refine .bind (rests (rests_act rfl)) fun start => .bind (rests (rests_uses (Prog.uses_when
    ((plain_act rfl).mono (fun _ => Plain.sizes) |>.bind fun _ => set _)))) fun _ => ?_
  refine .bind (rests (rests_plain plain_operationalTimeout)) fun late =>
    .bind (triple_abortReady hok hv) fun _ => ?_
  refine .bind (rests (.forDevices fun p id => (rests_plain (plain_setDeviceTargetState id _)).bind
    fun _ => rests_plain trivial)) fun _ => ?_
  refine .bind (rests (rests_uses (uses_updateDeviceStates (S := fun a => a.sizes = false) rfl)))
    fun _ => .bind (rests (rests_uses (uses_allInOperational (S := fun a => a.sizes = false) rfl
      (fun _ => rfl) fun _ => rfl))) fun all => ?_
  refine .when (fun _ => ?_) fun _ _ => hv.has
  exact (triple_serve hv hr).mono (fun _ h => h) (fun _ _ => (hv.serve hr).has) fun _ _ h => h

theorem triple_updateService (hv : v.Ready) :
    (single ok staysSound).Triple (Has v) (updateService ps hk) (fun _ => Fair) fun _ => Fair := by
  have hr : (single ok staysSound).Keeps (Has v) .getBusState := keeps_sizing rfl hv.sound
  have hst : ∀ w, Has v w → w.st.state = v.state := fun w hw => congrArg Sizing.state hw
  refine triple_refuse hr hst (fun _ => hv.has) fun _ => ?_
  refine .bind ((rests_act rfl).fair hv) fun up => .bind ((rests_act rfl).fair hv) fun _ =>
    .bind ((rests_act rfl).fair hv) fun owns => .bind ((rests_plain (Prog.uses_when
      (Prog.uses_withLock plain_drainMailboxEvents))).fair hv) fun _ => ?_
  refine triple_branch hr hst (fun h => ?_) fun _ => ?_
  · refine .bind (triple_bringOperational hok hv (.inr (.inl (List.mem_singleton.1 h)))) fun _ => ?_
    exact .pure fun _ h => h
  · refine .bind ((rests_uses (Prog.uses_when ?_)).fair hv) fun _ => .pure fun _ => hv.has
    refine (uses_updateDeviceStates (S := fun a => a.sizes = false) rfl).bind fun _ =>
      Prog.uses_when ?_
    exact plain_updateDiagnosticsSlow.mono fun _ => Plain.sizes

/-! ### `initialize` and the destructor -/

omit hok in
theorem triple_initializeBus (hv : v.Ready) :
    (single ok staysSound).Triple (Has v) (initializeBus ps) (fun _ => Fair) fun _ => Fair := by
  refine triple_require (keeps_sizing rfl hv.sound) (fun w hw => congrArg Sizing.state hw)
    (fun _ => hv.has) fun h => ?_
  have hp : ¬BusState.preInit.running := by decide
  have hi : ¬BusState.initialized.running := by decide
  -- what precedes the store finds the bus in `PreInit`, what follows it in `Initialized`
  have before : ∀ {α : Type} {p : P α}, p.Uses (fun a => stored a = none) →
      (single ok staysSound).Triple (InState .preInit) p (fun _ => InState .preInit) fun _ => Fair :=
    fun hu => (triple_out hp hu).mono (fun _ h => h) (fun _ _ h => h) fun _ _ h => (h.quiesced hp).fair
  have after : ∀ {α : Type} {p : P α}, p.Uses (fun a => stored a = none) →
      (single ok staysSound).Triple (InState .initialized) p (fun _ => InState .initialized)
        fun _ => Fair :=
    fun hu => (triple_out hi hu).mono (fun _ h => h) (fun _ _ h => h) fun _ _ h => (h.quiesced hi).fair
  have plain : ∀ {α : Type} {p : P α}, p.Uses Plain → p.Uses fun a => stored a = none :=
    fun hu => hu.mono fun _ ha => ha.calm.stored
  refine Setting.Triple.mono (P := InState .preInit) ?_ (fun w hw => ?_) (fun _ _ h => h) fun _ _ h => h
  · refine .bind (before (stored_act rfl)) fun ec => .bind (before Prog.uses_raiseIf) fun _ =>
      .bind (before (stored_act rfl)) fun n => .bind (before Prog.uses_raiseIf) fun _ => ?_
    refine .bind (before (stored_act rfl)) fun _ => .bind (before (plain plain_slaveIds)) fun ids =>
      .bind (before (.forEach (fun id => (stored_act rfl).bind fun _ => ?_) ids)) fun _ => ?_
    · exact (fits_crashUnless (V := AnyLock) _).uses
    refine .bind (before (stored_act rfl)) fun up => .bind (before (stored_act rfl)) fun _ =>
      .bind (triple_store hi) fun _ => .bind (after (.forEach (fun id => ?_) _)) fun _ => ?_
    · exact (plain (plain_scanDevice id)).bind fun _ => stored_act rfl
    · exact .pure fun _ h => (h.quiesced hi).fair
  · exact (congrArg Sizing.state hw).trans (List.mem_singleton.1 h)

theorem triple_destroyBus (hv : v.Ready) :
    (single ok staysSound).Triple (Has v) (destroyBus hk) (fun _ => Fair) fun _ => Fair := by
  refine .bind ((Rests.forDevices fun p _ => rests_act rfl).fair hv) fun _ => ?_
  refine .bind (T := fun _ => Quiesced) (.bind (T := fun _ => Quiesced) (.attempt
    (triple_shutdown hok (keeps_sizing rfl hv.sound) fun _ hw => congrArg Sizing.state hw))
      fun r => ?_) fun _ => .perform fun i w _ hw => ⟨fun _ p hp => ?_, Quiesced.fair hw⟩
  · cases r with
    | ok x => exact .pure fun _ h => h
    | error e =>
      dsimp only
      split
      · exact .pure fun _ h => h
      · exact .crash
  · cases hp

/-! ### Every operation -/

theorem triple_lifecycle {o : Op} (hl : o.lifecycle = true) (hv : v.Ready)
    (hret : o = .startup → v.state = .initialized →
      ∀ p ∈ v.devices.dropLast, Returns ok v.devices (hk.hook .onPdoConfigured p)) :
    (single ok staysSound).Triple (Has v) (o.body ps hk) (fun _ => Fair) fun _ => Fair := by
  have hr : (single ok staysSound).Keeps (Has v) .getBusState := keeps_sizing rfl hv.sound
  have hst : ∀ w, Has v w → w.st.state = v.state := fun w hw => congrArg Sizing.state hw
  cases o
  case initializeBus => exact triple_void (triple_initializeBus hv)
  case startup => exact triple_startup hok hv (hret rfl)
  case activate => exact triple_activate hok hv
  case shutdown =>
    exact (triple_shutdown hok hr hst).mono (fun _ h => h) (fun _ _ h => h.fair) fun _ _ h => h.fair
  case updateService => exact triple_void (triple_updateService hok hv)
  case destroyBus => exact triple_destroyBus hok hv
  all_goals cases hl

/-- What a call of an operation has to meet for the sizes to stay right. -/
def HooksReturn (ok : Guard Act Ans Env St) (w : W) (o : Op) (hk : UserCode) : Prop :=
  o = .startup → w.st.state = .initialized →
    ∀ p ∈ w.st.devices.dropLast, Returns ok w.st.devices (hk.hook .onPdoConfigured p)

/-- **Every operation** comes by sound worlds only, and leaves the bus fair. -/
theorem wp_fair {o : Op} {w : W} (hw : Fair w) (hret : HooksReturn ok w o hk) :
    wp exec ok staysSound 0 (o.invoke ps hk) (Outcome.Meets (fun _ => Fair) fun _ => Fair) w := by
  have hv : (sizing w.st).Ready := hw
  have fair : ∀ {a : Act}, a.sizes = false → (single ok staysSound).Keeps Fair a :=
    fun ha i w hi hw => by
      have keeps : (single ok staysSound).Keeps (Has (sizing w.st)) _ := keeps_sizing ha hw.sound
      obtain ⟨hm, hw'⟩ := keeps i w hi rfl
      exact ⟨hm, Sizing.Ready.has hw hw'⟩
  by_cases hl : o.lifecycle = true
  · exact triple_invoke (keeps_sizing rfl hv.sound) (triple_lifecycle hok hl hv hret)
      (fun _ => fair rfl) (fun _ => fair rfl) w rfl
  · exact ((rests_invoke hok (by simpa using hl)).fair hv).mono (fun _ h => h) (fun _ _ => hv.has)
      (fun _ _ h => h) w rfl

end Lifecycle

/-! ## `update_rt` -/

/-- What `update_rt` throws where a buffer does not have the size of the process data. -/
def Exn.sizeMismatch (e : Exn) : Prop :=
  e = soemError "PDO size mismatch - cannot assign" ∨
    e = soemError "Critical array size mismatch when reading tx pdo"

theorem not_sizeMismatch {e : Exn} (h : e ≠ soemError "PDO size mismatch - cannot assign" ∧
    e ≠ soemError "Critical array size mismatch when reading tx pdo") : ¬e.sizeMismatch := fun hm =>
  hm.elim h.1 h.2

/-- Started with view `v`, the program leaves it alone and throws no size mismatch. -/
def Matches (ok : Guard Act Ans Env St) (v : Sizing) {α : Type} (p : P α) : Prop :=
  (single ok staysSound).Triple (Has v) p (fun _ => Has v) fun e _ => ¬e.sizeMismatch

section Matches

variable {α β : Type}

theorem Matches.bind {p : P β} {f : β → P α} (hp : Matches ok v p) (hf : ∀ x, Matches ok v (f x)) :
    Matches ok v (p.bind f) :=
  Setting.Triple.bind hp hf

variable (hv : v.Sound)
include hv

theorem Rests.matches {p : P α} (hp : Rests ok p) (hn : p.NoThrow) : Matches ok v p :=
  (hp v hv).noThrow hn

theorem matches_act {a : Act} (ha : a.sizes = false) : Matches ok v (act a) :=
  (rests_act ha).matches hv Prog.noThrow_perform

/-- Go on with what an action answers. -/
theorem matches_answer {a : Act} (ha : a.sizes = false) {f : Ans a → P α} {Q : Ans a → Prop}
    (hQ : ∀ i w, Has v w → Q (exec a i w.st).1) (hf : ∀ x, Q x → Matches ok v (f x)) :
    Matches ok v ((act a).bind f) :=
  Setting.Triple.bind (triple_answer (Q := Q) ha hv hQ) fun x => .assume (c := Q x) (fun _ hw => hw.1)
    fun hx => (hf x hx).mono (fun _ hw => hw.2) (fun _ _ h => h) fun _ _ h => h

theorem matches_checkPdoAccess (id : DeviceId) : Matches ok v (checkPdoAccess id) := by
  refine triple_refuse (keeps_sizing rfl hv) (fun w hw => congrArg Sizing.state hw)
    (fun _ _ => not_sizeMismatch (by decide)) fun _ => ?_
  refine Matches.bind ((rests_plain (Fits.plain (still_hasDeviceOnBus (V := AnyLock) id))).matches hv
    (noThrow_hasDeviceOnBus id)) fun b => ?_
  exact .raiseIf (fun _ _ _ => not_sizeMismatch (by decide)) fun _ _ hw => hw

theorem matches_updateWrite {p : Addr} (hp : v.Fitted p) (tp : ℤ) :
    Matches ok v (updateWrite p tp) := by
  refine .withLock (Matches.bind (matches_act hv rfl) fun b => Matches.bind
    ((rests_plain (fits_crashUnless (V := AnyLock) b).uses).matches hv (noThrow_crashUnless b)) fun _ => ?_)
  refine matches_answer hv (Q := fun id => id = v.id p) rfl (fun _ w hw => by rw [← hw]; rfl) fun id hid => ?_
  refine matches_answer hv (Q := fun rx => rx.length = v.rx p) rfl (fun _ w hw => by rw [← hw]; rfl)
    fun rx hrx => ?_
  refine Matches.bind (.bind (matches_checkPdoAccess hv id) fun _ => ?_) fun _ => matches_act hv rfl
  refine matches_answer hv (Q := fun n => n = v.Obytes id) rfl (fun _ w hw => by rw [← hw]; rfl)
    fun n hn => ?_
  have hlen : rx.length = n := by rw [hrx, hn, hid, hp.rx]
  refine .bind (.raiseIf (fun h => absurd hlen (by simpa using h)) fun _ _ hw => hw) fun _ => ?_
  exact .withLock (Matches.bind (matches_act hv rfl) fun _ => .pure fun _ hw => hw)

theorem matches_updateRead {p : Addr} (hp : v.Fitted p) (tp : ℤ) :
    Matches ok v (updateRead p tp) := by
  refine .withLock (Matches.bind (matches_act hv rfl) fun b => Matches.bind
    ((rests_plain (fits_crashUnless (V := AnyLock) b).uses).matches hv (noThrow_crashUnless b)) fun _ => ?_)
  refine matches_answer hv (Q := fun id => id = v.id p) rfl (fun _ w hw => by rw [← hw]; rfl) fun id hid => ?_
  refine matches_answer hv (Q := fun n => n = v.tx p) rfl (fun _ w hw => by rw [← hw]; rfl) fun n hn => ?_
  refine Setting.Triple.bind (T := fun data w => data.length = n ∧ Has v w) ?_ fun data =>
    .assume (c := data.length = n) (fun w hw => hw.1) fun hlen => ?_
  · refine Setting.Triple.bind (matches_checkPdoAccess hv id) fun _ => ?_
    refine .bind (triple_answer (a := .ibytes id) (Q := fun m => m = v.Ibytes id) rfl hv
      fun _ w hw => by rw [← hw]; rfl) fun m => .assume (c := m = v.Ibytes id) (fun w hw => hw.1) fun hm => ?_
    have hsize : n = m := by rw [hn, hm, hid, hp.tx]
    refine .bind (T := fun _ => Has v) (.raiseIf (fun h => absurd hsize (by simpa using h))
      fun _ w hw => hw.2) fun _ => ?_
    refine .withLock (.bind (triple_answer (a := .copyFromInputs id m) (Q := fun r => r.2.length = m) rfl
      hv fun i w _ => Memory.length_read _ _ _) fun r => .pure fun w hw => ⟨hw.1.trans hsize.symm, hw.2⟩)
  have hself : v.perform (.setTxPdo p data) = v := by
    simp [Sizing.perform, hlen, hn]
  refine .bind ((triple_perform rfl (hself.symm ▸ hv)).mono (fun w hw => hw.2) (fun _ _ h => h)
    fun _ _ h => h) fun _ => ?_
  rw [hself]
  exact matches_act hv rfl

/-- A loop over the devices, all of them fitted. -/
theorem matches_forDevices {l : Loop} {body : Addr → P Unit} (hb : ∀ p ∈ v.devices, Matches ok v (body p)) :
    Matches ok v (forDevices l fun p _ => body p) := by
  refine triple_loop (D := v.devices) (fun _ => Has v) (fun i w hi hw => ?_)
    (fun _ _ => keeps_sizing rfl hv) fun done p rest hD _ => ?_
  · have keeps : (single ok staysSound).Keeps (Has v) (.devices l) := keeps_sizing rfl hv
    obtain ⟨hm, hw'⟩ := keeps i w hi hw
    exact ⟨hm, congrArg Sizing.devices hw, hw'⟩
  · exact (hb p (by simp [hD])).mono (fun _ hw => hw.2) (fun _ _ h => h) fun _ _ h => h

theorem matches_updateRt : Matches ok v (updateRt ps) := by
  refine triple_require (keeps_sizing rfl hv) (fun w hw => congrArg Sizing.state hw)
    (fun _ _ => not_sizeMismatch (by decide)) fun h => ?_
  have hs : v.state.inService := by simpa [BusState.inService] using h
  refine Matches.bind (matches_act hv rfl) fun now => Matches.bind
    (matches_forDevices hv fun p hp => matches_updateWrite hv (hv hs p hp) now) fun _ => ?_
  refine Matches.bind (Rests.matches hv (rests_uses sizeless_exchange) noThrow_exchange) fun cycle => ?_
  refine Matches.bind (matches_forDevices hv fun p hp => matches_updateRead hv (hv hs p hp) now) fun _ => ?_
  exact Matches.bind (Rests.matches hv (rests_plain (Prog.uses_when (plain_updateDiagnosticsFast _ _)))
    (Prog.noThrow_when (noThrow_updateDiagnosticsFast _ _))) fun _ => .pure fun _ hw => hw

end Matches

/-! ## Runs -/

/-- The worlds a single thread can reach between two operations, when `cond` holds of every
call and the world it is made in. -/
inductive RunWhen (ps : Parameters) (ok : Guard Act Ans Env St)
    (cond : W → Op → UserCode → Prop) : W → Prop
  | start : RunWhen ps ok cond ⟨{}, []⟩
  | call {w w' : W} {o : Op} {hk : UserCode} {out : Outcome Exn Unit} : RunWhen ps ok cond w →
      o.Allowed w.st → hk.Ok ps → cond w o hk → Exec exec ok 0 (o.invoke ps hk) w out w' →
      out ≠ .crash → RunWhen ps ok cond w'

/-- The worlds of such a run, those inside an operation included. -/
inductive Visits (ps : Parameters) (ok : Guard Act Ans Env St)
    (cond : W → Op → UserCode → Prop) : W → Prop
  | between {w : W} : RunWhen ps ok cond w → Visits ps ok cond w
  | inside {w v : W} {o : Op} {hk : UserCode} : RunWhen ps ok cond w → o.Allowed w.st → hk.Ok ps →
      cond w o hk → Passes exec ok 0 (o.invoke ps hk) w v → Visits ps ok cond v

section Runs

variable {cond : W → Op → UserCode → Prop} {w : W}

theorem Run.when {good : UserCode → Prop} (hc : ∀ w o hk, good hk → cond w o hk)
    (hr : Run ps ok good w) : RunWhen ps ok cond w := by
  induction hr with
  | start => exact .start
  | call _ ha hok hg he hn ih => exact .call ih ha hok (hc _ _ _ hg) he hn

theorem RunWhen.fair (hr : RunWhen ps ok (HooksReturn ok) w) : Fair w := by
  induction hr with
  | start => exact fun h => absurd h (by decide)
  | @call w w' o hk out _ _ hok hret he hn ih =>
    have hw : wp exec ok staysSound 0 (o.invoke ps hk) (Outcome.Meets (fun _ => Fair) fun _ => Fair) w :=
      wp_fair hok ih hret
    have h := wp_sound he hw
    cases out with
    | ret x => exact h
    | exn e => exact h
    | crash => exact absurd rfl hn

theorem Visits.sound (h : Visits ps ok (HooksReturn ok) w) : (sizing w.st).Sound := by
  cases h with
  | between hr => exact Sizing.Ready.sound hr.fair
  | inside hr _ hok hret hp =>
    exact wp_passes (J := fun w => (sizing w.st).Sound) (fun _ _ _ h => h) hp
      (wp_fair hok hr.fair hret) (Sizing.Ready.sound hr.fair)

/-- A hook that never throws returns. -/
theorem returns_of_noThrow {p : P Unit} (hp : p.NoThrow) (D : List Addr) : Returns ok D p :=
  fun _ e _ _ _ he => (wp_sound he (wp_noThrow hp (wp_true _ _))).2 e rfl

theorem UserCode.Quiet.hooksReturn (hq : hk.Quiet) (w : W) (o : Op) : HooksReturn ok w o hk :=
  fun _ _ p _ => returns_of_noThrow (hq .onPdoConfigured p) _

end Runs

/-- The buffers of device `p` are sized as SOEM has configured it. -/
def St.Sized (s : St) (p : Addr) : Prop :=
  (s.dev p).pdoInitialized = true ∧
    (s.dev p).rxPdo.length = (s.slave (s.dev p).deviceInfo.id).Obytes ∧
    (s.dev p).txPdo.length = (s.slave (s.dev p).deviceInfo.id).Ibytes

/-- **In service, every device has its buffers**, and `update_rt` meets no size mismatch: in
every world of a run whose `on_pdo_configured` hooks return, but for that of the last device. -/
theorem buffers_sized {v : W} (hv : Visits ps ok (HooksReturn ok) v) :
    (v.st.state.inService → ∀ p ∈ v.st.devices, v.st.Sized p) ∧
      ∀ e v', Exec exec ok 0 (updateRt ps) v (.exn e) v' → ¬e.sizeMismatch := by
  refine ⟨fun hs p hp => ?_, fun e v' he => ?_⟩
  · have hf := hv.sound hs p hp
    exact ⟨hf.initialized, hf.rx, hf.tx⟩
  · exact Setting.Triple.sound (matches_updateRt hv.sound) he rfl

/-- A bus with one device goes into service. -/
theorem buffers_sized_activated : 0 ∈ activatedOne.devices ∧ activatedOne.Sized 0 := by
  have hr : Run {} free UserCode.Quiet (world [initializeOne, { op := .startup }, activateOne]) :=
    run_world _ (by simp [initializeOne, activateOne, UserCode.none_ok, UserCode.none_quiet])
  have hp : 0 ∈ activatedOne.devices := by decide
  exact ⟨hp, (buffers_sized (.between (hr.when fun w o hk hq => hq.hooksReturn w o))).1 (by decide) 0 hp⟩

/-- The hook of the first device throws while it is told the sizes. -/
def throwsFirst : UserCode := { UserCode.none with
  hook := fun h p => if h = .onPdoConfigured ∧ p = 0 then .throw (.user true) else .pure () }

/-- SOEM finds two devices and maps two bytes of outputs for each. The first hook throws, the
caller goes on with `activate`. -/
def carriedOn : List Call := [
  { op := .initializeBus, env := [{}, {}, { ret := 1 }, { ret := 2, slavecount := 2 }] },
  { op := .startup
    code := throwsFirst
    env := List.replicate 9 {} ++ [{ ret := 4, slaves := fun _ => { Obytes := 2 } }] },
  { op := .activate
    env := List.replicate 22 { ret := 1, slaves := fun _ => { state := EC_STATE_SAFE_OP } } }]

/-- The second device has no buffers then, and `update_rt` throws. -/
theorem buffers_unsized : ∃ v v' : W, Visits {} free (fun _ _ _ => True) v ∧
    v.st.state = .activated ∧ (∃ p ∈ v.st.devices, ¬v.st.Sized p) ∧
    Exec exec free 0 (updateRt {}) v (.exn (soemError "PDO size mismatch - cannot assign")) v' := by
  have hok : throwsFirst.Ok {} := by
    refine ⟨fun h p => ?_, fun _ => .ret, fun _ => .ret⟩
    simp only [throwsFirst]
    split
    · exact .throw _
    · exact .ret
  have hr : Run {} free (fun _ => True) (world carriedOn) :=
    run_world _ (by simp [carriedOn, hok, UserCode.none_ok])
  refine ⟨world carriedOn, (run exec 0 (updateRt {}) [] (world carriedOn)).2.1,
    .between (hr.when fun _ _ _ _ => trivial), by decide, ⟨1, by decide, fun h => ?_⟩, ?_⟩
  · exact absurd h.1 (by decide)
  · have he := run_exec exec 0 (updateRt {}) [] (world carriedOn)
    rwa [show (run exec 0 (updateRt {}) [] (world carriedOn)).1 =
      .exn (soemError "PDO size mismatch - cannot assign") by rfl] at he

end EthercatInterface
