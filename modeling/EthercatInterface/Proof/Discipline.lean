import EthercatInterface.Lib.Lockset
import EthercatInterface.Proof.Sections

/-!
# The lock discipline

`Act.guards` names the mutexes every operation performs an action under: `mailbox_mutex_` for
SOEM's mailbox and error list, `state_mutex_` for requests and reports of device states,
`pdo_update_mutex_` for the process image, the mutex of a device for copies to and from its
buffers, `mailbox_status_mutex_` for the mailbox counters, and `diagnostics_mutex_` for what is
published of each slave. The interface is closed under three of them. Actions without guards may
touch shared members as well; which of them do is in `Threads.Shared`.

Every operation performs an action only under its guards, and what goes on the wire or is
users' code under no other mutex (`under_invoke`).
-/

namespace EthercatInterface

open Interleave

/-- The mutexes an action is always performed under. -/
def Act.guards : Act → List Mutex
  | .ecxSDOread _ _ _ _ | .ecxSDOwrite _ _ _ _ | .ecxFOEread _ _ _ | .ecxFOEwrite _ _ _
  | .ecxReadODlist _ | .ecxReadODdescription _ _ | .ecxReadOE _ _ | .ecxPoperror
  | .elistLength => [.mailbox]
  | .countMailboxEvent _ | .mailboxStatus => [.mailboxStatus]
  | .setSlaveState _ _ | .slaveState _ | .ecxWritestate _ | .ecxStatecheck _ _
  | .ecxReadstate => [.state]
  | .ecxSendProcessdata | .ecxReceiveProcessdata | .expectedWkc | .dcTime | .dcSyncUpdate _ _ _
  | .copyToOutputs _ _ | .copyFromOutputs _ _ | .copyFromInputs _ _ => [.pdoUpdate]
  | .rxPdo p | .getRxPdo p | .setRxPdo p _ | .getTxPdo p | .setTxPdo p _ => [.device p]
  | .publishSlave _ | .publishPorts _ _ | .stampPorts _ _ => [.diagnostics]
  | .ecxClose => [.pdoUpdate, .state, .mailbox]
  | _ => []

/-- Begins or ends an operation or a hook, or is users' code. -/
def Act.foreign : Act → Bool
  | .call _ | .done _ _ | .callback _ _ | .userDecision => true
  | _ => false

/-- Waits for an answer from the bus, or runs code of users. -/
def Act.lengthy (a : Act) : Bool := a.transmits || a.foreign

/-- Guarded actions run under their guards, lengthy ones under nothing else, and the mutexes of
a section are in `V`. -/
def discipline (V : List Mutex → Prop) : Discipline Act Mutex where
  act a held := a.guards ⊆ held ∧ (a.lengthy = true → held = a.guards)
  acquire m _ := V m

/-- Neither guarded nor lengthy. -/
def Light (a : Act) : Prop := a.guards = [] ∧ a.lengthy = false

/-- No mutexes. -/
def NoLock (_ : List Mutex) : Prop := False

section Under

variable {V : List Mutex → Prop} {held : List Mutex} {ps : Parameters} {hk : UserCode}

theorem under_light {α : Type} {p : P α} (h : p.Fits Light NoLock) :
    p.Under (discipline V) held := by
  refine h.under fun a ha => ⟨?_, fun hl => ?_⟩
  · rw [ha.1]
    exact List.nil_subset held
  · rw [ha.2] at hl
    cases hl

theorem light_act {a : Act} (hg : a.guards = []) (hl : a.lengthy = false) :
    (act a).Under (discipline V) held :=
  under_light (Prog.fits_perform ⟨hg, hl⟩)

/-- An action under its guards alone. -/
theorem guarded_act {a : Act} (hg : a.guards = held) : (act a).Under (discipline V) held :=
  Prog.under_perform ⟨by rw [hg]; exact List.Subset.refl held, fun _ => hg.symm⟩

theorem guarded_bind {a : Act} {α : Type} {k : Ans a → P α} (hg : a.guards = held)
    (hk : ∀ r, (k r).Under (discipline V) held) : ((act a).bind k).Under (discipline V) held :=
  (guarded_act hg).bind hk

/-- An action under more than its guards. -/
theorem inner_act {a : Act} (hg : a.guards ⊆ held) (hl : a.lengthy = false) :
    (act a).Under (discipline V) held :=
  Prog.under_perform ⟨hg, fun h => by rw [hl] at h; cases h⟩

theorem under_lock {m : Mutex} {α : Type} {p : P α} (hV : V [m]) (hm : m ∉ held)
    (hp : p.Under (discipline V) (m :: held)) : (Prog.withLock [m] p).Under (discipline V) held :=
  Prog.under_withLock (fun _ hl hh => hm (List.mem_singleton.1 hl ▸ hh)) hV hp

theorem under_stateIn (l : List BusState) : (stateIn l).Under (discipline V) held :=
  under_light (fits_stateIn (S := Light) ⟨rfl, rfl⟩ l)

theorem under_hasDevice (id : DeviceId) : (hasDevice id).Under (discipline V) held :=
  (light_act rfl rfl).bind fun _ => trivial

theorem under_hasDeviceOnBus (id : DeviceId) : (hasDeviceOnBus id).Under (discipline V) held :=
  under_light (fits_hasDeviceOnBus (S := Light) ⟨rfl, rfl⟩ id)

theorem under_slaveIds : slaveIds.Under (discipline V) held :=
  (light_act rfl rfl).bind fun _ => trivial

theorem under_crashUnless (c : Bool) : (crashUnless c).Under (discipline V) held :=
  Prog.under_when trivial

theorem under_forDevices {l : Loop} {body : Addr → DeviceId → P Unit}
    (hb : ∀ p id, (body p id).Under (discipline V) held) :
    (forDevices l body).Under (discipline V) held := by
  refine (light_act rfl rfl).bind fun devices => Prog.Under.forEach (fun p => ?_) devices
  refine (light_act rfl rfl).bind fun r => ?_
  cases r with
  | none => trivial
  | some id => exact hb p id

/-! ## The process image -/

theorem under_checkPdoAccess (id : DeviceId) : (checkPdoAccess id).Under (discipline V) held :=
  under_light (fits_checkPdoAccess (S := Light) ⟨rfl, rfl⟩ ⟨rfl, rfl⟩ id)

section Cyclic

variable (hV : V [.pdoUpdate])
include hV

theorem under_readRxPdo (h : .pdoUpdate ∉ held) (id : DeviceId) :
    (readRxPdo id).Under (discipline V) held :=
  (under_checkPdoAccess id).bind fun _ => (light_act rfl rfl).bind fun _ =>
    under_lock hV h ((inner_act (by simp [Act.guards]) rfl).bind fun _ => trivial)

theorem under_writeRxPdo (h : .pdoUpdate ∉ held) (id : DeviceId) (data : List UInt8) :
    (writeRxPdo id data).Under (discipline V) held :=
  (under_checkPdoAccess id).bind fun _ => (light_act rfl rfl).bind fun _ =>
    Prog.under_raiseIf.bind fun _ =>
      under_lock hV h ((inner_act (by simp [Act.guards]) rfl).bind fun _ => trivial)

theorem under_readTxPdo (h : .pdoUpdate ∉ held) (id : DeviceId) (n : ℕ) :
    (readTxPdo id n).Under (discipline V) held :=
  (under_checkPdoAccess id).bind fun _ => (light_act rfl rfl).bind fun _ =>
    Prog.under_raiseIf.bind fun _ =>
      under_lock hV h ((inner_act (by simp [Act.guards]) rfl).bind fun _ => trivial)

theorem under_exchange : (exchange ps).Under (discipline V) [] := by
  refine under_lock hV List.not_mem_nil ?_
  refine guarded_bind rfl fun _ => guarded_bind rfl fun _ => guarded_bind rfl fun _ =>
    Prog.Under.bind (p := dcCorrection ps) ?_ fun _ => trivial
  unfold dcCorrection
  split
  · refine (light_act rfl rfl).bind fun b => ?_
    split
    · exact guarded_bind rfl fun _ => (under_crashUnless _).bind fun _ =>
        guarded_bind rfl fun _ => trivial
    · trivial
  · trivial

variable (hD : ∀ p, V [.device p])
include hD

theorem under_updateWrite (p : Addr) (tp : ℤ) : (updateWrite p tp).Under (discipline V) [] := by
  refine under_lock (hD p) List.not_mem_nil ?_
  refine (light_act rfl rfl).bind fun _ => (under_crashUnless _).bind fun _ =>
    (light_act rfl rfl).bind fun id => guarded_bind rfl fun rx => ?_
  exact (under_writeRxPdo hV (by simp) id rx).bind fun _ => light_act rfl rfl

theorem under_updateRead (p : Addr) (tp : ℤ) : (updateRead p tp).Under (discipline V) [] := by
  refine under_lock (hD p) List.not_mem_nil ?_
  refine (light_act rfl rfl).bind fun _ => (under_crashUnless _).bind fun _ =>
    (light_act rfl rfl).bind fun id => (light_act rfl rfl).bind fun n => ?_
  exact (under_readTxPdo hV (by simp) id n).bind fun _ => guarded_bind rfl fun _ =>
    light_act rfl rfl

end Cyclic

theorem under_updateDiagnosticsFast (hV : V [.diagnostics]) (wkc e : ℤ) :
    (updateDiagnosticsFast ps wkc e).Under (discipline V) [] := by
  refine (light_act rfl rfl).bind fun _ => (light_act rfl rfl).bind fun _ =>
    (light_act rfl rfl).bind fun _ => Prog.under_when ((light_act rfl rfl).bind fun _ =>
      Prog.under_when (under_lock hV List.not_mem_nil ((light_act rfl rfl).bind fun n =>
        Prog.Under.forEach (fun i => ?_) _)))
  exact guarded_bind rfl fun _ => under_crashUnless _

/-- **A cycle** acquires the mutexes of the devices, of the process image and of what is
published, and no others. -/
theorem under_updateRt (hV : V [.pdoUpdate]) (hD : ∀ p, V [.device p]) (hF : V [.diagnostics]) :
    (updateRt ps).Under (discipline V) [] := by
  refine (under_stateIn _).bind fun _ => Prog.under_raiseIf.bind fun _ =>
    (light_act rfl rfl).bind fun now => ?_
  refine (under_forDevices fun p _ => under_updateWrite hV hD p now).bind fun _ =>
    (under_exchange hV).bind fun cycle =>
      (under_forDevices fun p _ => under_updateRead hV hD p now).bind fun _ => ?_
  exact (Prog.under_when (under_updateDiagnosticsFast hF _ _)).bind fun _ => trivial

theorem under_invokeOf {o : Op} (hb : (o.body ps hk).Under (discipline V) []) :
    (o.invoke ps hk).Under (discipline V) [] := by
  refine guarded_bind rfl fun _ => hb.attempt.bind fun r => ?_
  cases r with
  | ok x => exact guarded_act rfl
  | error e => exact guarded_bind rfl fun _ => trivial

end Under

/-- The discipline of threads that may acquire anything. -/
abbrev anyDiscipline : Discipline Act Mutex := discipline AnyLock

theorem under_lock_any {m : Mutex} {held : List Mutex} {α : Type} {p : P α} (hm : m ∉ held)
    (hp : p.Under anyDiscipline (m :: held)) : (Prog.withLock [m] p).Under anyDiscipline held :=
  under_lock trivial hm hp

/-- A section that is not inside another. -/
theorem under_section {m : List Mutex} {α : Type} {p : P α} (hp : p.Under anyDiscipline m) :
    (Prog.withLock m p).Under anyDiscipline [] := by
  rw [← List.append_nil m] at hp
  exact Prog.under_withLock (fun _ _ hl => nomatch hl) trivial hp

/-! ## States of the slaves -/

theorem under_setDeviceTargetState (id : DeviceId) (s : ℕ) :
    (setDeviceTargetState id s).Under anyDiscipline [] := by
  refine under_section ((under_hasDeviceOnBus id).bind fun onBus => ?_)
  split
  · trivial
  · exact guarded_bind rfl fun _ => guarded_bind rfl fun _ => trivial

theorem under_waitForDeviceTargetState (id : DeviceId) (s : ℕ) :
    (waitForDeviceTargetState id s).Under anyDiscipline [] :=
  under_section (guarded_bind rfl fun _ => trivial)

theorem under_getDeviceState (id : DeviceId) : (getDeviceState id).Under anyDiscipline [] :=
  under_section (guarded_bind rfl fun _ => trivial)

theorem under_updateDeviceStates : updateDeviceStates.Under anyDiscipline [] :=
  under_section (guarded_bind rfl fun _ => trivial)

theorem under_changeDeviceState (id : DeviceId) (s : EthercatDeviceState) (b : Bool) :
    (changeDeviceState id s b).Under anyDiscipline [] := by
  refine (under_setDeviceTargetState id _).bind fun res => ?_
  split
  · trivial
  · exact under_waitForDeviceTargetState id _

/-! ## Mailbox -/

/-- What is done of a mailbox access under its mutex. -/
abbrev UnderMailbox {α : Type} (p : P α) : Prop := p.Under anyDiscipline [.mailbox]

theorem under_reportMailboxEvent (ev : MailboxEvent) : UnderMailbox (reportMailboxEvent ev) :=
  under_lock_any (by decide) (inner_act (by simp [Act.guards]) rfl)

theorem under_reportAny (event : Option MailboxEvent) : UnderMailbox (reportAny event) := by
  cases event with
  | none => trivial
  | some ev => exact under_reportMailboxEvent ev

theorem under_drainFor (acc : MailboxAccess) : ∀ n event, UnderMailbox (drainFor acc n event)
  | 0, _ => trivial
  | n + 1, event => by
    refine guarded_bind rfl fun r => ?_
    cases r with
    | none => trivial
    | some raw =>
      refine (light_act rfl rfl).bind fun now => ?_
      dsimp only
      split
      · exact under_drainFor acc n _
      · exact (under_reportMailboxEvent _).bind fun _ => under_drainFor acc n _

theorem under_drainMailboxEventsFor (acc : MailboxAccess) : UnderMailbox (drainMailboxEventsFor acc) :=
  guarded_bind rfl fun n => under_drainFor acc (n + 1) none

theorem under_drainAll : ∀ n, UnderMailbox (drainAll n)
  | 0 => trivial
  | n + 1 => by
    refine guarded_bind rfl fun r => ?_
    cases r with
    | none => trivial
    | some raw =>
      exact (light_act rfl rfl).bind fun _ => (under_reportMailboxEvent _).bind fun _ => under_drainAll n

theorem under_drainMailboxEvents : UnderMailbox drainMailboxEvents :=
  guarded_bind rfl fun n => under_drainAll (n + 1)

theorem under_finishMailboxAccess (acc : MailboxAccess) (wkc : ℤ) :
    UnderMailbox (finishMailboxAccess acc wkc) := by
  refine (under_drainMailboxEventsFor acc).bind fun event => ?_
  split
  · exact (light_act rfl rfl).bind fun _ => (under_reportMailboxEvent _).bind fun _ => trivial
  · trivial

theorem under_finishFoeAccess (acc : MailboxAccess) (wkc : ℤ) :
    UnderMailbox (finishFoeAccess acc wkc) := by
  refine (under_drainMailboxEventsFor acc).bind fun event => ?_
  split
  · trivial
  · exact (under_reportAny event).bind fun _ => (light_act rfl rfl).bind fun _ =>
      (under_reportMailboxEvent _).bind fun _ => trivial

theorem under_checkAccess {held : List Mutex} (what : String) (id : DeviceId) :
    (checkAccess what id).Under anyDiscipline held :=
  under_light (fits_checkAccess (S := Light) ⟨rfl, rfl⟩ ⟨rfl, rfl⟩ what id)

/-- An access: checks, a drain, one transfer, and what is made of its answer. -/
theorem under_access {what : String} {id : DeviceId} {a : Act} {α : Type} {k : Ans a → P α}
    (ha : a.guards = [.mailbox]) (hk : ∀ r, UnderMailbox (k r)) :
    (Prog.withLock [.mailbox] ((checkAccess what id).bind fun _ => drainMailboxEvents.bind fun _ =>
      (act a).bind k)).Under anyDiscipline [] :=
  under_section ((under_checkAccess what id).bind fun _ => under_drainMailboxEvents.bind fun _ =>
    guarded_bind ha hk)

theorem under_readSdoUntyped (n : ℕ) (id : DeviceId) (i s : ℕ) (c : Bool) :
    (readSdoUntyped n id i s c).Under anyDiscipline [] := by
  refine under_access rfl fun r => (under_finishMailboxAccess _ _).bind fun finished => ?_
  split
  · trivial
  · exact Prog.under_raiseIf.bind fun _ => trivial

theorem under_writeSdoUntyped (data : List UInt8) (id : DeviceId) (i s : ℕ) :
    (writeSdoUntyped data id i s).Under anyDiscipline [] :=
  under_access rfl fun _ => (under_finishMailboxAccess _ _).bind fun _ => trivial

theorem under_foeWrite (id : DeviceId) (f : String) (data : List UInt8) :
    (foeWrite id f data).Under anyDiscipline [] :=
  under_access rfl fun _ => (under_finishFoeAccess _ _).bind fun _ => trivial

theorem under_foeRead (id : DeviceId) (f : String) (n : ℕ) :
    (foeRead id f n).Under anyDiscipline [] := by
  refine under_access rfl fun r => (under_finishFoeAccess _ _).bind fun finished => ?_
  split <;> trivial

theorem under_expandEntry (id : DeviceId) (od : List ℕ) (obj : SDOEntry) :
    UnderMailbox (expandEntry id od obj) := by
  unfold expandEntry
  split
  · trivial
  · split
    · trivial
    · refine guarded_bind rfl fun r => ?_
      cases r <;> trivial

theorem under_readOdFromDevice (id : DeviceId) (fullRead : Bool) :
    (readOdFromDevice id fullRead).Under anyDiscipline [] := by
  refine (under_stateIn _).bind fun _ => Prog.under_raiseIf.bind fun _ =>
    (under_hasDeviceOnBus id).bind fun _ => Prog.under_raiseIf.bind fun _ =>
      under_section (guarded_bind rfl fun r => ?_)
  cases r with
  | none => trivial
  | some od =>
    refine (Prog.Under.foldEach (fun result x => ?_) _ _).bind fun result => ?_
    · exact (guarded_bind rfl fun _ => trivial : UnderMailbox (readOdEntry id x.1 x.2)).bind
        fun _ => trivial
    · split
      · refine Prog.Under.foldEach (fun expanded obj => ?_) _ _
        exact (under_expandEntry id od obj).bind fun _ => trivial
      · trivial

theorem under_readRegisterUntyped (n : ℕ) (id : DeviceId) (a : ℕ) :
    (readRegisterUntyped n id a).Under anyDiscipline [] :=
  (under_checkAccess _ id).bind fun _ => Prog.under_raiseIf.bind fun _ =>
    (light_act rfl rfl).bind fun _ => guarded_bind rfl fun _ => trivial

theorem under_writeRegisterUntyped (data : List UInt8) (id : DeviceId) (a : ℕ) :
    (writeRegisterUntyped data id a).Under anyDiscipline [] :=
  (under_checkAccess _ id).bind fun _ => Prog.under_raiseIf.bind fun _ =>
    (light_act rfl rfl).bind fun _ => guarded_bind rfl fun _ => trivial

/-! ## Diagnostics -/

theorem under_updateDiagnosticsSlow : updateDiagnosticsSlow.Under anyDiscipline [] := by
  refine (light_act rfl rfl).bind fun _ => (light_act rfl rfl).bind fun _ =>
    (Prog.under_when (light_act rfl rfl)).bind fun _ => (light_act rfl rfl).bind fun i =>
      (light_act rfl rfl).bind fun adr => Prog.Under.bind (p := readSlavePortDiagnostics adr) ?_ fun ports => ?_
  -- the registers are read before the mutex is acquired
  · exact guarded_bind rfl fun _ => guarded_bind rfl fun _ => guarded_bind rfl fun _ => trivial
  · refine (under_section ?_).bind fun _ => light_act rfl rfl
    exact guarded_bind rfl fun _ => (under_crashUnless _).bind fun _ =>
      (light_act rfl rfl).bind fun _ => guarded_bind rfl fun _ => under_crashUnless _

section Operations

variable {ps : Parameters} {hk : UserCode}

theorem under_diagnostics (f : Bool) : (diagnostics ps f).Under anyDiscipline [] := by
  refine (under_stateIn _).bind fun _ => Prog.under_raiseIf.bind fun _ =>
    (Prog.under_when ((under_stateIn _).bind fun _ => Prog.under_raiseIf)).bind fun _ =>
      Prog.Under.bind (p := takeSnapshot ps f) ?_ fun _ =>
        Prog.Under.bind (under_section (guarded_act rfl)) fun _ => trivial
  unfold takeSnapshot
  split
  · exact (under_updateDiagnosticsFast trivial 0 0).bind fun _ =>
      under_updateDiagnosticsSlow.bind fun _ => light_act rfl rfl
  · exact under_section (light_act rfl rfl)

/-! ## Operations outside the lifecycle -/

theorem under_void {α : Type} {p : P α} (hp : p.Under anyDiscipline []) :
    (void p).Under anyDiscipline [] :=
  hp.bind fun _ => trivial

theorem under_throughBus {α : Type} (p : Addr) {k : DeviceId → P α}
    (hk : ∀ id, (k id).Under anyDiscipline []) : (throughBus p k).Under anyDiscipline [] :=
  (light_act rfl rfl).bind fun _ => Prog.under_raiseIf.bind fun _ => (light_act rfl rfl).bind fun _ =>
    (under_crashUnless _).bind fun _ => (light_act rfl rfl).bind hk

theorem under_getGenericRxPdo (p : Addr) (n : ℕ) : (getGenericRxPdo p n).Under anyDiscipline [] :=
  (light_act rfl rfl).bind fun _ => Prog.under_raiseIf.bind fun _ => (light_act rfl rfl).bind fun _ =>
    Prog.under_raiseIf.bind fun _ => under_section (guarded_act rfl)

theorem under_setGenericRxPdo (p : Addr) (rx : List UInt8) :
    (setGenericRxPdo p rx).Under anyDiscipline [] :=
  (light_act rfl rfl).bind fun _ => Prog.under_raiseIf.bind fun _ => (light_act rfl rfl).bind fun _ =>
    Prog.under_raiseIf.bind fun _ => under_section (guarded_act rfl)

theorem under_getGenericTxPdo (p : Addr) (n : ℕ) : (getGenericTxPdo p n).Under anyDiscipline [] :=
  (light_act rfl rfl).bind fun _ => Prog.under_raiseIf.bind fun _ => (light_act rfl rfl).bind fun _ =>
    Prog.under_raiseIf.bind fun _ => under_section (guarded_act rfl)

theorem under_scanDevice (id : DeviceId) : (scanDevice id).Under anyDiscipline [] :=
  (under_stateIn _).bind fun _ => Prog.under_raiseIf.bind fun _ =>
    (under_hasDeviceOnBus id).bind fun _ => Prog.under_raiseIf.bind fun _ => light_act rfl rfl

theorem under_scan : scan.Under anyDiscipline [] := by
  refine (under_stateIn _).bind fun _ => Prog.under_raiseIf.bind fun _ => under_slaveIds.bind
    fun ids => Prog.Under.foldEach (fun result id => ?_) ids []
  exact (light_act rfl rfl).bind fun _ => trivial

theorem under_acquireDevice (id : DeviceId) : (acquireDevice id).Under anyDiscipline [] :=
  under_light (fits_acquireDevice (S := Light) ⟨rfl, rfl⟩ (fun _ => ⟨rfl, rfl⟩) (fun _ => ⟨rfl, rfl⟩) id)

/-- What operations run outside the lifecycle, with the callback they may end with. -/
theorem under_body (o : Op) (hl : o.lifecycle = false)
    (hr : ∀ r, (hk.sdoReadCallback r).Under anyDiscipline [])
    (hw : ∀ r, (hk.sdoWriteCallback r).Under anyDiscipline []) :
    (o.body ps hk).Under anyDiscipline [] := by
  cases o with
  | initializeBus => cases hl
  | startup => cases hl
  | activate => cases hl
  | shutdown => cases hl
  | updateService => cases hl
  | destroyBus => cases hl
  | readRxPdo id => exact under_void (under_readRxPdo trivial List.not_mem_nil id)
  | writeRxPdo id data => exact under_writeRxPdo trivial List.not_mem_nil id data
  | readTxPdo id n => exact under_void (under_readTxPdo trivial List.not_mem_nil id n)
  | updateRt => exact under_void (under_updateRt trivial (fun _ => trivial) trivial)
  | acquireDevice id => exact under_void (under_acquireDevice id)
  | scan => exact under_void under_scan
  | scanDevice id => exact under_void (under_scanDevice id)
  | readOd id f => exact under_void (under_readOdFromDevice id f)
  | hasDevice id => exact under_void (under_hasDevice id)
  | hasDeviceOnBus id => exact under_void (under_hasDeviceOnBus id)
  -- a callback runs after the section of its access
  | readSdoUntyped n id i s c => exact under_void (under_readSdoUntyped n id i s c)
  | readSdoUntypedAsync n id i s c => exact (under_readSdoUntyped n id i s c).bind hr
  | writeSdoUntyped data id i s => exact under_void (under_writeSdoUntyped data id i s)
  | writeSdoUntypedAsync data id i s => exact (under_writeSdoUntyped data id i s).bind hw
  | changeDeviceState id s b => exact under_void (under_changeDeviceState id s b)
  | foeWrite id f data => exact under_void (under_foeWrite id f data)
  | foeRead id f n => exact under_void (under_foeRead id f n)
  | readRegisterUntyped n id a => exact under_void (under_readRegisterUntyped n id a)
  | writeRegisterUntyped data id a => exact under_void (under_writeRegisterUntyped data id a)
  | diagnostics f => exact under_void (under_diagnostics f)
  | deviceSdoRead p n i s c =>
    exact under_void (under_throughBus p fun id => under_readSdoUntyped n id i s c)
  | deviceSdoWrite p data i s =>
    exact under_void (under_throughBus p fun id => under_writeSdoUntyped data id i s)
  | deviceReadOd p f => exact under_void (under_throughBus p fun id => under_readOdFromDevice id f)
  | deviceChangeDeviceState p s b =>
    exact under_void (under_throughBus p fun id => under_changeDeviceState id s b)
  | deviceFoeWrite p f data => exact under_void (under_throughBus p fun id => under_foeWrite id f data)
  | deviceFoeRead p f n => exact under_void (under_throughBus p fun id => under_foeRead id f n)
  | getGenericRxPdo p n => exact under_void (under_getGenericRxPdo p n)
  | setGenericRxPdo p rx => exact under_setGenericRxPdo p rx
  | getGenericTxPdo p n => exact under_void (under_getGenericTxPdo p n)
  | releaseDevice p => exact light_act rfl rfl

theorem under_user {p : P Unit} (h : User ps p) : p.Under anyDiscipline [] := by
  induction h with
  | ret => trivial
  | throw e => trivial
  | decide _ ih => exact guarded_bind rfl ih
  | call hl _ _ _ ihr ihw ihk => exact (under_invokeOf (under_body _ hl ihr ihw)).attempt.bind ihk

/-! ## Lifecycle -/

theorem under_initializeBus : (initializeBus ps).Under anyDiscipline [] := by
  refine (under_stateIn _).bind fun _ => Prog.under_raiseIf.bind fun _ => (light_act rfl rfl).bind fun _ =>
    Prog.under_raiseIf.bind fun _ => guarded_bind rfl fun n => Prog.under_raiseIf.bind fun _ => ?_
  refine (light_act rfl rfl).bind fun _ => under_slaveIds.bind fun ids =>
    (Prog.Under.forEach (fun id => (light_act rfl rfl).bind fun _ => under_crashUnless _) ids).bind fun _ => ?_
  refine (light_act rfl rfl).bind fun _ => (light_act rfl rfl).bind fun _ => (light_act rfl rfl).bind fun _ =>
    (Prog.Under.forEach (fun id => ?_) _).bind fun _ => trivial
  exact (under_scanDevice id).bind fun _ => light_act rfl rfl

variable (hok : hk.Ok ps)
include hok

theorem under_callbacks (h : Hook) :
    (forDevices (.callback h) fun p _ => onCallback hk h p).Under anyDiscipline [] :=
  under_forDevices fun p _ => guarded_bind rfl fun _ => under_user (hok.hook h p)

theorem under_shutdown : (shutdown hk).Under anyDiscipline [] := by
  refine (under_stateIn _).bind fun b => ?_
  split
  · trivial
  refine (under_stateIn _).bind fun b => ?_
  split
  · exact light_act rfl rfl
  refine (under_stateIn _).bind fun b => ?_
  split
  · exact under_section ((light_act rfl rfl).bind fun _ => (light_act rfl rfl).bind fun _ => guarded_act rfl)
  refine (under_stateIn _).bind fun b => ?_
  split
  · refine (light_act rfl rfl).bind fun _ => (under_callbacks hok .onPreShutdown).bind fun _ =>
      (under_setDeviceTargetState _ _).bind fun _ => (under_waitForDeviceTargetState _ _).bind fun _ =>
        Prog.Under.bind (p := closeRunning) ?_ fun _ =>
          (under_callbacks hok .onPostShutdown).bind fun _ => light_act rfl rfl
    exact under_section (guarded_bind rfl fun _ => light_act rfl rfl)
  · trivial

/-- What ends an operation that went wrong: `shutdown`, then a throw. -/
theorem under_abort {b : Bool} {e : Exn} :
    (Prog.when b do EthercatInterface.shutdown hk; Prog.throw e).Under anyDiscipline [] :=
  Prog.under_when ((under_shutdown hok).bind fun _ => trivial)

theorem under_startup : (startup ps hk).Under anyDiscipline [] := by
  refine (under_stateIn _).bind fun _ => Prog.under_raiseIf.bind fun _ =>
    Prog.Under.bind (p := mapPdos ps hk) ?_ fun size => (under_abort hok).bind fun _ => ?_
  · exact (under_callbacks hok .onStartup).bind fun _ => (light_act rfl rfl).bind fun _ =>
      (light_act rfl rfl).bind fun _ => guarded_act rfl
  refine guarded_bind rfl fun dc => (under_abort hok).bind fun _ =>
    Prog.Under.bind (p := setupDc ps) ?_ fun _ => (light_act rfl rfl).bind fun _ =>
      under_forDevices fun p id => ?_
  · refine under_slaveIds.bind fun ids => (Prog.Under.forEach (fun id => ?_) ids).bind fun _ =>
      Prog.under_when (under_slaveIds.bind fun ids => Prog.Under.forEach (fun id => ?_) ids)
    · exact (light_act rfl rfl).bind fun _ => under_crashUnless _
    · exact (light_act rfl rfl).bind fun _ => Prog.under_when (guarded_act rfl)
  · refine (light_act rfl rfl).bind fun _ => (light_act rfl rfl).bind fun _ => guarded_bind rfl fun _ => ?_
    refine (light_act rfl rfl).bind fun _ => (light_act rfl rfl).bind fun _ => (light_act rfl rfl).bind fun _ => ?_
    refine (light_act rfl rfl).bind fun _ => (light_act rfl rfl).bind fun _ => (light_act rfl rfl).bind fun _ => ?_
    exact (light_act rfl rfl).bind fun _ => under_user (hok.hook .onPdoConfigured p)

theorem under_activate : (activate hk).Under anyDiscipline [] := by
  refine (under_stateIn _).bind fun _ => Prog.under_raiseIf.bind fun _ =>
    (under_callbacks hok .onPreActivate).bind fun _ => (light_act rfl rfl).bind fun _ => ?_
  refine (under_forDevices fun p id => (under_setDeviceTargetState id _).bind fun _ =>
    under_abort hok).bind fun _ => ?_
  refine (under_forDevices fun p id => (under_waitForDeviceTargetState id _).bind fun _ =>
    under_abort hok).bind fun _ => ?_
  exact (light_act rfl rfl).bind fun _ => under_callbacks hok .onPostActivate

theorem under_bringOperational : (bringOperational ps hk).Under anyDiscipline [] := by
  refine (light_act rfl rfl).bind fun start => (Prog.under_when ((light_act rfl rfl).bind fun _ =>
    light_act rfl rfl)).bind fun _ => ?_
  refine (under_light (fits_operationalTimeout (S := Light) ⟨rfl, rfl⟩ ⟨rfl, rfl⟩)).bind fun late =>
    (under_abort hok).bind fun _ => ?_
  refine Prog.Under.bind (under_forDevices fun _ id => ?_) fun _ => under_updateDeviceStates.bind fun _ => ?_
  · exact (under_setDeviceTargetState id _).bind fun _ => trivial
  refine Prog.Under.bind (p := allInOperational) ?_ fun _ => Prog.under_when (light_act rfl rfl)
  refine (light_act rfl rfl).bind fun devices => Prog.Under.foldEach (fun all p => ?_) devices true
  refine (light_act rfl rfl).bind fun r => ?_
  cases r with
  | none => trivial
  | some id => exact (under_getDeviceState id).bind fun _ => trivial

theorem under_updateService : (updateService ps hk).Under anyDiscipline [] := by
  refine (under_stateIn _).bind fun _ => Prog.under_raiseIf.bind fun _ =>
    (light_act rfl rfl).bind fun up => (light_act rfl rfl).bind fun _ => ?_
  refine (light_act rfl rfl).bind fun owns =>
    (Prog.under_when (under_section under_drainMailboxEvents)).bind fun _ => (under_stateIn _).bind fun b => ?_
  split
  · exact (under_bringOperational hok).bind fun _ => trivial
  · refine Prog.Under.bind (p := backgroundDiagnostics ps) ?_ fun _ => trivial
    exact Prog.under_when (under_updateDeviceStates.bind fun _ => Prog.under_when under_updateDiagnosticsSlow)

theorem under_destroyBus : (destroyBus hk).Under anyDiscipline [] := by
  refine (under_forDevices fun p _ => light_act rfl rfl).bind fun _ =>
    Prog.Under.bind ((under_shutdown hok).attempt.bind fun r => ?_) fun _ => light_act rfl rfl
  cases r with
  | ok x => trivial
  | error e =>
    dsimp only
    split
    · trivial
    · trivial

/-- **Every operation** performs what it does under the mutexes that guard it, whatever code
users plug in. -/
theorem under_invoke (o : Op) : (o.invoke ps hk).Under anyDiscipline [] := by
  refine under_invokeOf ?_
  by_cases hl : o.lifecycle = false
  · exact under_body o hl (fun r => under_user (hok.sdoReadCallback r)) fun r =>
      under_user (hok.sdoWriteCallback r)
  cases o
  case initializeBus => exact under_void (under_initializeBus)
  case startup => exact under_startup hok
  case activate => exact under_activate hok
  case shutdown => exact under_shutdown hok
  case updateService => exact under_void (under_updateService hok)
  case destroyBus => exact under_destroyBus hok
  all_goals exact absurd rfl hl

end Operations

end EthercatInterface
