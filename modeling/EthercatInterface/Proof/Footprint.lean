import EthercatInterface.Spec.Bus
import EthercatInterface.Proof.Members

/-!
# Which actions a function performs

Most operations neither move the bus through its lifecycle nor touch the process
image: they are mailbox accesses or stay away from the mailbox as well (`Boxed.body`).
The accessors of the process data and `update_rt` touch the image. Code of users calls
operations of all these kinds (`User.holds`).
-/

namespace EthercatInterface

open Interleave

variable {ps : Parameters} {hk : UserCode}

/-- The loops of `update_rt`. -/
def Loop.cyclic : Loop → Bool
  | .updateWrite | .updateRead => true
  | _ => false

/-- The actions of the lifecycle operations alone. -/
def Act.lifecycle : Act → Bool
  | .call o | .done o _ => o.lifecycle
  | .devices l => !l.cyclic
  | .updateBusState _ | .setActivationStartTp _ | .emplaceDevice _ | .clearDevices | .clearBus _
  | .destroyBackend | .callback _ _ | .resizeRxPdo _ _ | .resizeTxPdo _ _ | .setPdoInitialized _
  | .setBlockLRW _ | .resizeIoMap _ | .ecxInit | .ecxConfigInit | .ecxConfigMapGroup | .ecxConfigdc
  | .ecxDcsync0 _ _ _ | .ecxReadstate | .slaveState _ | .ecxClose | .resizeSlaves
  | .captureTopology _ | .captureDc _ => true
  | _ => false

/-- The actions that touch the process image, or fill a buffer of a device. -/
def Act.transfers : Act → Bool
  | .ecxSendProcessdata | .ecxReceiveProcessdata | .copyToOutputs _ _ | .copyFromOutputs _ _
  | .copyFromInputs _ _ | .setRxPdo _ _ | .setTxPdo _ _ => true
  | _ => false

/-- The transfers of `update_rt`. -/
def Act.conveys : Act → Bool
  | .ecxSendProcessdata | .ecxReceiveProcessdata | .copyToOutputs _ _ | .copyFromInputs _ _
  | .setTxPdo _ _ => true
  | _ => false

/-- The beginning or the end of an operation. -/
def Act.marks : Act → Bool
  | .call _ | .done _ _ => true
  | _ => false

/-- Loads `state_`. -/
def Act.looks : Act → Bool
  | .getBusState => true
  | _ => false

/-- The transfers through the mailbox of a slave, and what is done with their errors. -/
def Act.boxes : Act → Bool
  | .ecxSDOread _ _ _ _ | .ecxSDOwrite _ _ _ _ | .ecxFOEread _ _ _ | .ecxFOEwrite _ _ _
  | .ecxPoperror | .countMailboxEvent _ => true
  | _ => false

/-- The actions of emptying the error list. -/
def Act.drains : Act → Bool
  | .ecxPoperror | .now | .elistLength | .countMailboxEvent _ => true
  | _ => false

/-- What the mailbox accesses perform. -/
def Act.mails : Act → Bool
  | .getBusState | .slavecount | .now | .elistLength => true
  | a => a.boxes

/-- Puts frames on the wire. -/
def Act.transmits : Act → Bool
  | .ecxConfigInit | .ecxConfigMapGroup | .ecxConfigdc | .ecxDcsync0 _ _ _ | .ecxWritestate _
  | .ecxStatecheck _ _ | .ecxReadstate | .ecxSendProcessdata | .ecxReceiveProcessdata
  | .ecxSDOread _ _ _ _ | .ecxSDOwrite _ _ _ _ | .ecxFOEread _ _ _ | .ecxFOEwrite _ _ _
  | .ecxReadODlist _ | .ecxReadODdescription _ _ | .ecxReadOE _ _ | .ecxFPRD _ _ _
  | .ecxFPWR _ _ _ => true
  | _ => false

/-- The exchange with the bus, its working counters and its clock. -/
def Act.swaps : Act → Bool
  | .ecxSendProcessdata | .ecxReceiveProcessdata | .expectedWkc | .dcTime | .dcSyncUpdate _ _ _ => true
  | _ => false

/-- The diagnostics of frames and slaves that are updated after the exchange, and those of ports. -/
def Act.reports : Act → Bool
  | .countFrame _ _ | .publishSlave _ | .setCurrentSlave _ | .publishPorts _ _ | .stampPorts _ _ => true
  | _ => false

/-- The exchange with the bus, and what is reported of it. -/
def Act.cycles (a : Act) : Bool := a.swaps || a.reports

/-- Outside the lifecycle. -/
def Calm (a : Act) : Prop := a.lifecycle = false

/-- Outside the lifecycle, and inside an operation. -/
def Inner (a : Act) : Prop := (a.marks || a.lifecycle) = false

/-- Outside the lifecycle and the process image, and inside an operation. -/
def Plain (a : Act) : Prop := (a.marks || a.lifecycle || a.transfers) = false

/-- Plain, and without a look at the state of the bus. -/
def Blind (a : Act) : Prop := (a.marks || a.lifecycle || a.transfers || a.looks) = false

/-- Plain, and outside the mailbox accesses. -/
def Still (a : Act) : Prop := (a.marks || a.lifecycle || a.transfers || a.boxes) = false

/-- Still, and without a frame on the wire. -/
def Tacit (a : Act) : Prop := (a.marks || a.lifecycle || a.transfers || a.boxes || a.transmits) = false

/-- Still, and outside the exchange. -/
def Modest (a : Act) : Prop := (a.marks || a.lifecycle || a.transfers || a.boxes || a.cycles) = false

/-- Modest, and without a frame on the wire. -/
def Meek (a : Act) : Prop :=
  (a.marks || a.lifecycle || a.transfers || a.boxes || a.transmits || a.cycles) = false

/-- Outside the mailbox accesses. -/
def Unboxed (a : Act) : Prop := a.boxes = false

/-- Outside the mailbox accesses and the exchange. -/
def Spare (a : Act) : Prop := (a.boxes || a.cycles) = false

/-- Inside a mailbox access. -/
def Mailing (a : Act) : Prop := a.mails = true

/-- Inside a mailbox access, after the look at the state of the bus. -/
def Posting (a : Act) : Prop := (a.mails && !a.looks) = true

/-- Empties the error list. -/
def Draining (a : Act) : Prop := a.drains = true

theorem Blind.plain {a : Act} (h : Blind a) : Plain a := (Bool.or_eq_false_iff.1 h).1

theorem Plain.inner {a : Act} (h : Plain a) : Inner a := (Bool.or_eq_false_iff.1 h).1

theorem Inner.calm {a : Act} (h : Inner a) : Calm a := (Bool.or_eq_false_iff.1 h).2

theorem Plain.calm {a : Act} (h : Plain a) : Calm a := h.inner.calm

theorem Still.plain {a : Act} (h : Still a) : Plain a := (Bool.or_eq_false_iff.1 h).1

theorem Tacit.still {a : Act} (h : Tacit a) : Still a := (Bool.or_eq_false_iff.1 h).1

theorem Tacit.sendless {a : Act} (h : Tacit a) : a.transmits = false := (Bool.or_eq_false_iff.1 h).2

theorem Modest.still {a : Act} (h : Modest a) : Still a := (Bool.or_eq_false_iff.1 h).1

theorem Modest.spare {a : Act} (h : Modest a) : Spare a :=
  Bool.or_eq_false_iff.2 ⟨(Bool.or_eq_false_iff.1 h.still).2, (Bool.or_eq_false_iff.1 h).2⟩

theorem Spare.unboxed {a : Act} (h : Spare a) : Unboxed a := (Bool.or_eq_false_iff.1 h).1

theorem Spare.acyclic {a : Act} (h : Spare a) : a.cycles = false := (Bool.or_eq_false_iff.1 h).2

theorem Meek.tacit {a : Act} (h : Meek a) : Tacit a := (Bool.or_eq_false_iff.1 h).1

theorem Meek.modest {a : Act} (h : Meek a) : Modest a :=
  Bool.or_eq_false_iff.2 ⟨h.tacit.still, (Bool.or_eq_false_iff.1 h).2⟩

theorem Still.unboxed {a : Act} (h : Still a) : Unboxed a := (Bool.or_eq_false_iff.1 h).2

theorem Mailing.plain {a : Act} (h : Mailing a) : Plain a := by
  cases a <;> first | rfl | cases h

theorem Mailing.acyclic {a : Act} (h : Mailing a) : a.cycles = false := by
  cases a <;> first | rfl | cases h

theorem Posting.mailing {a : Act} (h : Posting a) : Mailing a := (Bool.and_eq_true_iff.1 h).1

theorem Draining.posting {a : Act} (h : Draining a) : Posting a := by
  cases a <;> first | rfl | cases h

theorem Draining.mailing {a : Act} (h : Draining a) : Mailing a := h.posting.mailing

theorem uses_act {S : Act → Prop} {a : Act} (h : S a) : (act a).Uses S := Prog.uses_perform h

theorem plain_act {a : Act} (h : (a.marks || a.lifecycle || a.transfers) = false) :
    (act a).Uses Plain :=
  uses_act h

theorem blind_act {a : Act} (h : (a.marks || a.lifecycle || a.transfers || a.looks) = false) :
    (act a).Uses Blind :=
  uses_act h

theorem still_act {V : List Mutex → Prop} {a : Act}
    (h : (a.marks || a.lifecycle || a.transfers || a.boxes) = false) : (act a).Fits Still V :=
  Prog.fits_perform h

theorem modest_act {V : List Mutex → Prop} {a : Act}
    (h : (a.marks || a.lifecycle || a.transfers || a.boxes || a.cycles) = false) :
    (act a).Fits Modest V :=
  Prog.fits_perform h

theorem meek_act {V : List Mutex → Prop} {a : Act}
    (h : (a.marks || a.lifecycle || a.transfers || a.boxes || a.transmits || a.cycles) = false) :
    (act a).Fits Meek V :=
  Prog.fits_perform h

/-- Any mutexes. -/
def AnyLock (_ : List Mutex) : Prop := True

/-- The mutex of the mailbox counters. -/
def StatusLock (l : List Mutex) : Prop := l = [.mailboxStatus]

theorem Fits.still {V : List Mutex → Prop} {α : Type} {p : P α} (h : p.Fits Tacit V) :
    p.Fits Still V :=
  h.mono (fun _ => Tacit.still) fun _ => id

theorem Fits.ofModest {V : List Mutex → Prop} {α : Type} {p : P α} (h : p.Fits Modest V) :
    p.Fits Still V :=
  h.mono (fun _ => Modest.still) fun _ => id

theorem Fits.modest {V : List Mutex → Prop} {α : Type} {p : P α} (h : p.Fits Meek V) :
    p.Fits Modest V :=
  h.mono (fun _ => Meek.modest) fun _ => id

theorem Fits.tacit {V : List Mutex → Prop} {α : Type} {p : P α} (h : p.Fits Meek V) :
    p.Fits Tacit V :=
  h.mono (fun _ => Meek.tacit) fun _ => id

theorem Fits.plain {V : List Mutex → Prop} {α : Type} {p : P α} (h : p.Fits Still V) :
    p.Uses Plain :=
  h.uses.mono fun _ => Still.plain

/-! ## Common parts -/

theorem fits_stateIn {S : Act → Prop} {V : List Mutex → Prop} (hS : S .getBusState) :
    ∀ l, (stateIn l).Fits S V
  | [] => trivial
  | s :: l => by
    refine Prog.Fits.bind (Prog.fits_perform hS) fun state => ?_
    split
    · trivial
    · exact fits_stateIn hS l

section Common

variable {V : List Mutex → Prop}

theorem meek_stateIn (l : List BusState) : (stateIn l).Fits Meek V := fits_stateIn (S := Meek) rfl l

theorem modest_stateIn (l : List BusState) : (stateIn l).Fits Modest V := Fits.modest (meek_stateIn l)

theorem tacit_stateIn (l : List BusState) : (stateIn l).Fits Tacit V := Fits.tacit (meek_stateIn l)

theorem still_stateIn (l : List BusState) : (stateIn l).Fits Still V := Fits.still (tacit_stateIn l)

theorem plain_stateIn (l : List BusState) : (stateIn l).Uses Plain :=
  Fits.plain (still_stateIn (V := AnyLock) l)

theorem fits_crashUnless {S : Act → Prop} (c : Bool) : (crashUnless c).Fits S V :=
  Prog.fits_when trivial

theorem meek_hasDevice (id : DeviceId) : (hasDevice id).Fits Meek V :=
  (meek_act rfl).bind fun _ => trivial

theorem tacit_hasDevice (id : DeviceId) : (hasDevice id).Fits Tacit V := Fits.tacit (meek_hasDevice id)

theorem fits_hasDeviceOnBus {S : Act → Prop} (hS : S .slavecount) (id : DeviceId) :
    (hasDeviceOnBus id).Fits S V :=
  (Prog.fits_perform hS).bind fun _ => trivial

theorem meek_hasDeviceOnBus (id : DeviceId) : (hasDeviceOnBus id).Fits Meek V :=
  fits_hasDeviceOnBus (S := Meek) rfl id

theorem modest_hasDeviceOnBus (id : DeviceId) : (hasDeviceOnBus id).Fits Modest V :=
  Fits.modest (meek_hasDeviceOnBus id)

theorem tacit_hasDeviceOnBus (id : DeviceId) : (hasDeviceOnBus id).Fits Tacit V :=
  Fits.tacit (meek_hasDeviceOnBus id)

theorem still_hasDeviceOnBus (id : DeviceId) : (hasDeviceOnBus id).Fits Still V :=
  Fits.still (tacit_hasDeviceOnBus id)

theorem meek_slaveIds : slaveIds.Fits Meek V := (meek_act rfl).bind fun _ => trivial

theorem tacit_slaveIds : slaveIds.Fits Tacit V := Fits.tacit meek_slaveIds

theorem still_slaveIds : slaveIds.Fits Still V := Fits.still tacit_slaveIds

theorem plain_slaveIds : slaveIds.Uses Plain := Fits.plain (still_slaveIds (V := AnyLock))

theorem Uses.forDevices {S : Act → Prop} {l : Loop} {body : Addr → DeviceId → P Unit}
    (hl : S (.devices l)) (hd : ∀ p, S (.deref p)) (hb : ∀ p id, (body p id).Uses S) :
    (forDevices l body).Uses S := by
  refine (uses_act hl).bind fun devices => Prog.Uses.forEach (fun p => ?_) devices
  refine (uses_act (hd p)).bind fun r => ?_
  cases r with
  | none => trivial
  | some id => exact hb p id

theorem fits_setDeviceTargetState {S : Act → Prop} (hc : S .slavecount)
    (hs : ∀ id s, S (.setSlaveState id s)) (hw : ∀ id, S (.ecxWritestate id)) (id : DeviceId)
    (s : ℕ) : (setDeviceTargetState id s).Fits S AnyLock := by
  refine Prog.fits_withLock trivial ((fits_hasDeviceOnBus hc id).bind fun onBus => ?_)
  split
  · trivial
  · exact (Prog.fits_perform (hs id s)).bind fun _ => (Prog.fits_perform (hw id)).bind fun _ => trivial

theorem modest_setDeviceTargetState (id : DeviceId) (s : ℕ) :
    (setDeviceTargetState id s).Fits Modest AnyLock :=
  fits_setDeviceTargetState (S := Modest) rfl (fun _ _ => rfl) (fun _ => rfl) id s

theorem still_setDeviceTargetState (id : DeviceId) (s : ℕ) :
    (setDeviceTargetState id s).Fits Still AnyLock :=
  Fits.ofModest (modest_setDeviceTargetState id s)

theorem blind_setDeviceTargetState (id : DeviceId) (s : ℕ) :
    (setDeviceTargetState id s).Uses Blind :=
  (fits_setDeviceTargetState (S := Blind) rfl (fun _ _ => rfl) (fun _ => rfl) id s).uses

theorem plain_setDeviceTargetState (id : DeviceId) (s : ℕ) :
    (setDeviceTargetState id s).Uses Plain :=
  Fits.plain (still_setDeviceTargetState id s)

theorem modest_waitForDeviceTargetState (id : DeviceId) (s : ℕ) :
    (waitForDeviceTargetState id s).Fits Modest AnyLock :=
  Prog.fits_withLock trivial ((modest_act rfl).bind fun _ => trivial)

theorem still_waitForDeviceTargetState (id : DeviceId) (s : ℕ) :
    (waitForDeviceTargetState id s).Fits Still AnyLock :=
  Fits.ofModest (modest_waitForDeviceTargetState id s)

theorem plain_waitForDeviceTargetState (id : DeviceId) (s : ℕ) :
    (waitForDeviceTargetState id s).Uses Plain :=
  Fits.plain (still_waitForDeviceTargetState id s)

theorem meek_scanDevice (id : DeviceId) : (scanDevice id).Fits Meek V :=
  (meek_stateIn _).bind fun _ => Prog.fits_raiseIf.bind fun _ =>
    (meek_hasDeviceOnBus id).bind fun _ => Prog.fits_raiseIf.bind fun _ => meek_act rfl

theorem tacit_scanDevice (id : DeviceId) : (scanDevice id).Fits Tacit V := Fits.tacit (meek_scanDevice id)

theorem plain_scanDevice (id : DeviceId) : (scanDevice id).Uses Plain :=
  Fits.plain (Fits.still (tacit_scanDevice (V := AnyLock) id))

theorem meek_scan : scan.Fits Meek V := by
  refine (meek_stateIn _).bind fun _ => Prog.fits_raiseIf.bind fun _ => meek_slaveIds.bind
    fun ids => Prog.Fits.foldEach (fun result id => ?_) ids []
  exact (meek_act rfl).bind fun _ => trivial

theorem tacit_scan : scan.Fits Tacit V := Fits.tacit meek_scan

theorem fits_acquireDevice {S : Act → Prop} (hs : S .getBusState) (hf : ∀ id, S (.findDevice id))
    (ha : ∀ id, S (.acquire id)) (id : DeviceId) : (acquireDevice id).Fits S V := by
  have has : (hasDevice id).Fits S V := (Prog.fits_perform (hf id)).bind fun _ => trivial
  refine (fits_stateIn hs _).bind fun _ => Prog.fits_raiseIf.bind fun _ => has.bind fun _ =>
    Prog.fits_raiseIf.bind fun _ => (Prog.fits_perform (ha id)).bind fun r => ?_
  cases r <;> trivial

theorem meek_acquireDevice (id : DeviceId) : (acquireDevice id).Fits Meek V :=
  fits_acquireDevice (S := Meek) rfl (fun _ => rfl) (fun _ => rfl) id

theorem tacit_acquireDevice (id : DeviceId) : (acquireDevice id).Fits Tacit V :=
  Fits.tacit (meek_acquireDevice id)

end Common

theorem noThrow_hasDeviceOnBus (id : DeviceId) : (hasDeviceOnBus id).NoThrow :=
  Prog.noThrow_perform.bind fun _ => trivial

theorem noThrow_slaveIds : slaveIds.NoThrow := Prog.noThrow_perform.bind fun _ => trivial

theorem noThrow_crashUnless (c : Bool) : (crashUnless c).NoThrow := Prog.noThrow_when trivial

theorem noThrow_setDeviceTargetState (id : DeviceId) (s : ℕ) :
    (setDeviceTargetState id s).NoThrow := by
  refine Prog.noThrow_withLock ((noThrow_hasDeviceOnBus id).bind fun onBus => ?_)
  split
  · trivial
  · exact Prog.noThrow_perform.bind fun _ => Prog.noThrow_perform.bind fun _ => trivial

theorem noThrow_waitForDeviceTargetState (id : DeviceId) (s : ℕ) :
    (waitForDeviceTargetState id s).NoThrow :=
  Prog.noThrow_withLock (Prog.noThrow_perform.bind fun _ => trivial)

theorem noThrow_dcCorrection : (dcCorrection ps).NoThrow := by
  unfold dcCorrection
  split
  · refine Prog.noThrow_perform.bind fun b => ?_
    split
    · exact Prog.noThrow_perform.bind fun _ => (noThrow_crashUnless _).bind fun _ =>
        Prog.noThrow_perform.bind fun _ => trivial
    · trivial
  · trivial

theorem noThrow_exchange : (exchange ps).NoThrow :=
  Prog.noThrow_withLock (Prog.noThrow_perform.bind fun _ => Prog.noThrow_perform.bind fun _ =>
    Prog.noThrow_perform.bind fun _ => noThrow_dcCorrection.bind fun _ => trivial)

theorem noThrow_updateDiagnosticsFast (wkc e : ℤ) : (updateDiagnosticsFast ps wkc e).NoThrow := by
  refine Prog.noThrow_perform.bind fun _ => Prog.noThrow_perform.bind fun _ =>
    Prog.noThrow_perform.bind fun _ => Prog.noThrow_when (Prog.noThrow_perform.bind fun _ =>
      Prog.noThrow_when (Prog.noThrow_withLock (Prog.noThrow_perform.bind fun n =>
        Prog.NoThrow.forEach (fun i => ?_) _)))
  exact Prog.noThrow_perform.bind fun _ => noThrow_crashUnless _

/-! ## Mailbox -/

theorem posting_act {V : List Mutex → Prop} {a : Act} (h : (a.mails && !a.looks) = true) :
    (act a).Fits Posting V :=
  Prog.fits_perform h

theorem draining_act {V : List Mutex → Prop} {a : Act} (h : a.drains = true) :
    (act a).Fits Draining V :=
  Prog.fits_perform h

theorem Fits.posting {V : List Mutex → Prop} {α : Type} {p : P α} (h : p.Fits Draining V) :
    p.Fits Posting V :=
  h.mono (fun _ => Draining.posting) fun _ => id

theorem Fits.mailing {V : List Mutex → Prop} {α : Type} {p : P α} (h : p.Fits Posting V) :
    p.Fits Mailing V :=
  h.mono (fun _ => Posting.mailing) fun _ => id

theorem draining_reportMailboxEvent (ev : MailboxEvent) :
    (reportMailboxEvent ev).Fits Draining StatusLock :=
  Prog.fits_withLock rfl (draining_act rfl)

theorem draining_reportAny (event : Option MailboxEvent) :
    (reportAny event).Fits Draining StatusLock := by
  cases event
  · trivial
  · exact draining_reportMailboxEvent _

theorem draining_drainFor (acc : MailboxAccess) :
    ∀ n event, (drainFor acc n event).Fits Draining StatusLock
  | 0, _ => trivial
  | n + 1, event => by
    refine (draining_act rfl).bind fun r => ?_
    cases r with
    | none => trivial
    | some raw =>
      refine (draining_act rfl).bind fun now => ?_
      dsimp only
      split
      · exact draining_drainFor acc n _
      · exact (draining_reportMailboxEvent _).bind fun _ => draining_drainFor acc n _

theorem draining_drainMailboxEventsFor (acc : MailboxAccess) :
    (drainMailboxEventsFor acc).Fits Draining StatusLock :=
  (draining_act rfl).bind fun n => draining_drainFor acc (n + 1) none

theorem draining_drainAll : ∀ n, (drainAll n).Fits Draining StatusLock
  | 0 => trivial
  | n + 1 => by
    refine (draining_act rfl).bind fun r => ?_
    cases r with
    | none => trivial
    | some raw =>
      exact (draining_act rfl).bind fun _ =>
        (draining_reportMailboxEvent _).bind fun _ => draining_drainAll n

theorem draining_drainMailboxEvents : drainMailboxEvents.Fits Draining StatusLock :=
  (draining_act rfl).bind fun n => draining_drainAll (n + 1)

theorem posting_drainMailboxEvents : drainMailboxEvents.Fits Posting StatusLock :=
  Fits.posting draining_drainMailboxEvents

theorem mailing_drainMailboxEvents : drainMailboxEvents.Fits Mailing StatusLock :=
  Fits.mailing posting_drainMailboxEvents

theorem plain_drainMailboxEvents : drainMailboxEvents.Uses Plain :=
  mailing_drainMailboxEvents.uses.mono fun _ => Mailing.plain

theorem draining_finishMailboxAccess (acc : MailboxAccess) (wkc : ℤ) :
    (finishMailboxAccess acc wkc).Fits Draining StatusLock := by
  refine (draining_drainMailboxEventsFor acc).bind fun event => ?_
  split
  · exact (draining_act rfl).bind fun _ => (draining_reportMailboxEvent _).bind fun _ => trivial
  · trivial

theorem draining_finishFoeAccess (acc : MailboxAccess) (wkc : ℤ) :
    (finishFoeAccess acc wkc).Fits Draining StatusLock := by
  refine (draining_drainMailboxEventsFor acc).bind fun event => ?_
  split
  · trivial
  · exact (draining_reportAny event).bind fun _ => (draining_act rfl).bind fun _ =>
      (draining_reportMailboxEvent _).bind fun _ => trivial

/-! ## Accesses -/

theorem fits_checkAccess {S : Act → Prop} {V : List Mutex → Prop} (hs : S .getBusState)
    (hc : S .slavecount) (what : String) (id : DeviceId) : (checkAccess what id).Fits S V :=
  (fits_stateIn hs _).bind fun _ => Prog.fits_raiseIf.bind fun _ =>
    (fits_hasDeviceOnBus hc id).bind fun _ => Prog.fits_raiseIf

theorem modest_checkAccess {V : List Mutex → Prop} (what : String) (id : DeviceId) :
    (checkAccess what id).Fits Modest V :=
  fits_checkAccess (S := Modest) rfl rfl what id

/-- A section of the mailbox, around those that count an event. -/
def MailboxSection {α : Type} (p : P α) : Prop :=
  ∃ body : P α, p = Prog.withLock [.mailbox] body ∧ body.Fits Mailing StatusLock

/-- A section of the mailbox that begins with the checks of an access. -/
def AccessSection {α : Type} (p : P α) : Prop :=
  ∃ (what : String) (id : DeviceId) (rest : P α),
    p = Prog.withLock [.mailbox] ((checkAccess what id).bind fun _ => rest) ∧
      rest.Fits Mailing StatusLock

/-- The same, with nothing but the checks looking at the state of the bus. -/
def PostSection {α : Type} (p : P α) : Prop :=
  ∃ (what : String) (id : DeviceId) (rest : P α),
    p = Prog.withLock [.mailbox] ((checkAccess what id).bind fun _ => rest) ∧
      rest.Fits Posting StatusLock

theorem MailboxSection.plain {α : Type} {p : P α} (h : MailboxSection p) : p.Uses Plain := by
  obtain ⟨body, rfl, hb⟩ := h
  exact Prog.uses_withLock (hb.uses.mono fun _ => Mailing.plain)

theorem PostSection.access {α : Type} {p : P α} (h : PostSection p) : AccessSection p := by
  obtain ⟨what, id, rest, rfl, hr⟩ := h
  exact ⟨what, id, rest, rfl, Fits.mailing hr⟩

theorem AccessSection.mailbox {α : Type} {p : P α} (h : AccessSection p) : MailboxSection p := by
  obtain ⟨what, id, rest, rfl, hr⟩ := h
  exact ⟨_, rfl, (fits_checkAccess (S := Mailing) rfl rfl _ id).bind fun _ => hr⟩

theorem post_readSdoUntyped (n : ℕ) (id : DeviceId) (i s : ℕ) (c : Bool) :
    PostSection (readSdoUntyped n id i s c) := by
  refine ⟨_, id, _, rfl, posting_drainMailboxEvents.bind fun _ => (posting_act rfl).bind fun _ =>
    (Fits.posting (draining_finishMailboxAccess _ _)).bind fun finished => ?_⟩
  split
  · trivial
  · exact Prog.fits_raiseIf.bind fun _ => trivial

theorem post_writeSdoUntyped (data : List UInt8) (id : DeviceId) (i s : ℕ) :
    PostSection (writeSdoUntyped data id i s) :=
  ⟨_, id, _, rfl, posting_drainMailboxEvents.bind fun _ => (posting_act rfl).bind fun _ =>
    (Fits.posting (draining_finishMailboxAccess _ _)).bind fun _ => trivial⟩

theorem post_foeWrite (id : DeviceId) (f : String) (data : List UInt8) :
    PostSection (foeWrite id f data) :=
  ⟨_, id, _, rfl, posting_drainMailboxEvents.bind fun _ => (posting_act rfl).bind fun _ =>
    (Fits.posting (draining_finishFoeAccess _ _)).bind fun _ => trivial⟩

theorem post_foeRead (id : DeviceId) (f : String) (n : ℕ) : PostSection (foeRead id f n) := by
  refine ⟨_, id, _, rfl, posting_drainMailboxEvents.bind fun _ => (posting_act rfl).bind fun _ =>
    (Fits.posting (draining_finishFoeAccess _ _)).bind fun finished => ?_⟩
  split <;> trivial

theorem access_readSdoUntyped (n : ℕ) (id : DeviceId) (i s : ℕ) (c : Bool) :
    AccessSection (readSdoUntyped n id i s c) :=
  (post_readSdoUntyped n id i s c).access

theorem access_writeSdoUntyped (data : List UInt8) (id : DeviceId) (i s : ℕ) :
    AccessSection (writeSdoUntyped data id i s) :=
  (post_writeSdoUntyped data id i s).access

theorem access_foeWrite (id : DeviceId) (f : String) (data : List UInt8) :
    AccessSection (foeWrite id f data) :=
  (post_foeWrite id f data).access

theorem access_foeRead (id : DeviceId) (f : String) (n : ℕ) : AccessSection (foeRead id f n) :=
  (post_foeRead id f n).access

section Common

variable {V : List Mutex → Prop}

section Od

variable {S : Act → Prop} (hd : ∀ id i, S (.ecxReadODdescription id i)) (ho : ∀ id i, S (.ecxReadOE id i))

include ho in
theorem fits_expandEntry (id : DeviceId) (od : List ℕ) (obj : SDOEntry) :
    (expandEntry id od obj).Fits S V := by
  unfold expandEntry
  split
  · trivial
  · split
    · trivial
    · refine (Prog.fits_perform (ho _ _)).bind fun r => ?_
      cases r <;> trivial

include hd ho in
theorem fits_readOdFromDevice (hs : S .getBusState) (hc : S .slavecount) (hl : ∀ id, S (.ecxReadODlist id))
    (id : DeviceId) (fullRead : Bool) : (readOdFromDevice id fullRead).Fits S AnyLock := by
  refine (fits_stateIn hs _).bind fun _ => Prog.fits_raiseIf.bind fun _ =>
    (fits_hasDeviceOnBus hc id).bind fun _ => Prog.fits_raiseIf.bind fun _ =>
      Prog.fits_withLock trivial ((Prog.fits_perform (hl id)).bind fun r => ?_)
  cases r with
  | none => trivial
  | some od =>
    refine (Prog.Fits.foldEach (fun result x => ?_) _ _).bind fun result => ?_
    · exact ((Prog.fits_perform (hd _ _)).bind fun _ => trivial : (readOdEntry id x.1 x.2).Fits S _).bind
        fun _ => trivial
    · split
      · refine Prog.Fits.foldEach (fun expanded obj => ?_) _ _
        exact (fits_expandEntry ho id od obj).bind fun _ => trivial
      · trivial

end Od

theorem modest_readOdFromDevice (id : DeviceId) (fullRead : Bool) :
    (readOdFromDevice id fullRead).Fits Modest AnyLock :=
  fits_readOdFromDevice (S := Modest) (fun _ _ => rfl) (fun _ _ => rfl) rfl rfl (fun _ => rfl) id fullRead

theorem modest_readRegisterUntyped (n : ℕ) (id : DeviceId) (a : ℕ) :
    (readRegisterUntyped n id a).Fits Modest V :=
  (modest_checkAccess _ id).bind fun _ => Prog.fits_raiseIf.bind fun _ =>
    (modest_act rfl).bind fun _ => (modest_act rfl).bind fun _ => trivial

theorem modest_writeRegisterUntyped (data : List UInt8) (id : DeviceId) (a : ℕ) :
    (writeRegisterUntyped data id a).Fits Modest V :=
  (modest_checkAccess _ id).bind fun _ => Prog.fits_raiseIf.bind fun _ =>
    (modest_act rfl).bind fun _ => (modest_act rfl).bind fun _ => trivial

/-! ## Diagnostics -/

theorem fits_modest {S : Act → Prop} (hS : ∀ a, Modest a → S a) {α : Type} {p : P α}
    (h : p.Fits Modest V) : p.Fits S V :=
  h.mono hS fun _ => id

section Fast

variable {S : Act → Prop} (hS : ∀ a, Modest a → S a) (hc : ∀ wkc e, S (.countFrame wkc e))
  (hp : ∀ i, S (.publishSlave i))
include hS hc hp

theorem fits_updateDiagnosticsFast (wkc e : ℤ) :
    (updateDiagnosticsFast ps wkc e).Fits S AnyLock := by
  refine (fits_modest hS (modest_act rfl)).bind fun _ => (fits_modest hS (modest_act rfl)).bind fun _ =>
    (Prog.fits_perform (hc wkc e)).bind fun _ => Prog.fits_when ((fits_modest hS (modest_act rfl)).bind
      fun _ => Prog.fits_when (Prog.fits_withLock trivial ((fits_modest hS (modest_act rfl)).bind fun n =>
        Prog.Fits.forEach (fun i => ?_) _)))
  exact (Prog.fits_perform (hp i)).bind fun _ => fits_crashUnless _

end Fast

theorem still_updateDiagnosticsFast (wkc e : ℤ) :
    (updateDiagnosticsFast ps wkc e).Fits Still AnyLock :=
  fits_updateDiagnosticsFast (S := Still) (fun _ => Modest.still) (fun _ _ => rfl) (fun _ => rfl) wkc e

theorem plain_updateDiagnosticsFast (wkc e : ℤ) : (updateDiagnosticsFast ps wkc e).Uses Plain :=
  Fits.plain (still_updateDiagnosticsFast wkc e)

section Slow

variable {S : Act → Prop} (hS : ∀ a, Modest a → S a) (hs : ∀ i, S (.setCurrentSlave i))
  (hp : ∀ i ports, S (.publishPorts i ports)) (ht : ∀ i tp, S (.stampPorts i tp))
include hS

theorem fits_readSlavePortDiagnostics (adr : ℕ) : (readSlavePortDiagnostics adr).Fits S V :=
  (fits_modest hS (modest_act rfl)).bind fun _ => (fits_modest hS (modest_act rfl)).bind fun _ =>
    (fits_modest hS (modest_act rfl)).bind fun _ => trivial

include hs hp ht

theorem fits_updateDiagnosticsSlow : updateDiagnosticsSlow.Fits S AnyLock := by
  refine (fits_modest hS (modest_act rfl)).bind fun _ => (fits_modest hS (modest_act rfl)).bind fun _ =>
    (Prog.fits_when (Prog.fits_perform (hs 0))).bind fun _ => (fits_modest hS (modest_act rfl)).bind fun i =>
      (fits_modest hS (modest_act rfl)).bind fun adr => (fits_readSlavePortDiagnostics hS adr).bind fun ports => ?_
  refine (Prog.fits_withLock trivial ?_).bind fun _ => Prog.fits_perform (hs _)
  exact (Prog.fits_perform (hp i ports)).bind fun _ => (fits_crashUnless _).bind fun _ =>
    (fits_modest hS (modest_act rfl)).bind fun now => (Prog.fits_perform (ht i now)).bind fun _ => fits_crashUnless _

end Slow

theorem still_updateDiagnosticsSlow : updateDiagnosticsSlow.Fits Still AnyLock :=
  fits_updateDiagnosticsSlow (S := Still) (fun _ => Modest.still) (fun _ => rfl) (fun _ _ => rfl) fun _ _ => rfl

theorem plain_updateDiagnosticsSlow : updateDiagnosticsSlow.Uses Plain :=
  Fits.plain still_updateDiagnosticsSlow

section Forced

variable {S : Act → Prop} (hS : ∀ a, Modest a → S a) {f : Bool} (hr : f = true → ∀ a, a.reports = true → S a)
include hS hr

theorem fits_takeSnapshot : (takeSnapshot ps f).Fits S AnyLock := by
  unfold takeSnapshot
  split
  · next hf =>
    have reports : ∀ a, a.reports = true → S a := hr hf
    exact (fits_updateDiagnosticsFast hS (fun _ _ => reports _ rfl) (fun _ => reports _ rfl) 0 0).bind fun _ =>
      (fits_updateDiagnosticsSlow hS (fun _ => reports _ rfl) (fun _ _ => reports _ rfl)
        fun _ _ => reports _ rfl).bind fun _ => fits_modest hS (modest_act rfl)
  · exact fits_modest hS (Prog.fits_withLock trivial (modest_act rfl))

theorem fits_diagnostics : (diagnostics ps f).Fits S AnyLock := by
  refine (fits_modest hS (modest_stateIn _)).bind fun _ => Prog.fits_raiseIf.bind fun _ =>
    (Prog.fits_when ((fits_modest hS (modest_stateIn _)).bind fun _ => Prog.fits_raiseIf)).bind fun _ => ?_
  exact (fits_takeSnapshot hS hr).bind fun _ =>
    (fits_modest hS (Prog.fits_withLock trivial (modest_act rfl))).bind fun _ => trivial

end Forced

theorem Act.reports_still {a : Act} (h : a.reports = true) : Still a := by
  cases a <;> first | rfl | cases h

theorem still_takeSnapshot (f : Bool) : (takeSnapshot ps f).Fits Still AnyLock :=
  fits_takeSnapshot (S := Still) (fun _ => Modest.still) fun _ _ => Act.reports_still

theorem still_diagnostics (f : Bool) : (diagnostics ps f).Fits Still AnyLock :=
  fits_diagnostics (S := Still) (fun _ => Modest.still) fun _ _ => Act.reports_still

/-! ## Process data -/

theorem fits_checkPdoAccess {S : Act → Prop} (hs : S .getBusState) (hc : S .slavecount)
    (id : DeviceId) : (checkPdoAccess id).Fits S V :=
  (fits_stateIn hs _).bind fun _ => Prog.fits_raiseIf.bind fun _ =>
    (fits_hasDeviceOnBus hc id).bind fun _ => Prog.fits_raiseIf

theorem uses_checkPdoAccess {S : Act → Prop} (hs : S .getBusState) (hc : S .slavecount)
    (id : DeviceId) : (checkPdoAccess id).Uses S :=
  (fits_checkPdoAccess (V := AnyLock) hs hc id).uses

theorem plain_checkPdoAccess (id : DeviceId) : (checkPdoAccess id).Uses Plain :=
  uses_checkPdoAccess (S := Plain) rfl rfl id

theorem fits_dcCorrection {S : Act → Prop} (hS : ∀ a, Modest a → S a) (ht : S .dcTime)
    (hu : ∀ c o t, S (.dcSyncUpdate c o t)) : (dcCorrection ps).Fits S V := by
  unfold dcCorrection
  split
  · refine (fits_modest hS (modest_act rfl)).bind fun b => ?_
    split
    · exact (Prog.fits_perform ht).bind fun _ => (fits_crashUnless _).bind fun _ =>
        (Prog.fits_perform (hu _ _ _)).bind fun _ => trivial
    · trivial
  · trivial

theorem still_dcCorrection : (dcCorrection ps).Fits Still V :=
  fits_dcCorrection (S := Still) (fun _ => Modest.still) rfl fun _ _ _ => rfl

end Common

theorem plain_dcCorrection : (dcCorrection ps).Uses Plain :=
  Fits.plain (still_dcCorrection (V := AnyLock))

/-! The actions that touch the process image come on top of the plain ones. -/

section Fits

variable {S : Act → Prop} {V : List Mutex → Prop}

section Copies

variable (hS : ∀ a, Meek a → S a) (hV : V [.pdoUpdate])
include hS

theorem fits_meek {α : Type} {p : P α} (h : p.Fits Meek V) : p.Fits S V := h.mono hS fun _ => id

include hV

theorem fits_readRxPdo (id : DeviceId) (hc : ∀ n, S (.copyFromOutputs id n)) :
    (readRxPdo id).Fits S V :=
  (fits_meek hS (fits_checkPdoAccess (S := Meek) rfl rfl id)).bind fun _ =>
    (fits_meek hS (meek_act rfl)).bind fun n =>
      Prog.fits_withLock hV ((Prog.fits_perform (hc n)).bind fun _ => trivial)

theorem fits_writeRxPdo (id : DeviceId) (data : List UInt8) (hc : S (.copyToOutputs id data)) :
    (writeRxPdo id data).Fits S V :=
  (fits_meek hS (fits_checkPdoAccess (S := Meek) rfl rfl id)).bind fun _ =>
    (fits_meek hS (meek_act rfl)).bind fun _ => Prog.fits_raiseIf.bind fun _ =>
      Prog.fits_withLock hV ((Prog.fits_perform hc).bind fun _ => trivial)

theorem fits_readTxPdo (id : DeviceId) (n : ℕ) (hc : ∀ n, S (.copyFromInputs id n)) :
    (readTxPdo id n).Fits S V :=
  (fits_meek hS (fits_checkPdoAccess (S := Meek) rfl rfl id)).bind fun _ =>
    (fits_meek hS (meek_act rfl)).bind fun n => Prog.fits_raiseIf.bind fun _ =>
      Prog.fits_withLock hV ((Prog.fits_perform (hc n)).bind fun _ => trivial)

end Copies

section Updates

variable (hS : ∀ a, Modest a → S a) (hV : V [.pdoUpdate])
include hS hV

theorem fits_exchange (hx : ∀ a, a.swaps = true → S a) : (exchange ps).Fits S V :=
  Prog.fits_withLock hV ((Prog.fits_perform (hx _ rfl)).bind fun _ =>
    (Prog.fits_perform (hx _ rfl)).bind fun _ => (Prog.fits_perform (hx _ rfl)).bind fun _ =>
      (fits_dcCorrection hS (hx _ rfl) fun _ _ _ => hx _ rfl).bind fun _ => trivial)

/-- The update of a device is a section, around the one of the process image. -/
theorem updateWrite_section (p : Addr) (tp : ℤ) (hc : ∀ id data, S (.copyToOutputs id data)) :
    ∃ body : P Unit, updateWrite p tp = Prog.withLock [.device p] body ∧ body.Fits S V := by
  refine ⟨_, rfl, (fits_modest hS (modest_act rfl)).bind fun _ => (fits_crashUnless _).bind fun _ => ?_⟩
  refine (fits_modest hS (modest_act rfl)).bind fun id => (fits_modest hS (modest_act rfl)).bind fun rx => ?_
  exact (fits_writeRxPdo (fun a h => hS a h.modest) hV id rx (hc id rx)).bind fun _ =>
    fits_modest hS (modest_act rfl)

theorem updateRead_section (p : Addr) (tp : ℤ) (hc : ∀ id n, S (.copyFromInputs id n))
    (hx : ∀ data, S (.setTxPdo p data)) :
    ∃ body : P Unit, updateRead p tp = Prog.withLock [.device p] body ∧ body.Fits S V := by
  refine ⟨_, rfl, (fits_modest hS (modest_act rfl)).bind fun _ => (fits_crashUnless _).bind fun _ => ?_⟩
  refine (fits_modest hS (modest_act rfl)).bind fun id => (fits_modest hS (modest_act rfl)).bind fun n => ?_
  exact (fits_readTxPdo (fun a h => hS a h.modest) hV id n (hc id)).bind fun data =>
    (Prog.fits_perform (hx data)).bind fun _ => fits_modest hS (modest_act rfl)

end Updates

end Fits

theorem uses_plain {S : Act → Prop} (hS : ∀ a, Plain a → S a) {α : Type} {p : P α}
    (h : p.Uses Plain) : p.Uses S :=
  h.mono hS

section Transfers

variable {S : Act → Prop} (hS : ∀ a, Still a → S a)
include hS

theorem uses_still {α : Type} {p : P α} (h : p.Fits Still AnyLock) : p.Uses S := (h.mono hS fun _ => id).uses

theorem uses_readRxPdo (id : DeviceId) (hc : ∀ n, S (.copyFromOutputs id n)) :
    (readRxPdo id).Uses S :=
  (fits_readRxPdo (V := AnyLock) (fun a h => hS a h.modest.still) trivial id hc).uses

theorem uses_writeRxPdo (id : DeviceId) (data : List UInt8) (hc : S (.copyToOutputs id data)) :
    (writeRxPdo id data).Uses S :=
  (fits_writeRxPdo (V := AnyLock) (fun a h => hS a h.modest.still) trivial id data hc).uses

theorem uses_readTxPdo (id : DeviceId) (n : ℕ) (hc : ∀ n, S (.copyFromInputs id n)) :
    (readTxPdo id n).Uses S :=
  (fits_readTxPdo (V := AnyLock) (fun a h => hS a h.modest.still) trivial id n hc).uses

theorem uses_updateWrite (p : Addr) (tp : ℤ) (hc : ∀ id data, S (.copyToOutputs id data)) :
    (updateWrite p tp).Uses S := by
  obtain ⟨body, hu, hb⟩ := updateWrite_section (V := AnyLock) (fun a h => hS a h.still) trivial p tp hc
  rw [hu]
  exact Prog.uses_withLock hb.uses

theorem uses_updateRead (p : Addr) (tp : ℤ) (hc : ∀ id n, S (.copyFromInputs id n))
    (hx : ∀ data, S (.setTxPdo p data)) : (updateRead p tp).Uses S := by
  obtain ⟨body, hu, hb⟩ :=
    updateRead_section (V := AnyLock) (fun a h => hS a h.still) trivial p tp hc hx
  rw [hu]
  exact Prog.uses_withLock hb.uses

/-- The exchange transfers, apart from its working counters and its clock. -/
theorem uses_swaps (ht : ∀ a, a.conveys = true → S a) (a : Act) (ha : a.swaps = true) : S a := by
  cases a <;> first | exact ht _ rfl | exact hS _ rfl | cases ha

theorem uses_internalPdoUpdate (ht : ∀ a, a.conveys = true → S a) :
    (internalPdoUpdate ps).Uses S := by
  refine (uses_still hS (still_act rfl)).bind fun now => ?_
  refine Prog.Uses.bind (Uses.forDevices (l := .updateWrite) (hS _ rfl) (fun _ => hS _ rfl)
    fun p _ => uses_updateWrite hS p now fun _ _ => ht _ rfl) fun _ => ?_
  refine (fits_exchange (V := AnyLock) (fun a h => hS a h.still) trivial (uses_swaps hS ht)).uses.bind
    fun _ => ?_
  refine Prog.Uses.bind (Uses.forDevices (l := .updateRead) (hS _ rfl) (fun _ => hS _ rfl)
    fun p _ => uses_updateRead hS p now (fun _ _ => ht _ rfl) fun _ => ht _ rfl) fun _ => ?_
  exact (Prog.uses_when (uses_still hS (still_updateDiagnosticsFast _ _))).bind fun _ => trivial

theorem uses_updateRt (ht : ∀ a, a.conveys = true → S a) : (updateRt ps).Uses S :=
  (uses_still hS (still_stateIn _)).bind fun _ => Prog.uses_raiseIf.bind fun _ =>
    uses_internalPdoUpdate hS ht

end Transfers

/-! ## Hooks -/

theorem uses_callbacks {S : Act → Prop} {h : Hook} (hl : S (.devices (.callback h)))
    (hd : ∀ p, S (.deref p)) (hc : ∀ p, S (.callback h p)) (hh : ∀ p, (hk.hook h p).Uses S) :
    (forDevices (.callback h) fun p _ => onCallback hk h p).Uses S :=
  Uses.forDevices hl hd fun p _ => (uses_act (hc p)).bind fun _ => hh p

/-! ## `startup` -/

theorem uses_setupDc {S : Act → Prop} (hS : ∀ a, Still a → S a) (hc : ∀ id, S (.captureDc id))
    (hd : ∀ id c x, S (.ecxDcsync0 id c x)) : (setupDc ps).Uses S := by
  refine (uses_still hS still_slaveIds).bind fun ids =>
    (Prog.Uses.forEach (fun id => (uses_act (hc id)).bind fun _ => ?_) ids).bind fun _ => ?_
  · exact Prog.uses_when trivial
  · refine Prog.uses_when ((uses_still hS still_slaveIds).bind fun ids =>
      Prog.Uses.forEach (fun id => ?_) ids)
    exact (uses_act (hS (.hasdc id) rfl)).bind fun _ => Prog.uses_when (uses_act (hd id _ _))

/-! ## `update_service` -/

theorem uses_updateDeviceStates {S : Act → Prop} (h : S .ecxReadstate) :
    updateDeviceStates.Uses S :=
  Prog.uses_withLock ((uses_act h).bind fun _ => trivial)

theorem uses_allInOperational {S : Act → Prop} (hl : S (.devices .allInOperational))
    (hd : ∀ p, S (.deref p)) (hs : ∀ id, S (.slaveState id)) : allInOperational.Uses S := by
  refine (uses_act hl).bind fun l => Prog.Uses.foldEach (fun all p => ?_) l true
  refine (uses_act (hd p)).bind fun r => ?_
  cases r with
  | none => trivial
  | some id =>
    refine Prog.Uses.bind (p := getDeviceState id) ?_ fun _ => trivial
    exact Prog.uses_withLock ((uses_act (hs id)).bind fun _ => trivial)

theorem fits_operationalTimeout {S : Act → Prop} {V : List Mutex → Prop} (hn : S .now)
    (ha : S .activationStartTp) : (operationalTimeout ps).Fits S V := by
  unfold operationalTimeout
  split
  · refine (Prog.fits_perform hn).bind fun _ => (Prog.fits_perform ha).bind fun r => ?_
    cases r <;> trivial
  · trivial

theorem blind_operationalTimeout : (operationalTimeout ps).Uses Blind :=
  (fits_operationalTimeout (S := Blind) (V := AnyLock) rfl rfl).uses

theorem plain_operationalTimeout : (operationalTimeout ps).Uses Plain :=
  Fits.plain (fits_operationalTimeout (S := Still) (V := AnyLock) rfl rfl)

theorem noThrow_forDevices {l : Loop} {body : Addr → DeviceId → P Unit}
    (hb : ∀ p id, (body p id).NoThrow) : (forDevices l body).NoThrow := by
  refine Prog.noThrow_perform.bind fun devices => Prog.NoThrow.forEach (fun p => ?_) devices
  refine Prog.noThrow_perform.bind fun r => ?_
  cases r with
  | none => trivial
  | some id => exact hb p id

theorem noThrow_updateDeviceStates : updateDeviceStates.NoThrow :=
  Prog.noThrow_withLock (Prog.noThrow_perform.bind fun _ => trivial)

theorem noThrow_allInOperational : allInOperational.NoThrow := by
  refine Prog.noThrow_perform.bind fun l => Prog.NoThrow.foldEach (fun all p => ?_) l true
  refine Prog.noThrow_perform.bind fun r => ?_
  cases r with
  | none => trivial
  | some id =>
    refine Prog.NoThrow.bind (p := getDeviceState id) ?_ fun _ => trivial
    exact Prog.noThrow_withLock (Prog.noThrow_perform.bind fun _ => trivial)

theorem noThrow_drainAll : ∀ n, (drainAll n).NoThrow
  | 0 => trivial
  | n + 1 => by
    refine Prog.noThrow_perform.bind fun r => ?_
    cases r with
    | none => trivial
    | some raw =>
      exact Prog.noThrow_perform.bind fun now => Prog.NoThrow.bind (p := reportMailboxEvent _)
        (Prog.noThrow_withLock Prog.noThrow_perform) fun _ => noThrow_drainAll n

theorem noThrow_drainMailboxEvents : drainMailboxEvents.NoThrow :=
  Prog.noThrow_perform.bind fun n => noThrow_drainAll (n + 1)

theorem noThrow_updateDiagnosticsSlow : updateDiagnosticsSlow.NoThrow := by
  refine Prog.noThrow_perform.bind fun _ => Prog.noThrow_perform.bind fun _ =>
    (Prog.noThrow_when Prog.noThrow_perform).bind fun _ => Prog.noThrow_perform.bind fun i =>
      Prog.noThrow_perform.bind fun adr => Prog.NoThrow.bind (p := readSlavePortDiagnostics adr) ?_ fun _ => ?_
  · exact Prog.noThrow_perform.bind fun _ => Prog.noThrow_perform.bind fun _ =>
      Prog.noThrow_perform.bind fun _ => trivial
  · refine (Prog.noThrow_withLock ?_).bind fun _ => Prog.noThrow_perform
    exact Prog.noThrow_perform.bind fun _ => (noThrow_crashUnless _).bind fun _ =>
      Prog.noThrow_perform.bind fun _ => Prog.noThrow_perform.bind fun _ => noThrow_crashUnless _

theorem noThrow_backgroundDiagnostics : (backgroundDiagnostics ps).NoThrow :=
  Prog.noThrow_when (noThrow_updateDeviceStates.bind fun _ => Prog.noThrow_when noThrow_updateDiagnosticsSlow)

/-! ## `shutdown` -/

/-- The actions `shutdown` adds to those of the hooks. -/
theorem uses_shutdown {S : Act → Prop} (hp : ∀ a, Plain a → S a) (hs : ∀ s, S (.updateBusState s))
    (hl : ∀ h, S (.devices (.callback h))) (hc : ∀ h p, S (.callback h p)) (hd : S .clearDevices)
    (he : S .ecxClose) (hh : ∀ h p, (hk.hook h p).Uses S) : (shutdown hk).Uses S := by
  have stateIn : ∀ l, (stateIn l).Uses S := fun l => (plain_stateIn l).mono hp
  have callbacks : ∀ h, (forDevices (.callback h) fun p _ => onCallback hk h p).Uses S := fun h =>
    uses_callbacks (hl h) (fun _ => hp _ rfl) (hc h) (hh h)
  refine (stateIn _).bind fun b => ?_
  split
  · trivial
  refine (stateIn _).bind fun b => ?_
  split
  · exact uses_act (hs .shutdown)
  refine (stateIn _).bind fun b => ?_
  split
  · exact Prog.uses_withLock ((uses_act hd).bind fun _ => (uses_act (hs .shutdown)).bind fun _ => uses_act he)
  refine (stateIn _).bind fun b => ?_
  split
  · refine (uses_act (hs .shuttingDown)).bind fun _ => (callbacks .onPreShutdown).bind fun _ => ?_
    refine ((plain_setDeviceTargetState _ _).mono hp).bind fun _ =>
      ((plain_waitForDeviceTargetState _ _).mono hp).bind fun _ => Prog.Uses.bind (p := closeRunning) ?_ fun _ =>
        (callbacks .onPostShutdown).bind fun _ => uses_act hd
    exact Prog.uses_withLock ((uses_act he).bind fun _ => uses_act (hs .shutdown))
  · trivial

/-! ## Operations -/

theorem modest_changeDeviceState (id : DeviceId) (s : EthercatDeviceState) (b : Bool) :
    (changeDeviceState id s b).Fits Modest AnyLock := by
  refine (modest_setDeviceTargetState id _).bind fun res => ?_
  split
  · trivial
  · exact modest_waitForDeviceTargetState id _

theorem still_changeDeviceState (id : DeviceId) (s : EthercatDeviceState) (b : Bool) :
    (changeDeviceState id s b).Fits Still AnyLock :=
  Fits.ofModest (modest_changeDeviceState id s b)

theorem meek_getGenericRxPdo (p : Addr) (n : ℕ) : (getGenericRxPdo p n).Fits Meek AnyLock :=
  (meek_act rfl).bind fun _ => Prog.fits_raiseIf.bind fun _ => (meek_act rfl).bind fun _ =>
    Prog.fits_raiseIf.bind fun _ => Prog.fits_withLock trivial (meek_act rfl)

theorem tacit_getGenericRxPdo (p : Addr) (n : ℕ) : (getGenericRxPdo p n).Fits Tacit AnyLock :=
  Fits.tacit (meek_getGenericRxPdo p n)

theorem fits_setGenericRxPdo {S : Act → Prop} {V : List Mutex → Prop} (hS : ∀ a, Meek a → S a)
    {p : Addr} (hV : V [.device p]) {rx : List UInt8} (hx : S (.setRxPdo p rx)) :
    (setGenericRxPdo p rx).Fits S V :=
  (fits_meek hS (meek_act rfl)).bind fun _ => Prog.fits_raiseIf.bind fun _ =>
    (fits_meek hS (meek_act rfl)).bind fun _ => Prog.fits_raiseIf.bind fun _ =>
      Prog.fits_withLock hV (Prog.fits_perform hx)

theorem meek_getGenericTxPdo (p : Addr) (n : ℕ) : (getGenericTxPdo p n).Fits Meek AnyLock :=
  (meek_act rfl).bind fun _ => Prog.fits_raiseIf.bind fun _ => (meek_act rfl).bind fun _ =>
    Prog.fits_raiseIf.bind fun _ => Prog.fits_withLock trivial (meek_act rfl)

theorem tacit_getGenericTxPdo (p : Addr) (n : ℕ) : (getGenericTxPdo p n).Fits Tacit AnyLock :=
  Fits.tacit (meek_getGenericTxPdo p n)

theorem Fits.void {S : Act → Prop} {V : List Mutex → Prop} {α : Type} {p : P α} (h : p.Fits S V) :
    (EthercatInterface.void p).Fits S V :=
  h.bind fun _ => trivial

theorem Uses.void {S : Act → Prop} {α : Type} {p : P α} (h : p.Uses S) :
    (EthercatInterface.void p).Uses S :=
  h.bind fun _ => trivial

/-- The operations that reach the process image, or fill a buffer of a device. -/
def Op.transfers : Op → Bool
  | .readRxPdo _ | .writeRxPdo _ _ | .readTxPdo _ _ | .updateRt | .setGenericRxPdo _ _ => true
  | _ => false

/-- Goes through sequencing, and holds of the mailbox accesses, of the diagnostics and of the
programs that stay away from the mailbox, the lifecycle, the process image and the exchange. -/
structure Woven (ps : Parameters) (F : ∀ {α : Type}, P α → Prop) : Prop where
  bind : ∀ {α β : Type} {p : P β} {f : β → P α}, F p → (∀ x, F (f x)) → F (p.bind f)
  attempt : ∀ {α : Type} {p : P α}, F p → F p.attempt
  modest : ∀ {α : Type} {p : P α}, p.Fits Modest AnyLock → F p
  diagnostics : ∀ f, F (diagnostics ps f)
  readSdoUntyped : ∀ n id i s c, F (readSdoUntyped n id i s c)
  writeSdoUntyped : ∀ data id i s, F (writeSdoUntyped data id i s)
  foeWrite : ∀ id f data, F (foeWrite id f data)
  foeRead : ∀ id f n, F (foeRead id f n)

section Woven

variable {F : ∀ {α : Type}, P α → Prop} (hF : Woven ps F)
include hF

theorem Woven.void {α : Type} {p : P α} (hp : F p) : F (EthercatInterface.void p) :=
  hF.bind hp fun _ => hF.modest trivial

theorem Woven.throughBus {α : Type} (p : Addr) {k : DeviceId → P α} (hk : ∀ id, F (k id)) :
    F (throughBus p k) := by
  refine hF.bind (hF.modest (modest_act rfl)) fun _ => hF.bind (hF.modest Prog.fits_raiseIf) fun _ => ?_
  refine hF.bind (hF.modest (modest_act rfl)) fun _ => hF.bind (hF.modest (fits_crashUnless _)) fun _ => ?_
  exact hF.bind (hF.modest (modest_act rfl)) hk

/-- **The operations outside the lifecycle and the process image**, with the callback they
may end with. -/
theorem Woven.body (o : Op) (hl : o.lifecycle = false) (ht : o.transfers = false)
    (hr : ∀ r, F (hk.sdoReadCallback r)) (hw : ∀ r, F (hk.sdoWriteCallback r)) :
    F (o.body ps hk) := by
  -- what goes through a device is the operation of its bus, after two checks
  cases o with
  | initializeBus => cases hl
  | startup => cases hl
  | activate => cases hl
  | shutdown => cases hl
  | updateService => cases hl
  | destroyBus => cases hl
  | readRxPdo id => cases ht
  | writeRxPdo id data => cases ht
  | readTxPdo id n => cases ht
  | updateRt => cases ht
  | setGenericRxPdo p rx => cases ht
  | acquireDevice id => exact hF.modest (Fits.void (Fits.modest (meek_acquireDevice id)))
  | scan => exact hF.modest (Fits.void (Fits.modest meek_scan))
  | scanDevice id => exact hF.modest (Fits.void (Fits.modest (meek_scanDevice id)))
  | readOd id f => exact hF.modest (Fits.void (modest_readOdFromDevice id f))
  | hasDevice id => exact hF.modest (Fits.void (Fits.modest (meek_hasDevice id)))
  | hasDeviceOnBus id => exact hF.modest (Fits.void (modest_hasDeviceOnBus id))
  | readSdoUntyped n id i s c => exact hF.void (hF.readSdoUntyped n id i s c)
  | readSdoUntypedAsync n id i s c => exact hF.bind (hF.readSdoUntyped n id i s c) hr
  | writeSdoUntyped data id i s => exact hF.void (hF.writeSdoUntyped data id i s)
  | writeSdoUntypedAsync data id i s => exact hF.bind (hF.writeSdoUntyped data id i s) hw
  | changeDeviceState id s b => exact hF.modest (Fits.void (modest_changeDeviceState id s b))
  | foeWrite id f data => exact hF.void (hF.foeWrite id f data)
  | foeRead id f n => exact hF.void (hF.foeRead id f n)
  | readRegisterUntyped n id a => exact hF.modest (Fits.void (modest_readRegisterUntyped n id a))
  | writeRegisterUntyped data id a =>
    exact hF.modest (Fits.void (modest_writeRegisterUntyped data id a))
  | diagnostics f => exact hF.void (hF.diagnostics f)
  | deviceSdoRead p n i s c => exact hF.void (hF.throughBus p fun id => hF.readSdoUntyped n id i s c)
  | deviceSdoWrite p data i s =>
    exact hF.void (hF.throughBus p fun id => hF.writeSdoUntyped data id i s)
  | deviceReadOd p f =>
    exact hF.void (hF.throughBus p fun id => hF.modest (modest_readOdFromDevice id f))
  | deviceChangeDeviceState p s b =>
    exact hF.void (hF.throughBus p fun id => hF.modest (modest_changeDeviceState id s b))
  | deviceFoeWrite p f data => exact hF.void (hF.throughBus p fun id => hF.foeWrite id f data)
  | deviceFoeRead p f n => exact hF.void (hF.throughBus p fun id => hF.foeRead id f n)
  | getGenericRxPdo p n => exact hF.modest (Fits.void (Fits.modest (meek_getGenericRxPdo p n)))
  | getGenericTxPdo p n => exact hF.modest (Fits.void (Fits.modest (meek_getGenericTxPdo p n)))
  | releaseDevice p => exact hF.modest (modest_act rfl)

theorem Woven.invoke {o : Op} (hc : F (act (.call o))) (hd : ∀ b, F (act (.done o b)))
    (hb : F (o.body ps hk)) : F (o.invoke ps hk) := by
  refine hF.bind hc fun _ => hF.bind (hF.attempt hb) fun r => ?_
  cases r with
  | ok x => exact hd true
  | error e => exact hF.bind (hd false) fun _ => hF.modest trivial

/-- **Code of users.** -/
theorem Woven.user (hm : ∀ o : Op, o.lifecycle = false →
      F (act (.call o)) ∧ ∀ b, F (act (.done o b)))
    (ht : ∀ (o : Op) hk, o.transfers = true → F (o.invoke ps hk)) {p : P Unit}
    (h : User ps p) : F p := by
  induction h with
  | ret => exact hF.modest trivial
  | throw e => exact hF.modest trivial
  | decide _ ih => exact hF.bind (hF.modest (modest_act rfl)) ih
  | @call o hk k hl _ _ _ ihr ihw ihk =>
    refine hF.bind (hF.attempt ?_) ihk
    by_cases hot : o.transfers = true
    · exact ht o hk hot
    · exact hF.invoke (hm o hl).1 (hm o hl).2 (hF.body o hl (by simpa using hot) ihr ihw)

end Woven

/-- Goes through sequencing, and holds of the mailbox accesses and of the programs that
stay away from the mailbox, the lifecycle and the process image. -/
structure Boxed (F : ∀ {α : Type}, P α → Prop) : Prop where
  bind : ∀ {α β : Type} {p : P β} {f : β → P α}, F p → (∀ x, F (f x)) → F (p.bind f)
  attempt : ∀ {α : Type} {p : P α}, F p → F p.attempt
  still : ∀ {α : Type} {p : P α}, p.Fits Still AnyLock → F p
  readSdoUntyped : ∀ n id i s c, F (readSdoUntyped n id i s c)
  writeSdoUntyped : ∀ data id i s, F (writeSdoUntyped data id i s)
  foeWrite : ∀ id f data, F (foeWrite id f data)
  foeRead : ∀ id f n, F (foeRead id f n)

section Boxed

variable {F : ∀ {α : Type}, P α → Prop} (hF : Boxed F)
include hF

theorem Boxed.woven (ps : Parameters) : Woven ps F where
  bind := hF.bind
  attempt := hF.attempt
  modest h := hF.still (Fits.ofModest h)
  diagnostics f := hF.still (still_diagnostics f)
  readSdoUntyped := hF.readSdoUntyped
  writeSdoUntyped := hF.writeSdoUntyped
  foeWrite := hF.foeWrite
  foeRead := hF.foeRead

theorem Boxed.void {α : Type} {p : P α} (hp : F p) : F (EthercatInterface.void p) :=
  hF.bind hp fun _ => hF.still trivial

theorem Boxed.body (o : Op) (hl : o.lifecycle = false) (ht : o.transfers = false)
    (hr : ∀ r, F (hk.sdoReadCallback r)) (hw : ∀ r, F (hk.sdoWriteCallback r)) :
    F (o.body ps hk) :=
  (hF.woven ps).body o hl ht hr hw

theorem Boxed.invoke {o : Op} (hc : F (act (.call o))) (hd : ∀ b, F (act (.done o b)))
    (hb : F (o.body ps hk)) : F (o.invoke ps hk) :=
  (hF.woven ps).invoke hc hd hb

theorem User.holds (hm : ∀ o : Op, o.lifecycle = false →
      F (act (.call o)) ∧ ∀ b, F (act (.done o b)))
    (ht : ∀ (o : Op) hk, o.transfers = true → F (o.invoke ps hk)) {p : P Unit}
    (h : User ps p) : F p :=
  (hF.woven ps).user hm ht h

end Boxed

/-- The mailbox accesses are plain. -/
theorem Boxed.of_plain {F : ∀ {α : Type}, P α → Prop}
    (hb : ∀ {α β : Type} {p : P β} {f : β → P α}, F p → (∀ x, F (f x)) → F (p.bind f))
    (ha : ∀ {α : Type} {p : P α}, F p → F p.attempt)
    (hp : ∀ {α : Type} {p : P α}, p.Uses Plain → F p) : Boxed F where
  bind := hb
  attempt := ha
  still h := hp (Fits.plain h)
  readSdoUntyped n id i s c := hp (access_readSdoUntyped n id i s c).mailbox.plain
  writeSdoUntyped data id i s := hp (access_writeSdoUntyped data id i s).mailbox.plain
  foeWrite id f data := hp (access_foeWrite id f data).mailbox.plain
  foeRead id f n := hp (access_foeRead id f n).mailbox.plain

theorem boxed_calm : Boxed fun p => p.Uses Calm :=
  .of_plain Prog.Uses.bind Prog.Uses.attempt (uses_plain fun _ => Plain.calm)

theorem calm_body (o : Op) (hl : o.lifecycle = false) (hr : ∀ r, (hk.sdoReadCallback r).Uses Calm)
    (hw : ∀ r, (hk.sdoWriteCallback r).Uses Calm) : (o.body ps hk).Uses Calm := by
  by_cases ht : o.transfers = false
  · exact boxed_calm.body o hl ht hr hw
  · have still : ∀ a, Still a → Calm a := fun _ h => h.plain.calm
    have calm : ∀ a : Act, a.conveys = true → Calm a := fun a ha => by cases a <;> cases ha <;> rfl
    cases o with
    | readRxPdo id => exact Uses.void (uses_readRxPdo still id fun _ => rfl)
    | writeRxPdo id data => exact uses_writeRxPdo still id data rfl
    | readTxPdo id n => exact Uses.void (uses_readTxPdo still id n fun _ => rfl)
    | updateRt => exact Uses.void (uses_updateRt still calm)
    | setGenericRxPdo p rx =>
      exact (fits_setGenericRxPdo (V := AnyLock) (fun a h => still a h.modest.still) trivial rfl).uses
    | _ => exact absurd rfl ht

/-- A call performs its body and two markers. -/
theorem Uses.invoke {S : Act → Prop} {o : Op} (hc : S (.call o)) (hd : ∀ b, S (.done o b))
    (hb : (o.body ps hk).Uses S) : (o.invoke ps hk).Uses S := by
  refine (uses_act hc).bind fun _ => hb.attempt.bind fun r => ?_
  cases r with
  | ok x => exact uses_act (hd true)
  | error e => exact (uses_act (hd false)).bind fun _ => trivial

/-- **Code of users stays outside the lifecycle.** -/
theorem User.calm {p : P Unit} (h : User ps p) : p.Uses Calm := by
  induction h with
  | ret => trivial
  | throw e => trivial
  | decide _ ih => exact Prog.Uses.bind (uses_act rfl) ih
  | call hl _ _ _ ihr ihw ihk =>
    exact (Uses.invoke hl (fun _ => hl) (calm_body _ hl ihr ihw)).attempt.bind ihk

/-- Calm actions do not store. -/
theorem Calm.stored {a : Act} (h : Calm a) : stored a = none := by
  cases a <;> first | rfl | cases h

/-- The callbacks do not either. -/
theorem stores_callbacks (hok : hk.Ok ps) (h : Hook) :
    (forDevices (.callback h) fun p _ => onCallback hk h p).Uses fun a => stored a = none :=
  uses_callbacks rfl (fun _ => rfl) (fun _ => rfl) fun p => (hok.hook h p).calm.mono fun _ => Calm.stored

end EthercatInterface
