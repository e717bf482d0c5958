import Mathlib.Data.Set.Insert
import EthercatInterface.Lib.Conflict
import EthercatInterface.Proof.Discipline

/-!
# What threads share

The members of the bus, of its devices and of SOEM's context fall into cells, `Cell.guard` names
the mutex of each that has one, and `shared` says of every action which cells it reads and which
it writes. That says nothing of mutexes, and is sound for `exec` (`shared_sound`), so actions
without a conflict commute (`exec_commute`).

Not every access is made under the mutex of its cell. `Act.unlocked` lists those which are not:
the frame counters and `link_up`, a forced update of the diagnostics, the sizes of the buffers,
and what `initialize` and `startup` prepare. All others are (`guards_of_touches`).
-/

namespace EthercatInterface

open Interleave

/-- The cells. -/
inductive Cell
  -- those with a mutex
  | errorList | mailboxCounters | image | dcTime | timeError | slaveStates
  | publishedBus | publishedSlaves
  | rxBuffer (p : Addr) | txBuffer (p : Addr)
  -- those without
  | busState | activationStart | devices | held | alive | slaveCount | configuration | portCursor
  | object (p : Addr)

namespace Cell

/-- The mutex that is there for a cell. -/
def guard : Cell → Option Mutex
  | errorList => some .mailbox
  | mailboxCounters => some .mailboxStatus
  | image | dcTime | timeError => some .pdoUpdate
  | slaveStates => some .state
  | publishedBus | publishedSlaves => some .diagnostics
  | rxBuffer p | txBuffer p => some (.device p)
  | _ => none

/-- What a cell contains. -/
abbrev Content : Cell → Type
  | errorList => List EcErrort
  | mailboxCounters => MailboxStatus
  | image => Memory × ℕ
  | dcTime | timeError => ℤ
  | slaveStates => DeviceId → ℕ × ℕ
  | publishedBus => DiagnosticsSnapshot
  | publishedSlaves => List ESCStatus
  | rxBuffer _ | txBuffer _ => List UInt8
  | busState => BusState
  | activationStart => Option ℤ
  | devices => List Addr × ℕ
  | held => List Addr
  | alive => Bool
  | slaveCount | portCursor => ℕ
  | configuration => (DeviceId → Slave) × Bool × ℤ × ℤ
  | object _ => EthercatDevice

end Cell

/-- What the discovery and the mapping found out about a slave. -/
def Slave.configured (v : Slave) : Slave := { v with state := 0, ALstatuscode := 0 }

/-- The requested or reported state of a slave. -/
def Slave.reported (v : Slave) : ℕ × ℕ := (v.state, v.ALstatuscode)

/-- A device but for its buffers. -/
def EthercatDevice.object (d : EthercatDevice) : EthercatDevice := { d with rxPdo := [], txPdo := [] }

/-- What a cell contains in a state of the bus. -/
def St.view (s : St) : (x : Cell) → x.Content
  | .errorList => s.context.ecatEList
  | .mailboxCounters => s.mailboxStatus
  | .image => (s.ioMap, s.ioMapSize)
  | .dcTime => s.context.ecatDcTime
  | .timeError => s.lastTimeError
  | .slaveStates => fun id => (s.slave id).reported
  | .publishedBus => { s.latestDiagnostics with slaves := [] }
  | .publishedSlaves => s.latestDiagnostics.slaves
  | .rxBuffer p => (s.dev p).rxPdo
  | .txBuffer p => (s.dev p).txPdo
  | .busState => s.state
  | .activationStart => s.activationStartTp
  | .devices => (s.devices, s.devCount)
  | .held => s.held
  | .alive => s.alive
  | .slaveCount => s.context.ecatSlavecount
  | .portCursor => s.currentSelectedDiagnosticsSlave
  | .configuration =>
    (fun id => (s.slave id).configured, s.context.blockLRW, s.context.outputsWKC, s.context.inputsWKC)
  | .object p => (s.dev p).object

/-- The state with given contents of its cells. -/
def St.of (v : (x : Cell) → x.Content) : St where
  alive := v .alive
  state := v .busState
  context := {
    ecatSlavelist := fun id => { (v .configuration).1 id with
      state := (v .slaveStates id).1, ALstatuscode := (v .slaveStates id).2 }
    ecatSlavecount := v .slaveCount
    blockLRW := (v .configuration).2.1
    outputsWKC := (v .configuration).2.2.1
    inputsWKC := (v .configuration).2.2.2
    ecatEList := v .errorList
    ecatDcTime := v .dcTime }
  ioMap := (v .image).1
  ioMapSize := (v .image).2
  activationStartTp := v .activationStart
  devices := (v .devices).1
  mailboxStatus := v .mailboxCounters
  lastTimeError := v .timeError
  latestDiagnostics := { v .publishedBus with slaves := v .publishedSlaves }
  currentSelectedDiagnosticsSlave := v .portCursor
  dev := fun p => { v (.object p) with rxPdo := v (.rxBuffer p), txPdo := v (.txBuffer p) }
  devCount := (v .devices).2
  held := v .held

theorem St.of_view (s : St) : St.of s.view = s := rfl

/-- **Nothing is left out**: states with the same contents of all cells are equal. -/
theorem St.ext_view {s s' : St} (h : ∀ x, s.view x = s'.view x) : s = s' := by
  rw [← s.of_view, ← s'.of_view, funext h]

/-! ## Changes of a device or of the slave list -/

section View

variable {s : St} {p : Addr} {f : EthercatDevice → EthercatDevice}

@[simp] theorem view_rxBuffer_modifyDev :
    (s.modifyDev p f).view (.rxBuffer p) = (f (s.dev p)).rxPdo :=
  congrArg EthercatDevice.rxPdo (Function.update_self p _ s.dev)

@[simp] theorem view_txBuffer_modifyDev :
    (s.modifyDev p f).view (.txBuffer p) = (f (s.dev p)).txPdo :=
  congrArg EthercatDevice.txPdo (Function.update_self p _ s.dev)

@[simp] theorem view_object_modifyDev :
    (s.modifyDev p f).view (.object p) = (f (s.dev p)).object :=
  congrArg EthercatDevice.object (Function.update_self p _ s.dev)

/-- A change of a device changes its cells at most. -/
theorem view_modifyDev {x : Cell}
    (hr : x = .rxBuffer p → (f (s.dev p)).rxPdo = (s.dev p).rxPdo)
    (ht : x = .txBuffer p → (f (s.dev p)).txPdo = (s.dev p).txPdo)
    (ho : x = .object p → (f (s.dev p)).object = (s.dev p).object) :
    (s.modifyDev p f).view x = s.view x := by
  have other : ∀ q, q ≠ p → (s.modifyDev p f).dev q = s.dev q := fun q hq =>
    Function.update_of_ne hq _ s.dev
  cases x with
  | rxBuffer q =>
    by_cases hq : q = p
    · subst hq
      exact view_rxBuffer_modifyDev.trans (hr rfl)
    · exact congrArg EthercatDevice.rxPdo (other q hq)
  | txBuffer q =>
    by_cases hq : q = p
    · subst hq
      exact view_txBuffer_modifyDev.trans (ht rfl)
    · exact congrArg EthercatDevice.txPdo (other q hq)
  | object q =>
    by_cases hq : q = p
    · subst hq
      exact view_object_modifyDev.trans (ho rfl)
    · exact congrArg EthercatDevice.object (other q hq)
  | _ => rfl

/-- A change of the slave list that keeps what was found out about the slaves. -/
theorem view_setSlavelist {l : ℕ → Slave} {x : Cell} (hx : x ≠ .slaveStates)
    (hl : ∀ id, (l id).configured = (s.slave id).configured) : (s.setSlavelist l).view x = s.view x := by
  cases x with
  | slaveStates => exact (hx rfl).elim
  | configuration =>
    have hc : (fun id => (l id).configured) = fun id => (s.slave id).configured := funext hl
    exact congrArg (fun c => (c, s.context.blockLRW, s.context.outputsWKC, s.context.inputsWKC)) hc
  | _ => rfl

variable {id : DeviceId} {g : Slave → Slave}

/-- A change of the state of a slave changes this state alone. -/
theorem view_modifySlave {x : Cell} (hx : x ≠ .slaveStates) (hg : ∀ v, (g v).configured = v.configured) :
    (s.modifySlave id g).view x = s.view x := by
  refine view_setSlavelist hx fun j => ?_
  by_cases hj : j = id
  · subst hj
    rw [Function.update_self]
    exact hg _
  · rw [Function.update_of_ne hj]
    rfl

theorem view_slaveStates_modifySlave {v : ℕ × ℕ → ℕ × ℕ} (hg : ∀ w, (g w).reported = v w.reported) :
    (s.modifySlave id g).view .slaveStates =
      Function.update (s.view .slaveStates) id (v (s.view .slaveStates id)) := by
  funext j
  simp only [St.view, St.modifySlave, St.setSlavelist, St.slave]
  by_cases hj : j = id
  · subst hj
    simp only [Function.update_self]
    exact hg _
  · simp only [Function.update_of_ne hj]

@[simp] theorem view_publishedBus_modifyBus {b : BusStatus → BusStatus} :
    (s.modifyBus b).view .publishedBus =
      { s.view .publishedBus with bus := b (s.view .publishedBus).bus } := rfl

@[simp] theorem view_publishedSlaves_modifyStatus {n : ℕ} {e : ESCStatus → ESCStatus} :
    (s.modifyStatus n e).view .publishedSlaves = (s.view .publishedSlaves).modify n e := rfl

end View

/-! ## Reads and writes -/

/-- The cells an action reads; those it changes on the basis of what they contain are among the
ones it writes. -/
def Act.reads : Act → Set Cell
  | .getBusState => {.busState}
  | .activationStartTp => {.activationStart}
  | .devices _ => {.devices}
  | .deref p => {.devices, .object p}
  | .findDevice _ | .acquire _ => {.devices} ∪ Set.range .object
  | .busAlive => {.alive}
  | .busPtr p | .deviceId p | .pdoInitialized p => {.object p}
  | .rxSize p | .rxPdo p | .getRxPdo p => {.rxBuffer p}
  | .txSize p | .getTxPdo p => {.txBuffer p}
  | .slavecount | .ecxStatecheck _ _ | .ecxReadstate | .resizeSlaves => {.slaveCount}
  | .slaveInfo _ | .obytes _ | .ibytes _ | .hasdc _ | .configadr _ | .expectedWkc
  | .captureTopology _ | .captureDc _ | .copyToOutputs _ _ => {.configuration}
  | .slaveState _ | .ecxWritestate _ => {.slaveStates}
  | .dcTime => {.dcTime}
  | .copyFromOutputs _ _ | .copyFromInputs _ _ | .ecxSendProcessdata => {.image, .configuration}
  | .ecxReceiveProcessdata => {.slaveCount, .configuration}
  | .elistLength => {.errorList}
  | .mailboxStatus => {.mailboxCounters}
  | .publishSlave _ => {.slaveStates, .configuration}
  | .currentSlave => {.portCursor}
  | .latestDiagnostics => {.publishedBus, .publishedSlaves}
  | _ => ∅

/-- The cells an action writes. -/
def Act.writes : Act → Set Cell
  | .updateBusState _ => {.busState}
  | .setActivationStartTp _ => {.activationStart}
  | .setLinkUp _ | .stampDiagnostics _ | .countFrame _ _ => {.publishedBus}
  | .emplaceDevice _ =>
    {.devices} ∪ Set.range .object ∪ Set.range .rxBuffer ∪ Set.range .txBuffer
  | .clearDevices => {.devices}
  | .acquire _ | .release _ => {.held}
  | .destroyBackend => {.alive, .devices}
  | .clearBus p | .setRxTime p _ | .setTxTime p _ | .setPdoInitialized p => {.object p}
  | .resizeRxPdo p _ | .setRxPdo p _ => {.rxBuffer p}
  | .resizeTxPdo p _ | .setTxPdo p _ => {.txBuffer p}
  | .setSlaveState _ _ | .ecxStatecheck _ _ | .ecxReadstate => {.slaveStates}
  | .setBlockLRW _ | .ecxConfigMapGroup | .ecxConfigdc => {.configuration}
  | .ecxConfigInit => {.slaveCount, .configuration, .slaveStates}
  | .dcSyncUpdate _ _ _ => {.timeError}
  | .resizeIoMap _ | .copyToOutputs _ _ => {.image}
  | .ecxReceiveProcessdata => {.image, .dcTime}
  | .ecxSDOread _ _ _ _ | .ecxSDOwrite _ _ _ _ | .ecxFOEread _ _ _ | .ecxFOEwrite _ _ _
  | .ecxReadODlist _ | .ecxReadODdescription _ _ | .ecxReadOE _ _ | .ecxPoperror => {.errorList}
  | .countMailboxEvent _ => {.mailboxCounters}
  | .resizeSlaves | .captureTopology _ | .captureDc _ | .publishSlave _ | .publishPorts _ _
  | .stampPorts _ _ => {.publishedSlaves}
  | .setCurrentSlave _ => {.portCursor}
  | _ => ∅

/-- What the actions share. -/
def shared : Footprint Act Cell := ⟨Act.reads, Act.writes⟩

/-! ## The footprint is sound -/

section Agree

variable {s s' : St} {α : Type}

theorem devices_of_view (h : s.view .devices = s'.view .devices) : s.devices = s'.devices :=
  congrArg Prod.fst h

theorem slave_of_view (h : s.view .configuration = s'.view .configuration) {f : Slave → α}
    (hf : ∀ v, f v.configured = f v) (id : DeviceId) : f (s.slave id) = f (s'.slave id) := by
  have hc : (s.slave id).configured = (s'.slave id).configured := congrFun (congrArg Prod.fst h) id
  rw [← hf, hc, hf]

theorem object_of_view {p : Addr} (h : s.view (.object p) = s'.view (.object p)) {f : EthercatDevice → α}
    (hf : ∀ d, f d.object = f d) : f (s.dev p) = f (s'.dev p) := by
  have ho : (s.dev p).object = (s'.dev p).object := h
  rw [← hf, ho, hf]

theorem update_of_view {f : EthercatDevice → α} {d : EthercatDevice} {p : Addr}
    (hn : s.devCount = s'.devCount) (h : f (s.dev p) = f (s'.dev p)) :
    f (Function.update s.dev s.devCount d p) = f (Function.update s'.dev s'.devCount d p) := by
  rw [hn]
  by_cases hp : p = s'.devCount
  · subst hp
    simp only [Function.update_self]
  · simp only [Function.update_of_ne hp, h]

theorem received_of_view (h : s.view .configuration = s'.view .configuration)
    (hn : s.view .slaveCount = s'.view .slaveCount) (i : Env) : s.received i = s'.received i := by
  have hn : s.context.ecatSlavecount = s'.context.ecatSlavecount := hn
  have hi : ∀ id, (s.slave id).Ibytes = (s'.slave id).Ibytes := fun id =>
    slave_of_view h (fun _ => rfl) id
  funext id
  simp only [St.received, hn, hi]

theorem find_of_view (hd : s.view .devices = s'.view .devices)
    (ho : ∀ p, s.view (.object p) = s'.view (.object p)) (id : DeviceId) :
    (s.devices.find? fun p => (s.dev p).deviceInfo.id = id) =
      s'.devices.find? fun p => (s'.dev p).deviceInfo.id = id := by
  have hd : s.devices = s'.devices := devices_of_view hd
  have ho : ∀ p, (s.dev p).deviceInfo = (s'.dev p).deviceInfo := fun p =>
    object_of_view (ho p) fun _ => rfl
  simp only [hd, ho]

end Agree

/-- An action leaves what it does not write alone. -/
theorem exec_frame (a : Act) (i : Env) (s : St) (x : Cell) (hx : x ∉ a.writes) :
    (exec a i s).2.view x = s.view x := by
  cases a
  case setSlaveState id state =>
    exact view_modifySlave (fun h => hx h) fun _ => rfl
  case ecxStatecheck id state =>
    simp only [exec]
    split
    · rfl
    · exact view_modifySlave (fun h => hx h) fun _ => rfl
  case ecxReadstate =>
    refine view_setSlavelist (fun h => hx h) fun id => ?_
    split <;> rfl
  case emplaceDevice info =>
    cases x
    all_goals first
      | rfl
      | exact (hx (by simp [Act.writes])).elim
  case clearBus p => exact view_modifyDev (fun _ => rfl) (fun _ => rfl) fun h => (hx h).elim
  case setRxTime p tp => exact view_modifyDev (fun _ => rfl) (fun _ => rfl) fun h => (hx h).elim
  case setTxTime p tp => exact view_modifyDev (fun _ => rfl) (fun _ => rfl) fun h => (hx h).elim
  case setPdoInitialized p => exact view_modifyDev (fun _ => rfl) (fun _ => rfl) fun h => (hx h).elim
  case resizeRxPdo p n => exact view_modifyDev (fun h => (hx h).elim) (fun _ => rfl) fun _ => rfl
  case setRxPdo p data => exact view_modifyDev (fun h => (hx h).elim) (fun _ => rfl) fun _ => rfl
  case resizeTxPdo p n => exact view_modifyDev (fun _ => rfl) (fun h => (hx h).elim) fun _ => rfl
  case setTxPdo p data => exact view_modifyDev (fun _ => rfl) (fun h => (hx h).elim) fun _ => rfl
  all_goals first
    | rfl
    | (cases x <;> first
        | rfl
        | exact (hx (by simp [Act.writes])).elim)

/-- What an action answers depends on what it touches. -/
theorem exec_answer (a : Act) (i : Env) (s s' : St) (h : ∀ x ∈ shared.touches a, s.view x = s'.view x) :
    (exec a i s).1 = (exec a i s').1 := by
  have read : ∀ x ∈ a.reads, s.view x = s'.view x := fun x hx => h x (.inl hx)
  have write : ∀ x ∈ a.writes, s.view x = s'.view x := fun x hx => h x (.inr hx)
  cases a
  case getBusState => exact read .busState rfl
  case activationStartTp => exact read .activationStart rfl
  case devices l => exact devices_of_view (read .devices rfl)
  case deref p =>
    have hd : s.devices = s'.devices := devices_of_view (read .devices (.inl rfl))
    have ho : (s.dev p).deviceInfo = (s'.dev p).deviceInfo :=
      object_of_view (read (.object p) (.inr rfl)) fun _ => rfl
    simp only [exec, hd, ho]
  case findDevice id =>
    exact find_of_view (read .devices (.inl rfl)) (fun p => read (.object p) (.inr ⟨p, rfl⟩)) id
  case acquire id =>
    exact find_of_view (read .devices (.inl rfl)) (fun p => read (.object p) (.inr ⟨p, rfl⟩)) id
  case busAlive => exact read .alive rfl
  case busPtr p => exact object_of_view (f := EthercatDevice.bus) (read (.object p) rfl) fun _ => rfl
  case deviceId p =>
    exact object_of_view (f := fun d => d.deviceInfo.id) (read (.object p) rfl) fun _ => rfl
  case pdoInitialized p =>
    exact object_of_view (f := EthercatDevice.pdoInitialized) (read (.object p) rfl) fun _ => rfl
  case rxSize p => exact congrArg List.length (read (.rxBuffer p) rfl)
  case rxPdo p => exact read (.rxBuffer p) rfl
  case getRxPdo p => exact read (.rxBuffer p) rfl
  case txSize p => exact congrArg List.length (read (.txBuffer p) rfl)
  case getTxPdo p => exact read (.txBuffer p) rfl
  case slavecount => exact read .slaveCount rfl
  case slaveInfo id =>
    exact slave_of_view (f := fun v => DeviceInfo.mk id v.name v.eepMan v.eepId v.eepRev v.hasdc)
      (read .configuration rfl) (fun _ => rfl) id
  case obytes id => exact slave_of_view (f := Slave.Obytes) (read .configuration rfl) (fun _ => rfl) id
  case ibytes id => exact slave_of_view (f := Slave.Ibytes) (read .configuration rfl) (fun _ => rfl) id
  case hasdc id => exact slave_of_view (f := Slave.hasdc) (read .configuration rfl) (fun _ => rfl) id
  case configadr id => exact slave_of_view (f := Slave.configadr) (read .configuration rfl) (fun _ => rfl) id
  case slaveState id => exact congrArg (fun r : ℕ × ℕ => r.1) (congrFun (read .slaveStates rfl) id)
  case expectedWkc => exact congrArg (fun c => c.2.2.1 * 2 + c.2.2.2) (read .configuration rfl)
  case dcTime => exact read .dcTime rfl
  case copyToOutputs id data =>
    have hc := slave_of_view (f := Slave.outputs) (read .configuration rfl) (fun _ => rfl) id
    have hi := congrArg Prod.snd (write .image rfl)
    exact congrArg₂ (fun o m => Span.mk o data.length m) hc hi
  case copyFromOutputs id n =>
    have hc := slave_of_view (f := Slave.outputs) (read .configuration (.inr rfl)) (fun _ => rfl) id
    exact congrArg₂ (fun o m => (Span.mk o n m.2, m.1.read o n)) hc (read .image (.inl rfl))
  case copyFromInputs id n =>
    have hc := slave_of_view (f := Slave.inputs) (read .configuration (.inr rfl)) (fun _ => rfl) id
    exact congrArg₂ (fun o m => (Span.mk o n m.2, m.1.read o n)) hc (read .image (.inl rfl))
  case ecxStatecheck id state =>
    have hn : s.context.ecatSlavecount = s'.context.ecatSlavecount := read .slaveCount rfl
    simp only [exec, hn]
    split <;> rfl
  case ecxSendProcessdata =>
    have hm : s.ioMap = s'.ioMap := congrArg Prod.fst (read .image (.inl rfl))
    have hc := read .configuration (.inr rfl)
    have ho : ∀ id, (s.slave id).outputs = (s'.slave id).outputs := slave_of_view hc fun _ => rfl
    have hb : ∀ id, (s.slave id).Obytes = (s'.slave id).Obytes := slave_of_view hc fun _ => rfl
    simp only [exec, hm, ho, hb]
  case ecxReceiveProcessdata =>
    exact congrArg (Received.mk i.ret)
      (received_of_view (read .configuration (.inr rfl)) (read .slaveCount (.inl rfl)) i)
  case elistLength => exact congrArg List.length (read .errorList rfl)
  case ecxPoperror => exact congrArg List.head? (write .errorList rfl)
  case mailboxStatus => exact read .mailboxCounters rfl
  case captureTopology id =>
    exact congrArg (fun l : List ESCStatus => decide (id - 1 < l.length)) (write .publishedSlaves rfl)
  case captureDc id =>
    exact congrArg (fun l : List ESCStatus => decide (id - 1 < l.length)) (write .publishedSlaves rfl)
  case publishSlave n =>
    exact congrArg (fun l : List ESCStatus => decide (n < l.length)) (write .publishedSlaves rfl)
  case publishPorts n ports =>
    exact congrArg (fun l : List ESCStatus => decide (n < l.length)) (write .publishedSlaves rfl)
  case stampPorts n tp =>
    exact congrArg (fun l : List ESCStatus => decide (n < l.length)) (write .publishedSlaves rfl)
  case currentSlave => exact read .portCursor rfl
  case latestDiagnostics =>
    exact congrArg₂ (fun (d : DiagnosticsSnapshot) l => { d with slaves := l })
      (read .publishedBus (.inl rfl)) (read .publishedSlaves (.inr rfl))
  all_goals rfl

/-- What an action writes depends on what it touches. -/
theorem exec_effect (a : Act) (i : Env) (s s' : St) (h : ∀ x ∈ shared.touches a, s.view x = s'.view x)
    (x : Cell) (hx : x ∈ a.writes) : (exec a i s).2.view x = (exec a i s').2.view x := by
  have read : ∀ x ∈ a.reads, s.view x = s'.view x := fun x hx => h x (.inl hx)
  have write : ∀ x ∈ a.writes, s.view x = s'.view x := fun x hx => h x (.inr hx)
  have own : s.view x = s'.view x := write x hx
  cases a
  case updateBusState b => subst hx; rfl
  case setActivationStartTp tp => subst hx; rfl
  case setLinkUp up =>
    subst hx
    simp only [exec, view_publishedBus_modifyBus, own]
  case stampDiagnostics tp =>
    subst hx
    exact congrArg (fun d : DiagnosticsSnapshot => { d with timestamp := tp }) own
  case countFrame wkc e =>
    subst hx
    simp only [exec, view_publishedBus_modifyBus, own]
  case emplaceDevice info =>
    have hn : s.devCount = s'.devCount :=
      congrArg (fun d : List Addr × ℕ => d.2) (write .devices (.inl (.inl (.inl rfl))))
    rcases hx with ((rfl | ⟨p, rfl⟩) | ⟨p, rfl⟩) | ⟨p, rfl⟩
    · exact congrArg (fun d : List Addr × ℕ => (d.1 ++ [d.2], d.2 + 1)) own
    · exact update_of_view (f := EthercatDevice.object) hn own
    · exact update_of_view (f := EthercatDevice.rxPdo) hn own
    · exact update_of_view (f := EthercatDevice.txPdo) hn own
  case clearDevices =>
    subst hx
    exact congrArg (fun d : List Addr × ℕ => (([] : List Addr), d.2)) own
  case acquire id =>
    subst hx
    have hf := find_of_view (read .devices (.inl rfl)) (fun p => read (.object p) (.inr ⟨p, rfl⟩)) id
    exact congrArg₂ (fun (o : Option Addr) l => o.toList ++ l) hf own
  case release p =>
    subst hx
    exact congrArg (fun l : List Addr => l.erase p) own
  case destroyBackend =>
    rcases hx with rfl | rfl
    · rfl
    · exact congrArg (fun d : List Addr × ℕ => (([] : List Addr), d.2)) own
  case clearBus p =>
    subst hx
    simp only [exec, view_object_modifyDev]
    exact congrArg (fun d : EthercatDevice => { d with bus := false }) own
  case setRxTime p tp =>
    subst hx
    simp only [exec, view_object_modifyDev]
    exact congrArg (fun d : EthercatDevice => { d with rxPdoLastWriteTime := tp }) own
  case setTxTime p tp =>
    subst hx
    simp only [exec, view_object_modifyDev]
    exact congrArg (fun d : EthercatDevice => { d with txPdoLastReadTime := tp }) own
  case setPdoInitialized p =>
    subst hx
    simp only [exec, view_object_modifyDev]
    exact congrArg (fun d : EthercatDevice => { d with pdoInitialized := true }) own
  case resizeRxPdo p n =>
    subst hx
    simp only [exec, view_rxBuffer_modifyDev]
    exact congrArg (fun l : List UInt8 => resize l n 0) own
  case setRxPdo p data =>
    subst hx
    simp only [exec, view_rxBuffer_modifyDev]
  case resizeTxPdo p n =>
    subst hx
    simp only [exec, view_txBuffer_modifyDev]
    exact congrArg (fun l : List UInt8 => resize l n 0) own
  case setTxPdo p data =>
    subst hx
    simp only [exec, view_txBuffer_modifyDev]
  case setSlaveState id state =>
    subst hx
    have hg : ∀ w : Slave, { w with state := state }.reported = (state, w.reported.2) := fun _ => rfl
    simp only [exec, view_slaveStates_modifySlave (v := fun r => (state, r.2)) hg, own]
  case ecxStatecheck id state =>
    subst hx
    have hn : s.context.ecatSlavecount = s'.context.ecatSlavecount := read .slaveCount rfl
    have hv : ∀ t : St, (t.modifySlave id fun w => { w with
        state := (i.slaves id).state
        ALstatuscode := if id = 0 then w.ALstatuscode else (i.slaves id).ALstatuscode }).view .slaveStates =
          Function.update (t.view .slaveStates) id ((i.slaves id).state,
            if id = 0 then (t.view .slaveStates id).2 else (i.slaves id).ALstatuscode) := fun t =>
      view_slaveStates_modifySlave
        (v := fun r => ((i.slaves id).state, if id = 0 then r.2 else (i.slaves id).ALstatuscode)) fun _ => rfl
    simp only [exec, hn]
    split
    · exact own
    · simp only [hv, own]
  case ecxReadstate =>
    subst hx
    have hn : s.context.ecatSlavecount = s'.context.ecatSlavecount := read .slaveCount rfl
    have hs : ∀ t : St, (exec .ecxReadstate i t).2.view .slaveStates = fun id =>
        if id ≤ t.context.ecatSlavecount then ((i.slaves id).state, (i.slaves id).ALstatuscode)
        else t.view .slaveStates id := fun t => funext fun id => by
      simp only [exec, St.view, St.setSlavelist, St.slave]
      split <;> rfl
    rw [hs, hs, hn, own]
  case setBlockLRW b =>
    subst hx
    exact congrArg (fun c : (DeviceId → Slave) × Bool × ℤ × ℤ => (c.1, b, c.2.2.1, c.2.2.2)) own
  case ecxConfigInit =>
    rcases hx with rfl | rfl | rfl
    · rfl
    · exact congrArg (fun c : (DeviceId → Slave) × Bool × ℤ × ℤ => ((fun id =>
        { i.slaves id with Obytes := 0, Ibytes := 0, outputs := 0, inputs := 0 }.configured), c.2)) own
    · rfl
  case ecxConfigMapGroup =>
    subst hx
    exact congrArg (fun c : (DeviceId → Slave) × Bool × ℤ × ℤ =>
      (fun id => ({ c.1 id with
        Obytes := (i.slaves id).Obytes, Ibytes := (i.slaves id).Ibytes
        outputs := (i.slaves id).outputs, inputs := (i.slaves id).inputs } : Slave),
        c.2.1, i.outputsWKC, i.inputsWKC)) own
  case ecxConfigdc =>
    subst hx
    exact congrArg (fun c : (DeviceId → Slave) × Bool × ℤ × ℤ =>
      (fun id => ({ c.1 id with
        hasdc := (i.slaves id).hasdc
        parentport := (i.slaves id).parentport
        entryport := (i.slaves id).entryport
        pdelay := (i.slaves id).pdelay
        DCnext := (i.slaves id).DCnext
        DCprevious := (i.slaves id).DCprevious
        DCrtA := (i.slaves id).DCrtA
        DCrtB := (i.slaves id).DCrtB
        DCrtC := (i.slaves id).DCrtC
        DCrtD := (i.slaves id).DCrtD } : Slave), c.2)) own
  case dcSyncUpdate c o t => subst hx; rfl
  case resizeIoMap n =>
    subst hx
    exact congrArg (fun m : Memory × ℕ => ((fun k => if k < m.2 then m.1 k else 0 : Memory), n)) own
  case copyToOutputs id data =>
    subst hx
    have ho := slave_of_view (f := Slave.outputs) (read .configuration rfl) (fun _ => rfl) id
    exact congrArg₂ (fun o (m : Memory × ℕ) => (m.1.write o data, m.2)) ho own
  case ecxReceiveProcessdata =>
    have hc := read .configuration (.inr rfl)
    have hn : s.context.ecatSlavecount = s'.context.ecatSlavecount := read .slaveCount (.inl rfl)
    rcases hx with rfl | rfl
    · have hi : ∀ id, (s.slave id).inputs = (s'.slave id).inputs := slave_of_view hc fun _ => rfl
      have hr := received_of_view hc (read .slaveCount (.inl rfl)) i
      have hm : s.storeInputs i = s'.storeInputs i := by
        have hm : s.ioMap = s'.ioMap := congrArg Prod.fst own
        simp only [St.storeInputs, hm, hi, hr, hn]
      exact congrArg₂ Prod.mk hm (congrArg Prod.snd own)
    · rfl
  case ecxPoperror =>
    subst hx
    exact congrArg List.tail own
  case countMailboxEvent k =>
    subst hx
    exact congrArg (fun m : MailboxStatus => m.count k) own
  case resizeSlaves =>
    subst hx
    exact congrArg₂ (fun n (l : List ESCStatus) => resize l n {}) (read .slaveCount rfl) own
  case captureTopology id =>
    subst hx
    exact congrArg₂ (fun g (l : List ESCStatus) => l.modify (id - 1) g)
      (slave_of_view (f := fun v (e : ESCStatus) => { e with topology := { e.topology with
        parent := v.parent
        activePorts := (List.range 4).map fun port => v.activeports.testBit port } })
        (read .configuration rfl) (fun _ => rfl) id) own
  case captureDc id =>
    subst hx
    exact congrArg₂ (fun g (l : List ESCStatus) => l.modify (id - 1) g)
      (slave_of_view (f := fun v (e : ESCStatus) => { e with topology := { e.topology with
        parentPort := v.parentport
        entryPort := v.entryport
        propagationDelayNs := v.pdelay
        dcNext := v.DCnext
        dcPrevious := v.DCprevious
        dcPortReceiveTimeNs := [v.DCrtA, v.DCrtB, v.DCrtC, v.DCrtD] } })
        (read .configuration rfl) (fun _ => rfl) id) own
  case publishSlave n =>
    subst hx
    have hl : (s.slave (n + 1)).islost = (s'.slave (n + 1)).islost :=
      slave_of_view (read .configuration (.inr rfl)) (fun _ => rfl) (n + 1)
    have hs : (s.slave (n + 1)).reported = (s'.slave (n + 1)).reported :=
      congrFun (read .slaveStates (.inl rfl)) (n + 1)
    exact congrArg₂ (fun (v : Bool × ℕ × ℕ) (l : List ESCStatus) => l.modify n fun e =>
      { e with
        position := n + 1
        alStatus := v.2.2
        state := mapFromSoemDeviceState (lowNibble v.2.1)
        online := !v.1 }) (congrArg₂ Prod.mk hl hs) own
  case publishPorts n ports =>
    subst hx
    simp only [exec, view_publishedSlaves_modifyStatus, own]
  case stampPorts n tp =>
    subst hx
    simp only [exec, view_publishedSlaves_modifyStatus, own]
  case setCurrentSlave n => subst hx; rfl
  all_goals first
    | exact hx.elim
    | (subst hx; exact congrArg (fun l => l ++ i.pushed) own)

theorem shared_sound : shared.Sound exec fun x s => s.view x :=
  ⟨exec_frame, exec_answer, exec_effect⟩

/-- In either order two actions answer the same, and leave the same state. -/
def Act.Commute (a b : Act) : Prop :=
  ∀ i j s, (exec b j (exec a i s).2).1 = (exec b j s).1 ∧ (exec a i (exec b j s).2).1 = (exec a i s).1 ∧
    (exec b j (exec a i s).2).2 = (exec a i (exec b j s).2).2

/-- **Actions without a conflict commute.** -/
theorem exec_commute {a b : Act} (h : ∀ x, ¬shared.Conflict a b x) : a.Commute b := by
  intro i j s
  obtain ⟨hb, ha, hx⟩ := shared_sound.commute h i j s
  exact ⟨hb, ha, St.ext_view hx⟩

/-! ## With and without the mutex -/

/-- **The accesses made without the mutex of their cell**, if not always. -/
def Act.unlocked : Act → Set Cell
  -- `initialize` and `startup`: the members they fill for the first time
  | .ecxConfigInit => {.slaveStates}
  | .resizeSlaves | .captureTopology _ | .captureDc _ => {.publishedSlaves}
  | .emplaceDevice _ => Set.range .rxBuffer ∪ Set.range .txBuffer
  | .resizeIoMap _ => {.image}
  | .resizeRxPdo p _ | .rxSize p => {.rxBuffer p}
  | .resizeTxPdo p _ | .txSize p => {.txBuffer p}
  -- `update_diagnostics_fast`, which owns at most the mutex of the diagnostics
  | .stampDiagnostics _ | .countFrame _ _ | .setLinkUp _ => {.publishedBus}
  | .publishSlave _ => {.slaveStates}
  -- `diagnostics(true)`
  | .latestDiagnostics => {.publishedBus, .publishedSlaves}
  | _ => ∅

theorem guards_of_reads {a : Act} {x : Cell} {l : Mutex} (hx : x ∈ a.reads) (hl : x.guard = some l) :
    x ∈ a.unlocked ∨ l ∈ a.guards := by
  cases a <;> simp only [Act.reads, Set.mem_empty_iff_false, Set.mem_insert_iff, Set.mem_singleton_iff,
    Set.mem_union, Set.mem_range] at hx
  all_goals
    first
    | subst hx
    | (rcases hx with rfl | rfl)
    | (rcases hx with rfl | ⟨p, rfl⟩)
  all_goals cases hl
  all_goals simp [Act.unlocked, Act.guards]

theorem guards_of_writes {a : Act} {x : Cell} {l : Mutex} (hx : x ∈ a.writes) (hl : x.guard = some l) :
    x ∈ a.unlocked ∨ l ∈ a.guards := by
  cases a <;> simp only [Act.writes, Set.mem_empty_iff_false, Set.mem_insert_iff, Set.mem_singleton_iff,
    Set.mem_union, Set.mem_range] at hx
  all_goals
    first
    | subst hx
    | (rcases hx with rfl | rfl)
    | (rcases hx with rfl | rfl | rfl)
    | (rcases hx with ((rfl | ⟨p, rfl⟩) | ⟨p, rfl⟩) | ⟨p, rfl⟩)
  all_goals cases hl
  all_goals simp [Act.unlocked, Act.guards]

/-- **Every other access is made under the mutex of its cell.** -/
theorem guards_of_touches {a : Act} {x : Cell} {l : Mutex} (hx : x ∈ shared.touches a)
    (hl : x.guard = some l) : x ∈ a.unlocked ∨ l ∈ a.guards :=
  hx.elim (fun hx => guards_of_reads hx hl) fun hx => guards_of_writes hx hl

end EthercatInterface
