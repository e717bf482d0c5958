import EthercatInterface.Spec.Mailbox

/-!
# The SOEM backend

`EthercatBus::BackendImpl`, function by function, as programs of atomic actions. A
function that the source runs under a `lock_guard` is a section; a condition on
`state_` loads it once for each comparison, as the source does. Log lines are left
out, and so are the timeouts handed to SOEM.

What users plug in (hooks and the callbacks of asynchronous reads) is `UserCode`.
-/

namespace EthercatInterface

open Interleave

/-- The code of users that the library calls: the hooks of each device, and the
callbacks of asynchronous SDO accesses. -/
structure UserCode where
  hook : Hook → Addr → P Unit
  sdoReadCallback : SDOReadResult × List UInt8 → P Unit
  sdoWriteCallback : SDOWriteResult → P Unit

/-- No hook is registered. -/
def UserCode.none : UserCode := ⟨fun _ _ => pure (), fun _ => pure (), fun _ => pure ()⟩

/-! ## Common parts -/

/-- `get_bus_state() == a || get_bus_state() == b || …`. -/
def stateIn : List BusState → P Bool
  | [] => pure false
  | s :: l => do
    let state ← act .getBusState
    if state = s then pure true else stateIn l

/-- Undefined behaviour unless `c`. -/
def crashUnless (c : Bool) : P Unit := Prog.when (!c) .crash

/-- `for (auto& device : devices_)`: the elements are those at the start; to visit one
that is gone by then is undefined behaviour. -/
def forDevices (l : Loop) (body : Addr → DeviceId → P Unit) : P Unit := do
  let devices ← act (.devices l)
  Prog.forEach devices fun p => do
    match ← act (.deref p) with
    | some id => body p id
    | none => Prog.crash

/-- The ids `1`, …, `ecatSlavecount_`. -/
def slaveIds : P (List DeviceId) := do
  let n ← act .slavecount
  pure (List.range' 1 n)

/-- `static_cast<int>`, of a `size_t`. -/
def toInt (n : ℕ) : ℤ := if n % 2 ^ 32 < 2 ^ 31 then n % 2 ^ 32 else n % 2 ^ 32 - 2 ^ 32

/-- `static_cast<int32_t>`. -/
def toInt32 (x : ℤ) : ℤ := (Int32.ofInt x).toInt

/-- `BackendError` of this backend. -/
def soemError (msg : String) : Exn := .backendError msg .soem none

/-- `BackendError` of this backend, with what SOEM returned. -/
def soemErrorCode (msg : String) (ec : ℤ) : Exn := .backendError msg .soem (some ec)

/-- `DeviceNotFound` of this backend. -/
def deviceNotFound (msg : String) : Exn := .deviceNotFound msg .soem none

def notFoundOnBus (id : DeviceId) : String :=
  "Device with id: " ++ toString id ++ " not found on the bus"

/-- `has_device`. -/
def hasDevice (id : DeviceId) : P Bool := do
  let device ← act (.findDevice id)
  pure device.isSome

/-- `has_device_on_bus`. -/
def hasDeviceOnBus (id : DeviceId) : P Bool := do
  let count ← act .slavecount
  pure (0 < id && id ≤ count)

/-- `EthercatDevice::on_startup` and its siblings: count the call, run the hook. -/
def onCallback (hk : UserCode) (h : Hook) (p : Addr) : P Unit := do
  act (.callback h p)
  hk.hook h p

/-- `EthercatDevice::on_pdo_configured`. -/
def onPdoConfigured (hk : UserCode) (p : Addr) (rxSize txSize : ℕ) : P Unit := do
  act (.callback .onPdoConfigured p)
  act (.resizeRxPdo p rxSize)
  let rxTime ← act .now
  act (.setRxTime p rxTime)
  act (.resizeTxPdo p txSize)
  let txTime ← act .now
  act (.setTxTime p txTime)
  act (.setPdoInitialized p)
  hk.hook .onPdoConfigured p

/-! ## States of the slaves -/

/-- `set_device_target_state`. -/
def setDeviceTargetState (id : DeviceId) (targetState : ℕ) : P Bool :=
  Prog.withLock [.state] do
    let onBus ← hasDeviceOnBus id
    if id ≠ 0 ∧ onBus = false then pure false
    else do
      act (.setSlaveState id targetState)
      let wkc ← act (.ecxWritestate id)
      pure (wkc > 0)

/-- `wait_for_device_target_state`. -/
def waitForDeviceTargetState (id : DeviceId) (targetState : ℕ) : P Bool :=
  Prog.withLock [.state] do
    let state ← act (.ecxStatecheck id targetState)
    pure (state = targetState)

/-- `get_device_state`. -/
def getDeviceState (id : DeviceId) : P ℕ :=
  Prog.withLock [.state] do
    let state ← act (.slaveState id)
    pure (lowNibble state)

/-- `update_device_states`. -/
def updateDeviceStates : P Unit :=
  Prog.withLock [.state] do
    let _ ← act .ecxReadstate
    pure ()

/-! ## Lifecycle -/

section Lifecycle

variable (ps : Parameters) (hk : UserCode)

/-- `scan(device_id)`. -/
def scanDevice (id : DeviceId) : P DeviceInfo := do
  Prog.raiseIf (← stateIn [.preInit]) (soemError "Need to initialize bus first for a scan")
  Prog.raiseIf (!(← hasDeviceOnBus id))
    (deviceNotFound "Cannot scan for device - it is not on the bus")
  act (.slaveInfo id)

/-- `scan()`. -/
def scan : P (List DeviceInfo) := do
  Prog.raiseIf (← stateIn [.preInit]) (soemError "Need to initialize bus first for a scan")
  let ids ← slaveIds
  Prog.foldEach ids (fun result id => do
    let info ← act (.slaveInfo id)
    pure (result ++ [info])) []

/-- `initialize`. -/
def initializeBus : P ℤ := do
  Prog.raiseIf (!(← stateIn [.preInit])) (soemError "Bus is already initialized")
  let ec ← act .ecxInit
  Prog.raiseIf (ec ≤ 0)
    (soemErrorCode ("Failed to open interface: " ++ ps.interface ++ " Run as root!") ec)
  let deviceCount ← act .ecxConfigInit
  Prog.raiseIf (deviceCount ≤ 0) (soemErrorCode "No devices found on the bus" deviceCount)
  -- the diagnostics get one entry per slave, with its topology
  act .resizeSlaves
  Prog.forEach (← slaveIds) fun id => do
    crashUnless (← act (.captureTopology id))
  act (.setLinkUp (← act .nicIsUp))
  act (.updateBusState .initialized)
  Prog.forEach (List.range' 1 deviceCount.toNat) fun id => do
    act (.emplaceDevice (← scanDevice id))
  pure deviceCount

/-- `acquire_device`. -/
def acquireDevice (id : DeviceId) : P Addr := do
  Prog.raiseIf (!(← stateIn [.initialized]))
    (soemError "You may only aquire devices in the bus state: 'Initialized'")
  Prog.raiseIf (!(← hasDevice id)) (deviceNotFound (notFoundOnBus id))
  match ← act (.acquire id) with
  | some p => pure p
  | none => .throw (soemError "Backend error - inconstent device states in list")

/-- The section of `shutdown` that closes the interface of a bus in `Initialized`. -/
def closeInitialized : P Unit :=
  Prog.withLock [.pdoUpdate, .state, .mailbox] do
    act .clearDevices
    act (.updateBusState .shutdown)
    act .ecxClose

/-- The section of `shutdown` that closes the interface of a bus beyond `Initialized`. -/
def closeRunning : P Unit :=
  Prog.withLock [.pdoUpdate, .state, .mailbox] do
    act .ecxClose
    act (.updateBusState .shutdown)

/-- `shutdown` from `Configured`, `Activated` or `Operational` on. -/
def teardown : P Unit := do
  act (.updateBusState .shuttingDown)
  forDevices (.callback .onPreShutdown) fun p _ => onCallback hk .onPreShutdown p
  -- id 0 targets all devices
  let _ ← setDeviceTargetState 0 EC_STATE_PRE_OP
  let _ ← waitForDeviceTargetState 0 EC_STATE_PRE_OP
  closeRunning
  forDevices (.callback .onPostShutdown) fun p _ => onCallback hk .onPostShutdown p
  act .clearDevices

/-- `shutdown`. -/
def shutdown : P Unit := do
  if ← stateIn [.shutdown] then pure ()
  else if ← stateIn [.preInit] then act (.updateBusState .shutdown)
  else if ← stateIn [.initialized] then closeInitialized
  else if ← stateIn [.configured, .activated, .operational] then teardown hk
  else .throw (soemError "Invalid BusState in shutdown - dont know what to do")

/-- `startup` up to the point where the process image is mapped: the size SOEM reports. -/
def mapPdos : P ℤ := do
  forDevices (.callback .onStartup) fun p _ => onCallback hk .onStartup p
  act (.setBlockLRW ps.blockLRW)
  act (.resizeIoMap ps.pdoBufferSize)
  act .ecxConfigMapGroup

def mappedTooLarge (finalIomapSize : ℤ) : Exn :=
  .backendError ("Calculated pdo size is: " ++ toString finalIomapSize ++
    " whereas the configured buffer size is: " ++ toString ps.pdoBufferSize) .unknown none

def noDcDevices : Exn :=
  .backendError "No devices wiht DC support found on the bus but DC sync is enabled" .unknown none

/-- `startup`, distributed clocks: the measured delays and `ecx_dcsync0`. -/
def setupDc : P Unit := do
  Prog.forEach (← slaveIds) fun id => do
    crashUnless (← act (.captureDc id))
  Prog.when ps.dcEnabled do
    Prog.forEach (← slaveIds) fun id => do
      Prog.when (← act (.hasdc id))
        (act (.ecxDcsync0 id (toUInt32 ps.dcCycleTime) (toInt32 ps.dcSync0Shift)))

/-- `startup`. -/
def startup : P Unit := do
  Prog.raiseIf (!(← stateIn [.initialized]))
    (soemError "Cannot perform startup - bus needs to be in 'Initialized' state")
  -- the mapping is made, and measured against the buffer only afterwards
  let finalIomapSize ← mapPdos ps hk
  Prog.when (finalIomapSize > toInt ps.pdoBufferSize) do
    shutdown hk
    Prog.throw (mappedTooLarge ps finalIomapSize)
  Prog.when (!(← act .ecxConfigdc) && ps.dcEnabled) do
    shutdown hk
    Prog.throw noDcDevices
  setupDc ps
  act (.updateBusState .configured)
  forDevices (.callback .onPdoConfigured) fun p id => do
    let rxSize ← act (.obytes id)
    let txSize ← act (.ibytes id)
    onPdoConfigured hk p rxSize txSize

/-- `activate`. -/
def activate : P Unit := do
  Prog.raiseIf (!(← stateIn [.configured]))
    (soemError "Cannot perform activate - bus needs to be in 'Configured' state")
  forDevices (.callback .onPreActivate) fun p _ => onCallback hk .onPreActivate p
  act (.setActivationStartTp none)
  forDevices .requestSafeOp fun _ id => do
    Prog.when (!(← setDeviceTargetState id EC_STATE_SAFE_OP)) do
      shutdown hk
      Prog.throw (soemError "Could set target state for device - aborting activation")
  forDevices .waitSafeOp fun _ id => do
    Prog.when (!(← waitForDeviceTargetState id EC_STATE_SAFE_OP)) do
      shutdown hk
      Prog.throw (soemError "Device did not reach 'SAFE_OP' state - aborting activation")
  act (.updateBusState .activated)
  forDevices (.callback .onPostActivate) fun p _ => onCallback hk .onPostActivate p

end Lifecycle

end EthercatInterface
