import EthercatInterface.Spec.Backend

/-!
# Cyclic and background work of the backend

`update_rt` with the process data accessors it goes through, `update_service`, and
the diagnostics both maintain.
-/

namespace EthercatInterface

open Interleave

variable (ps : Parameters) (hk : UserCode)

/-! ## Process data -/

/-- Thrown by the process data accessors before the mapping. -/
def pdoNotConfigured : Exn :=
  .backendError "Cannot access pdo for device - pdo needs to be configured first" .unknown none

/-- The checks every process data accessor begins with. -/
def checkPdoAccess (id : DeviceId) : P Unit := do
  Prog.raiseIf (← stateIn [.preInit, .initialized]) pdoNotConfigured
  Prog.raiseIf (!(← hasDeviceOnBus id))
    (soemError "Cannot access pdo for device - it is not on the bus")

/-- `read_rx_pdo`. -/
def readRxPdo (id : DeviceId) : P (List UInt8) := do
  checkPdoAccess id
  let size ← act (.obytes id)
  Prog.withLock [.pdoUpdate] do
    let copied ← act (.copyFromOutputs id size)
    pure copied.2

/-- `write_rx_pdo`. -/
def writeRxPdo (id : DeviceId) (data : List UInt8) : P Unit := do
  checkPdoAccess id
  let size ← act (.obytes id)
  Prog.raiseIf (data.length ≠ size) (soemError "PDO size mismatch - cannot assign")
  Prog.withLock [.pdoUpdate] do
    let _ ← act (.copyToOutputs id data)
    pure ()

/-- `read_tx_pdo` into a buffer of `n` bytes. -/
def readTxPdo (id : DeviceId) (n : ℕ) : P (List UInt8) := do
  checkPdoAccess id
  let size ← act (.ibytes id)
  Prog.raiseIf (n ≠ size) (soemError "Critical array size mismatch when reading tx pdo")
  Prog.withLock [.pdoUpdate] do
    let copied ← act (.copyFromInputs id size)
    pure copied.2

/-- `EthercatDevice::update_write`. -/
def updateWrite (p : Addr) (tp : ℤ) : P Unit :=
  Prog.withLock [.device p] do
    crashUnless (← act (.busPtr p))
    let id ← act (.deviceId p)
    writeRxPdo id (← act (.rxPdo p))
    act (.setRxTime p tp)

/-- `EthercatDevice::update_read`. -/
def updateRead (p : Addr) (tp : ℤ) : P Unit :=
  Prog.withLock [.device p] do
    crashUnless (← act (.busPtr p))
    let id ← act (.deviceId p)
    let data ← readTxPdo id (← act (.txSize p))
    act (.setTxPdo p data)
    act (.setTxTime p tp)

/-! ## Diagnostics -/

/-- `update_diagnostics_fast`. -/
def updateDiagnosticsFast (wkc expectedWkc : ℤ) : P Unit := do
  act (.stampDiagnostics (← act .now))
  act (.countFrame wkc expectedWkc)
  Prog.when (isDiagnosticsEnabled ps.diagnostics.escDiagnostics) do
    Prog.when (← act (.tryLock .diagnostics)) (Prog.withLock [.diagnostics] do
      let n ← act .slavecount
      Prog.forEach (List.range n) fun i => do
        crashUnless (← act (.publishSlave i)))

/-- `read_slave_port_diagnostics`: the registers `DL_STATUS`, `RX_ERROR_COUNTER` and
`LOST_LINK_COUNTER`. A read that fails leaves zeros. -/
def readSlavePortDiagnostics (configAdr : ℕ) : P (List ESCPortHealth) := do
  let dlStatus ← act (.ecxFPRD configAdr 0x0110 2)
  let rxErr ← act (.ecxFPRD configAdr 0x0300 8)
  let lostLink ← act (.ecxFPRD configAdr 0x0310 4)
  pure ((List.range 4).map fun p => {
    linkUp := (dlStatus.2.getD 0 0).toNat.testBit (4 + p)
    invalidFrames := (rxErr.2.getD (p * 2) 0).toNat
    rxErrors := (rxErr.2.getD (p * 2 + 1) 0).toNat
    lostLinks := (lostLink.2.getD p 0).toNat })

/-- `update_diagnostics_slow`. -/
def updateDiagnosticsSlow : P Unit := do
  let selected ← act .currentSlave
  let n ← act .slavecount
  -- wrap around after the last slave
  Prog.when (n ≤ selected) (act (.setCurrentSlave 0))
  let i ← act .currentSlave
  let configAdr ← act (.configadr (i + 1))
  let ports ← readSlavePortDiagnostics configAdr
  Prog.withLock [.diagnostics] do
    crashUnless (← act (.publishPorts i ports))
    let now ← act .now
    crashUnless (← act (.stampPorts i now))
  act (.setCurrentSlave (i + 1))

def forceUpdateRefused : Exn :=
  soemError ("Bus diagnostics force update may not be used when the bus is either in " ++
    "'Operational' or 'Activated' state !")

/-- The part of `diagnostics` that obtains `latest_diagnostics_`. -/
def takeSnapshot (forceUpdate : Bool) : P DiagnosticsSnapshot :=
  if forceUpdate then do
    updateDiagnosticsFast ps 0 0
    updateDiagnosticsSlow
    act .latestDiagnostics
  else
    Prog.withLock [.diagnostics] (act .latestDiagnostics)

/-- `diagnostics`. -/
def diagnostics (forceUpdate : Bool) : P DiagnosticsSnapshot := do
  Prog.raiseIf (← stateIn [.preInit, .shutdown])
    (soemError "Cannot access 'BusDiagnostics' on a not initialized bus")
  Prog.when forceUpdate do
    Prog.raiseIf (← stateIn [.operational, .activated, .configured]) forceUpdateRefused
  let snapshot ← takeSnapshot ps forceUpdate
  let mailbox ← Prog.withLock [.mailboxStatus] (act .mailboxStatus)
  pure { snapshot with mailbox := mailbox }

/-! ## `update_rt` -/

/-- What the locked part of a cycle leaves behind. -/
structure Cycle where
  wkc : ℤ
  expectedWkc : ℤ
  correction : Option ℤ

/-- The correction of the update rate, when distributed clocks are in use.
`DCSyncController::update` takes a remainder by the cycle time. -/
def dcCorrection : P (Option ℤ) :=
  if ps.dcEnabled then do
    if ← act (.hasdc 0) then do
      let dcTime ← act .dcTime
      crashUnless (ps.dcCycleTime ≠ 0)
      let correction ← act (.dcSyncUpdate ps.dcCycleTime ps.masterSendOffset dcTime)
      pure (some correction)
    else pure none
  else pure none

/-- The exchange with the bus: one frame out, one back. -/
def exchange : P Cycle :=
  Prog.withLock [.pdoUpdate] do
    let _ ← act .ecxSendProcessdata
    let received ← act .ecxReceiveProcessdata
    let expectedWkc ← act .expectedWkc
    let correction ← dcCorrection ps
    pure ⟨received.wkc, expectedWkc, correction⟩

/-- `internal_pdo_update`. -/
def internalPdoUpdate : P (Option ℤ) := do
  let now ← act .now
  forDevices .updateWrite fun p _ => updateWrite p now
  let cycle ← exchange ps
  forDevices .updateRead fun p _ => updateRead p now
  Prog.when (isDiagnosticsEnabled ps.diagnostics.pdoDiagnostics)
    (updateDiagnosticsFast ps cycle.wkc cycle.expectedWkc)
  pure cycle.correction

/-- `update_rt`. -/
def updateRt : P (Option ℤ) := do
  Prog.raiseIf (!(← stateIn [.activated, .operational]))
    (soemError "The bus object can only be spun in 'Activated' or 'Operational' state")
  internalPdoUpdate ps

/-! ## `update_service` -/

/-- The operational timeout is enabled and has elapsed: `std::chrono` compares the two in
nanoseconds of 64 bits. -/
def operationalTimeout : P Bool :=
  if 0 < ps.timeoutTransitionOperational then do
    let now ← act .now
    match ← act .activationStartTp with
    | some tp => pure (toInt64 (now - tp) > toInt64 (ps.timeoutTransitionOperational * 1000000))
    | none => .throw .badOptionalAccess
  else pure false

def notOperationalInTime : Exn :=
  soemError "Could not bring all devices into state 'Operational' within the given timeframe"

/-- The loop that tests whether every device is in OPERATIONAL. -/
def allInOperational : P Bool := do
  let devices ← act (.devices .allInOperational)
  Prog.foldEach devices (fun all p => do
    match ← act (.deref p) with
    | some id => do
      let state ← getDeviceState id
      pure (all && state = EC_STATE_OPERATIONAL)
    | none => Prog.crash) true

/-- `internal_service_update` in state `Activated`: bring the devices into OPERATIONAL. -/
def bringOperational : P Unit := do
  let start ← act .activationStartTp
  -- the time-out runs from the first tick, not from `activate`
  Prog.when start.isNone do
    act (.setActivationStartTp (some (← act .now)))
  Prog.when (← operationalTimeout ps) do
    shutdown hk
    Prog.throw notOperationalInTime
  forDevices .requestOperational fun _ id => do
    let _ ← setDeviceTargetState id EC_STATE_OPERATIONAL
    pure ()
  updateDeviceStates
  Prog.when (← allInOperational) (act (.updateBusState .operational))

/-- `internal_service_update` in any other state: diagnostics in the background. -/
def backgroundDiagnostics : P Unit :=
  Prog.when (isDiagnosticsEnabled ps.diagnostics.escDiagnostics) do
    updateDeviceStates
    Prog.when (isDiagnosticsEnabled ps.diagnostics.escPortDiagnostics) updateDiagnosticsSlow

/-- `internal_service_update`. -/
def internalServiceUpdate : P Bool := do
  act (.setLinkUp (← act .nicIsUp))
  Prog.when (← act (.tryLock .mailbox)) (Prog.withLock [.mailbox] drainMailboxEvents)
  if ← stateIn [.activated] then do
    bringOperational ps hk
    pure true
  else do
    backgroundDiagnostics ps
    pure (isDiagnosticsEnabled ps.diagnostics.mailboxDiagnostics ||
      isDiagnosticsEnabled ps.diagnostics.escDiagnostics ||
      isDiagnosticsEnabled ps.diagnostics.escPortDiagnostics)

/-- `update_service`. -/
def updateService : P Bool := do
  Prog.raiseIf (← stateIn [.preInit, .shutdown, .shuttingDown])
    (soemError "The bus object can only be spun in 'Activated' or 'Operational' state")
  internalServiceUpdate ps hk

end EthercatInterface
