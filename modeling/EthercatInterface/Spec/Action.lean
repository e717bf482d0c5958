import EthercatInterface.Lib.Pool
import EthercatInterface.Spec.State

/-!
# Atomic actions

The steps the backend's functions are made of: a load or store of `state_`, one
access to another member, one call of SOEM, of the clock or of the kernel. `exec`
says what an action answers and changes. What the world outside decides (the result
of a SOEM call, the clock, whether a `try_lock` succeeds, what a hook does) is in
`Env`, one for each action; nothing is assumed of it here.
-/

namespace EthercatInterface

open Interleave

/-- The mutexes: one for each device, and those of the backend. -/
inductive Mutex
  | device (p : Addr)
  | pdoUpdate | state | mailbox | mailboxStatus | diagnostics
  deriving DecidableEq

/-- The lifecycle callbacks of `EthercatDevice`. -/
inductive Hook
  | onStartup | onPdoConfigured | onPreActivate | onPostActivate | onPreShutdown | onPostShutdown
  deriving DecidableEq

/-- The loops over `devices_`, by what they do. -/
inductive Loop
  | callback (h : Hook)
  | requestSafeOp | waitSafeOp | requestOperational | allInOperational
  | updateWrite | updateRead | clearBus
  deriving DecidableEq

/-- The public operations of `EthercatBus` and `EthercatDevice`, with their arguments.
Buffers to read into are given by their size. -/
inductive Op
  | initializeBus
  | acquireDevice (id : DeviceId)
  | scan
  | scanDevice (id : DeviceId)
  | readOd (id : DeviceId) (fullRead : Bool)
  | startup
  | activate
  | shutdown
  | updateRt
  | updateService
  | hasDevice (id : DeviceId)
  | hasDeviceOnBus (id : DeviceId)
  | readSdoUntyped (n : ℕ) (id : DeviceId) (index subIndex : ℕ) (checkSize : Bool)
  | readSdoUntypedAsync (n : ℕ) (id : DeviceId) (index subIndex : ℕ) (checkSize : Bool)
  | writeSdoUntyped (data : List UInt8) (id : DeviceId) (index subIndex : ℕ)
  | writeSdoUntypedAsync (data : List UInt8) (id : DeviceId) (index subIndex : ℕ)
  | readRxPdo (id : DeviceId)
  | writeRxPdo (id : DeviceId) (data : List UInt8)
  | readTxPdo (id : DeviceId) (n : ℕ)
  | changeDeviceState (id : DeviceId) (targetState : EthercatDeviceState) (blocking : Bool)
  | foeWrite (id : DeviceId) (fileName : String) (data : List UInt8)
  | foeRead (id : DeviceId) (fileName : String) (n : ℕ)
  | readRegisterUntyped (n : ℕ) (id : DeviceId) (address : ℕ)
  | writeRegisterUntyped (data : List UInt8) (id : DeviceId) (address : ℕ)
  | diagnostics (forceUpdate : Bool)
  | destroyBus
  | deviceSdoRead (p : Addr) (n index subIndex : ℕ) (checkSize : Bool)
  | deviceSdoWrite (p : Addr) (data : List UInt8) (index subIndex : ℕ)
  | deviceReadOd (p : Addr) (fullRead : Bool)
  | deviceChangeDeviceState (p : Addr) (targetState : EthercatDeviceState) (blocking : Bool)
  | deviceFoeWrite (p : Addr) (fileName : String) (data : List UInt8)
  | deviceFoeRead (p : Addr) (fileName : String) (n : ℕ)
  | getGenericRxPdo (p : Addr) (n : ℕ)
  | setGenericRxPdo (p : Addr) (rx : List UInt8)
  | getGenericTxPdo (p : Addr) (n : ℕ)
  | releaseDevice (p : Addr)
  deriving DecidableEq

/-- The bytes a copy to or from `io_map_` touches, and the size of `io_map_` then. -/
structure Span where
  offset : ℕ
  size : ℕ
  mapSize : ℕ
  deriving DecidableEq

/-- What `ecx_send_processdata` returned and, for each slave, the output bytes it put
into the frame. -/
structure Sent where
  ret : ℤ
  frame : DeviceId → List UInt8

/-- What `ecx_receive_processdata` returned and the input bytes it stored, for the
slaves whose bytes came back. -/
structure Received where
  wkc : ℤ
  inputs : DeviceId → Option (List UInt8)

/-- What a transfer returned, the size it reports and the bytes it left in the buffer. -/
structure Transfer where
  wkc : ℤ
  size : ℤ
  data : List UInt8

/-- The description of an object, as SOEM's list holds it. -/
structure OdDescription where
  dataType : ℕ := 0
  objectCode : ℕ := 0
  maxSub : ℕ := 0
  name : String := ""
  deriving Inhabited

/-- A slot of SOEM's list of sub-index descriptions (`ec_OElistt`). -/
structure OeSlot where
  dataType : ℕ := 0
  bitLength : ℕ := 0
  name : String := ""
  deriving Inhabited

/-- `ec_OElistt`: the number of entries, and the slots. -/
structure OeList where
  entries : ℕ := 0
  slot : ℕ → OeSlot := fun _ => {}
  deriving Inhabited

inductive Act
  /-- A public operation begins, or is over. -/
  | call (o : Op)
  | done (o : Op) (ok : Bool)
  -- state_ and the clock
  | getBusState
  | updateBusState (s : BusState)
  | now
  | activationStartTp
  | setActivationStartTp (tp : Option ℤ)
  | nicIsUp
  | setLinkUp (up : Bool)
  | tryLock (m : Mutex)
  /-- Foreign code makes up its mind. -/
  | userDecision
  -- devices_
  | devices (l : Loop)
  | deref (p : Addr)
  | findDevice (id : DeviceId)
  | emplaceDevice (info : DeviceInfo)
  | clearDevices
  | acquire (id : DeviceId)
  | release (p : Addr)
  | clearBus (p : Addr)
  | destroyBackend
  | busAlive
  -- a device
  | callback (h : Hook) (p : Addr)
  | busPtr (p : Addr)
  | deviceId (p : Addr)
  | resizeRxPdo (p : Addr) (n : ℕ)
  | resizeTxPdo (p : Addr) (n : ℕ)
  | setRxTime (p : Addr) (tp : ℤ)
  | setTxTime (p : Addr) (tp : ℤ)
  | setPdoInitialized (p : Addr)
  | pdoInitialized (p : Addr)
  | rxSize (p : Addr)
  | txSize (p : Addr)
  | rxPdo (p : Addr)
  | getRxPdo (p : Addr)
  | setRxPdo (p : Addr) (data : List UInt8)
  | getTxPdo (p : Addr)
  | setTxPdo (p : Addr) (data : List UInt8)
  -- the slave list and the process image
  | slavecount
  | slaveInfo (id : DeviceId)
  | obytes (id : DeviceId)
  | ibytes (id : DeviceId)
  | hasdc (id : DeviceId)
  | configadr (id : DeviceId)
  | slaveState (id : DeviceId)
  | setSlaveState (id : DeviceId) (state : ℕ)
  | setBlockLRW (b : Bool)
  | expectedWkc
  | dcTime
  | dcSyncUpdate (cycleTime syncOffset dcTime : ℤ)
  | resizeIoMap (n : ℕ)
  | copyToOutputs (id : DeviceId) (data : List UInt8)
  | copyFromOutputs (id : DeviceId) (n : ℕ)
  | copyFromInputs (id : DeviceId) (n : ℕ)
  -- SOEM
  | ecxInit
  | ecxConfigInit
  | ecxConfigMapGroup
  | ecxConfigdc
  | ecxDcsync0 (id : DeviceId) (cycleTime : ℕ) (shift : ℤ)
  | ecxWritestate (id : DeviceId)
  | ecxStatecheck (id : DeviceId) (state : ℕ)
  | ecxReadstate
  | ecxSendProcessdata
  | ecxReceiveProcessdata
  | ecxSDOread (id : DeviceId) (index subIndex size : ℕ)
  | ecxSDOwrite (id : DeviceId) (index subIndex : ℕ) (data : List UInt8)
  | ecxFOEread (id : DeviceId) (file : String) (size : ℕ)
  | ecxFOEwrite (id : DeviceId) (file : String) (data : List UInt8)
  | ecxReadODlist (id : DeviceId)
  | ecxReadODdescription (id : DeviceId) (item : ℕ)
  | ecxReadOE (id : DeviceId) (item : ℕ)
  | ecxFPRD (configadr address size : ℕ)
  | ecxFPWR (configadr address : ℕ) (data : List UInt8)
  | ecxClose
  | elistLength
  | ecxPoperror
  -- diagnostics
  | countMailboxEvent (k : MailboxEventKind)
  | mailboxStatus
  | resizeSlaves
  | captureTopology (id : DeviceId)
  | captureDc (id : DeviceId)
  | stampDiagnostics (tp : ℤ)
  | countFrame (wkc expectedWkc : ℤ)
  | publishSlave (i : ℕ)
  | currentSlave
  | setCurrentSlave (i : ℕ)
  | publishPorts (i : ℕ) (ports : List ESCPortHealth)
  | stampPorts (i : ℕ) (tp : ℤ)
  | latestDiagnostics

/-- The type of an action's answer. -/
abbrev Ans : Act → Type
  | .getBusState => BusState
  | .now => ℤ
  | .activationStartTp => Option ℤ
  | .nicIsUp => Bool
  | .tryLock _ => Bool
  | .userDecision => ℤ
  | .devices _ => List Addr
  | .deref _ => Option DeviceId
  | .findDevice _ => Option Addr
  | .acquire _ => Option Addr
  | .busAlive => Bool
  | .busPtr _ => Bool
  | .deviceId _ => DeviceId
  | .pdoInitialized _ => Bool
  | .rxSize _ => ℕ
  | .txSize _ => ℕ
  | .rxPdo _ => List UInt8
  | .getRxPdo _ => List UInt8
  | .getTxPdo _ => List UInt8
  | .slavecount => ℕ
  | .slaveInfo _ => DeviceInfo
  | .obytes _ => ℕ
  | .ibytes _ => ℕ
  | .hasdc _ => Bool
  | .configadr _ => ℕ
  | .slaveState _ => ℕ
  | .expectedWkc => ℤ
  | .dcTime => ℤ
  | .dcSyncUpdate _ _ _ => ℤ
  | .copyToOutputs _ _ => Span
  | .copyFromOutputs _ _ => Span × List UInt8
  | .copyFromInputs _ _ => Span × List UInt8
  | .ecxInit => ℤ
  | .ecxConfigInit => ℤ
  | .ecxConfigMapGroup => ℤ
  | .ecxConfigdc => Bool
  | .ecxWritestate _ => ℤ
  | .ecxStatecheck _ _ => ℕ
  | .ecxReadstate => DeviceId → ℕ
  | .ecxSendProcessdata => Sent
  | .ecxReceiveProcessdata => Received
  | .ecxSDOread _ _ _ _ => Transfer
  | .ecxSDOwrite _ _ _ _ => ℤ
  | .ecxFOEread _ _ _ => Transfer
  | .ecxFOEwrite _ _ _ => ℤ
  | .ecxReadODlist _ => Option (List ℕ)
  | .ecxReadODdescription _ _ => OdDescription
  | .ecxReadOE _ _ => Option OeList
  | .ecxFPRD _ _ _ => ℤ × List UInt8
  | .ecxFPWR _ _ _ => ℤ
  | .elistLength => ℕ
  | .ecxPoperror => Option EcErrort
  | .mailboxStatus => MailboxStatus
  | .captureTopology _ => Bool
  | .captureDc _ => Bool
  | .publishSlave _ => Bool
  | .currentSlave => ℕ
  | .publishPorts _ _ => Bool
  | .stampPorts _ _ => Bool
  | .latestDiagnostics => DiagnosticsSnapshot
  | _ => Unit

/-- What the world outside decides for one action. -/
structure Env where
  /-- The integer a SOEM call returns. -/
  ret : ℤ := 0
  /-- The boolean a call returns. -/
  flag : Bool := false
  clock : ℤ := 0
  /-- The number of slaves `ecx_config_init` found. -/
  slavecount : ℕ := 0
  /-- What SOEM writes into the slave list, or reads from the slaves' AL registers. -/
  slaves : ℕ → Slave := fun _ => {}
  outputsWKC : ℤ := 0
  inputsWKC : ℤ := 0
  /-- The input bytes that came back with a process data frame. -/
  inputs : DeviceId → Option (List UInt8) := fun _ => none
  dcTime : ℤ := 0
  /-- The bytes a transfer delivers and the size it reports. -/
  data : List UInt8 := []
  size : ℤ := 0
  /-- The entries a mailbox call leaves on the error list. -/
  pushed : List EcErrort := []
  odList : Option (List ℕ) := none
  odDescription : OdDescription := {}
  oeList : Option OeList := none
  deriving Inhabited

/-- The mailbox counter an event of kind `k` is added to. -/
def MailboxStatus.count (m : MailboxStatus) : MailboxEventKind → MailboxStatus
  | .emergency => { m with mailboxEmergencies := m.mailboxEmergencies + 1 }
  | .timeout => { m with mailboxTimeouts := m.mailboxTimeouts + 1 }
  | _ => { m with mailboxAborts := m.mailboxAborts + 1 }

/-- The frame counters after a cycle (`update_diagnostics_fast`). -/
def BusStatus.countFrame (b : BusStatus) (wkc expectedWkc : ℤ) : BusStatus :=
  { b with
    wkcMismatches := if wkc ≥ 0 ∧ wkc ≠ expectedWkc then b.wkcMismatches + 1 else b.wkcMismatches
    framesLost := if wkc < 0 then b.framesLost + 1 else b.framesLost
    framesSent := b.framesSent + 1 }

/-- `DCSyncController::update`: how far the DC time is from the nearest cycle. -/
def dcDelta (cycleTime syncOffset dcTime : ℤ) : ℤ :=
  let delta := (dcTime - syncOffset).tmod cycleTime
  if delta > cycleTime.tdiv 2 then delta - cycleTime else delta

namespace St

/-- The inputs received for slave `id`, cut to its region. -/
def received (s : St) (i : Env) (id : DeviceId) : Option (List UInt8) :=
  if 1 ≤ id ∧ id ≤ s.context.ecatSlavecount then
    (i.inputs id).map fun bs => resize bs (s.slave id).Ibytes 0
  else none

/-- The process image after the inputs of all slaves have been stored. -/
def storeInputs (s : St) (i : Env) : Memory :=
  s.ioMap.scatter (fun id => (s.slave id).inputs) (s.received i)
    (List.range' 1 s.context.ecatSlavecount)

def pushErrors (s : St) (es : List EcErrort) : St :=
  { s with context := { s.context with ecatEList := s.context.ecatEList ++ es } }

end St

def exec : Interp Act Ans Env St
  | .call _, _, s => ((), s)
  | .done _ _, _, s => ((), s)
  | .getBusState, _, s => (s.state, s)
  | .updateBusState b, _, s => ((), { s with state := b })
  | .now, i, s => (i.clock, s)
  | .activationStartTp, _, s => (s.activationStartTp, s)
  | .setActivationStartTp tp, _, s => ((), { s with activationStartTp := tp })
  | .nicIsUp, i, s => (i.flag, s)
  | .setLinkUp up, _, s => ((), s.modifyBus fun b => { b with linkUp := up })
  | .tryLock _, i, s => (i.flag, s)
  | .userDecision, i, s => (i.ret, s)
  | .devices _, _, s => (s.devices, s)
  | .deref p, _, s => (if p ∈ s.devices then some (s.dev p).deviceInfo.id else none, s)
  | .findDevice id, _, s => (s.devices.find? fun p => (s.dev p).deviceInfo.id = id, s)
  | .emplaceDevice info, _, s =>
    ((), { s.modifyDev s.devCount fun _ => { bus := true, deviceInfo := info } with
      devices := s.devices ++ [s.devCount], devCount := s.devCount + 1 })
  | .clearDevices, _, s => ((), { s with devices := [] })
  | .acquire id, _, s =>
    (s.devices.find? fun p => (s.dev p).deviceInfo.id = id,
      { s with held := (s.devices.find? fun p => (s.dev p).deviceInfo.id = id).toList ++ s.held })
  | .release p, _, s => ((), { s with held := s.held.erase p })
  | .clearBus p, _, s => ((), s.modifyDev p fun d => { d with bus := false })
  | .destroyBackend, _, s => ((), { s with alive := false, devices := [] })
  | .busAlive, _, s => (s.alive, s)
  | .callback _ _, _, s => ((), s)
  | .busPtr p, _, s => ((s.dev p).bus, s)
  | .deviceId p, _, s => ((s.dev p).deviceInfo.id, s)
  | .resizeRxPdo p n, _, s => ((), s.modifyDev p fun d => { d with rxPdo := resize d.rxPdo n 0 })
  | .resizeTxPdo p n, _, s => ((), s.modifyDev p fun d => { d with txPdo := resize d.txPdo n 0 })
  | .setRxTime p tp, _, s => ((), s.modifyDev p fun d => { d with rxPdoLastWriteTime := tp })
  | .setTxTime p tp, _, s => ((), s.modifyDev p fun d => { d with txPdoLastReadTime := tp })
  | .setPdoInitialized p, _, s => ((), s.modifyDev p fun d => { d with pdoInitialized := true })
  | .pdoInitialized p, _, s => ((s.dev p).pdoInitialized, s)
  | .rxSize p, _, s => ((s.dev p).rxPdo.length, s)
  | .txSize p, _, s => ((s.dev p).txPdo.length, s)
  | .rxPdo p, _, s => ((s.dev p).rxPdo, s)
  | .getRxPdo p, _, s => ((s.dev p).rxPdo, s)
  | .setRxPdo p data, _, s => ((), s.modifyDev p fun d => { d with rxPdo := data })
  | .getTxPdo p, _, s => ((s.dev p).txPdo, s)
  | .setTxPdo p data, _, s => ((), s.modifyDev p fun d => { d with txPdo := data })
  | .slavecount, _, s => (s.context.ecatSlavecount, s)
  | .slaveInfo id, _, s => ({
      id := id
      name := (s.slave id).name
      vendorId := (s.slave id).eepMan
      productId := (s.slave id).eepId
      revision := (s.slave id).eepRev
      hasDc := (s.slave id).hasdc }, s)
  | .obytes id, _, s => ((s.slave id).Obytes, s)
  | .ibytes id, _, s => ((s.slave id).Ibytes, s)
  | .hasdc id, _, s => ((s.slave id).hasdc, s)
  | .configadr id, _, s => ((s.slave id).configadr, s)
  | .slaveState id, _, s => ((s.slave id).state, s)
  | .setSlaveState id state, _, s => ((), s.modifySlave id fun v => { v with state := state })
  | .setBlockLRW b, _, s => ((), { s with context := { s.context with blockLRW := b } })
  | .expectedWkc, _, s => (s.context.outputsWKC * 2 + s.context.inputsWKC, s)
  | .dcTime, _, s => (s.context.ecatDcTime, s)
  -- the gains and the integral are floating point: the correction is left open
  | .dcSyncUpdate c o t, i, s => (i.ret, { s with lastTimeError := -dcDelta c o t })
  | .resizeIoMap n, _, s =>
    ((), { s with
      ioMap := fun k => if k < s.ioMapSize then s.ioMap k else 0
      ioMapSize := n })
  | .copyToOutputs id data, _, s =>
    (⟨(s.slave id).outputs, data.length, s.ioMapSize⟩,
      { s with ioMap := s.ioMap.write (s.slave id).outputs data })
  | .copyFromOutputs id n, _, s =>
    ((⟨(s.slave id).outputs, n, s.ioMapSize⟩, s.ioMap.read (s.slave id).outputs n), s)
  | .copyFromInputs id n, _, s =>
    ((⟨(s.slave id).inputs, n, s.ioMapSize⟩, s.ioMap.read (s.slave id).inputs n), s)
  | .ecxInit, i, s => (i.ret, s)
  -- discovery clears the list: no slave has process data yet
  | .ecxConfigInit, i, s =>
    (i.ret, { s with context := { s.context with
      ecatSlavecount := i.slavecount
      ecatSlavelist := fun id =>
        { i.slaves id with Obytes := 0, Ibytes := 0, outputs := 0, inputs := 0 } } })
  | .ecxConfigMapGroup, i, s =>
    (i.ret, { s with context := { s.context with
      outputsWKC := i.outputsWKC
      inputsWKC := i.inputsWKC
      ecatSlavelist := fun id => { s.slave id with
        Obytes := (i.slaves id).Obytes, Ibytes := (i.slaves id).Ibytes
        outputs := (i.slaves id).outputs, inputs := (i.slaves id).inputs } } })
  | .ecxConfigdc, i, s =>
    (i.flag, s.setSlavelist fun id => { s.slave id with
      hasdc := (i.slaves id).hasdc
      parentport := (i.slaves id).parentport
      entryport := (i.slaves id).entryport
      pdelay := (i.slaves id).pdelay
      DCnext := (i.slaves id).DCnext
      DCprevious := (i.slaves id).DCprevious
      DCrtA := (i.slaves id).DCrtA
      DCrtB := (i.slaves id).DCrtB
      DCrtC := (i.slaves id).DCrtC
      DCrtD := (i.slaves id).DCrtD })
  | .ecxDcsync0 _ _ _, _, s => ((), s)
  | .ecxWritestate _, i, s => (i.ret, s)
  | .ecxStatecheck id _, i, s =>
    if s.context.ecatSlavecount < id then (0, s)
    else (lowNibble (i.slaves id).state, s.modifySlave id fun v =>
      { v with state := (i.slaves id).state
               ALstatuscode := if id = 0 then v.ALstatuscode else (i.slaves id).ALstatuscode })
  | .ecxReadstate, i, s =>
    (fun id => (i.slaves id).state, s.setSlavelist fun id =>
      if id ≤ s.context.ecatSlavecount then
        { s.slave id with state := (i.slaves id).state, ALstatuscode := (i.slaves id).ALstatuscode }
      else s.slave id)
  | .ecxSendProcessdata, i, s =>
    (⟨i.ret, fun id => s.ioMap.read (s.slave id).outputs (s.slave id).Obytes⟩, s)
  | .ecxReceiveProcessdata, i, s =>
    (⟨i.ret, s.received i⟩,
      { s with ioMap := s.storeInputs i, context := { s.context with ecatDcTime := i.dcTime } })
  | .ecxSDOread _ _ _ _, i, s => (⟨i.ret, i.size, i.data⟩, s.pushErrors i.pushed)
  | .ecxSDOwrite _ _ _ _, i, s => (i.ret, s.pushErrors i.pushed)
  | .ecxFOEread _ _ _, i, s => (⟨i.ret, i.size, i.data⟩, s.pushErrors i.pushed)
  | .ecxFOEwrite _ _ _, i, s => (i.ret, s.pushErrors i.pushed)
  | .ecxReadODlist _, i, s => (i.odList, s.pushErrors i.pushed)
  | .ecxReadODdescription _ _, i, s => (i.odDescription, s.pushErrors i.pushed)
  | .ecxReadOE _ _, i, s => (i.oeList, s.pushErrors i.pushed)
  | .ecxFPRD _ _ _, i, s => ((i.ret, i.data), s)
  | .ecxFPWR _ _ _, i, s => (i.ret, s)
  | .ecxClose, _, s => ((), s)
  | .elistLength, _, s => (s.context.ecatEList.length, s)
  | .ecxPoperror, _, s =>
    (s.context.ecatEList.head?,
      { s with context := { s.context with ecatEList := s.context.ecatEList.tail } })
  | .countMailboxEvent k, _, s => ((), { s with mailboxStatus := s.mailboxStatus.count k })
  | .mailboxStatus, _, s => (s.mailboxStatus, s)
  | .resizeSlaves, _, s =>
    ((), { s with latestDiagnostics := { s.latestDiagnostics with
      slaves := resize s.latestDiagnostics.slaves s.context.ecatSlavecount {} } })
  | .captureTopology id, _, s =>
    (id - 1 < s.latestDiagnostics.slaves.length, s.modifyStatus (id - 1) fun e =>
      { e with topology := { e.topology with
        parent := (s.slave id).parent
        activePorts := (List.range 4).map fun port => (s.slave id).activeports.testBit port } })
  | .captureDc id, _, s =>
    (id - 1 < s.latestDiagnostics.slaves.length, s.modifyStatus (id - 1) fun e =>
      { e with topology := { e.topology with
        parentPort := (s.slave id).parentport
        entryPort := (s.slave id).entryport
        propagationDelayNs := (s.slave id).pdelay
        dcNext := (s.slave id).DCnext
        dcPrevious := (s.slave id).DCprevious
        dcPortReceiveTimeNs :=
          [(s.slave id).DCrtA, (s.slave id).DCrtB, (s.slave id).DCrtC, (s.slave id).DCrtD] } })
  | .stampDiagnostics tp, _, s =>
    ((), { s with latestDiagnostics := { s.latestDiagnostics with timestamp := tp } })
  | .countFrame wkc e, _, s => ((), s.modifyBus fun b => b.countFrame wkc e)
  | .publishSlave n, _, s =>
    (n < s.latestDiagnostics.slaves.length, s.modifyStatus n fun e =>
      { e with
        position := n + 1
        alStatus := (s.slave (n + 1)).ALstatuscode
        state := mapFromSoemDeviceState (lowNibble (s.slave (n + 1)).state)
        online := !(s.slave (n + 1)).islost })
  | .currentSlave, _, s => (s.currentSelectedDiagnosticsSlave, s)
  | .setCurrentSlave n, _, s => ((), { s with currentSelectedDiagnosticsSlave := n })
  | .publishPorts n ports, _, s =>
    (n < s.latestDiagnostics.slaves.length, s.modifyStatus n fun e => { e with ports := ports })
  | .stampPorts n tp, _, s =>
    (n < s.latestDiagnostics.slaves.length,
      s.modifyStatus n fun e => { e with portsUpdateTimestamp := tp })
  | .latestDiagnostics, _, s => (s.latestDiagnostics, s)

/-- The programs of the library. -/
abbrev P := Prog Act Ans (List Mutex) Exn

/-- A state of the bus with what has been done to it. -/
abbrev W := World Act Ans St

/-- Something a thread did. -/
abbrev Ev := Event Act Ans

def act (a : Act) : P (Ans a) := Prog.perform a

end EthercatInterface
