import Mathlib.Logic.Function.Basic
import EthercatInterface.Lib.Memory
import EthercatInterface.Spec.Types

/-!
# The state of a bus

`St` holds the members of `BackendImpl`, the `EthercatDevice` objects it created and
what SOEM keeps in the context it is given. Devices live at addresses, so that
`devices_` and the pointers users hold are lists of addresses. The process image is a
flat memory in which SOEM places the outputs and inputs of each slave.
-/

namespace EthercatInterface

open Interleave

/-- The address of an `EthercatDevice` object. -/
abbrev Addr := ℕ

/-- `EC_MAXELIST` and friends aside, the fields of `ec_slavet` the backend uses.
`outputs` and `inputs` are offsets into `io_map_`. -/
structure Slave where
  name : String := ""
  eepMan : ℕ := 0
  eepId : ℕ := 0
  eepRev : ℕ := 0
  configadr : ℕ := 0
  state : ℕ := 0
  ALstatuscode : ℕ := 0
  islost : Bool := false
  hasdc : Bool := false
  parent : ℕ := 0
  activeports : ℕ := 0
  parentport : ℕ := 0
  entryport : ℕ := 0
  pdelay : ℤ := 0
  DCnext : ℕ := 0
  DCprevious : ℕ := 0
  DCrtA : ℤ := 0
  DCrtB : ℤ := 0
  DCrtC : ℤ := 0
  DCrtD : ℤ := 0
  Obytes : ℕ := 0
  Ibytes : ℕ := 0
  outputs : ℕ := 0
  inputs : ℕ := 0
  deriving Inhabited

/-- An entry of SOEM's error list (`ec_errort`). -/
structure EcErrort where
  Slave : ℕ := 0
  Index : ℕ := 0
  SubIdx : ℕ := 0
  Etype : ℤ := 0
  AbortCode : ℤ := 0
  ErrorCode : ℕ := 0
  ErrorReg : ℕ := 0
  b1 : ℕ := 0
  w1 : ℕ := 0
  w2 : ℕ := 0
  deriving DecidableEq, Inhabited

/-- `EthercatContext`. -/
structure EthercatContext where
  ecatSlavelist : ℕ → Slave := fun _ => {}
  ecatSlavecount : ℕ := 0
  blockLRW : Bool := false
  outputsWKC : ℤ := 0
  inputsWKC : ℤ := 0
  ecatEList : List EcErrort := []
  ecatDcTime : ℤ := 0

/-- `EthercatDevice`; `bus` tells whether `bus_` points to the bus. -/
structure EthercatDevice where
  bus : Bool := false
  deviceInfo : DeviceInfo := {}
  pdoInitialized : Bool := false
  rxPdo : List UInt8 := []
  rxPdoLastWriteTime : ℤ := 0
  txPdo : List UInt8 := []
  txPdoLastReadTime : ℤ := 0

/-- The bus with its backend, its devices and the pointers its users hold. -/
structure St where
  /-- The `EthercatBus` object has not been destroyed. -/
  alive : Bool := true
  state : BusState := .preInit
  context : EthercatContext := {}
  ioMap : Memory := fun _ => 0
  ioMapSize : ℕ := 0
  activationStartTp : Option ℤ := none
  devices : List Addr := []
  mailboxStatus : MailboxStatus := {}
  lastTimeError : ℤ := 0
  latestDiagnostics : DiagnosticsSnapshot := {}
  currentSelectedDiagnosticsSlave : ℕ := 0
  /-- The device objects; those from `devCount` on do not exist yet. -/
  dev : Addr → EthercatDevice := fun _ => {}
  devCount : ℕ := 0
  /-- The `shared_ptr`s in users' hands. -/
  held : List Addr := []

namespace St

/-- Entry `id` of the slave list. -/
def slave (s : St) (id : DeviceId) : Slave := s.context.ecatSlavelist id

def setSlavelist (s : St) (l : ℕ → Slave) : St :=
  { s with context := { s.context with ecatSlavelist := l } }

def modifySlave (s : St) (id : DeviceId) (f : Slave → Slave) : St :=
  s.setSlavelist (Function.update s.context.ecatSlavelist id (f (s.slave id)))

def modifyDev (s : St) (p : Addr) (f : EthercatDevice → EthercatDevice) : St :=
  { s with dev := Function.update s.dev p (f (s.dev p)) }

def modifyBus (s : St) (f : BusStatus → BusStatus) : St :=
  { s with latestDiagnostics := { s.latestDiagnostics with bus := f s.latestDiagnostics.bus } }

/-- Change entry `i` of `latest_diagnostics_.slaves`. -/
def modifyStatus (s : St) (i : ℕ) (f : ESCStatus → ESCStatus) : St :=
  { s with latestDiagnostics :=
      { s.latestDiagnostics with slaves := s.latestDiagnostics.slaves.modify i f } }

end St

/-- `std::vector::resize(n, x)`. -/
def resize {α : Type} (l : List α) (n : ℕ) (x : α) : List α :=
  l.take n ++ List.replicate (n - l.length) x

theorem length_resize {α : Type} (l : List α) (n : ℕ) (x : α) : (resize l n x).length = n := by
  simp only [resize, List.length_append, List.length_take, List.length_replicate]
  omega

end EthercatInterface
