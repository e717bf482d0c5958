import Mathlib.Algebra.Group.Int.Defs
import Mathlib.Algebra.Group.Nat.Defs
import Mathlib.Data.Int.Notation
import Mathlib.Tactic.Common

/-!
# Value types of the interface

The enumerations, parameters, results and exceptions of `types.hpp`,
`bus_diagnostics.hpp`, `exceptions.hpp`, `backend.hpp` and the parameters of
`EthercatBus`. Clock readings and durations are nanoseconds in `ℤ` (the operational
timeout alone is in milliseconds, as in the source), wrapped where a computation may
leave 64 bits; ids, indices and register values, which only get compared and copied,
are in `ℕ`.
-/

namespace EthercatInterface

/-! ## 64 bits -/

/-- What is left of an integer in 64 bits, signed: an overflow wraps around, as compiled. -/
def toInt64 (x : ℤ) : ℤ := (Int64.ofInt x).toInt

/-- Held by 64 bits. -/
def Fits64 (x : ℤ) : Prop := -2 ^ 63 ≤ x ∧ x < 2 ^ 63

instance (x : ℤ) : Decidable (Fits64 x) := inferInstanceAs (Decidable (_ ∧ _))

theorem Fits64.bmod {x : ℤ} (h : Fits64 x) : x.bmod (2 ^ 64) = x := Int.bmod_eq_of_le h.1 h.2

theorem Fits64.toInt64 {x : ℤ} (h : Fits64 x) : toInt64 x = x := Int64.toInt_ofInt_of_le h.1 h.2

theorem fits64_toInt64 (x : ℤ) : Fits64 (toInt64 x) := ⟨Int64.le_toInt _, Int64.toInt_lt _⟩

/-! ## The bus -/

/-- `DeviceId`: the position of a slave on the bus, `0` being the master. -/
abbrev DeviceId := ℕ

/-- `BusState`. -/
inductive BusState
  | preInit | initialized | configured | activated | operational | shuttingDown | shutdown
  deriving DecidableEq

/-- The position of a state in the lifecycle. -/
def BusState.rank : BusState → ℕ
  | .preInit => 0
  | .initialized => 1
  | .configured => 2
  | .activated => 3
  | .operational => 4
  | .shuttingDown => 5
  | .shutdown => 6

instance : LE BusState := ⟨fun a b => a.rank ≤ b.rank⟩

instance (a b : BusState) : Decidable (a ≤ b) := inferInstanceAs (Decidable (a.rank ≤ b.rank))

/-- `DiagnosticsLevel`. -/
inductive DiagnosticsLevel
  | off | basic | tracing
  deriving DecidableEq

/-- `is_diagnostics_enabled`. -/
def isDiagnosticsEnabled (level : DiagnosticsLevel) : Bool := level ≠ .off

/-- `DiagnosticsOptions`, with its defaults. -/
structure DiagnosticsOptions where
  pdoDiagnostics : DiagnosticsLevel := .basic
  mailboxDiagnostics : DiagnosticsLevel := .basic
  escDiagnostics : DiagnosticsLevel := .off
  escPortDiagnostics : DiagnosticsLevel := .off
  deriving DecidableEq

/-- `EthercatBus::Parameters`, with its defaults. -/
structure Parameters where
  interface : String := ""
  pdoBufferSize : ℕ := 8192
  blockLRW : Bool := true
  dcEnabled : Bool := false
  dcCycleTime : ℤ := 0
  dcSync0Shift : ℤ := 0
  masterSendOffset : ℤ := 0
  /-- In milliseconds; `0` disables the timeout. -/
  timeoutTransitionOperational : ℤ := 1000
  diagnostics : DiagnosticsOptions := {}

/-- `Backend`. -/
inductive Backend
  | unknown | soem | etherlab
  deriving DecidableEq

/-- What the library throws, and what user code called from it may throw. -/
inductive Exn
  | backendError (msg : String) (backend : Backend) (ec : Option ℤ)
  | deviceNotFound (msg : String) (backend : Backend) (ec : Option ℤ)
  | deviceConfigurationError (msg : String)
  | executorError (msg : String)
  | invalidArgument (msg : String)
  | logicError (msg : String)
  | badOptionalAccess
  /-- Thrown by a hook or a callback; `std` tells whether it is a `std::exception`. -/
  | user (std : Bool)
  deriving DecidableEq

/-- Caught by `catch (const std::exception&)`. -/
def Exn.isStd : Exn → Bool
  | .user std => std
  | _ => true

/-- `DeviceInfo`. -/
structure DeviceInfo where
  id : DeviceId := 0
  name : String := ""
  vendorId : ℕ := 0
  productId : ℕ := 0
  revision : ℕ := 0
  hasDc : Bool := false
  deriving DecidableEq

/-- `EthercatDeviceState`. -/
inductive EthercatDeviceState
  | none | init | preOp | boot | safeOp | operational
  deriving DecidableEq

/-! ## States of a slave, as SOEM codes them (`ec_state`) -/

def EC_STATE_NONE : ℕ := 0x00
def EC_STATE_INIT : ℕ := 0x01
def EC_STATE_PRE_OP : ℕ := 0x02
def EC_STATE_BOOT : ℕ := 0x03
def EC_STATE_SAFE_OP : ℕ := 0x04
def EC_STATE_OPERATIONAL : ℕ := 0x08

/-- `state & 0x0F`: the state without the error flag. -/
def lowNibble (state : ℕ) : ℕ := state % 16

/-- `map_to_soem_device_state`. -/
def mapToSoemDeviceState : EthercatDeviceState → ℕ
  | .none => EC_STATE_NONE
  | .init => EC_STATE_INIT
  | .preOp => EC_STATE_PRE_OP
  | .boot => EC_STATE_BOOT
  | .safeOp => EC_STATE_SAFE_OP
  | .operational => EC_STATE_OPERATIONAL

/-- `map_from_soem_device_state`; any other code, the error flag included, is `None`. -/
def mapFromSoemDeviceState (state : ℕ) : EthercatDeviceState :=
  if state = EC_STATE_INIT then .init
  else if state = EC_STATE_PRE_OP then .preOp
  else if state = EC_STATE_BOOT then .boot
  else if state = EC_STATE_SAFE_OP then .safeOp
  else if state = EC_STATE_OPERATIONAL then .operational
  else .none

/-! ## Diagnostics -/

/-- `ESCPortHealth`. -/
structure ESCPortHealth where
  linkUp : Bool := false
  invalidFrames : ℕ := 0
  rxErrors : ℕ := 0
  lostLinks : ℕ := 0
  deriving DecidableEq

/-- `DeviceTopology`. -/
structure DeviceTopology where
  parent : DeviceId := 0
  parentPort : ℕ := 0
  entryPort : ℕ := 0
  activePorts : List Bool := [false, false, false, false]
  propagationDelayNs : ℤ := 0
  dcNext : DeviceId := 0
  dcPrevious : DeviceId := 0
  dcPortReceiveTimeNs : List ℤ := [0, 0, 0, 0]
  deriving DecidableEq

/-- `ESCStatus`. -/
structure ESCStatus where
  position : ℕ := 0
  state : EthercatDeviceState := .none
  alStatus : ℕ := 0
  online : Bool := false
  ports : List ESCPortHealth := [{}, {}, {}, {}]
  portsUpdateTimestamp : ℤ := 0
  topology : DeviceTopology := {}
  deriving DecidableEq

/-- `BusStatus`. -/
structure BusStatus where
  linkUp : Bool := true
  framesSent : ℕ := 0
  framesLost : ℕ := 0
  wkcMismatches : ℕ := 0
  deriving DecidableEq

/-- `MailboxStatus`. -/
structure MailboxStatus where
  mailboxAborts : ℕ := 0
  mailboxTimeouts : ℕ := 0
  mailboxEmergencies : ℕ := 0
  deriving DecidableEq

/-- `DiagnosticsSnapshot`; its executor part is filled in by the executor only. -/
structure DiagnosticsSnapshot where
  bus : BusStatus := {}
  slaves : List ESCStatus := []
  mailbox : MailboxStatus := {}
  timestamp : ℤ := 0
  deriving DecidableEq

/-! ## Mailbox events -/

/-- `MailboxProtocol`. -/
inductive MailboxProtocol
  | unknown | coe | foe | soe | eoe | voe
  deriving DecidableEq

/-- `MailboxEventKind`. -/
inductive MailboxEventKind
  | unknown | abort | emergency | protocolViolation | mailboxLayerError | timeout | bufferTooSmall
  | notFound
  deriving DecidableEq

/-- `MailboxEventSeverity`. -/
inductive MailboxEventSeverity
  | info | warning | error
  deriving DecidableEq

/-- `EmergencyInfo`. -/
structure EmergencyInfo where
  code : ℕ := 0
  errorRegister : ℕ := 0
  data : List ℕ := [0, 0, 0, 0, 0]
  deriving DecidableEq

/-- `EmergencyInfo::is_reset`. -/
def EmergencyInfo.isReset (e : EmergencyInfo) : Bool := e.code = 0

/-- A description: a text of the library, or one looked up in a table of SOEM's. -/
inductive Description
  | text (s : String)
  | ecSdoerror2string (code : ℕ)
  | ecSoeerror2string (code : ℕ)
  | ecMbxerror2string (code : ℕ)
  deriving DecidableEq

/-- `MailboxEvent`. -/
structure MailboxEvent where
  timestamp : ℤ := 0
  deviceId : DeviceId := 0
  protocol : MailboxProtocol := .unknown
  kind : MailboxEventKind := .unknown
  severity : MailboxEventSeverity := .error
  code : ℕ := 0
  index : Option ℕ := none
  subIndex : Option ℕ := none
  emergency : Option EmergencyInfo := none
  description : Description := .text ""
  deriving DecidableEq

/-! ## Results of accesses -/

/-- `SDOReadResult`. -/
structure SDOReadResult where
  success : Bool := false
  actualSizeRead : ℤ := 0
  workingCounter : ℤ := 0
  mailboxDiagnostics : Option MailboxEvent := none
  deriving DecidableEq

/-- `SDOWriteResult`. -/
structure SDOWriteResult where
  success : Bool := false
  workingCounter : ℤ := 0
  mailboxDiagnostics : Option MailboxEvent := none
  deriving DecidableEq

/-- `FoEWriteResult`. -/
structure FoEWriteResult where
  success : Bool := false
  workingCounter : ℤ := 0
  mailboxDiagnostics : Option MailboxEvent := none
  deriving DecidableEq

/-- `FoEReadResult`. -/
structure FoEReadResult where
  success : Bool := false
  workingCounter : ℤ := 0
  actualReadSize : ℕ := 0
  mailboxDiagnostics : Option MailboxEvent := none
  deriving DecidableEq

/-- `RegisterReadResult`. -/
structure RegisterReadResult where
  success : Bool := false
  workingCounter : ℤ := 0
  actualSizeRead : ℕ := 0
  data : List UInt8 := []
  deriving DecidableEq

/-- `RegisterWriteResult`. -/
structure RegisterWriteResult where
  success : Bool := false
  workingCounter : ℤ := 0
  deriving DecidableEq

/-! ## Object dictionary -/

/-- `SDOSubEntry`. -/
structure SDOSubEntry where
  index : ℕ := 0
  name : String := ""
  dataType : ℕ := 0
  size : ℕ := 0
  deriving DecidableEq

/-- `SDOEntry`. -/
structure SDOEntry where
  index : ℕ := 0
  objType : ℕ := 0
  dataType : ℕ := 0
  countSubIndices : ℕ := 0
  name : String := ""
  subEntries : List SDOSubEntry := []
  deriving DecidableEq

/-- `SDOObjectCode::Var`. -/
def SDOObjectCode.var : ℕ := 0x07

end EthercatInterface
