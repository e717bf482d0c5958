import EthercatInterface.Spec.Bus
import EthercatInterface.Spec.Print

/-!
# The bus scanner

`bus_scanner.cpp`: the handlers of its verbs, and `main` once the arguments have been parsed. What is printed
of a device is returned. The labels around it are left out, and so is what has been printed before an error.
-/

namespace EthercatInterface

open Interleave

variable {α : Type}

/-- A block with a local `EthercatBus`: the bus is destroyed however the block ends. -/
def withBus (block : P α) : P α := do
  match ← block.attempt with
  | .ok x => do
    destroyBus .none
    pure x
  | .error e => do
    destroyBus .none
    Prog.throw e

/-- What is printed of an SDO: its entry, and what has been read of it and of its sub entries. -/
structure PrintedSdo where
  sdo : SDOEntry
  value : Option String := none
  subValues : List (Option String) := []

/-- What is printed of a device. -/
structure PrintedDevice where
  info : DeviceInfo
  sdos : List PrintedSdo := []

section Handlers

variable (showReal : List UInt8 → String) (interface : String)

/-- `handle_scan`. -/
def handleScan : P (List PrintedDevice) := withBus do
  let _ ← initializeBus { interface }
  let devices ← scan
  pure (devices.map fun info => { info })

/-- The value of an SDO, if it is to be read. -/
def readValue (readSdos : Bool) (id : DeviceId) (index subIndex dataType : ℕ) : P (Option String) :=
  if readSdos then do
    let value ← sdoPrintHelper showReal id index subIndex dataType
    pure (some value)
  else pure none

/-- An SDO without sub entries has a value of its own. -/
def printSdo (readSdos : Bool) (id : DeviceId) (sdo : SDOEntry) : P PrintedSdo := do
  let value ← readValue showReal (readSdos && sdo.subEntries.isEmpty) id sdo.index 0 sdo.dataType
  let subValues ← Prog.foldEach sdo.subEntries (fun values sub => do
    let value ← readValue showReal readSdos id sdo.index sub.index sub.dataType
    pure (values ++ [value])) []
  pure { sdo, value, subValues }

/-- `handle_sdo`, of one device. -/
def printDevice (readSdos : Bool) (info : DeviceInfo) : P PrintedDevice := do
  let od ← readOdFromDevice info.id true
  let sdos ← Prog.foldEach od (fun sdos sdo => do
    let printed ← printSdo showReal readSdos info.id sdo
    pure (sdos ++ [printed])) []
  pure { info, sdos }

/-- `handle_sdo`. -/
def handleSdo (readSdos : Bool) : P (List PrintedDevice) := withBus do
  let _ ← initializeBus { interface }
  let devices ← scan
  Prog.foldEach devices (fun listing info => do
    let printed ← printDevice showReal readSdos info
    pure (listing ++ [printed])) []

/-- The verbs that need a bus. -/
inductive Verb
  | scan
  | sdo (readSdos : Bool)
  deriving DecidableEq

/-- The handler of a verb. -/
def Verb.handler : Verb → P (List PrintedDevice)
  | .scan => handleScan interface
  | .sdo readSdos => handleSdo showReal interface readSdos

/-- `main`: its exit code, and what it has listed if that is `0`. -/
def scannerMain (verb : Verb) : P (ℤ × List PrintedDevice) :=
  Prog.tryCatch (do
    let listing ← verb.handler showReal interface
    pure (0, listing)) fun e =>
      if e.isStd then pure (-2, []) else Prog.crash

end Handlers

end EthercatInterface
