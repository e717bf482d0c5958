import EthercatInterface.Spec.Backend

/-!
# Acyclic accesses of the backend

SDO and FoE transfers and the object dictionary, which go through the mailbox of a
slave, and plain register accesses. A read returns the bytes it leaves in the
caller's buffer next to its result.
-/

namespace EthercatInterface

open Interleave

/-- The checks an access begins with; `what` it was going to perform. -/
def checkAccess (what : String) (id : DeviceId) : P Unit := do
  Prog.raiseIf (← stateIn [.preInit, .shutdown])
    (soemError ("Backend not initialized - cannot perform " ++ what ++ " operations"))
  Prog.raiseIf (!(← hasDeviceOnBus id)) (deviceNotFound (notFoundOnBus id))

/-! ## SDO -/

/-- `read_sdo_untyped` into a buffer of `n` bytes. -/
def readSdoUntyped (n : ℕ) (id : DeviceId) (index subIndex : ℕ) (checkSize : Bool) :
    P (SDOReadResult × List UInt8) :=
  Prog.withLock [.mailbox] do
    checkAccess "SDO" id
    drainMailboxEvents
    let transfer ← act (.ecxSDOread id index subIndex n)
    let access : MailboxAccess :=
      { deviceId := id, protocol := .coe, index := some index, subIndex := some subIndex }
    let finished ← finishMailboxAccess access transfer.wkc
    if finished.2 then
      pure ({ success := false, actualSizeRead := transfer.size, workingCounter := transfer.wkc
              mailboxDiagnostics := finished.1 }, transfer.data)
    else do
      Prog.raiseIf (checkSize && toInt n ≠ transfer.size)
        (soemErrorCode "SDORead size mismatch" transfer.size)
      pure ({ success := true, actualSizeRead := transfer.size, workingCounter := transfer.wkc
              mailboxDiagnostics := finished.1 }, transfer.data)

/-- `read_sdo_untyped_async`. -/
def readSdoUntypedAsync (hk : UserCode) (n : ℕ) (id : DeviceId) (index subIndex : ℕ)
    (checkSize : Bool) : P Unit := do
  hk.sdoReadCallback (← readSdoUntyped n id index subIndex checkSize)

/-- `write_sdo_untyped`. -/
def writeSdoUntyped (data : List UInt8) (id : DeviceId) (index subIndex : ℕ) : P SDOWriteResult :=
  Prog.withLock [.mailbox] do
    checkAccess "SDO" id
    drainMailboxEvents
    let wkc ← act (.ecxSDOwrite id index subIndex data)
    let access : MailboxAccess :=
      { deviceId := id, protocol := .coe, index := some index, subIndex := some subIndex }
    let finished ← finishMailboxAccess access wkc
    pure { success := !finished.2, workingCounter := wkc, mailboxDiagnostics := finished.1 }

/-- `write_sdo_untyped_async`. -/
def writeSdoUntypedAsync (hk : UserCode) (data : List UInt8) (id : DeviceId) (index subIndex : ℕ) :
    P Unit := do
  hk.sdoWriteCallback (← writeSdoUntyped data id index subIndex)

/-! ## FoE -/

/-- `foe_write`. -/
def foeWrite (id : DeviceId) (fileName : String) (data : List UInt8) : P FoEWriteResult :=
  Prog.withLock [.mailbox] do
    checkAccess "file" id
    drainMailboxEvents
    let wkc ← act (.ecxFOEwrite id fileName data)
    let finished ← finishFoeAccess { deviceId := id, protocol := .foe } wkc
    pure { success := !finished.2, workingCounter := wkc, mailboxDiagnostics := finished.1 }

/-- `static_cast<std::size_t>`, of an `int`. -/
def toSize (x : ℤ) : ℕ := (x % 2 ^ 64).toNat

/-- `foe_read` into a buffer of `n` bytes. -/
def foeRead (id : DeviceId) (fileName : String) (n : ℕ) : P (FoEReadResult × List UInt8) :=
  Prog.withLock [.mailbox] do
    checkAccess "file" id
    drainMailboxEvents
    let transfer ← act (.ecxFOEread id fileName n)
    let finished ← finishFoeAccess { deviceId := id, protocol := .foe } transfer.wkc
    if finished.2 then
      pure ({ success := false, workingCounter := transfer.wkc, actualReadSize := 0
              mailboxDiagnostics := finished.1 }, [])
    else
      pure ({ success := true, workingCounter := transfer.wkc
              actualReadSize := min (toSize transfer.size) n
              mailboxDiagnostics := finished.1 }, transfer.data.take (min (toSize transfer.size) n))

/-! ## Object dictionary -/

/-- The entry of the object at position `i` of the list. -/
def readOdEntry (id : DeviceId) (index i : ℕ) : P SDOEntry := do
  let d ← act (.ecxReadODdescription id i)
  pure { index := index, objType := d.objectCode, dataType := d.dataType
         countSubIndices := d.maxSub, name := d.name }

/-- The sub entries of a list of descriptions. -/
def subEntriesOf (oeList : OeList) : List SDOSubEntry :=
  (List.range oeList.entries).map fun s => {
    index := s
    name := (oeList.slot s).name
    dataType := (oeList.slot s).dataType
    size := (oeList.slot s).bitLength / 8 }

/-- Add the sub entries to an entry of the list `od`. -/
def expandEntry (id : DeviceId) (od : List ℕ) (obj : SDOEntry) : P SDOEntry :=
  if obj.objType = SDOObjectCode.var then pure obj
  else
    match od.findIdx? (· = obj.index) with
    | none => pure { obj with subEntries := [] }
    | some itemIndex => do
      -- some objects do not support this description
      match ← act (.ecxReadOE id itemIndex) with
      | none => pure { obj with subEntries := [] }
      | some oeList => pure { obj with subEntries := subEntriesOf oeList }

/-- `read_od_from_device`. -/
def readOdFromDevice (id : DeviceId) (fullRead : Bool) : P (List SDOEntry) := do
  Prog.raiseIf (← stateIn [.preInit, .shutdown])
    (soemError "Od cannot be read in state PreInit or Shutdown")
  Prog.raiseIf (!(← hasDeviceOnBus id)) (soemError (notFoundOnBus id))
  Prog.withLock [.mailbox] do
    match ← act (.ecxReadODlist id) with
    | none => Prog.throw (deviceNotFound "Failed to read OD list from device")
    | some od => do
      let result ← Prog.foldEach od.zipIdx (fun result x => do
        let entry ← readOdEntry id x.1 x.2
        pure (result ++ [entry])) []
      if fullRead then
        Prog.foldEach result (fun expanded obj => do
          let entry ← expandEntry id od obj
          pure (expanded ++ [entry])) []
      else pure result

/-! ## Registers -/

def sizeTooLarge : Exn := .logicError "Requested data size too large"

/-- `read_register_untyped` of `n` bytes; its `check_size` is unused. -/
def readRegisterUntyped (n : ℕ) (id : DeviceId) (address : ℕ) : P RegisterReadResult := do
  checkAccess "register" id
  Prog.raiseIf (n > 65535) sizeTooLarge
  let configadr ← act (.configadr id)
  let read ← act (.ecxFPRD configadr address n)
  pure { success := read.1 > 0, workingCounter := read.1, actualSizeRead := n, data := read.2 }

/-- `write_register_untyped`. -/
def writeRegisterUntyped (data : List UInt8) (id : DeviceId) (address : ℕ) :
    P RegisterWriteResult := do
  checkAccess "register" id
  Prog.raiseIf (data.length > 65535) sizeTooLarge
  let configadr ← act (.configadr id)
  let wkc ← act (.ecxFPWR configadr address data)
  pure { success := wkc > 0, workingCounter := wkc }

end EthercatInterface
