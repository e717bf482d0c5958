import EthercatInterface.Spec.Action

/-!
# What an action changes

Each lemma says of one member of the state which actions change it, and how. The
outputs and inputs of a slave are regions of the process image (`Region`): only the
discovery and the mapping move them, and only `startup` resizes the image.
-/

namespace EthercatInterface

open Interleave

/-! ## The state of the bus -/

/-- The state of the bus that an action answers. -/
def loaded : (a : Act) → Ans a → Option BusState
  | .getBusState, s => some s
  | _, _ => none

/-- The state of the bus that an action brings about. -/
def stored : Act → Option BusState
  | .updateBusState s => some s
  | _ => none

/-- Closes the interface. -/
def Act.closes : Act → Bool
  | .ecxClose => true
  | _ => false

theorem state_exec (a : Act) (i : Env) (s : St) :
    (exec a i s).2.state = (stored a).getD s.state := by
  cases a
  case ecxStatecheck id state =>
    simp only [exec]
    split <;> rfl
  all_goals rfl

theorem loaded_exec {a : Act} {i : Env} {s : St} {b : BusState}
    (h : loaded a (exec a i s).1 = some b) : b = s.state := by
  cases a <;> cases h
  rfl

/-! ## Slaves -/

/-- The regions of a slave in the process image. -/
structure Region where
  outputs : ℕ
  Obytes : ℕ
  inputs : ℕ
  Ibytes : ℕ

def Slave.region (v : Slave) : Region := ⟨v.outputs, v.Obytes, v.inputs, v.Ibytes⟩

def St.region (s : St) (id : DeviceId) : Region := (s.slave id).region

/-- The actions that move the regions. -/
def Act.remaps : Act → Bool
  | .ecxConfigInit | .ecxConfigMapGroup => true
  | _ => false

theorem region_modifySlave {s : St} {id : DeviceId} {f : Slave → Slave}
    (hf : ∀ v, (f v).region = v.region) : (s.modifySlave id f).region = s.region := by
  funext j
  unfold St.region St.modifySlave St.setSlavelist St.slave
  by_cases hj : j = id
  · subst hj
    simp only [Function.update_self]
    exact hf _
  · simp only [Function.update_of_ne hj]

/-- **The regions stay where they are.** -/
theorem region_exec {a : Act} (ha : a.remaps = false) (i : Env) (s : St) :
    (exec a i s).2.region = s.region := by
  cases a
  case ecxConfigInit => cases ha
  case ecxConfigMapGroup => cases ha
  case setSlaveState id state => exact region_modifySlave fun _ => rfl
  case ecxStatecheck id state =>
    simp only [exec]
    split
    · rfl
    · exact region_modifySlave fun _ => rfl
  case ecxReadstate =>
    funext j
    unfold St.region
    simp only [exec, St.slave, St.setSlavelist]
    split <;> rfl
  all_goals rfl

def Act.resizes : Act → Bool
  | .resizeIoMap _ => true
  | _ => false

theorem ioMapSize_exec {a : Act} (ha : a.resizes = false) (i : Env) (s : St) :
    (exec a i s).2.ioMapSize = s.ioMapSize := by
  cases a
  case resizeIoMap n => cases ha
  case ecxStatecheck id state =>
    simp only [exec]
    split <;> rfl
  all_goals rfl

/-- Only the discovery counts slaves. -/
theorem slavecount_exec {a : Act} (ha : a.remaps = false) (i : Env) (s : St) :
    (exec a i s).2.context.ecatSlavecount = s.context.ecatSlavecount := by
  cases a
  case ecxConfigInit => cases ha
  case ecxStatecheck id state =>
    simp only [exec]
    split <;> rfl
  all_goals rfl

/-! ## Devices -/

def Act.emplaces : Act → Bool
  | .emplaceDevice _ => true
  | _ => false

/-- Empties `devices_`. -/
def Act.clears : Act → Bool
  | .clearDevices | .destroyBackend => true
  | _ => false

theorem devices_exec {a : Act} (he : a.emplaces = false) (hc : a.clears = false) (i : Env) (s : St) :
    (exec a i s).2.devices = s.devices := by
  cases a
  case ecxStatecheck id state =>
    simp only [exec]
    split <;> rfl
  all_goals first | rfl | (cases he; done) | cases hc

theorem dev_modifyDev (s : St) (q p : Addr) (f : EthercatDevice → EthercatDevice) :
    (s.modifyDev q f).dev p = if p = q then f (s.dev p) else s.dev p := by
  by_cases hpq : p = q
  · subst hpq
    simp [St.modifyDev]
  · simp [St.modifyDev, hpq]

/-- Devices keep their ids. -/
theorem deviceId_exec {a : Act} (ha : a.emplaces = false) (i : Env) (s : St) (p : Addr) :
    ((exec a i s).2.dev p).deviceInfo.id = (s.dev p).deviceInfo.id := by
  cases a
  case emplaceDevice info => cases ha
  case ecxStatecheck id state =>
    simp only [exec]
    split <;> rfl
  all_goals first
    | rfl
    | (simp only [exec, dev_modifyDev]; split <;> rfl)

/-- Sizes the buffers of a device. -/
def Act.rebuffers : Act → Bool
  | .resizeRxPdo _ _ | .resizeTxPdo _ _ => true
  | _ => false

/-- What an action puts into the staging buffer of device `p`. -/
def rxWritten (p : Addr) : Act → Option (List UInt8)
  | .setRxPdo q data => if p = q then some data else none
  | _ => none

/-- What an action puts into the input buffer of device `p`. -/
def txWritten (p : Addr) : Act → Option (List UInt8)
  | .setTxPdo q data => if p = q then some data else none
  | _ => none

theorem rxPdo_exec {a : Act} (he : a.emplaces = false) (hr : a.rebuffers = false) (i : Env) (s : St)
    (p : Addr) : ((exec a i s).2.dev p).rxPdo = (rxWritten p a).getD (s.dev p).rxPdo := by
  cases a
  case ecxStatecheck id state =>
    simp only [exec]
    split <;> rfl
  all_goals first
    | rfl
    | (cases he; done)
    | (cases hr; done)
    | (simp only [exec, rxWritten, dev_modifyDev]; split <;> rfl)

theorem txPdo_exec {a : Act} (he : a.emplaces = false) (hr : a.rebuffers = false) (i : Env) (s : St)
    (p : Addr) : ((exec a i s).2.dev p).txPdo = (txWritten p a).getD (s.dev p).txPdo := by
  cases a
  case ecxStatecheck id state =>
    simp only [exec]
    split <;> rfl
  all_goals first
    | rfl
    | (cases he; done)
    | (cases hr; done)
    | (simp only [exec, txWritten, dev_modifyDev]; split <;> rfl)

/-! ## The process image -/

/-- Puts bytes into the process image. -/
def Act.fills : Act → Bool
  | .copyToOutputs _ _ | .ecxReceiveProcessdata => true
  | _ => false

theorem ioMap_exec {a : Act} (hr : a.resizes = false) (hf : a.fills = false) (i : Env) (s : St) :
    (exec a i s).2.ioMap = s.ioMap := by
  cases a
  case ecxStatecheck id state =>
    simp only [exec]
    split <;> rfl
  all_goals first | rfl | (cases hr; done) | cases hf

/-! ## The mailbox -/

/-- The kind of the event that an action counts. -/
def countedKind : Act → Option MailboxEventKind
  | .countMailboxEvent k => some k
  | _ => none

theorem mailboxStatus_exec (a : Act) (i : Env) (s : St) : (exec a i s).2.mailboxStatus =
    ((countedKind a).map s.mailboxStatus.count).getD s.mailboxStatus := by
  cases a
  case ecxStatecheck id state =>
    simp only [exec]
    split <;> rfl
  all_goals rfl

end EthercatInterface
