import EthercatInterface.Spec.Access
import EthercatInterface.Spec.Update

/-!
# The public interface

`EthercatBus` and `EthercatDevice`: what users call, and `Op.body`, what each
operation runs. A device that outlives the bus still has its operations; those that
need the bus go through `bus_`.
-/

namespace EthercatInterface

open Interleave

/-! ## `EthercatBus` -/

/-- `EthercatBus::change_device_state`. -/
def changeDeviceState (id : DeviceId) (targetState : EthercatDeviceState) (blocking : Bool) :
    P Bool := do
  let soemState := mapToSoemDeviceState targetState
  let res ← setDeviceTargetState id soemState
  if !blocking || !res then pure res
  else waitForDeviceTargetState id soemState

/-- `BackendImpl::~BackendImpl`: an exception that is no `std::exception` leaves a destructor. -/
def destroyBackend (hk : UserCode) : P Unit := do
  Prog.tryCatch (shutdown hk) fun e => if e.isStd then pure () else Prog.crash
  act .destroyBackend

/-- `EthercatBus::~EthercatBus`, which loops over a copy of `devices_`. -/
def destroyBus (hk : UserCode) : P Unit := do
  forDevices .clearBus fun p _ => act (.clearBus p)
  destroyBackend hk

/-! ## `EthercatDevice` -/

def busNotInitialized : Exn := .invalidArgument "Bus had not been initialized yet"

/-- An operation of a device that runs `k` on the bus: it throws without a bus, and
following a pointer to a destroyed bus is undefined behaviour. -/
def throughBus {α : Type} (p : Addr) (k : DeviceId → P α) : P α := do
  Prog.raiseIf (!(← act (.busPtr p))) busNotInitialized
  crashUnless (← act .busAlive)
  k (← act (.deviceId p))

/-- `EthercatDevice::sdo_read`, of a type of `n` bytes. -/
def deviceSdoRead (p : Addr) (n index subIndex : ℕ) (checkSize : Bool) :
    P (SDOReadResult × List UInt8) :=
  throughBus p fun id => readSdoUntyped n id index subIndex checkSize

/-- `EthercatDevice::sdo_write`. -/
def deviceSdoWrite (p : Addr) (data : List UInt8) (index subIndex : ℕ) : P SDOWriteResult :=
  throughBus p fun id => writeSdoUntyped data id index subIndex

/-- `EthercatDevice::read_od`. -/
def deviceReadOd (p : Addr) (fullRead : Bool) : P (List SDOEntry) :=
  throughBus p fun id => readOdFromDevice id fullRead

/-- `EthercatDevice::change_device_state`. -/
def deviceChangeDeviceState (p : Addr) (targetState : EthercatDeviceState) (blocking : Bool) :
    P Bool :=
  throughBus p fun id => changeDeviceState id targetState blocking

/-- `EthercatDevice::foe_write`. -/
def deviceFoeWrite (p : Addr) (fileName : String) (data : List UInt8) : P FoEWriteResult :=
  throughBus p fun id => foeWrite id fileName data

/-- `EthercatDevice::foe_read`. -/
def deviceFoeRead (p : Addr) (fileName : String) (n : ℕ) : P (FoEReadResult × List UInt8) :=
  throughBus p fun id => foeRead id fileName n

/-- `EthercatDevice::get_generic_rx_pdo` into a buffer of `n` bytes. -/
def getGenericRxPdo (p : Addr) (n : ℕ) : P (List UInt8) := do
  Prog.raiseIf (!(← act (.pdoInitialized p)))
    (.deviceConfigurationError "Cannot access rx pdo - PDOs have not been configured yet")
  Prog.raiseIf (n ≠ (← act (.rxSize p))) (.deviceConfigurationError "Size mismatch")
  Prog.withLock [.device p] (act (.getRxPdo p))

/-- `EthercatDevice::set_generic_rx_pdo`. -/
def setGenericRxPdo (p : Addr) (rx : List UInt8) : P Unit := do
  Prog.raiseIf (!(← act (.pdoInitialized p)))
    (.deviceConfigurationError "Cannot access rx pdo - PDOs have not been configured yet")
  Prog.raiseIf (rx.length ≠ (← act (.rxSize p)))
    (.deviceConfigurationError "RX PDO size mismatch")
  Prog.withLock [.device p] (act (.setRxPdo p rx))

/-- `EthercatDevice::get_generic_tx_pdo` into a buffer of `n` bytes. -/
def getGenericTxPdo (p : Addr) (n : ℕ) : P (List UInt8) := do
  Prog.raiseIf (!(← act (.pdoInitialized p)))
    (.deviceConfigurationError "Cannot access tx pdo - PDOs have not been configured yet")
  Prog.raiseIf (n ≠ (← act (.txSize p))) (.deviceConfigurationError "Size mismatch")
  Prog.withLock [.device p] (act (.getTxPdo p))

/-! ## Operations -/

/-- Run for its effect. -/
def void {α : Type} (p : P α) : P Unit := do
  let _ ← p
  pure ()

/-- What an operation runs. -/
def Op.body (ps : Parameters) (hk : UserCode) : Op → P Unit
  | .initializeBus => void (EthercatInterface.initializeBus ps)
  | .acquireDevice id => void (EthercatInterface.acquireDevice id)
  | .scan => void EthercatInterface.scan
  | .scanDevice id => void (EthercatInterface.scanDevice id)
  | .readOd id fullRead => void (readOdFromDevice id fullRead)
  | .startup => EthercatInterface.startup ps hk
  | .activate => EthercatInterface.activate hk
  | .shutdown => EthercatInterface.shutdown hk
  | .updateRt => void (EthercatInterface.updateRt ps)
  | .updateService => void (EthercatInterface.updateService ps hk)
  | .hasDevice id => void (EthercatInterface.hasDevice id)
  | .hasDeviceOnBus id => void (EthercatInterface.hasDeviceOnBus id)
  | .readSdoUntyped n id i s c => void (EthercatInterface.readSdoUntyped n id i s c)
  | .readSdoUntypedAsync n id i s c => EthercatInterface.readSdoUntypedAsync hk n id i s c
  | .writeSdoUntyped data id i s => void (EthercatInterface.writeSdoUntyped data id i s)
  | .writeSdoUntypedAsync data id i s => EthercatInterface.writeSdoUntypedAsync hk data id i s
  | .readRxPdo id => void (EthercatInterface.readRxPdo id)
  | .writeRxPdo id data => EthercatInterface.writeRxPdo id data
  | .readTxPdo id n => void (EthercatInterface.readTxPdo id n)
  | .changeDeviceState id s b => void (EthercatInterface.changeDeviceState id s b)
  | .foeWrite id f data => void (EthercatInterface.foeWrite id f data)
  | .foeRead id f n => void (EthercatInterface.foeRead id f n)
  | .readRegisterUntyped n id a => void (EthercatInterface.readRegisterUntyped n id a)
  | .writeRegisterUntyped data id a => void (EthercatInterface.writeRegisterUntyped data id a)
  | .diagnostics forceUpdate => void (EthercatInterface.diagnostics ps forceUpdate)
  | .destroyBus => EthercatInterface.destroyBus hk
  | .deviceSdoRead p n i s c => void (EthercatInterface.deviceSdoRead p n i s c)
  | .deviceSdoWrite p data i s => void (EthercatInterface.deviceSdoWrite p data i s)
  | .deviceReadOd p fullRead => void (EthercatInterface.deviceReadOd p fullRead)
  | .deviceChangeDeviceState p s b => void (EthercatInterface.deviceChangeDeviceState p s b)
  | .deviceFoeWrite p f data => void (EthercatInterface.deviceFoeWrite p f data)
  | .deviceFoeRead p f n => void (EthercatInterface.deviceFoeRead p f n)
  | .getGenericRxPdo p n => void (EthercatInterface.getGenericRxPdo p n)
  | .setGenericRxPdo p rx => EthercatInterface.setGenericRxPdo p rx
  | .getGenericTxPdo p n => void (EthercatInterface.getGenericTxPdo p n)
  | .releaseDevice p => act (.release p)

/-- A call of an operation, from its start to its return or throw. -/
def Op.invoke (ps : Parameters) (hk : UserCode) (o : Op) : P Unit := do
  act (.call o)
  match ← (o.body ps hk).attempt with
  | .ok _ => act (.done o true)
  | .error e => do
    act (.done o false)
    Prog.throw e

/-- The operations that move the bus through its lifecycle. -/
def Op.lifecycle : Op → Bool
  | .initializeBus | .startup | .activate | .shutdown | .updateService | .destroyBus => true
  | _ => false

/-- The device an operation is called on; the others are called on the bus. -/
def Op.device : Op → Option Addr
  | .deviceSdoRead p .. | .deviceSdoWrite p .. | .deviceReadOd p _
  | .deviceChangeDeviceState p .. | .deviceFoeWrite p .. | .deviceFoeRead p ..
  | .getGenericRxPdo p _ | .setGenericRxPdo p _ | .getGenericTxPdo p _ | .releaseDevice p => some p
  | _ => none

/-- **Code of users**: it calls operations outside the lifecycle and takes decisions of
its own, also on what the calls did. It may throw. -/
inductive User (ps : Parameters) : P Unit → Prop
  | ret : User ps (.pure ())
  | throw (e : Exn) : User ps (.throw e)
  | decide {k : ℤ → P Unit} : (∀ x, User ps (k x)) → User ps ((act .userDecision).bind k)
  | call {o : Op} {hk : UserCode} {k : Except Exn Unit → P Unit} : o.lifecycle = false →
      (∀ r, User ps (hk.sdoReadCallback r)) → (∀ r, User ps (hk.sdoWriteCallback r)) →
      (∀ r, User ps (k r)) → User ps ((o.invoke ps hk).attempt.bind k)

/-- Hooks and callbacks are code of users. -/
structure UserCode.Ok (ps : Parameters) (hk : UserCode) : Prop where
  hook : ∀ h p, User ps (hk.hook h p)
  sdoReadCallback : ∀ r, User ps (hk.sdoReadCallback r)
  sdoWriteCallback : ∀ r, User ps (hk.sdoWriteCallback r)

theorem UserCode.none_ok (ps : Parameters) : UserCode.none.Ok ps :=
  ⟨fun _ _ => .ret, fun _ => .ret, fun _ => .ret⟩

/-- No hook throws. -/
def UserCode.Quiet (hk : UserCode) : Prop := ∀ h p, (hk.hook h p).NoThrow

theorem UserCode.none_quiet : UserCode.none.Quiet := fun _ _ => trivial

/-! ## Single-threaded runs -/

/-- The caller of `o` has the object it calls it on. -/
def Op.Allowed (o : Op) (s : St) : Prop :=
  match o.device with
  | some p => p ∈ s.held
  | none => s.alive = true

/-- The worlds a single thread can reach between two operations, with SOEM behaving as
`ok` says. The hooks may be registered anew for every call; `good` is what they are
assumed to do. Every operation may throw, and the caller goes on. -/
inductive Run (ps : Parameters) (ok : Guard Act Ans Env St) (good : UserCode → Prop) : W → Prop
  | start : Run ps ok good ⟨{}, []⟩
  | call {w w' : W} {o : Op} {hk : UserCode} {out : Outcome Exn Unit} : Run ps ok good w →
      o.Allowed w.st → hk.Ok ps → good hk → Exec exec ok 0 (o.invoke ps hk) w out w' →
      out ≠ .crash → Run ps ok good w'

end EthercatInterface
