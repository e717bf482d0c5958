import EthercatInterface.Lib.Machine
import EthercatInterface.Proof.Footprint

/-!
# The lifecycle of a bus, abstractly

A bus is a state, a list of devices, and three logs: when its interface was opened
and closed (`port`), which lifecycle callbacks each device has received (`calls`),
and how the destructor found the device list (`swept`). `Core` is this view and
`lifecycle` the machine on it; process data, mailboxes and diagnostics are gone.
`core_simulates` relates it to the backend, action by action.
-/

namespace EthercatInterface

open Interleave

/-! ## The logs -/

inductive PortEvent
  | opened | closed
  deriving DecidableEq

def portEvent : (a : Act) → Ans a → Option PortEvent
  | .ecxInit, ec => if (0 : ℤ) < ec then some .opened else none
  | .ecxClose, _ => some .closed
  | _, _ => none

/-- The successful `ecx_init` and the `ecx_close` calls, newest first. -/
def port (h : List Ev) : List PortEvent := h.filterMap fun e => portEvent e.act e.ans

def callbackOf (p : Addr) : Act → Option Hook
  | .callback h q => if q = p then some h else none
  | _ => none

/-- The lifecycle callbacks device `p` has received, oldest first. -/
def calls (h : List Ev) (p : Addr) : List Hook := (h.filterMap fun e => callbackOf p e.act).reverse

def failedDiscovery : (a : Act) → Ans a → Bool
  | .ecxConfigInit, n => (n : ℤ) ≤ 0
  | _, _ => false

/-- Some `ecx_config_init`, on an interface just opened, found no devices. -/
def discoveryFailed (h : List Ev) : Bool := h.any fun e => failedDiscovery e.act e.ans

def isInitialization : Act → Bool
  | .done .initializeBus true => true
  | _ => false

/-- Some `initialize()` has returned. -/
def initSucceeded (h : List Ev) : Bool := h.any fun e => isInitialization e.act

def sweep : (a : Act) → Ans a → Option (List Addr)
  | .devices .clearBus, l => some l
  | _, _ => none

/-- The devices whose `bus_` the destructor has cleared, once it has run. -/
def swept (h : List Ev) : Option (List Addr) := h.findSome? fun e => sweep e.act e.ans

/-! ## The machine -/

@[ext] structure Core where
  state : BusState
  devices : List Addr
  devCount : ℕ
  alive : Bool
  bus : Addr → Bool
  port : List PortEvent
  calls : Addr → List Hook
  discoveryFailed : Bool
  initialized : Bool
  swept : Option (List Addr)

namespace Core

def setState (c : Core) (s : BusState) : Core := { c with state := s }

def emplace (c : Core) : Core :=
  { c with
    devices := c.devices ++ [c.devCount]
    devCount := c.devCount + 1
    bus := Function.update c.bus c.devCount true }

def clear (c : Core) : Core := { c with devices := [] }

def clearBus (c : Core) (p : Addr) : Core := { c with bus := Function.update c.bus p false }

/-- `ecx_init` has returned `ec`. -/
def openPort (c : Core) (ec : ℤ) : Core :=
  if 0 < ec then { c with port := .opened :: c.port } else c

/-- `ecx_config_init` has returned `n`. -/
def discover (c : Core) (n : ℤ) : Core := if n ≤ 0 then { c with discoveryFailed := true } else c

def close (c : Core) : Core := { c with port := .closed :: c.port }

/-- Device `p` receives callback `h`. -/
def notify (h : Hook) (c : Core) (p : Addr) : Core :=
  { c with calls := Function.update c.calls p (c.calls p ++ [h]) }

def perform (c : Core) : (a : Act) → Ans a → Core
  | .updateBusState s, _ => c.setState s
  | .emplaceDevice _, _ => c.emplace
  | .clearDevices, _ => c.clear
  | .clearBus p, _ => c.clearBus p
  | .destroyBackend, _ => { c.clear with alive := false }
  | .callback h p, _ => c.notify h p
  | .ecxInit, ec => c.openPort ec
  | .ecxClose, _ => c.close
  | .ecxConfigInit, n => c.discover n
  | .done .initializeBus true, _ => { c with initialized := true }
  | .devices .clearBus, l => { c with swept := some l }
  | _, _ => c

def answers (c : Core) : (a : Act) → Ans a → Prop
  | .getBusState, s => s = c.state
  | .devices _, l => l = c.devices
  | .deref p, r => r.isSome = decide (p ∈ c.devices)
  | .busPtr p, b => b = c.bus p
  | .busAlive, b => b = c.alive
  | _, _ => True

end Core

/-- The lifecycle of a bus as a machine. -/
def lifecycle : Machine Act Ans Core := ⟨Core.answers, Core.perform⟩

/-- The lifecycle view of a world. -/
def core (w : W) : Core where
  state := w.st.state
  devices := w.st.devices
  devCount := w.st.devCount
  alive := w.st.alive
  bus p := (w.st.dev p).bus
  port := EthercatInterface.port w.hist
  calls := EthercatInterface.calls w.hist
  discoveryFailed := EthercatInterface.discoveryFailed w.hist
  initialized := initSucceeded w.hist
  swept := EthercatInterface.swept w.hist

theorem bus_modifyDev (s : St) (p q : Addr) (f : EthercatDevice → EthercatDevice) :
    ((s.modifyDev p f).dev q).bus = if q = p then (f (s.dev p)).bus else (s.dev q).bus := by
  by_cases h : q = p
  · subst h; simp [St.modifyDev]
  · simp [St.modifyDev, h]

theorem calls_cons (e : Ev) (h : List Ev) (p : Addr) :
    calls (e :: h) p = calls h p ++ (callbackOf p e.act).toList := by
  simp only [calls, List.filterMap_cons]
  cases callbackOf p e.act <;> simp

/-- The view does not depend on the process data of a device. -/
theorem core_modifyDev {s : St} {p : Addr} {f : EthercatDevice → EthercatDevice} {h : List Ev}
    (hf : ∀ d, (f d).bus = d.bus) : core ⟨s.modifyDev p f, h⟩ = core ⟨s, h⟩ := by
  ext1 <;> try rfl
  funext q
  refine (bus_modifyDev s p q f).trans ?_
  rw [hf]
  split
  · next h => rw [h]; rfl
  · rfl

theorem core_after (w : W) (t : ℕ) (a : Act) (i : Env) :
    core (w.after exec t a i) = (core w).perform a (exec a i w.st).1 := by
  -- the rest of the actions write to a function on the devices, or branch on what is answered
  cases a <;> try rfl
  case done o ok => cases o <;> cases ok <;> rfl
  case devices l => cases l <;> rfl
  case emplaceDevice info =>
    ext1 <;> try rfl
    funext q
    simp only [core, World.after_st, exec, Core.perform, Core.emplace, bus_modifyDev,
      Function.update_apply]
  case clearBus p =>
    ext1 <;> try rfl
    funext q
    simp only [core, World.after_st, exec, Core.perform, Core.clearBus, bus_modifyDev,
      Function.update_apply]
  case callback h p =>
    ext1 <;> try rfl
    funext q
    refine (calls_cons _ _ q).trans ?_
    by_cases hq : q = p
    · subst hq; simp [callbackOf, Core.perform, Core.notify, core]
    · simp [callbackOf, Core.perform, Core.notify, core, hq, Ne.symm hq]
  case ecxInit =>
    by_cases hr : 0 < i.ret <;>
      ext1 <;> simp [core, exec, Core.perform, Core.openPort, port, portEvent, hr] <;> rfl
  case ecxConfigInit =>
    by_cases hr : i.ret ≤ 0 <;>
      ext1 <;> simp [core, exec, Core.perform, Core.discover, discoveryFailed, failedDiscovery, hr] <;> rfl
  case ecxStatecheck id s =>
    simp only [Core.perform, exec, World.after]
    split <;> rfl
  all_goals exact core_modifyDev fun _ => rfl

/-- **The backend's actions are those of the lifecycle**, seen through `core`. -/
theorem core_simulates (ok : Guard Act Ans Env St) (t : ℕ) :
    Simulates exec ok t lifecycle core := by
  refine fun a i w _ => ⟨?_, core_after w t a i⟩
  cases a <;> first | exact trivial | exact rfl | skip
  rename_i p
  simp only [lifecycle, Core.answers, exec, core]
  split <;> simp [*]

end EthercatInterface
