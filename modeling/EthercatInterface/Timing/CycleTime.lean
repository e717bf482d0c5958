import EthercatInterface.Lifecycle.Run
import EthercatInterface.Proof.Sections

/-!
# Remainders by the cycle time

`DCSyncController::update` takes a remainder by the cycle time, which comes from the
parameters of the bus, where it is zero by default. Neither the constructors nor `startup`
test it: `startup` looks for devices with distributed clocks, and is content when it finds one.

`remainder_iff`: no operation of any run dies of a remainder by zero, **exactly for the
parameters that leave distributed clocks off or give a cycle time**.
-/

namespace EthercatInterface

open Interleave

variable {ps : Parameters} {hk : UserCode} {w : W}

/-- The DC time has just been handed to `DCSyncController::update`. -/
def Dividing (w : W) : Prop := ∃ t x h, w.hist = ⟨t, .dcTime, x⟩ :: h

/-- No operation dies of the remainder that `DCSyncController::update` takes. -/
def NeverDividesByZero (ps : Parameters) : Prop :=
  ∀ (w w' : W) (o : Op) (hk : UserCode), Run ps free (fun _ => True) w → o.Allowed w.st → hk.Ok ps →
    Exec exec free 0 (o.invoke ps hk) w .crash w' → ¬Dividing w'

/-! ## With a cycle time -/

section Clocked

variable (hps : ps.dcEnabled = false ∨ ps.dcCycleTime ≠ 0)

theorem not_dividing {a : Act} (ha : a ≠ .dcTime) (i : Env) : ¬Dividing (w.after exec 0 a i) := by
  rintro ⟨t, x, h, he⟩
  rw [World.after_hist] at he
  injection he with he
  injection he with _ he
  exact ha he

/-- The program does not end in the middle of a remainder. -/
abbrev Divides {α : Type} (p : P α) : Prop := Maintains free (fun w => ¬Dividing w) (fun w => ¬Dividing w) p

theorem divides_uses {α : Type} {p : P α} (hp : p.Uses fun a => a ≠ .dcTime) : Divides p :=
  maintains_uses (fun _ h => h) (fun _ ha i _ _ _ => not_dividing ha i) hp

theorem ne_dcTime {a : Act} (h : a.cycles = false) : a ≠ .dcTime := by
  rintro rfl
  cases h

include hps

/-- The remainder is taken by a cycle time that is not zero. -/
theorem divides_dcCorrection : Divides (dcCorrection ps) := by
  unfold dcCorrection
  split
  · next he =>
    have hc : ps.dcCycleTime ≠ 0 := hps.resolve_left (by simp [he])
    refine (divides_uses (uses_act (by simp))).bind fun b => ?_
    split
    · refine fun w _ => wp_bind (wp_perform fun i _ => ⟨trivial, ?_⟩)
      refine wp_bind (wp_when (fun h => absurd h (by simpa using hc)) fun _ => ?_)
      exact wp_bind (wp_perform fun j _ => ⟨trivial, not_dividing (by simp) j⟩)
    · exact maintains_pure
  · exact maintains_pure

theorem divides_invoke (hok : hk.Ok ps) (o : Op) : Divides (o.invoke ps hk) := by
  refine maintains_invoke (fun _ h => h) (fun _ ha i _ _ _ => not_dividing (ne_dcTime ha) i) (.withLock ?_)
    (fun wkc e => ?_) (divides_uses ?_) hok o
  · refine .bind (divides_uses (uses_act (by simp))) fun _ => .bind (divides_uses (uses_act (by simp)))
      fun _ => .bind (divides_uses (uses_act (by simp))) fun _ => ?_
    exact (divides_dcCorrection hps).bind fun _ => maintains_pure
  · exact divides_uses (fits_updateDiagnosticsFast (fun _ h => ne_dcTime h.spare.acyclic) (by simp)
      (by simp) wkc e).uses
  · exact (fits_updateDiagnosticsSlow (fun _ h => ne_dcTime h.spare.acyclic) (by simp) (by simp) (by simp)).uses

/-- Between two operations no remainder is being taken. -/
theorem run_notDividing (hr : Run ps free (fun _ => True) w) : ¬Dividing w := by
  refine hr.maintained ?_ fun o hk hok _ => divides_invoke hps hok o
  rintro ⟨t, x, h, he⟩
  cases he

end Clocked

/-! ## Without one -/

/-- Distributed clocks, and no cycle time. -/
def Parameters.unclocked (ps : Parameters) : Parameters := { ps with dcEnabled := true, dcCycleTime := 0 }

/-- A bus with one device, in state `s`. -/
structure OneDevice (s : BusState) (v : St) : Prop where
  alive : v.alive = true
  state : v.state = s
  devices : v.devices = [0]
  bus : (v.dev 0).bus = true
  id : (v.dev 0).deviceInfo.id = 1
  count : v.context.ecatSlavecount = 1
  slaves : v.latestDiagnostics.slaves.length = 1

/-- A device that has distributed clocks and the buffer for its outputs. -/
structure Clocked (s : BusState) (v : St) : Prop extends OneDevice s v where
  hasdc : (v.slave 0).hasdc = true
  sized : (v.dev 0).rxPdo.length = (v.slave 1).Obytes

section Unclocked

variable (ps)

-- a run is executed symbolically: the environment is given, the state known only as far as assumed
attribute [local simp] run exec act Op.invoke Op.body Prog.attempt Prog.bind Prog.perform Prog.when
  Prog.raiseIf Prog.forEach Prog.foldEach Prog.withLock Prog.resume stateIn forDevices onCallback
  crashUnless UserCode.none St.slave Parameters.unclocked

/-- The device has distributed clocks, and process data that fill the buffer. -/
def startupDc : Call :=
  { op := .startup
    env := List.replicate 7 {} ++
      [{ ret := toInt ps.pdoBufferSize }, { flag := true, slaves := fun _ => { hasdc := true } }] }

theorem run_startupDc (h : OneDevice .initialized w.st) : ∃ w',
    run exec 0 (Op.startup.invoke ps.unclocked .none) (startupDc ps).env w = (.ret (), w', []) ∧
      Clocked .configured w'.st := by
  obtain ⟨h0, h1, h2, h3, h4, h5, h6⟩ := h
  simp [startupDc, startup, mapPdos, setupDc, slaveIds, onPdoConfigured, h1, h2, h4, h5, h6,
    St.setSlavelist, St.modifyStatus, St.modifyDev]
  constructor
  · constructor <;> simp [*]
  · rfl
  · simp [length_resize]

theorem run_activateDc (h : Clocked .configured w.st) : ∃ w',
    run exec 0 (Op.activate.invoke ps.unclocked .none) activateOne.env w = (.ret (), w', []) ∧
      Clocked .activated w'.st := by
  obtain ⟨⟨h0, h1, h2, h3, h4, h5, h6⟩, h7, h8⟩ := h
  simp only [St.slave] at h7 h8
  simp [activateOne, activate, setDeviceTargetState, waitForDeviceTargetState, hasDeviceOnBus, lowNibble,
    EC_STATE_SAFE_OP, h1, h2, h4, h5, St.setSlavelist, St.modifySlave]
  constructor
  · constructor <;> simp [*]
  · simp [h7]
  · simp [h8]

/-- The first cycle takes a remainder by zero. -/
theorem run_cycleDc (h : Clocked .activated w.st) : ∃ w',
    run exec 0 (Op.updateRt.invoke ps.unclocked .none) [] w = (.crash, w', []) ∧ Dividing w' := by
  obtain ⟨⟨h0, h1, h2, h3, h4, h5, h6⟩, h7, h8⟩ := h
  simp only [St.slave] at h7 h8
  simp [void, updateRt, internalPdoUpdate, updateWrite, writeRxPdo, checkPdoAccess, hasDeviceOnBus,
    exchange, dcCorrection, St.modifyDev, h1, h2, h3, h4, h5, h7, h8, Dividing]

end Unclocked

section Unclocked

variable (ps)

theorem oneDevice_initializeOne : OneDevice .initialized (world [initializeOne]).st := by
  constructor <;> rfl

theorem dividesByZero : ¬NeverDividesByZero ps.unclocked := by
  intro h
  have none : UserCode.none.Ok ps.unclocked := UserCode.none_ok _
  obtain ⟨w₁, he₁, h₁⟩ := run_startupDc ps oneDevice_initializeOne
  have hr₁ : Run ps.unclocked free (fun _ => True) w₁ := by
    have he := run_exec exec 0 (Op.startup.invoke ps.unclocked .none) (startupDc ps).env (world [initializeOne])
    rw [he₁] at he
    exact (run_initializeOne trivial).call (o := .startup) rfl none trivial he (by simp)
  obtain ⟨w₂, he₂, h₂⟩ := run_activateDc ps h₁
  have hr₂ : Run ps.unclocked free (fun _ => True) w₂ := by
    have he := run_exec exec 0 (Op.activate.invoke ps.unclocked .none) activateOne.env w₁
    rw [he₂] at he
    exact hr₁.call (o := .activate) h₁.alive none trivial he (by simp)
  obtain ⟨w₃, he₃, h₃⟩ := run_cycleDc ps h₂
  have he := run_exec exec 0 (Op.updateRt.invoke ps.unclocked .none) [] w₂
  rw [he₃] at he
  exact h w₂ w₃ .updateRt .none hr₂ h₂.alive none he h₃

end Unclocked

/-- **No remainder by zero**, exactly for the parameters that leave distributed clocks off or
give a cycle time. -/
theorem remainder_iff (ps : Parameters) :
    NeverDividesByZero ps ↔ ps.dcEnabled = false ∨ ps.dcCycleTime ≠ 0 := by
  refine ⟨fun h => ?_, fun hps w w' o hk hr _ hok he => ?_⟩
  · by_contra hn
    obtain ⟨he, hc⟩ := not_or.1 hn
    have hps : ps.unclocked = ps := by
      obtain ⟨⟩ := ps
      simp_all [Parameters.unclocked]
    exact dividesByZero ps (hps ▸ h)
  · exact wp_sound he (divides_invoke hps hok o w (run_notDividing hps hr))

/-- Distributed clocks with the default cycle time. -/
theorem remainder_byZero : ¬∀ ps, NeverDividesByZero ps := fun h =>
  dividesByZero {} (h { dcEnabled := true })

end EthercatInterface
