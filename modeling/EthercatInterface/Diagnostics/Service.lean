import EthercatInterface.Executor.Rounds

/-!
# The end of the service thread

The executor ends its service thread for good when `update_service` returns `false`. What it
returns outside `Activated` depends on the diagnostics options alone; what a tick does, the
refresh of the link and the drain of the error list, does not.

`endsIdle_iff`: a bus whose service has ended would not have been changed by it, and the bus of an
executor stays served, **exactly for the options with which it does not end**.
-/

namespace EthercatInterface

open Interleave

/-- After `update_service` has returned `false`, it changes neither the state of the bus nor the
link nor the mailbox counters. -/
def EndsIdle (ps : Parameters) : Prop :=
  ∀ (w w₁ w₂ : W) (hk hk' : UserCode) (out : Outcome Exn Bool), Run ps free (fun _ => True) w →
    w.st.alive = true → hk.Ok ps → hk'.Ok ps → Exec exec free 0 (updateService ps hk) w (.ret false) w₁ →
    Exec exec free 0 (updateService ps hk') w₁ out w₂ →
    w₂.st.state = w₁.st.state ∧ w₂.st.latestDiagnostics.bus.linkUp = w₁.st.latestDiagnostics.bus.linkUp ∧
      w₂.st.mailboxStatus = w₁.st.mailboxStatus

/-- **The service ends when it has nothing left to do**, and the bus of an executor stays served,
exactly for the options with which the service does not end. -/
theorem endsIdle_iff (ps : Parameters) :
    (EndsIdle ps ↔ ps.diagnostics.serves = true) ∧ (KeepsServing ps ↔ ps.diagnostics.serves = true) := by
  refine ⟨⟨fun h => ?_, fun hd w w₁ w₂ hk hk' out _ _ _ _ he _ => ?_⟩, keepsServing_iff ps⟩
  · by_contra hn
    have hd : ps.diagnostics.serves = false := by simpa using hn
    obtain ⟨w₁, he₁, hs₁, hl₁⟩ := run_tick (t := 0) (w := world [initializeOne]) hd rfl false
    obtain ⟨w₂, he₂, hs₂, hl₂⟩ := run_tick (t := 0) hd hs₁ true
    have hx₁ := run_exec exec 0 (updateService ps .none) [{}, {}, {}, { flag := false }, {}, {}, {}]
      (world [initializeOne])
    have hx₂ := run_exec exec 0 (updateService ps .none) [{}, {}, {}, { flag := true }, {}, {}, {}] w₁
    rw [he₁] at hx₁
    rw [he₂] at hx₂
    have hlink := (h _ _ _ _ _ _ (run_initializeOne trivial) rfl (UserCode.none_ok ps)
      (UserCode.none_ok ps) hx₁ hx₂).2.1
    rw [hl₁, hl₂] at hlink
    cases hlink
  · have hmore : false = true ∧ _ := wp_sound he.havoc (obeys_updateService hd)
    cases hmore.1

/-! ## A cable that is pulled -/

/-- No diagnostics but those of the cycle. -/
def quietBus : Parameters := { diagnostics := { mailboxDiagnostics := .off } }

/-- `update_service` brings the device into OPERATIONAL; the link is up. -/
def serviceOne : Call :=
  { op := .updateService
    env := List.replicate 4 {} ++ [{ flag := true }] ++ List.replicate 13 {} ++
      [{ slaves := fun _ => { state := EC_STATE_OPERATIONAL } }] }

def operationalWorld : W :=
  (runCalls quietBus ⟨{}, []⟩ [initializeOne, { op := .startup }, activateOne, serviceOne]).getD ⟨{}, []⟩

/-- A tick in `Operational`, with the link `up`. -/
def tick (up : Bool) (w : W) : Outcome Exn Bool × W × List Env :=
  run exec 0 (updateService quietBus .none) [{}, {}, {}, { flag := up }] w

/-- The service of an operational bus ends, and the link that goes down stays up. -/
theorem endsIdle_unplugged : ¬∀ ps, EndsIdle ps := by
  intro h
  have hr : Run quietBus free (fun _ => True) operationalWorld :=
    run_calls quietBus _ (by simp [initializeOne, activateOne, serviceOne, UserCode.none_ok])
  have he : Exec exec free 0 (updateService quietBus .none) operationalWorld (.ret false)
      (tick true operationalWorld).2.1 := run_exec exec 0 _ [{}, {}, {}, { flag := true }] _
  have hlink := (h quietBus operationalWorld _ _ .none .none _ hr (by decide) (UserCode.none_ok _)
    (UserCode.none_ok _) he (run_exec exec 0 _ [{}, {}, {}, { flag := false }] _)).2.1
  exact absurd hlink (by decide)

end EthercatInterface
