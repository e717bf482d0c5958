import EthercatInterface.Lib.Lift
import EthercatInterface.Spec.Bus

/-!
# The executor

`SingleBusExecutor`: one thread spins `update_rt`, another `update_service`, a third
controls them. A `std::jthread` is what its handle tells and how far its function has come;
the function itself is a program of the thread's own. The actions of the executor stand
next to those of the bus (`Interp.both`).

The clocks, the update rates, the timing figures and the log are left out; that they may
throw is not (`outside`).
-/

namespace EthercatInterface

open Interleave

/-- The two threads of an executor. -/
inductive Worker
  | rt | service
  deriving DecidableEq

/-- How far the function of a thread has come. -/
inductive ThreadPhase
  | idle | started | running | ended
  deriving DecidableEq

/-- A `std::jthread` with what its function leaves behind: `is_running` of its diagnostics,
and the exception it has ended with. -/
structure JThread where
  phase : ThreadPhase := .idle
  joinable : Bool := false
  stopRequested : Bool := false
  isRunning : Bool := false
  error : Option Exn := none

/-- The members of `SingleBusExecutor`. -/
structure SingleBusExecutor where
  spinning : Bool := false
  thread : Worker → JThread := fun _ => {}

namespace SingleBusExecutor

def setSpinning (x : SingleBusExecutor) (b : Bool) : SingleBusExecutor := { x with spinning := b }

def modify (x : SingleBusExecutor) (v : Worker) (f : JThread → JThread) : SingleBusExecutor :=
  { x with thread := Function.update x.thread v (f (x.thread v)) }

end SingleBusExecutor

inductive ExecutorAct
  | spinning
  | setSpinning (b : Bool)
  /-- A `std::jthread` is constructed and moved into a handle that is not joinable. -/
  | start (v : Worker)
  | joinable (v : Worker)
  | requestStop (v : Worker)
  | join (v : Worker)
  -- the thread itself
  | enter (v : Worker)
  | leave (v : Worker)
  | stopRequested (v : Worker)
  | setRunning (v : Worker) (b : Bool)
  | isRunning (v : Worker)
  | setError (v : Worker) (e : Exn)
  /-- What is left out may throw. -/
  | outside

abbrev ExecutorAns : ExecutorAct → Type
  | .spinning => Bool
  | .joinable _ => Bool
  | .stopRequested _ => Bool
  | .isRunning _ => Bool
  | .outside => Option Exn
  | _ => Unit

def executorExec : Interp ExecutorAct ExecutorAns (Option Exn) SingleBusExecutor
  | .spinning, _, x => (x.spinning, x)
  | .setSpinning b, _, x => ((), x.setSpinning b)
  | .start v, _, x =>
    ((), x.modify v fun j => { j with phase := .started, joinable := true, stopRequested := false })
  | .joinable v, _, x => ((x.thread v).joinable, x)
  | .requestStop v, _, x => ((), x.modify v fun j => { j with stopRequested := true })
  | .join v, _, x => ((), x.modify v fun j => { j with joinable := false })
  | .enter v, _, x => ((), x.modify v fun j => { j with phase := .running })
  | .leave v, _, x => ((), x.modify v fun j => { j with phase := .ended })
  | .stopRequested v, _, x => ((x.thread v).stopRequested, x)
  | .setRunning v b, _, x => ((), x.modify v fun j => { j with isRunning := b })
  | .isRunning v, _, x => ((x.thread v).isRunning, x)
  | .setError v e, _, x => ((), x.modify v fun j => { j with error := some e })
  | .outside, i, x => (i, x)

/-- A function begins once its thread has been started, and `join` waits for its end. -/
def ExecutorAct.Enabled (x : SingleBusExecutor) : ExecutorAct → Prop
  | .enter v => (x.thread v).phase = .started
  | .join v => (x.thread v).phase = .ended
  | _ => True

instance (x : SingleBusExecutor) (a : ExecutorAct) : Decidable (a.Enabled x) := by
  cases a <;> unfold ExecutorAct.Enabled <;> infer_instance

/-! ## What the executor does to its threads -/

namespace ExecutorAct

/-- The phase of thread `u` after an action, if it was `p`. -/
def phase (u : Worker) (p : ThreadPhase) : ExecutorAct → ThreadPhase
  | .start v => if u = v then .started else p
  | .enter v => if u = v then .running else p
  | .leave v => if u = v then .ended else p
  | _ => p

/-- Whether the handle of thread `u` is joinable after an action, if `b` told so before. -/
def handle (u : Worker) (b : Bool) : ExecutorAct → Bool
  | .start v => if u = v then true else b
  | .join v => if u = v then false else b
  | _ => b

/-- What the stop token of thread `u` tells after an action, if it told `b` before. -/
def token (u : Worker) (b : Bool) : ExecutorAct → Bool
  | .start v => if u = v then false else b
  | .requestStop v => if u = v then true else b
  | _ => b

def flag (b : Bool) : ExecutorAct → Bool
  | .setSpinning b' => b'
  | _ => b

variable (a : ExecutorAct) (i : Option Exn) (x : SingleBusExecutor) (u : Worker)

theorem phase_exec : ((executorExec a i x).2.thread u).phase = a.phase u (x.thread u).phase := by
  cases a <;> simp only [executorExec, phase, SingleBusExecutor.modify, SingleBusExecutor.setSpinning,
    Function.update_apply] <;> split <;> simp_all

theorem joinable_exec :
    ((executorExec a i x).2.thread u).joinable = a.handle u (x.thread u).joinable := by
  cases a <;> simp only [executorExec, handle, SingleBusExecutor.modify, SingleBusExecutor.setSpinning,
    Function.update_apply] <;> split <;> simp_all

theorem stopRequested_exec :
    ((executorExec a i x).2.thread u).stopRequested = a.token u (x.thread u).stopRequested := by
  cases a <;> simp only [executorExec, token, SingleBusExecutor.modify, SingleBusExecutor.setSpinning,
    Function.update_apply] <;> split <;> simp_all

theorem spinning_exec : (executorExec a i x).2.spinning = a.flag x.spinning := by
  cases a <;> rfl

end ExecutorAct

/-! ## The bus and the executor -/

abbrev SystemAct := Act ⊕ ExecutorAct

abbrev SystemAns : SystemAct → Type := Sum.elim Ans ExecutorAns

abbrev System := St × SingleBusExecutor

/-- Programs that use the bus and the executor. -/
abbrev X := Prog SystemAct SystemAns (List Mutex) Exn

abbrev SystemW := World SystemAct SystemAns System

def systemExec : Interp SystemAct SystemAns (Env × Option Exn) System := exec.both executorExec

def systemGuard : Guard SystemAct SystemAns (Env × Option Exn) System
  | _, .inl _, _, _ => True
  | _, .inr a, _, w => a.Enabled w.st.2

instance (t : ℕ) (a : SystemAct) (i : Env × Option Exn) (w : SystemW) :
    Decidable (systemGuard t a i w) := by
  cases a <;> unfold systemGuard <;> infer_instance

/-- A function of the bus. -/
def bus {α : Type} (p : P α) : X α := p.lift ExecutorAns

def xact (a : ExecutorAct) : X (ExecutorAns a) := Prog.perform (Sum.inr a : SystemAct)

/-- Clocks, update rates, timing figures and log lines of one round. -/
def outside : X Unit := do
  match ← xact .outside with
  | some e => Prog.throw e
  | none => pure ()

/-! ## The threads -/

/-- `while (!stoken.stop_requested())`, with a `round` that tells whether to go on, for at most
`n` rounds; a thread that is to make more does not get any further here. -/
def loop (v : Worker) (round : X Bool) : ℕ → X Unit
  | 0 => Prog.crash
  | n + 1 => do
    if ← xact (.stopRequested v) then pure ()
    else if ← round then loop v round n
    else pure ()

/-- The function of a thread. The two `catch` clauses differ in what they log. -/
def threadFunction (v : Worker) (round : X Bool) (n : ℕ) : X Unit := do
  xact (.enter v)
  Prog.tryCatch (do
    xact (.setRunning v true)
    loop v round n
    xact (.setRunning v false)) fun e => do
      xact (.setError v e)
      xact (.setRunning v false)
  xact (.leave v)

section Threads

variable (ps : Parameters) (hk : UserCode)

/-- A round of the RT thread: `update_rt`, then the correction of the update rate. -/
def rtRound : X Bool := do
  let _ ← bus (updateRt ps)
  outside
  pure true

/-- A round of the service thread, which ends when the bus needs it no more. -/
def serviceRound : X Bool := do
  if ← bus (updateService ps hk) then do
    outside
    pure true
  else pure false

def rtThread (n : ℕ) : X Unit := threadFunction .rt (rtRound ps) n

def serviceThread (n : ℕ) : X Unit := threadFunction .service (serviceRound ps hk) n

end Threads

/-! ## The executor's interface -/

/-- `spin`. -/
def spin : X Unit := do
  Prog.raiseIf (← xact .spinning) (.executorError "Executor already spinning")
  xact (.setSpinning true)
  xact (.start .rt)
  xact (.start .service)

/-- `if (thread.joinable()) { thread.request_stop(); thread.join(); }`. -/
def stopThread (v : Worker) : X Unit := do
  Prog.when (← xact (.joinable v)) do
    xact (.requestStop v)
    xact (.join v)

/-- `stop`. -/
def stop (hk : UserCode) : X Unit := do
  if !(← xact .spinning) then pure ()
  else do
    stopThread .rt
    stopThread .service
    xact (.setSpinning false)
    bus (shutdown hk)

/-- `ExecutionStatus`: of the statistics of a thread, whether it is running. -/
structure ExecutionStatus where
  isSpinning : Bool
  rtThreadStats : Bool
  serviceThreadStats : Bool
  deriving DecidableEq

def isSpinning : X Bool := xact .spinning

/-- `full_diagnostics`: the snapshot of the bus and its field `executor`. -/
def fullDiagnostics (ps : Parameters) (forceUpdate : Bool) : X (DiagnosticsSnapshot × ExecutionStatus) := do
  let snapshot ← bus (diagnostics ps forceUpdate)
  let spinning ← xact .spinning
  let rt ← xact (.isRunning .rt)
  let service ← xact (.isRunning .service)
  pure (snapshot, ⟨spinning, rt, service⟩)

/-! ## A bus handed to an executor -/

section System

variable (ps : Parameters)

/-- The calls of the threads that do not control the executor: threads `1` and `2` are its
own, any other calls operations of the bus outside the lifecycle. -/
inductive SystemCall : ℕ → X Unit → Prop
  | rtThread (n : ℕ) : SystemCall 1 (EthercatInterface.rtThread ps n)
  | serviceThread {hk : UserCode} (n : ℕ) : hk.Ok ps → hk.Quiet →
      SystemCall 2 (EthercatInterface.serviceThread ps hk n)
  | user {o : Op} {hk : UserCode} (t : ℕ) : o.lifecycle = false → hk.Ok ps →
      SystemCall (t + 3) (bus (o.invoke ps hk))

/-- The bus is handed to a new executor, and thread `0` is about to call `spin`, then `stop`. -/
def handOver (w : W) (hk : UserCode) : Conf SystemAct SystemAns (List Mutex) Exn System :=
  ⟨w.lift ExecutorAns {}, fun t => if t = 0 then some (spin.bind fun _ => stop hk) else none⟩

/-- Every call that uses an executor: thread `0` spins and stops as often as it likes, and any
thread but the executor's own uses the bus and asks for the status meanwhile. -/
inductive ExecutorCall : ℕ → X Unit → Prop
  | spin : ExecutorCall 0 EthercatInterface.spin
  | stop (hk : UserCode) : ExecutorCall 0 (EthercatInterface.stop hk)
  | rtThread (n : ℕ) : ExecutorCall 1 (EthercatInterface.rtThread ps n)
  | serviceThread (hk : UserCode) (n : ℕ) : ExecutorCall 2 (EthercatInterface.serviceThread ps hk n)
  | isSpinning {t : ℕ} : t ≠ 1 → t ≠ 2 →
      ExecutorCall t (EthercatInterface.isSpinning.bind fun _ => pure ())
  | fullDiagnostics {t : ℕ} (forceUpdate : Bool) : t ≠ 1 → t ≠ 2 →
      ExecutorCall t ((EthercatInterface.fullDiagnostics ps forceUpdate).bind fun _ => pure ())
  | bus {t : ℕ} (p : P Unit) : t ≠ 1 → t ≠ 2 → ExecutorCall t (EthercatInterface.bus p)

end System

end EthercatInterface
