import EthercatInterface.Lifecycle.Effect

/-!
# Runs of the lifecycle

What the parts of `Core` are after an operation, field by field, and `Run.core_inv`:
what holds of a fresh bus and is kept by every operation (`Moved`) holds between any
two operations of a single-threaded run.
-/

namespace EthercatInterface

open Interleave

namespace Core

/-- A bus that has just been constructed. -/
def fresh : Core := core ⟨{}, []⟩

section Emplace

variable (n : ℕ) (c : Core)

theorem emplaceN_eq : c.emplaceN n = { c with
    devices := c.devices ++ List.range' c.devCount n
    devCount := c.devCount + n
    bus := (c.emplaceN n).bus } := by
  induction n with
  | zero => simp [emplaceN]
  | succ n ih =>
    rw [emplaceN, ih]
    simp [emplace, List.range'_concat, Nat.add_assoc]

@[simp] theorem emplaceN_state : (c.emplaceN n).state = c.state := by rw [emplaceN_eq]

@[simp] theorem emplaceN_alive : (c.emplaceN n).alive = c.alive := by rw [emplaceN_eq]

@[simp] theorem emplaceN_port : (c.emplaceN n).port = c.port := by rw [emplaceN_eq]

@[simp] theorem emplaceN_calls : (c.emplaceN n).calls = c.calls := by rw [emplaceN_eq]

@[simp] theorem emplaceN_discoveryFailed : (c.emplaceN n).discoveryFailed = c.discoveryFailed := by
  rw [emplaceN_eq]

@[simp] theorem emplaceN_initialized : (c.emplaceN n).initialized = c.initialized := by
  rw [emplaceN_eq]

@[simp] theorem emplaceN_swept : (c.emplaceN n).swept = c.swept := by rw [emplaceN_eq]

@[simp] theorem emplaceN_devCount : (c.emplaceN n).devCount = c.devCount + n := by rw [emplaceN_eq]

@[simp] theorem emplaceN_devices :
    (c.emplaceN n).devices = c.devices ++ List.range' c.devCount n := by rw [emplaceN_eq]

/-- Every new device is bound to the bus, the others keep their binding. -/
theorem emplaceN_bus (p : ℕ) : (c.emplaceN n).bus p =
    if c.devCount ≤ p ∧ p < c.devCount + n then true else c.bus p := by
  induction n with
  | zero => exact (if_neg (by omega)).symm
  | succ n ih =>
    simp only [emplaceN, emplace, Function.update_apply, emplaceN_devCount, ih]
    grind

end Emplace

/-- Clearing `bus_` of some devices changes nothing else. -/
theorem clearBus_eq (l : List Addr) (c : Core) :
    l.foldl clearBus c = { c with bus := (l.foldl clearBus c).bus } := by
  induction l generalizing c with
  | nil => rfl
  | cons x l ih => exact ih (c.clearBus x)

theorem clearBus_bus (l : List Addr) (c : Core) (p : Addr) :
    (l.foldl clearBus c).bus p = if p ∈ l then false else c.bus p := by
  induction l generalizing c with
  | nil => simp
  | cons x l ih =>
    rw [List.foldl_cons, ih]
    simp only [clearBus, Function.update_apply, List.mem_cons]
    grind

/-- A device that is called once in a loop receives the callback once. -/
theorem notifyAll_calls (h : Hook) {l : List Addr} (hl : l.Nodup) (c : Core) (p : Addr) :
    (c.notifyAll h l).calls p = if p ∈ l then c.calls p ++ [h] else c.calls p := by
  induction l generalizing c with
  | nil => simp [notifyAll]
  | cons x l ih =>
    obtain ⟨hx, hl⟩ := List.nodup_cons.1 hl
    change ((c.notify h x).notifyAll h l).calls p = _
    rw [ih hl]
    simp only [notify, Function.update_apply, List.mem_cons]
    grind

end Core

variable {ps : Parameters} {ok : Guard Act Ans Env St} {good : UserCode → Prop}

theorem Op.device_of_lifecycle {o : Op} (h : o.lifecycle = true) : o.device = none := by
  cases o <;> first | rfl | cases h

/-- What every action keeps, every run keeps. -/
theorem Run.keeps {J : W → Prop} (h0 : J ⟨{}, []⟩)
    (hJ : ∀ a i w, ok 0 a i w → J w → J (w.after exec 0 a i)) {w : W} (hr : Run ps ok good w) :
    J w := by
  induction hr with
  | start => exact h0
  | call _ _ _ _ he _ ih => exact he.keeps hJ ih

/-- **The run rule.** -/
theorem Run.core_inv (throws : Prop) {J : Core → Prop} (hg : ∀ hk, good hk → ¬throws → hk.Quiet)
    (h0 : J Core.fresh)
    (hstep : ∀ {c o r c'}, (o.lifecycle = true → c.alive = true) → Moved throws c o r c' → J c →
      J c') {w : W} (hr : Run ps ok good w) : J (core w) := by
  induction hr with
  | start => exact h0
  | @call w w' o hk out _ ha hok hgood he hc ih =>
    obtain ⟨r, hm, -⟩ := invoke_moved throws ⟨hok, hg hk hgood⟩ he hc
    refine hstep (fun hl => ?_) hm ih
    rw [Op.Allowed, Op.device_of_lifecycle hl] at ha
    exact ha

/-! ## Runs that compute -/

/-- A call with the hooks registered for it and what the environment decides. -/
structure Call where
  op : Op
  code : UserCode := .none
  env : List Env := []

instance (o : Op) (s : St) : Decidable (o.Allowed s) := by
  unfold Op.Allowed
  split <;> infer_instance

/-- The world after the calls, if all can be made and none crashes. -/
def runCalls (ps : Parameters) : W → List Call → Option W
  | w, [] => some w
  | w, c :: calls =>
    if c.op.Allowed w.st then
      match run exec 0 (c.op.invoke ps c.code) c.env w with
      | (.crash, _, _) => none
      | (.ret _, w', _) => runCalls ps w' calls
      | (.exn _, w', _) => runCalls ps w' calls
    else none

/-- Parameters that make no difference to the calls make none to where they lead. -/
theorem runCalls_congr {ps₁ ps₂ : Parameters} {calls : List Call}
    (h : ∀ c ∈ calls, c.op.invoke ps₁ c.code = c.op.invoke ps₂ c.code) (w : W) :
    runCalls ps₁ w calls = runCalls ps₂ w calls := by
  induction calls generalizing w with
  | nil => rfl
  | cons c calls ih =>
    have ih := ih fun c hc => h c (List.mem_cons_of_mem _ hc)
    simp only [runCalls, h c List.mem_cons_self, ih]

/-- Calls that compute are a run, if the guard accepts what the environment decides. -/
theorem Run.of_calls {G : Env → Prop} (hd : G {}) (hok : ∀ a i w, G i → ok 0 a i w)
    {calls : List Call} (hc : ∀ c ∈ calls, c.code.Ok ps ∧ good c.code ∧ ∀ i ∈ c.env, G i) :
    ∀ {w w' : W}, Run ps ok good w → runCalls ps w calls = some w' → Run ps ok good w' := by
  induction calls with
  | nil => intro w w' hr h; cases h; exact hr
  | cons c calls ih =>
    intro w w' hr h
    obtain ⟨hcode, hgood, henv⟩ := hc c List.mem_cons_self
    have he := (run_exec_of exec hd hok (c.op.invoke ps c.code) c.env w henv).1
    have step : ∀ {w₁ : W}, Run ps ok good w₁ → runCalls ps w₁ calls = some w' →
        Run ps ok good w' := ih fun c hm => hc c (List.mem_cons_of_mem _ hm)
    simp only [runCalls] at h
    split at h
    · next ha =>
      split at h
      · cases h
      · next hrun => rw [hrun] at he; exact step (hr.call ha hcode hgood he (by simp)) h
      · next hrun => rw [hrun] at he; exact step (hr.call ha hcode hgood he (by simp)) h
    · cases h

theorem run_calls (ps : Parameters) (calls : List Call)
    (hc : ∀ c ∈ calls, c.code.Ok ps ∧ good c.code) :
    Run ps free good ((runCalls ps ⟨{}, []⟩ calls).getD ⟨{}, []⟩) := by
  rcases h : runCalls ps ⟨{}, []⟩ calls with _ | w
  · exact .start
  · exact Run.of_calls (G := fun _ => True) trivial (fun _ _ _ _ => trivial)
      (fun c hm => ⟨(hc c hm).1, (hc c hm).2, fun _ _ => trivial⟩) .start h

section Admitted

variable [∀ t a i w, Decidable (ok t a i w)]

variable (ok) in
/-- The guard accepts what the calls perform. -/
def admitsCalls (ps : Parameters) : W → List Call → Bool
  | _, [] => true
  | w, c :: calls => admits exec ok 0 (c.op.invoke ps c.code) c.env w &&
    match run exec 0 (c.op.invoke ps c.code) c.env w with
    | (.crash, _, _) => true
    | (.ret _, w', _) => admitsCalls ps w' calls
    | (.exn _, w', _) => admitsCalls ps w' calls

/-- Calls that compute are a run, if the guard accepts what they perform. -/
theorem Run.of_admitted {calls : List Call} (hc : ∀ c ∈ calls, c.code.Ok ps ∧ good c.code) :
    ∀ {w w' : W}, Run ps ok good w → admitsCalls ok ps w calls = true →
      runCalls ps w calls = some w' → Run ps ok good w' := by
  induction calls with
  | nil => intro w w' hr _ h; cases h; exact hr
  | cons c calls ih =>
    intro w w' hr ha h
    obtain ⟨hcode, hgood⟩ := hc c List.mem_cons_self
    obtain ⟨hadm, hrest⟩ := Bool.and_eq_true_iff.1 ha
    have he := run_exec_admitted (c.op.invoke ps c.code) c.env w hadm
    have step : ∀ {w₁ : W}, Run ps ok good w₁ → admitsCalls ok ps w₁ calls = true →
        runCalls ps w₁ calls = some w' → Run ps ok good w' :=
      ih fun c hm => hc c (List.mem_cons_of_mem _ hm)
    -- a call that is not allowed, or crashes, ends the computation
    simp only [runCalls] at h
    split at h
    · next hallow =>
      split at h
      · cases h
      · next hrun =>
        rw [hrun] at he hrest
        exact step (hr.call hallow hcode hgood he (by simp)) hrest h
      · next hrun =>
        rw [hrun] at he hrest
        exact step (hr.call hallow hcode hgood he (by simp)) hrest h
    · cases h

theorem run_admitted (ps : Parameters) (calls : List Call) (hc : ∀ c ∈ calls, c.code.Ok ps ∧ good c.code)
    (ha : admitsCalls ok ps ⟨{}, []⟩ calls = true) :
    Run ps ok good ((runCalls ps ⟨{}, []⟩ calls).getD ⟨{}, []⟩) := by
  rcases h : runCalls ps ⟨{}, []⟩ calls with _ | w
  · exact .start
  · exact Run.of_admitted hc .start ha h

end Admitted

/-- Where the calls leave a new bus with default parameters. -/
def world (calls : List Call) : W := (runCalls {} ⟨{}, []⟩ calls).getD ⟨{}, []⟩

theorem run_world_of {G : Env → Prop} (hd : G {}) (hok : ∀ a i w, G i → ok 0 a i w)
    (calls : List Call) (hc : ∀ c ∈ calls, c.code.Ok {} ∧ good c.code ∧ ∀ i ∈ c.env, G i) :
    Run {} ok good (world calls) := by
  rw [world]
  rcases h : runCalls {} ⟨{}, []⟩ calls with _ | w
  · exact .start
  · exact Run.of_calls hd hok hc .start h

theorem run_world (calls : List Call) (hc : ∀ c ∈ calls, c.code.Ok {} ∧ good c.code) :
    Run {} free good (world calls) :=
  run_calls {} calls hc

/-- `initialize` finds one device. -/
def initializeOne : Call :=
  { op := .initializeBus, env := [{}, {}, { ret := 1 }, { ret := 1, slavecount := 1 }] }

/-- Parameters do not matter to it. -/
theorem run_initializeOne (hg : good .none) : Run ps free good (world [initializeOne]) :=
  Run.of_calls (G := fun _ => True) trivial (fun _ _ _ _ => trivial)
    (by simp [initializeOne, UserCode.none_ok, hg]) .start
    (show runCalls ps ⟨{}, []⟩ [initializeOne] = some _ from rfl)

/-- `activate` brings one device into SAFE_OP. -/
def activateOne : Call :=
  { op := .activate
    env := List.replicate 10 {} ++
      [{ ret := 1 }, {}, {}, { slaves := fun _ => { state := EC_STATE_SAFE_OP } }] }

/-- A bus with one device, in state `Activated`. -/
def activatedOne : St := (world [initializeOne, { op := .startup }, activateOne]).st

end EthercatInterface
