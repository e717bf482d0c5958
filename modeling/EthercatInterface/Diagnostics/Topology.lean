import EthercatInterface.Diagnostics.Reported
import EthercatInterface.Lifecycle.Automaton

/-!
# The topology in the diagnostics, and the distributed clocks

SOEM learns the topology of the bus in two steps: the discovery of the slaves finds the parents and
the active ports, and `ecx_configdc` measures ports, delays and clocks. The diagnostics are given
each part once, `initialize` and `startup` being the only calls that do it.

* `Chart`: SOEM's table, what the diagnostics show of it, and the slaves whose SYNC0 has been set up.
* `Chart.Sound`: what they have to do with each other, by the state of the bus.
* `topology_two_phase`: it holds between any two calls, whichever hooks throw, and from
  `Configured` on the topology never changes.
* `sync0_once`: so does the setup of the distributed clocks.
-/

namespace EthercatInterface

open Interleave

/-- What `initialize` shows of a slave. -/
def Slave.discovered (v : Slave) : DeviceTopology where
  parent := v.parent
  activePorts := (List.range 4).map fun port => v.activeports.testBit port

/-- What `startup` adds. -/
def Slave.measured (v : Slave) : DeviceTopology :=
  { v.discovered with
    parentPort := v.parentport
    entryPort := v.entryport
    propagationDelayNs := v.pdelay
    dcNext := v.DCnext
    dcPrevious := v.DCprevious
    dcPortReceiveTimeNs := [v.DCrtA, v.DCrtB, v.DCrtC, v.DCrtD] }

/-- The topologies in the diagnostics. -/
def topologies (s : St) : List DeviceTopology := s.latestDiagnostics.slaves.map ESCStatus.topology

def sync0Of : Act → Option (DeviceId × ℕ × ℤ)
  | .ecxDcsync0 id cycleTime shift => some (id, cycleTime, shift)
  | _ => none

/-- The slaves whose SYNC0 has been set up, with cycle time and shift, oldest first. -/
def sync0 (h : List Ev) : List (DeviceId × ℕ × ℤ) := (h.filterMap fun e => sync0Of e.act).reverse

/-- What SYNC0 of a slave is set up with: the parameters of the bus, in 32 bits each. -/
def Parameters.sync0At (ps : Parameters) (id : DeviceId) : DeviceId × ℕ × ℤ :=
  (id, toUInt32 ps.dcCycleTime, toInt32 ps.dcSync0Shift)

theorem sync0_cons (e : Ev) (h : List Ev) : sync0 (e :: h) = sync0 h ++ (sync0Of e.act).toList := by
  simp only [sync0, List.filterMap_cons]
  cases sync0Of e.act <;> simp

/-! ## The view -/

/-- SOEM's table of the slaves, and what has been made of it. -/
@[ext] structure Chart where
  state : BusState
  /-- `ecatSlavecount_` -/
  count : ℕ
  discovered : DeviceId → DeviceTopology
  measured : DeviceId → DeviceTopology
  hasdc : DeviceId → Bool
  shown : List DeviceTopology
  sync0 : List (DeviceId × ℕ × ℤ)

def chart (w : W) : Chart where
  state := w.st.state
  count := w.st.context.ecatSlavecount
  discovered id := (w.st.slave id).discovered
  measured id := (w.st.slave id).measured
  hasdc id := (w.st.slave id).hasdc
  shown := topologies w.st
  sync0 := EthercatInterface.sync0 w.hist

/-- Changes the view, apart from the state. -/
def Act.surveys : Act → Bool
  | .ecxConfigInit | .resizeSlaves | .captureTopology _ | .captureDc _ | .ecxConfigdc
  | .ecxDcsync0 _ _ _ => true
  | _ => false

/-- An entry that is changed, seen through a function. -/
theorem map_modify_comm {α β : Type} {g : α → β} {f : α → α} {h : β → β} (hf : ∀ x, g (f x) = h (g x))
    (l : List α) (i : ℕ) : (l.modify i f).map g = (l.map g).modify i h := by
  refine List.ext_getElem (by simp) fun j h₁ h₂ => ?_
  simp only [List.getElem_map, List.getElem_modify]
  split
  · exact hf _
  · rfl

theorem topologies_modify (s : St) (i : ℕ) (h : DeviceTopology → DeviceTopology) :
    topologies (s.modifyStatus i fun e => { e with topology := h e.topology }) = (topologies s).modify i h := by
  have hentry : ∀ e : ESCStatus, ({ e with topology := h e.topology } : ESCStatus).topology = h e.topology :=
    fun _ => rfl
  exact map_modify_comm hentry _ _

theorem topologies_same (s : St) (i : ℕ) {f : ESCStatus → ESCStatus} (hf : ∀ e, (f e).topology = e.topology) :
    topologies (s.modifyStatus i f) = topologies s :=
  (map_modify_comm (h := id) hf _ _).trans (List.modify_id i _)

theorem sync0_after {a : Act} (ha : sync0Of a = none) (i : Env) (w : W) :
    sync0 (w.after exec 0 a i).hist = sync0 w.hist := by
  rw [World.after_hist, sync0_cons, ha]
  exact List.append_nil _

/-- Other actions only move the state. -/
theorem chart_after {a : Act} (ha : a.surveys = false) (i : Env) (w : W) :
    chart (w.after exec 0 a i) = { chart w with state := (w.after exec 0 a i).st.state } := by
  have hsync : sync0 (w.after exec 0 a i).hist = sync0 w.hist :=
    sync0_after (by cases a <;> first | rfl | cases ha) i w
  cases a
  case setSlaveState id state =>
    ext1 <;> first | rfl | exact hsync | skip
    all_goals
      funext k
      simp only [chart, World.after_st, exec, slave_modifySlave]
      split
      · next h => subst h; rfl
      · rfl
  case ecxStatecheck id state =>
    simp only [chart, World.after_st, exec] at hsync ⊢
    split
    · exact congrArg _ hsync
    · ext1 <;> first | rfl | exact hsync | skip
      all_goals
        funext k
        simp only [slave_modifySlave]
        split
        · next h => subst h; rfl
        · rfl
  case ecxReadstate =>
    ext1 <;> first | rfl | exact hsync | skip
    all_goals
      funext k
      simp only [chart, World.after_st, exec, St.setSlavelist, St.slave]
      split <;> rfl
  all_goals first
    | (cases ha; done)
    | (ext1 <;> first | rfl | exact hsync | exact topologies_same _ _ fun _ => rfl)

variable {ps : Parameters} {hk : UserCode} {v : Chart} {w w' : W} {α β : Type}

/-- Leaves the view alone, apart from the state. -/
def Unsurveyed (a : Act) : Prop := a.surveys = false

theorem Calm.unsurveyed {a : Act} (h : Calm a) : Unsurveyed a := by
  cases a <;> first | rfl | cases h

theorem unsurveyed_act {a : Act} (h : a.surveys = false) : (act a).Uses Unsurveyed := uses_act h

section Unsurveyed

variable (hok : hk.Ok ps)
include hok

theorem unsurveyed_callbacks (h : Hook) :
    (forDevices (.callback h) fun p _ => onCallback hk h p).Uses Unsurveyed :=
  uses_callbacks rfl (fun _ => rfl) (fun _ => rfl) fun p => (hok.hook h p).calm.mono fun _ => Calm.unsurveyed

theorem unsurveyed_shutdown : (shutdown hk).Uses Unsurveyed :=
  uses_shutdown (fun _ ha => ha.calm.unsurveyed) (fun _ => rfl) (fun _ => rfl) (fun _ _ => rfl) rfl rfl
    fun h p => (hok.hook h p).calm.mono fun _ => Calm.unsurveyed

/-- The loops of `activate`, which shut the bus down where a slave does not follow. -/
theorem unsurveyed_orAbort {l : Loop} {p : DeviceId → P Bool} (hp : ∀ id, (p id).Uses Plain) {e : Exn} :
    (forDevices l fun _ id => do
      Prog.when (!(← p id)) do
        shutdown hk
        Prog.throw e).Uses Unsurveyed :=
  Uses.forDevices rfl (fun _ => rfl) fun _ id => ((hp id).mono fun _ ha => ha.calm.unsurveyed).bind fun _ =>
    Prog.uses_when ((unsurveyed_shutdown hok).bind fun _ => trivial)

theorem unsurveyed_activate : (activate hk).Uses Unsurveyed := by
  refine ((plain_stateIn _).mono fun _ ha => ha.calm.unsurveyed).bind fun _ =>
    Prog.uses_raiseIf.bind fun _ => ?_
  refine (unsurveyed_callbacks hok _).bind fun _ => (unsurveyed_act rfl).bind fun _ => ?_
  refine (unsurveyed_orAbort hok fun id => plain_setDeviceTargetState id _).bind fun _ => ?_
  refine (unsurveyed_orAbort hok fun id => plain_waitForDeviceTargetState id _).bind fun _ => ?_
  exact (unsurveyed_act rfl).bind fun _ => unsurveyed_callbacks hok _

theorem unsurveyed_bringOperational : (bringOperational ps hk).Uses Unsurveyed := by
  refine (unsurveyed_act rfl).bind fun start =>
    (Prog.uses_when ((unsurveyed_act rfl).bind fun _ => unsurveyed_act rfl)).bind
    fun _ => Prog.Uses.bind ?_ fun late => ?_
  · unfold operationalTimeout
    split
    · refine (unsurveyed_act rfl).bind fun now => (unsurveyed_act rfl).bind fun tp => ?_
      cases tp <;> trivial
    · trivial
  refine Prog.Uses.bind (Prog.uses_when ((unsurveyed_shutdown hok).bind fun _ => trivial)) fun _ => ?_
  refine Prog.Uses.bind (Uses.forDevices (S := Unsurveyed) rfl (fun _ => rfl) fun _ id =>
    ((plain_setDeviceTargetState id _).mono fun _ ha => ha.calm.unsurveyed).bind fun _ => trivial) fun _ => ?_
  refine (uses_updateDeviceStates (S := Unsurveyed) rfl).bind fun _ => ?_
  exact (uses_allInOperational (S := Unsurveyed) rfl (fun _ => rfl) fun _ => rfl).bind fun _ =>
    Prog.uses_when (unsurveyed_act rfl)

theorem unsurveyed_updateService : (updateService ps hk).Uses Unsurveyed := by
  refine ((plain_stateIn _).mono fun _ ha => ha.calm.unsurveyed).bind fun _ =>
    Prog.uses_raiseIf.bind fun _ => ?_
  refine (unsurveyed_act rfl).bind fun up => (unsurveyed_act rfl).bind fun _ => (unsurveyed_act rfl).bind
    fun owns => ?_
  refine (Prog.uses_when (Prog.uses_withLock
    (plain_drainMailboxEvents.mono fun _ ha => ha.calm.unsurveyed))).bind fun _ => ?_
  refine ((plain_stateIn _).mono fun _ ha => ha.calm.unsurveyed).bind fun b => ?_
  split
  · exact (unsurveyed_bringOperational hok).bind fun _ => trivial
  · refine Prog.Uses.bind (Prog.uses_when ?_) fun _ => trivial
    exact (uses_updateDeviceStates (S := Unsurveyed) rfl).bind fun _ =>
      Prog.uses_when (plain_updateDiagnosticsSlow.mono fun _ ha => ha.calm.unsurveyed)

theorem unsurveyed_destroyBus : (destroyBus hk).Uses Unsurveyed := by
  refine (Uses.forDevices (S := Unsurveyed) rfl (fun _ => rfl) fun _ _ => unsurveyed_act rfl).bind fun _ => ?_
  refine Prog.Uses.bind ((unsurveyed_shutdown hok).attempt.bind fun r => ?_) fun _ => unsurveyed_act rfl
  cases r with
  | ok u => trivial
  | error e =>
    change Prog.Uses Unsurveyed (if e.isStd = true then pure () else Prog.crash)
    split <;> trivial

/-- **All calls but those of `initialize` and `startup`** leave the topology alone. -/
theorem unsurveyed_invoke {o : Op} (hi : o ≠ .initializeBus) (hs : o ≠ .startup) :
    (o.invoke ps hk).Uses Unsurveyed := by
  refine Uses.invoke rfl (fun _ => rfl) ?_
  by_cases hl : o.lifecycle = false
  · exact (calm_body o hl (fun r => (hok.sdoReadCallback r).calm) fun r => (hok.sdoWriteCallback r).calm).mono
      fun _ => Calm.unsurveyed
  cases o
  case initializeBus => exact absurd rfl hi
  case startup => exact absurd rfl hs
  case activate => exact unsurveyed_activate hok
  case shutdown => exact unsurveyed_shutdown hok
  case updateService => exact Uses.void (unsurveyed_updateService hok)
  case destroyBus => exact unsurveyed_destroyBus hok
  all_goals exact absurd rfl hl

end Unsurveyed

/-! ## What the view is between two calls -/

namespace Chart

/-- Nothing has been found. -/
def Blank (v : Chart) : Prop := v.shown = [] ∧ v.sync0 = []

/-- The slaves have been found. -/
def Found (v : Chart) : Prop :=
  v.shown = (List.range v.count).map (fun p => v.discovered (p + 1)) ∧ v.sync0 = []

/-- The slaves whose SYNC0 is to be set up. -/
def dcSync (ps : Parameters) (v : Chart) : List (DeviceId × ℕ × ℤ) :=
  if ps.dcEnabled then
    ((List.range' 1 v.count).filter v.hasdc).map ps.sync0At
  else []

/-- The bus has been measured. -/
def Surveyed (ps : Parameters) (v : Chart) : Prop :=
  v.shown = (List.range v.count).map (fun p => v.measured (p + 1)) ∧ v.sync0 = v.dcSync ps

/-- What the view is in each state of the bus. -/
def Sound (ps : Parameters) (v : Chart) : Prop :=
  match v.state with
  | .preInit => v.Blank
  | .initialized => v.Found
  | .shutdown => v.Blank ∨ v.Found ∨ v.Surveyed ps
  | _ => v.Surveyed ps

def setState (v : Chart) (s : BusState) : Chart := { v with state := s }

end Chart

/-- From `Configured` on, before the shutdown is over. -/
def BusState.measured : BusState → Bool
  | .configured | .activated | .operational | .shuttingDown => true
  | _ => false

/-- What other calls than `initialize` and `startup` do to the state. -/
def BusState.Follows (s u : BusState) : Prop := u = s ∨ u = .shutdown ∨ s.measured = true ∧ u.measured = true

instance (s u : BusState) : Decidable (s.Follows u) := inferInstanceAs (Decidable (_ ∨ _))

theorem Chart.Sound.move (h : v.Sound ps) {u : BusState} (hu : v.state.Follows u) :
    (v.setState u).Sound ps := by
  obtain ⟨s, count, discovered, measured, hasdc, shown, sync0⟩ := v
  rcases hu with rfl | rfl | ⟨hs, hu⟩
  · exact h
  · cases s
    case preInit => exact .inl h
    case initialized => exact .inr (.inl h)
    case shutdown => exact h
    all_goals exact .inr (.inr h)
  · cases s <;> first | (cases hs; done) | (cases u <;> first | (cases hu; done) | exact h)

theorem Transition.follows {t : Transition} (hi : t ≠ .initializeBus) (hs : t ≠ .startup) (b : Bool)
    (s : BusState) :
    ∀ u ∈ t.into b s, s.Follows u := by
  cases t
  case initializeBus => exact absurd rfl hi
  case startup => exact absurd rfl hs
  all_goals cases b <;> cases s <;> decide

/-- What such a program does to the view. -/
theorem chart_unsurveyed {ok : Guard Act Ans Env St} {p : P α} (hp : p.Uses Unsurveyed) {o : Outcome Exn α}
    (he : Exec exec ok 0 p w o w') (hc : o ≠ .crash) : chart w' = (chart w).setState w'.st.state := by
  let J : W → Prop := fun w' => chart w' = (chart w).setState w'.st.state
  have hkeeps : (single ok free).Triple J p (fun _ => J) fun _ => J :=
    .of_keeps (fun a ha i w₁ _ hw₁ => ⟨trivial, (chart_after ha i w₁).trans (by rw [hw₁]; rfl)⟩) hp
  have h := hkeeps.sound he rfl
  cases o with
  | ret x => exact h
  | exn e => exact h
  | crash => exact absurd rfl hc

/-- **Between two calls** the view stays sound under all calls but those of `initialize` and `startup`. -/
theorem sound_others {ok : Guard Act Ans Env St} {o : Op} {out : Outcome Exn Unit} (hok : hk.Ok ps)
    (hi : o ≠ .initializeBus) (hs : o ≠ .startup) (he : Exec exec ok 0 (o.invoke ps hk) w out w')
    (hc : out ≠ .crash) (hw : (chart w).Sound ps) : (chart w').Sound ps := by
  rw [chart_unsurveyed (unsurveyed_invoke hok hi hs) he hc]
  refine hw.move ?_
  by_cases hl : o.lifecycle = false
  · obtain ⟨r, hm, -⟩ := invoke_moved True ⟨hok, fun h => absurd trivial h⟩ he hc
    exact .inl (congrArg Core.state (hm.same hl))
  · obtain ⟨t, rfl⟩ := transition_of_lifecycle (Bool.not_eq_false _ ▸ hl)
    obtain ⟨b, -, hinto⟩ := call_into hok he hc
    exact t.follows (by rintro rfl; exact hi rfl) (by rintro rfl; exact hs rfl) b _ _ hinto

/-! ## Tables that are filled one entry after the other -/

/-- The first `k` entries have been filled. -/
def filled {α : Type} (n k : ℕ) (old new : ℕ → α) : List α :=
  (List.range n).map fun p => if p < k then new p else old p

theorem filled_zero {α : Type} (n : ℕ) (old new : ℕ → α) : filled n 0 old new = (List.range n).map old := by
  simp [filled]

theorem filled_all {α : Type} (n : ℕ) (old new : ℕ → α) : filled n n old new = (List.range n).map new :=
  List.map_congr_left fun _ hp => if_pos (List.mem_range.1 hp)

theorem filled_succ {α : Type} {n k : ℕ} {old new : ℕ → α} {f : α → α} (hf : f (old k) = new k) :
    (filled n k old new).modify k f = filled n (k + 1) old new := by
  refine List.ext_getElem (by simp [filled]) fun j h₁ h₂ => ?_
  simp only [filled, List.getElem_modify, List.getElem_map, List.getElem_range]
  by_cases hj : k = j
  · subst hj
    simp [hf]
  · have hlt : j < k + 1 ↔ j < k := by omega
    simp [hj, hlt]

/-! ## `initialize` and `startup` -/

section Survey

variable {ok : Guard Act Ans Env St} {J : Chart → Prop} {K : α → Chart → Prop} {n : ℕ}

/-- Started with a view in `J`, the program returns with one in `K`, or throws with a sound one. -/
abbrev Plots (ps : Parameters) (ok : Guard Act Ans Env St) (J : Chart → Prop) (p : P α)
    (K : α → Chart → Prop) : Prop :=
  (single ok free).Triple (fun w => J (chart w)) p (fun x w => K x (chart w)) fun _ w => (chart w).Sound ps

/-- Off the view altogether. -/
def Offchart (a : Act) : Prop := a.surveys = false ∧ stored a = none

theorem Calm.offchart {a : Act} (h : Calm a) : Offchart a := ⟨h.unsurveyed, h.stored⟩

theorem chart_off {a : Act} (ha : Offchart a) (i : Env) (w : W) : chart (w.after exec 0 a i) = chart w := by
  rw [chart_after ha.1, World.after_st, state_exec, ha.2]
  rfl

theorem keeps_chart {a : Act} (ha : Offchart a) : (single ok free).Keeps (fun w => J (chart w)) a := by
  refine fun i w _ hw => ⟨trivial, ?_⟩
  change J (chart (w.after exec 0 a i))
  rwa [chart_off ha]

theorem plots_quiet {p : P α} (hp : p.Uses Offchart) (hn : p.NoThrow) : Plots ps ok J p fun _ => J :=
  (Setting.Triple.of_keeps (fun _ => keeps_chart) hp).noThrow hn

theorem plots_off {p : P α} (hp : p.Uses Offchart) (hJ : ∀ v, J v → v.Sound ps) : Plots ps ok J p fun _ => J :=
  (Setting.Triple.of_keeps (fun _ => keeps_chart) hp).mono (fun _ h => h) (fun _ _ h => h) fun _ _ h => hJ _ h

theorem plots_act {a : Act} (ha : Offchart a) : Plots ps ok J (act a) fun _ => J :=
  plots_quiet (uses_act ha) Prog.noThrow_perform

theorem plots_crashUnless (b : Bool) : Plots ps ok J (crashUnless b) fun _ => J :=
  plots_quiet (Prog.uses_when (p := .crash) trivial) (noThrow_crashUnless b)

/-- The loop over the slaves, after `k` of them. -/
theorem plots_eachSlave {f : DeviceId → P Unit} {J : ℕ → Chart → Prop}
    (hstep : ∀ n, ∀ k < n,
      Plots ps ok (fun v => v.count = n ∧ J k v) (f (1 + k)) fun _ v => v.count = n ∧ J (k + 1) v) :
    Plots ps ok (J 0) (slaveIds.bind fun ids => Prog.forEach ids f) fun _ v => J v.count v := by
  refine .bind (T := fun ids w => ids = List.range' 1 (chart w).count ∧ J 0 (chart w)) ?_ fun ids w hw => ?_
  · refine .bind (T := fun m w => m = (chart w).count ∧ J 0 (chart w)) (.perform fun i w _ hw =>
      ⟨trivial, rfl, by rw [chart_off ⟨rfl, rfl⟩]; exact hw⟩) fun m => .pure fun w hw => ⟨by rw [hw.1], hw.2⟩
  · have hloop := Setting.Triple.forRange (S := single ok free) (a := 1) (n := (chart w).count)
      (J := fun k w' => (chart w').count = (chart w).count ∧ J k (chart w')) fun k hk => hstep _ k hk
    rw [hw.1]
    refine hloop.mono (fun _ h => h) (fun _ w' h => ?_) (fun _ _ h => h) w ⟨rfl, hw.2⟩
    change J (chart w').count (chart w')
    rw [h.1]
    exact h.2

/-- What follows such a loop. -/
theorem plots_afterSlaves {q : List DeviceId → P Unit} {g : Unit → P α} {T : Unit → W → Prop} {Q : α → W → Prop}
    (h : (single ok free).Triple (fun w => J (chart w)) (slaveIds.bind q) T fun _ w => (chart w).Sound ps)
    (hg : (single ok free).Triple (T ()) (g ()) Q fun _ w => (chart w).Sound ps) :
    (single ok free).Triple (fun w => J (chart w)) (slaveIds.bind fun ids => (q ids).bind g) Q
      fun _ w => (chart w).Sound ps := by
  have hthen := h.bind fun _ => hg
  rwa [Prog.bind_assoc] at hthen

/-! ### `initialize` -/

/-- `initialize` fills in its part of an entry. -/
def DeviceTopology.scan (t new : DeviceTopology) : DeviceTopology :=
  { t with parent := new.parent, activePorts := new.activePorts }

/-- `startup` fills in the rest. -/
def DeviceTopology.measure (t new : DeviceTopology) : DeviceTopology :=
  { new with parent := t.parent, activePorts := t.activePorts }

theorem chart_captureTopology (k : ℕ) (i : Env) (w : W) : chart (w.after exec 0 (.captureTopology (1 + k)) i) =
    { chart w with shown := (chart w).shown.modify k fun t => t.scan ((chart w).discovered (1 + k)) } := by
  have hk : 1 + k - 1 = k := Nat.add_sub_cancel_left 1 k
  ext1 <;> try rfl
  exact (topologies_modify w.st (1 + k - 1) fun t => t.scan (w.st.slave (1 + k)).discovered).trans
    (by rw [hk]; rfl)

theorem chart_captureDc (k : ℕ) (i : Env) (w : W) : chart (w.after exec 0 (.captureDc (1 + k)) i) =
    { chart w with shown := (chart w).shown.modify k fun t => t.measure ((chart w).measured (1 + k)) } := by
  have hk : 1 + k - 1 = k := Nat.add_sub_cancel_left 1 k
  ext1 <;> try rfl
  exact (topologies_modify w.st (1 + k - 1) fun t => t.measure (w.st.slave (1 + k)).measured).trans
    (by rw [hk]; rfl)

/-- The slaves are being entered. -/
structure Chart.Scanning (k : ℕ) (v : Chart) : Prop where
  state : v.state = .preInit
  shown : v.shown = filled v.count k (fun _ => {}) fun p => v.discovered (p + 1)
  sync0 : v.sync0 = []

theorem Chart.Blank.sound (h : v.Blank) (hs : v.state = .preInit) : v.Sound ps := by
  unfold Chart.Sound
  rw [hs]
  exact h

theorem Chart.Found.sound (h : v.Found) (hs : v.state = .initialized) : v.Sound ps := by
  unfold Chart.Sound
  rw [hs]
  exact h

theorem plots_scan : Plots ps ok (Chart.Scanning 0) (slaveIds.bind fun ids => Prog.forEach ids fun id => do
    crashUnless (← act (.captureTopology id))) fun _ v => v.Scanning v.count := by
  refine plots_eachSlave fun n k hk => .bind (T := fun _ w => (chart w).count = n ∧ (chart w).Scanning (k + 1))
    (.perform fun i w _ hw => ⟨trivial, ?_⟩)
    fun b => plots_crashUnless (J := fun v => v.count = n ∧ v.Scanning (k + 1)) b
  obtain ⟨hn, hstate, hshown, hsync⟩ := hw
  rw [chart_captureTopology]
  refine ⟨hn, hstate, ?_, hsync⟩
  change (chart w).shown.modify k _ = _
  rw [hshown, hn]
  refine filled_succ ?_
  rw [Nat.add_comm 1 k]
  rfl

theorem plots_initializeBus (hv : v.Sound ps) :
    Plots ps ok (· = v) (initializeBus ps) fun _ v => v.Sound ps := by
  have hown : ∀ u, u = v → u.Sound ps := fun u hu => by rw [hu]; exact hv
  refine triple_require (s := v.state) (J := fun w => chart w = v)
    (keeps_chart (J := fun u => u = v) ⟨rfl, rfl⟩)
    (fun w hw => congrArg Chart.state hw) (fun w hw => hown _ hw) fun hs => ?_
  obtain hs : v.state = .preInit := by simpa using hs
  have hblank : v.Blank := by
    unfold Chart.Sound at hv
    rwa [hs] at hv
  refine .bind (T := fun _ w => chart w = v) (plots_act (J := fun u => u = v) ⟨rfl, rfl⟩) fun ec =>
    .bind (T := fun _ w => chart w = v) (plots_off (J := fun u => u = v) Prog.uses_raiseIf hown) fun _ => ?_
  -- a discovery fills SOEM's table, whether or not it finds slaves
  let Empty : Chart → Prop := fun v => v.state = .preInit ∧ v.Blank
  have hempty : ∀ v, Empty v → v.Sound ps := fun _ h => h.2.sound h.1
  refine .bind (T := fun _ w => Empty (chart w)) (.perform fun i w _ hw => ⟨trivial, ?_⟩) fun deviceCount => ?_
  · have hfields : (chart (w.after exec 0 .ecxConfigInit i)).sync0 = (chart w).sync0 := sync0_after rfl i w
    subst hw
    exact ⟨hs, hblank.1, hfields.trans hblank.2⟩
  refine .bind (T := fun _ w => Empty (chart w)) (plots_off Prog.uses_raiseIf hempty) fun _ => ?_
  refine .bind (T := fun _ w => (chart w).Scanning 0) (.perform fun i w _ hw => ⟨trivial, ?_⟩) fun _ => ?_
  · have hslaves : w.st.latestDiagnostics.slaves = [] := List.map_eq_nil_iff.1 hw.2.1
    refine ⟨hw.1, ?_, (sync0_after rfl i w).trans hw.2.2⟩
    rw [filled_zero]
    change (resize w.st.latestDiagnostics.slaves w.st.context.ecatSlavecount {}).map ESCStatus.topology = _
    rw [hslaves]
    simp [resize, chart, exec, List.map_const']
  refine plots_afterSlaves plots_scan ?_
  refine .bind (T := fun _ w => (chart w).Scanning (chart w).count)
    (plots_act (J := fun v => v.Scanning v.count)
    ⟨rfl, rfl⟩) fun up => ?_
  refine .bind (T := fun _ w => (chart w).Scanning (chart w).count)
    (plots_act (J := fun v => v.Scanning v.count)
    ⟨rfl, rfl⟩) fun _ => ?_
  -- from here on the bus is in `Initialized`, even if a device is not there
  let Done : Chart → Prop := fun v => v.state = .initialized ∧ v.Found
  have hdone : ∀ v, Done v → v.Sound ps := fun _ h => h.2.sound h.1
  refine .bind (T := fun _ w => Done (chart w)) (.perform fun i w _ hw => ⟨trivial, rfl, ?_, ?_⟩) fun _ => ?_
  · exact hw.shown.trans (filled_all _ _ _)
  · exact (sync0_after rfl i w).trans hw.sync0
  refine .bind (T := fun _ w => Done (chart w)) (plots_off (.forEach (fun id => ?_) _) hdone) fun _ =>
    .pure fun w hw => hdone _ hw
  exact ((plain_scanDevice id).mono fun _ ha => ha.calm.offchart).bind fun _ => uses_act ⟨rfl, rfl⟩

/-! ### `startup` -/

theorem plots_shutdown (hok : hk.Ok ps) :
    Plots ps ok (fun v => v.Sound ps) (shutdown hk) fun _ v => v.Sound ps := by
  refine fun w hw => wp_iff_exec.2 fun o w' he => ?_
  have hh : Hooks ps True hk := ⟨hok, fun h => absurd trivial h⟩
  have hfollows : ∀ s, ∀ u ∈ Transition.shutdown.returns s ++ Transition.shutdown.throws s, s.Follows u := by
    intro s
    cases s <;> decide
  have hsd := (leads_shutdown hh).sound (core_simulates ok 0) he
  have hsound : ∀ {r}, ShutDown True (core w) r (core w') → o ≠ .crash → (chart w').Sound ps := fun h hc => by
    rw [chart_unsurveyed (unsurveyed_shutdown hok) he hc]
    exact hw.move (hfollows _ _ (h.among rfl fun _ hu => hu))
  cases o with
  | ret u => exact hsound hsd (by simp)
  | exn e => exact hsound hsd (by simp)
  | crash => trivial

/-- The error exits of `startup`. -/
theorem plots_abort (hok : hk.Ok ps) (hJ : ∀ v, J v → v.Sound ps) {b : Bool} {e : Exn} :
    Plots ps ok J (Prog.when b ((shutdown hk).bind fun _ => .throw e)) fun _ => J :=
  .when (fun _ => .bind ((plots_shutdown hok).mono (fun _ h => hJ _ h) (fun _ _ h => h) fun _ _ h => h)
    fun _ => .throw fun _ h => h) fun _ _ h => h

/-- The measurements are being entered. -/
structure Chart.Measuring (k : ℕ) (v : Chart) : Prop where
  state : v.state = .initialized
  shown : v.shown = filled v.count k (fun p => v.discovered (p + 1)) fun p => v.measured (p + 1)
  sync0 : v.sync0 = []

/-- The clocks are being set up. -/
structure Chart.Clocking (ps : Parameters) (k : ℕ) (v : Chart) : Prop where
  state : v.state = .initialized
  shown : v.shown = (List.range v.count).map fun p => v.measured (p + 1)
  sync0 : v.sync0 = ((List.range' 1 k).filter v.hasdc).map ps.sync0At

theorem chart_ecxDcsync0 (id : DeviceId) (c : ℕ) (shift : ℤ) (i : Env) (w : W) :
    chart (w.after exec 0 (.ecxDcsync0 id c shift) i) =
      { chart w with sync0 := (chart w).sync0 ++ [(id, c, shift)] } := by
  ext1 <;> try rfl
  exact sync0_cons _ _

/-- One slave more. -/
theorem dcSync_succ {β : Type} (k : ℕ) (p : DeviceId → Bool) (f : DeviceId → β) :
    ((List.range' 1 (k + 1)).filter p).map f =
      ((List.range' 1 k).filter p).map f ++ if p (1 + k) = true then [f (1 + k)] else [] := by
  rw [List.range'_1_concat, List.filter_append, List.map_append]
  by_cases h : p (1 + k) <;> simp [h]

theorem plots_setupDc :
    Plots ps ok (Chart.Measuring 0) (setupDc ps) fun _ v => v.state = .initialized ∧ v.Surveyed ps := by
  refine plots_afterSlaves (T := fun _ w => (chart w).Measuring (chart w).count) ?_ ?_
  · refine plots_eachSlave fun n k hk => .bind
      (T := fun _ w => (chart w).count = n ∧ (chart w).Measuring (k + 1))
      (.perform fun i w _ hw => ⟨trivial, ?_⟩) fun b =>
        plots_crashUnless (J := fun v => v.count = n ∧ v.Measuring (k + 1)) b
    obtain ⟨hn, hstate, hshown, hsync⟩ := hw
    rw [chart_captureDc]
    refine ⟨hn, hstate, ?_, hsync⟩
    change (chart w).shown.modify k _ = _
    rw [hshown, hn]
    refine filled_succ ?_
    rw [Nat.add_comm 1 k]
    rfl
  refine .when (fun hdc => ?_) fun hdc w hw => ⟨hw.state, ?_, ?_⟩
  · refine Setting.Triple.mono (plots_eachSlave (J := Chart.Clocking ps) fun n k hk => ?_) (fun w hw => ?_)
      (fun _ w hw => ?_) fun _ _ h => h
    · refine .bind (T := fun b w => b = (chart w).hasdc (1 + k) ∧ (chart w).count = n ∧ (chart w).Clocking ps k)
        (.perform fun i w _ hw => ⟨trivial, ?_, ?_⟩) fun b => .when (fun hb => ?_) fun hb w hw => ?_
      · rfl
      · rw [chart_off ⟨rfl, rfl⟩]
        exact hw
      · refine .perform fun i w _ hw => ⟨trivial, ?_⟩
        obtain ⟨hdc, hn, hstate, hshown, hsync⟩ := hw
        rw [chart_ecxDcsync0]
        refine ⟨hn, hstate, hshown, ?_⟩
        change (chart w).sync0 ++ [(1 + k, _, _)] = _
        rw [dcSync_succ, if_pos (hdc.symm.trans hb), hsync]
        rfl
      · obtain ⟨hdc, hn, hstate, hshown, hsync⟩ := hw
        refine ⟨hn, hstate, hshown, ?_⟩
        rw [dcSync_succ, if_neg (by rw [← hdc, hb]; decide), List.append_nil, hsync]
    · exact ⟨hw.state, hw.shown.trans (filled_all _ _ _), hw.sync0⟩
    · refine ⟨hw.state, hw.shown, ?_⟩
      rw [Chart.dcSync, if_pos hdc]
      exact hw.sync0
  · exact hw.shown.trans (filled_all _ _ _)
  · rw [Chart.dcSync, if_neg (by rw [hdc]; decide)]
    exact hw.sync0

theorem uses_mapPdos (hok : hk.Ok ps) : (mapPdos ps hk).Uses Offchart := by
  refine Prog.Uses.bind (uses_callbacks ⟨rfl, rfl⟩ (fun _ => ⟨rfl, rfl⟩) (fun _ => ⟨rfl, rfl⟩) fun p =>
    (hok.hook _ p).calm.mono fun _ => Calm.offchart) fun _ => ?_
  exact (uses_act ⟨rfl, rfl⟩).bind fun _ => (uses_act ⟨rfl, rfl⟩).bind fun _ => uses_act ⟨rfl, rfl⟩

theorem uses_onPdoConfigured (hok : hk.Ok ps) (p : Addr) (rxSize txSize : ℕ) :
    (onPdoConfigured hk p rxSize txSize).Uses Offchart :=
  (uses_act ⟨rfl, rfl⟩).bind fun _ => (uses_act ⟨rfl, rfl⟩).bind fun _ => (uses_act ⟨rfl, rfl⟩).bind fun _ =>
    (uses_act ⟨rfl, rfl⟩).bind fun _ => (uses_act ⟨rfl, rfl⟩).bind fun _ => (uses_act ⟨rfl, rfl⟩).bind fun _ =>
      (uses_act ⟨rfl, rfl⟩).bind fun _ => (uses_act ⟨rfl, rfl⟩).bind fun _ =>
        (hok.hook _ p).calm.mono fun _ => Calm.offchart

/-- `startup` from `Initialized` on. -/
theorem plots_startup (hv : v.Sound ps) (hok : hk.Ok ps) :
    Plots ps ok (fun u => u = v) (startup ps hk) fun _ v => v.Sound ps := by
  have hown : ∀ u, u = v → u.Sound ps := fun u hu => by rw [hu]; exact hv
  refine triple_require (s := v.state) (J := fun w => chart w = v)
    (keeps_chart (J := fun u => u = v) ⟨rfl, rfl⟩)
    (fun w hw => congrArg Chart.state hw) (fun w hw => hown _ hw) fun hs => ?_
  obtain hs : v.state = .initialized := by simpa using hs
  have hfound : v.Found := by
    unfold Chart.Sound at hv
    rwa [hs] at hv
  refine .bind (T := fun _ w => chart w = v) (plots_off (J := fun u => u = v) (uses_mapPdos hok) hown)
    fun size => ?_
  refine .bind (T := fun _ w => chart w = v) (plots_abort (J := fun u => u = v) hok hown) fun _ => ?_
  -- what SOEM measures is not shown yet
  let Done : Chart → Prop := fun v => v.state = .initialized ∧ v.Found
  have hdone : ∀ v, Done v → v.Sound ps := fun _ h => h.2.sound h.1
  refine .bind (T := fun _ w => Done (chart w)) (.perform fun i w _ hw => ⟨trivial, ?_⟩) fun flag => ?_
  · subst hw
    exact ⟨hs, hfound.1, (sync0_after rfl i w).trans hfound.2⟩
  refine .bind (T := fun _ w => Done (chart w)) (plots_abort hok hdone) fun _ => ?_
  refine .bind (T := fun _ w => (chart w).state = .initialized ∧ (chart w).Surveyed ps)
    (plots_setupDc.mono (fun w hw => ⟨hw.1, ?_, hw.2.2⟩) (fun _ _ h => h) fun _ _ h => h) fun _ => ?_
  · exact hw.2.1.trans (filled_zero _ _ _).symm
  let Set : Chart → Prop := fun v => v.state = .configured ∧ v.Surveyed ps
  have hset : ∀ v, Set v → v.Sound ps := fun v h => by
    unfold Chart.Sound
    rw [h.1]
    exact h.2
  refine .bind (T := fun _ w => Set (chart w)) (.perform fun i w _ hw => ⟨trivial, rfl, hw.2.1, ?_⟩) fun _ => ?_
  · exact (sync0_after rfl i w).trans hw.2.2
  refine (plots_off (J := Set) (Uses.forDevices ⟨rfl, rfl⟩ (fun _ => ⟨rfl, rfl⟩) fun p id => ?_) hset).mono
    (fun _ h => h) (fun _ _ h => hset _ h) fun _ _ h => h
  exact (uses_act ⟨rfl, rfl⟩).bind fun rx => (uses_act ⟨rfl, rfl⟩).bind fun tx =>
    uses_onPdoConfigured hok p rx tx

end Survey

/-! ## Runs -/

section Run

variable {ok : Guard Act Ans Env St} {good : UserCode → Prop} {o : Op} {out : Outcome Exn Unit}

/-- A call does to the view what its body does. -/
theorem plots_invoke {J K : Chart → Prop} {E : Exn → W → Prop}
    (hE : ∀ e, (single ok free).Keeps (E e) (.done o false))
    (hb : (single ok free).Triple (fun w => J (chart w)) (o.body ps hk) (fun _ w => K (chart w)) E) :
    (single ok free).Triple (fun w => J (chart w)) (o.invoke ps hk) (fun _ w => K (chart w)) E :=
  triple_invoke (K := fun w => J (chart w)) (keeps_chart ⟨rfl, rfl⟩) hb (fun _ => keeps_chart ⟨rfl, rfl⟩) hE

/-- **The view is sound between any two calls**, whichever hooks throw. -/
theorem chart_sound (hr : Run ps ok good w) : (chart w).Sound ps := by
  induction hr with
  | start => exact ⟨rfl, rfl⟩
  | @call w w' o hk out _ _ hok _ he hc ih =>
    have ends : (single ok free).Triple (fun u => chart u = chart w) (o.invoke ps hk)
        (fun _ u => (chart u).Sound ps) (fun _ u => (chart u).Sound ps) → (chart w').Sound ps := fun ht => by
      have h := ht.sound he rfl
      cases out with
      | ret u => exact h
      | exn e => exact h
      | crash => exact absurd rfl hc
    by_cases hi : o = .initializeBus
    · subst hi
      exact ends (plots_invoke (J := fun u => u = chart w) (K := fun u => u.Sound ps)
        (fun _ => keeps_chart (J := fun u => u.Sound ps) ⟨rfl, rfl⟩) (triple_void (plots_initializeBus ih)))
    by_cases hs : o = .startup
    · subst hs
      exact ends (plots_invoke (J := fun u => u = chart w) (K := fun u => u.Sound ps)
        (fun _ => keeps_chart (J := fun u => u.Sound ps) ⟨rfl, rfl⟩) (plots_startup ih hok))
    exact sound_others hok hi hs he hc ih

/-- `initialize` and `startup` are refused later on. -/
theorem chart_refused (ho : o = .initializeBus ∨ o = .startup) (hp : w.st.state ≠ .preInit)
    (hi : w.st.state ≠ .initialized) (he : Exec exec ok 0 (o.invoke ps hk) w out w') (hc : out ≠ .crash) :
    chart w' = chart w := by
  have refused : ∀ {s : BusState} {e : Exn} {α : Type} {f : Unit → P α}, w.st.state ≠ s →
      (single ok free).Triple (fun u => chart u = chart w)
        ((stateIn [s]).bind fun b => (Prog.raiseIf (!b) e).bind f) (fun _ u => chart u = chart w)
        fun _ u => chart u = chart w := fun hs =>
    triple_require (s := w.st.state) (J := fun u => chart u = chart w)
      (keeps_chart (J := fun u => u = chart w) ⟨rfl, rfl⟩) (fun u hu => congrArg Chart.state hu)
        (fun _ hu => hu)
      fun hm => absurd (List.mem_singleton.1 hm) hs
  have hbody : (single ok free).Triple (fun u => chart u = chart w) (o.body ps hk)
      (fun _ u => chart u = chart w) fun _ u => chart u = chart w := by
    rcases ho with rfl | rfl
    · exact triple_void (refused hp)
    · exact refused hi
  have h := (plots_invoke (J := fun u => u = chart w) (K := fun u => u = chart w)
    (fun _ => keeps_chart (J := fun u => u = chart w) ⟨rfl, rfl⟩) hbody).sound he rfl
  cases out with
  | ret u => exact h
  | exn e => exact h
  | crash => exact absurd rfl hc

/-- From `Configured` on only the state of the view moves. -/
theorem chart_later {v : W} (h : Later ps ok good v w) (hv : v.st.state.measured = true) :
    chart w = (chart v).setState w.st.state ∧ w.st.state ≠ .preInit ∧ w.st.state ≠ .initialized := by
  induction h with
  | now =>
    refine ⟨rfl, ?_, ?_⟩
    all_goals
      intro h
      rw [h] at hv
      cases hv
  | @call w₁ w₂ o hk out hl ha hok hg he hc ih =>
    obtain ⟨hchart, hp, hi⟩ := ih
    have hnext : Later ps ok good w₁ w₂ := .call .now ha hok hg he hc
    have hforward : w₁.st.state ≤ w₂.st.state := later_forward hnext
    refine ⟨?_, ?_, ?_⟩
    · by_cases ho : o = .initializeBus ∨ o = .startup
      · have hsame := chart_refused ho hp hi he hc
        have hstate : w₂.st.state = w₁.st.state := congrArg Chart.state hsame
        rw [hsame, hchart, hstate]
      · rw [chart_unsurveyed (unsurveyed_invoke hok (fun h => ho (.inl h)) fun h => ho (.inr h)) he hc, hchart]
        rfl
    · revert hforward hp hi
      cases w₁.st.state <;> cases w₂.st.state <;> decide
    · revert hforward hp hi
      cases w₁.st.state <;> cases w₂.st.state <;> decide

/-! ## Two slaves in a line -/

/-- Only the second of them has a clock. -/
def lineOfTwo : Env where
  ret := 1
  flag := true
  slavecount := 2
  slaves id :=
    { parent := id - 1, activeports := if id = 1 then 3 else 1, hasdc := id = 2, pdelay := 150 * (id - 1)
      Obytes := 2, outputs := 2 * id, Ibytes := 2, inputs := 4 + 2 * id }

def clockedParameters : Parameters := { dcEnabled := true, dcCycleTime := 1000000, dcSync0Shift := 250000 }

/-- `initialize` and `startup` of a bus with these two. -/
def surveyTwo : List Call :=
  [{ op := .initializeBus, env := List.replicate 20 lineOfTwo },
    { op := .startup, env := List.replicate 20 lineOfTwo }]

/-- After the first `n` of the calls, with any parameters. -/
def surveyedWith (ps : Parameters) (n : ℕ) : W :=
  (runCalls ps ⟨{}, []⟩ (surveyTwo.take n)).getD ⟨{}, []⟩

def surveyed (n : ℕ) : W := surveyedWith clockedParameters n

theorem run_surveyedWith (ps : Parameters) (n : ℕ) : Run ps free (fun _ => True) (surveyedWith ps n) :=
  run_calls ps (surveyTwo.take n) fun c hc => by
    have hm := List.mem_of_mem_take hc
    simp only [surveyTwo, List.mem_cons, List.not_mem_nil, or_false] at hm
    rcases hm with rfl | rfl <;> exact ⟨UserCode.none_ok _, trivial⟩

/-! ## The two theorems -/

/-- **The topology is known in two steps.** In `Initialized` the diagnostics show of each slave what
its discovery has found, and zero for the rest; from `Configured` on they show all that SOEM has
measured, and never change again, whatever is called and whichever hooks throw. -/
theorem topology_two_phase (hr : Run ps ok good w) :
    (w.st.state = .preInit → topologies w.st = []) ∧
      (w.st.state = .initialized → topologies w.st =
        (List.range w.st.context.ecatSlavecount).map fun p => (w.st.slave (p + 1)).discovered) ∧
      (w.st.state.measured = true → topologies w.st =
          (List.range w.st.context.ecatSlavecount).map (fun p => (w.st.slave (p + 1)).measured) ∧
        ∀ w', Later ps ok good w w' → topologies w'.st = topologies w.st) := by
  have hsound : (chart w).Sound ps := chart_sound hr
  refine ⟨fun hs => ?_, fun hs => ?_, fun hs => ⟨?_, fun w' hl => congrArg Chart.shown (chart_later hl hs).1⟩⟩
  all_goals unfold Chart.Sound at hsound
  · rw [show (chart w).state = .preInit from hs] at hsound
    exact hsound.1
  · rw [show (chart w).state = .initialized from hs] at hsound
    exact hsound.1
  · cases hw : (chart w).state
    all_goals
      rw [show w.st.state = _ from hw] at hs
      first
        | (cases hs; done)
        | (rw [hw] at hsound; exact hsound.1)

/-- The delays are there after `startup`, and stay. -/
theorem topology_two_phase_line :
    (topologies (surveyed 1).st).map (fun t => (t.parent, t.propagationDelayNs)) = [(0, 0), (1, 0)] ∧
      ∀ w', Later clockedParameters free (fun _ => True) (surveyed 2) w' →
        (topologies w'.st).map (fun t => (t.parent, t.propagationDelayNs)) = [(0, 0), (1, 150)] := by
  obtain ⟨-, hinitialized, -⟩ := topology_two_phase (run_surveyedWith clockedParameters 1)
  obtain ⟨-, -, hmeasured⟩ := topology_two_phase (run_surveyedWith clockedParameters 2)
  refine ⟨?_, fun w' hl => ?_⟩
  · rw [surveyed, hinitialized rfl]
    rfl
  · rw [(hmeasured rfl).2 w' hl, (hmeasured rfl).1]
    rfl

theorem Chart.Sound.sync0 {v : Chart} (h : v.Sound ps) : v.sync0 = [] ∨ v.sync0 = v.dcSync ps := by
  unfold Chart.Sound at h
  cases hs : v.state
  all_goals rw [hs] at h
  case preInit => exact .inl h.2
  case initialized => exact .inl h.2
  case shutdown =>
    rcases h with h | h | h
    · exact .inl h.2
    · exact .inl h.2
    · exact .inr h.2
  all_goals exact .inr h.2

theorem toUInt32_eq_iff {x : ℤ} : (toUInt32 x : ℤ) = x ↔ 0 ≤ x ∧ x < 2 ^ 32 := by
  rw [toUInt32]
  omega

theorem toInt32_eq_iff {x : ℤ} : toInt32 x = x ↔ -2 ^ 31 ≤ x ∧ x < 2 ^ 31 := by
  constructor
  · intro h
    rw [← h]
    exact ⟨Int32.le_toInt _, Int32.toInt_lt _⟩
  · exact fun h => Int32.toInt_ofInt_of_le h.1 h.2

/-- **The distributed clocks are set up once**: not before `startup`, and then for each slave that
has a clock, with the parameters of the bus in 32 bits, or for none if they are not enabled. What does
not fit in 32 bits is not what the slaves are given. -/
theorem sync0_once (hr : Run ps ok good w) :
    (w.st.state = .preInit ∨ w.st.state = .initialized → sync0 w.hist = []) ∧
      (w.st.state.measured = true → sync0 w.hist =
          (if ps.dcEnabled then ((List.range' 1 w.st.context.ecatSlavecount).filter fun id =>
            (w.st.slave id).hasdc).map fun id => (id, toUInt32 ps.dcCycleTime, toInt32 ps.dcSync0Shift)
          else []) ∧
        ∀ w', Later ps ok good w w' → sync0 w'.hist = sync0 w.hist) ∧
      ∀ e ∈ sync0 w.hist, ((e.2.1 : ℤ) = ps.dcCycleTime ↔ 0 ≤ ps.dcCycleTime ∧ ps.dcCycleTime < 2 ^ 32) ∧
        (e.2.2 = ps.dcSync0Shift ↔ -2 ^ 31 ≤ ps.dcSync0Shift ∧ ps.dcSync0Shift < 2 ^ 31) := by
  have hsound : (chart w).Sound ps := chart_sound hr
  have hmeasured : w.st.state.measured = true → sync0 w.hist = (chart w).dcSync ps := fun hs => by
    unfold Chart.Sound at hsound
    cases hw : (chart w).state
    all_goals
      rw [show w.st.state = _ from hw] at hs
      first
        | (cases hs; done)
        | (rw [hw] at hsound; exact hsound.2)
  have hearly : w.st.state = .preInit ∨ w.st.state = .initialized → sync0 w.hist = [] := fun hs => by
    unfold Chart.Sound at hsound
    rcases hs with hs | hs
    · rw [show (chart w).state = .preInit from hs] at hsound
      exact hsound.2
    · rw [show (chart w).state = .initialized from hs] at hsound
      exact hsound.2
  refine ⟨hearly, fun hs => ⟨hmeasured hs, fun w' hl => congrArg Chart.sync0 (chart_later hl hs).1⟩,
    fun e he => ?_⟩
  rcases hsound.sync0 with hnone | hset
  · rw [show sync0 w.hist = [] from hnone] at he
    cases he
  · rw [show sync0 w.hist = (chart w).dcSync ps from hset, Chart.dcSync] at he
    split at he
    · obtain ⟨id, -, rfl⟩ := List.mem_map.1 he
      exact ⟨toUInt32_eq_iff, toInt32_eq_iff⟩
    · cases he

/-- A cycle of 5 s and a shift of 3 s. -/
def slowParameters : Parameters :=
  { dcEnabled := true, dcCycleTime := 5000000000, dcSync0Shift := 3000000000 }

/-- Nothing is set up by `initialize`, and later only the slave with a clock. -/
theorem sync0_once_line :
    sync0 (surveyed 1).hist = [] ∧
      (∀ w', Later clockedParameters free (fun _ => True) (surveyed 2) w' →
        sync0 w'.hist = [(2, 1000000, 250000)]) ∧
      ∀ w', Later slowParameters free (fun _ => True) (surveyedWith slowParameters 2) w' →
        sync0 w'.hist = [(2, 705032704, -1294967296)] := by
  obtain ⟨hnone, -⟩ := sync0_once (run_surveyedWith clockedParameters 1)
  obtain ⟨-, hset, -⟩ := sync0_once (run_surveyedWith clockedParameters 2)
  obtain ⟨-, hslow, -⟩ := sync0_once (run_surveyedWith slowParameters 2)
  refine ⟨hnone (.inr rfl), fun w' hl => ?_, fun w' hl => ?_⟩
  · rw [(hset rfl).2 w' hl, (hset rfl).1]
    rfl
  · rw [(hslow rfl).2 w' hl, (hslow rfl).1]
    rfl

end Run

end EthercatInterface
