import EthercatInterface.Lifecycle.Destruction
import EthercatInterface.Lifecycle.Fleet

/-!
# A bus comes up

With slaves that do as they are told and hooks that return, `initialize`, `startup` and
`activate` return one after the other, and so does every call of `update_rt` and
`update_service` afterwards; the bus is in `Operational` as soon as all slaves have reported it
(`bringUp_serves`). Nothing else the backend tests can fail: no subscript, no size, no pointer.
-/

namespace EthercatInterface

open Interleave

variable {ps : Parameters} {hk : UserCode} {n : ℕ} {w : W} {s : BusState}

/-! ## `initialize` -/

/-- A bus that has not been initialized. -/
structure Fleet.Fresh (v : Fleet) : Prop where
  alive : v.roster.alive = true
  state : v.roster.state = .preInit
  devices : v.roster.devices = []
  created : v.roster.created = 0

/-- The first `k` of `n` devices have been created. -/
structure Fleet.Manning (n k : ℕ) (v : Fleet) : Prop where
  alive : v.roster.alive = true
  state : v.roster.state = .initialized
  count : v.roster.count = n
  entries : v.roster.entries = n
  devices : v.roster.devices = List.range k
  created : v.roster.created = k
  id : ∀ p < k, v.roster.id p = p + 1
  bus : ∀ p < k, v.bus p = true

theorem Fleet.Manning.manned {v : Fleet} (h : v.Manning n n) : v.Manned n .initialized :=
  { h with }

/-- One more device. -/
theorem Fleet.Manning.emplace {k : ℕ} (h : (fleet n w).Manning n k) (i : Env) {info : DeviceInfo}
    (hid : info.id = k + 1) : (fleet n (w.after exec 0 (.emplaceDevice info) i)).Manning n (k + 1) := by
  have hcreated : w.st.devCount = k := h.created
  have hdevices : w.st.devices = List.range k := h.devices
  have hdev : ∀ p, (exec (.emplaceDevice info) i w.st).2.dev p =
      if p = k then { bus := true, deviceInfo := info } else w.st.dev p := fun p => by
    simp only [exec, St.modifyDev, hcreated, Function.update_apply]
  refine { h with devices := ?_, created := ?_, id := fun p hp => ?_, bus := fun p hp => ?_ }
  · change w.st.devices ++ [w.st.devCount] = List.range (k + 1)
    rw [hdevices, hcreated, List.range_succ]
  · exact congrArg (· + 1) hcreated
  · change ((exec (.emplaceDevice info) i w.st).2.dev p).deviceInfo.id = p + 1
    rw [hdev]
    split
    · next hpk => rw [hpk]; exact hid
    · next hpk => exact h.id p (Nat.lt_of_le_of_ne (Nat.le_of_lt_succ hp) hpk)
  · change ((exec (.emplaceDevice info) i w.st).2.dev p).bus = true
    rw [hdev]
    split
    · rfl
    · next hpk => exact h.bus p (Nat.lt_of_le_of_ne (Nat.le_of_lt_succ hp) hpk)

/-- Discovery, as far as the diagnostics have been set up. -/
structure Fleet.Found (n : ℕ) (v : Fleet) : Prop extends v.Fresh where
  count : v.roster.count = n
  entries : v.roster.entries = n

theorem brings_scanDevice {k : ℕ} (hk : k < n) :
    Brings ps n (Fleet.Manning n k) (scanDevice (1 + k)) fun info v => info.id = 1 + k ∧ v.Manning n k := by
  refine brings_refuse (fun _ hv => hv.state) (by decide) ?_
  have honBus : (decide (0 < 1 + k) && decide (1 + k ≤ n)) = true := by
    simp
    omega
  refine brings_told (a := .slavecount) (r := n) rfl (fun i w _ hw => hw.count) ?_
  change Brings ps n _ ((Prog.raiseIf (!(decide (0 < 1 + k) && decide (1 + k ≤ n))) _).bind _) _
  rw [honBus]
  exact brings_ask (a := .slaveInfo (1 + k)) (f := .pure) rfl (fun info _ => info.id = 1 + k)
    (fun _ _ _ _ => rfl)
    fun info => brings_pure fun _ hv => hv

theorem brings_initializeBus (hn : 0 < n) :
    Brings ps n Fleet.Fresh (initializeBus ps) fun count v => count = n ∧ v.Manned n .initialized := by
  refine brings_require (fun _ hv => hv.state) (by decide) ?_
  refine brings_ask (a := .ecxInit) rfl (fun ec _ => 0 < ec) (fun i w hi _ => hi) fun ec => ?_
  refine .passed (fun v hv => by simpa using hv.1) ?_
  refine brings_step (fun count v => count = n ∧ v.Fresh ∧ v.roster.count = n) (fun i w hi hw => ?_)
    fun count => ?_
  · exact ⟨hi.1, { hw.2 with }, hi.2⟩
  refine .assume (fun _ hv => hv.1) fun hcount => ?_
  subst hcount
  refine .passed (fun _ _ => by simpa using Nat.pos_iff_ne_zero.1 hn) ?_
  refine brings_step (fun _ => Fleet.Found n) (fun i w _ hw => ?_) fun _ => ?_
  · refine { hw.2.1 with count := hw.2.2, entries := ?_ }
    exact (length_resize _ _ _).trans hw.2.2
  refine brings_told (a := .slavecount) (r := n) rfl (fun i w _ hw => hw.count) ?_
  refine .bind (T := fun _ => Fleet.Found n) (.forRange (I := fun _ => Fleet.Found n) fun k hk => ?_)
    fun _ => ?_
  · refine brings_told (a := .captureTopology (1 + k)) (r := true) rfl (fun i w _ hw => ?_)
      (brings_pure fun _ hv => hv)
    have hentries : w.st.latestDiagnostics.slaves.length = n := hw.entries
    have hlt : 1 + k - 1 < w.st.latestDiagnostics.slaves.length := by omega
    exact decide_eq_true hlt
  refine brings_skip rfl fun up => brings_skip (a := .setLinkUp up) rfl fun _ => ?_
  refine brings_step (fun _ => Fleet.Manning n 0) (fun i w _ hw => ?_) fun _ => ?_
  · exact {
      hw with
      state := rfl
      id := fun p hp => absurd hp (Nat.not_lt_zero p)
      bus := fun p hp => absurd hp (Nat.not_lt_zero p) }
  rw [Int.toNat_natCast]
  refine .bind (T := fun _ => Fleet.Manning n n) (.forRange fun k hk => ?_) fun _ =>
    brings_pure fun _ hv => ⟨rfl, hv.manned⟩
  refine .bind (brings_scanDevice hk) fun info => brings_step (a := .emplaceDevice info) (f := .pure)
    (fun _ => Fleet.Manning n (k + 1)) (fun i w _ hw => ?_) fun _ => brings_pure fun _ hv => hv
  exact hw.2.emplace i (by rw [hw.1, Nat.add_comm])

/-! ## `startup` -/

/-- Actions that change neither the tables nor the pointers to the bus. -/
theorem Fleet.Manned.after {a : Act} (he : a.enrols = false) (hb : a.binds = false) (i : Env)
    (h : (fleet n w).Manned n s) : (fleet n (w.after exec 0 a i)).Manned n s := by
  have hr : (fleet n (w.after exec 0 a i)).roster = (fleet n w).roster := roster_exec he i w.st
  refine ⟨?_, ?_, ?_, ?_, ?_, ?_, fun p hp => (bus_exec hb i w.st p).trans (h.bus p hp)⟩ <;> rw [hr]
  · exact h.alive
  · exact h.state
  · exact h.count
  · exact h.entries
  · exact h.devices
  · exact h.id

/-- A store of `state_`. -/
theorem Fleet.Manned.store {s' : BusState} (i : Env) (h : (fleet n w).Manned n s) :
    (fleet n (w.after exec 0 (.updateBusState s') i)).Manned n s' :=
  { h with state := rfl }

/-- All `n` devices are fitted. -/
structure Fleet.Equipped (n : ℕ) (s : BusState) (v : Fleet) : Prop extends v.Manned n s where
  number : ∀ p < n, v.sizing.id p = p + 1
  fitted : ∀ p < n, v.sizing.Fitted p

theorem Fleet.Equipped.after {a : Act} (he : a.enrols = false) (hs : a.sizes = false) (hb : a.binds = false)
    (i : Env) (h : (fleet n w).Equipped n s) : (fleet n (w.after exec 0 a i)).Equipped n s := by
  have hsizing : (fleet n (w.after exec 0 a i)).sizing = (fleet n w).sizing := sizing_exec hs i w.st
  refine { h.toManned.after he hb i with number := ?_, fitted := ?_ } <;> rw [hsizing]
  · exact h.number
  · exact h.fitted

theorem Fleet.Equipped.fit {v : Fleet} (h : v.Equipped n s) : v.Fit := fun _ p hp =>
  h.fitted p (by rw [h.devices] at hp; exact List.mem_range.1 hp)

theorem Fleet.Manned.fit {v : Fleet} (h : v.Manned n s) (hs : ¬s.inService) : v.Fit := fun hv =>
  absurd (h.state ▸ hv) hs

/-- The first `k` devices are fitted. -/
structure Fleet.Fitting (n k : ℕ) (v : Fleet) : Prop extends v.Manned n .configured where
  number : ∀ p < n, v.sizing.id p = p + 1
  fitted : ∀ p < k, v.sizing.Fitted p

theorem Fleet.Fitting.equipped {v : Fleet} (h : v.Fitting n n) : v.Equipped n .configured := { h with }

/-- The fleet after an action that sizes a buffer. -/
def Fleet.sized (v : Fleet) (a : Act) : Fleet := { v with sizing := v.sizing.perform a }

theorem fleet_sized {a : Act} (hd : a.discovers = false) (he : a.enrols = false) (hb : a.binds = false)
    (ht : ∀ tp, a ≠ .setActivationStartTp tp) (hr : a ≠ .ecxReadstate) (hs : a ≠ .updateBusState .activated)
    (i : Env) : fleet n (w.after exec 0 a i) = (fleet n w).sized a := by
  unfold fleet
  rw [Fleet.sized]
  congr 1
  · exact roster_exec he i w.st
  · exact sizing_perform hd i w.st
  · exact funext fun p => bus_exec hb i w.st p
  · exact start_exec ht i w.st
  · exact haveReported_cons hr hs

theorem brings_mapPdos (hok : hk.Ok ps) (hret : hk.Returning ps n) :
    Brings ps n (Fleet.Manned n .initialized) (mapPdos ps hk) fun size v =>
      size ≤ toInt ps.pdoBufferSize ∧ v.Manned n .initialized := by
  refine .bind (brings_callbacks hok hret fun v hv => ⟨hv, hv.fit (by decide)⟩) fun _ => ?_
  refine brings_skip rfl fun _ => brings_skip rfl fun _ => ?_
  refine brings_step (a := .ecxConfigMapGroup) (f := .pure) (fun size v => size ≤ toInt ps.pdoBufferSize ∧
    v.Manned n .initialized) (fun i w hi hw => ⟨hi, hw.after rfl rfl i⟩) fun _ => brings_pure fun _ hv => hv

theorem brings_setupDc : Brings ps n (Fleet.Manned n s) (setupDc ps) fun _ => Fleet.Manned n s := by
  refine brings_told (a := .slavecount) (r := n) rfl (fun i w _ hw => hw.count) ?_
  refine .bind (T := fun _ => Fleet.Manned n s) (.forRange (I := fun _ => Fleet.Manned n s) fun k hk => ?_)
    fun _ => .when (fun _ => ?_) fun _ _ hv => hv
  · refine brings_told (a := .captureDc (1 + k)) (r := true) rfl (fun i w _ hw => ?_)
      (brings_pure fun _ hv => hv)
    have hentries : w.st.latestDiagnostics.slaves.length = n := hw.entries
    have hlt : 1 + k - 1 < w.st.latestDiagnostics.slaves.length := by omega
    exact decide_eq_true hlt
  · refine brings_told (a := .slavecount) (r := n) rfl (fun i w _ hw => hw.count) ?_
    exact .forRange (I := fun _ => Fleet.Manned n s) fun k _ => brings_skip rfl fun _ =>
      .when (fun _ => brings_act rfl) fun _ _ hv => hv

/-- An action that sizes a buffer. -/
theorem brings_sized {a : Act} (hd : a.discovers = false) (he : a.enrols = false) (hb : a.binds = false)
    (ht : ∀ tp, a ≠ .setActivationStartTp tp) (hr : a ≠ .ecxReadstate) (hs : a ≠ .updateBusState .activated)
    {J : Fleet → Prop} {α : Type} {f : Ans a → P α} {Q : α → Fleet → Prop}
    (hf : ∀ r, Brings ps n (fun v => ∃ v₀, J v₀ ∧ v = v₀.sized a) (f r) Q) :
    Brings ps n J ((act a).bind f) Q :=
  brings_step (fun _ v => ∃ v₀, J v₀ ∧ v = v₀.sized a) (fun i _ _ hw => ⟨_, hw, fleet_sized hd he hb ht hr hs i⟩)
    hf

/-- The device after the first `k` is fitted. -/
theorem Fleet.Fitting.fit {k : ℕ} {v : Fleet} (h : v.Fitting n k) :
    Fleet.Fitting n (k + 1) { v with sizing := v.sizing.fit k } := by
  refine { h with fitted := fun p hp => ?_ }
  by_cases hpk : p = k
  · subst hpk
    exact ⟨Function.update_self .., Function.update_self .., Function.update_self ..⟩
  · have hf : v.sizing.Fitted p := h.fitted p (Nat.lt_of_le_of_ne (Nat.le_of_lt_succ hp) hpk)
    exact ⟨(Function.update_of_ne hpk ..).trans hf.initialized, (Function.update_of_ne hpk ..).trans hf.rx,
      (Function.update_of_ne hpk ..).trans hf.tx⟩

theorem brings_onPdoConfigured (hok : hk.Ok ps) (hret : hk.Returning ps n) {k : ℕ} (hkn : k < n) {rx tx : ℕ} :
    Brings ps n (fun v => tx = v.sizing.Ibytes (k + 1) ∧ rx = v.sizing.Obytes (k + 1) ∧ v.Fitting n k)
      (onPdoConfigured hk k rx tx) fun _ => Fleet.Fitting n (k + 1) := by
  refine brings_skip rfl fun _ => brings_sized (a := .resizeRxPdo k rx) rfl rfl rfl nofun nofun nofun
    fun _ => ?_
  refine brings_skip rfl fun t => brings_skip (a := .setRxTime k t) rfl fun _ => ?_
  refine brings_sized (a := .resizeTxPdo k tx) rfl rfl rfl nofun nofun nofun fun _ => ?_
  refine brings_skip rfl fun t => brings_skip (a := .setTxTime k t) rfl fun _ => ?_
  refine brings_sized (a := .setPdoInitialized k) rfl rfl rfl nofun nofun nofun fun _ => ?_
  have hook : Brings ps n (Fleet.Fitting n (k + 1)) (hk.hook .onPdoConfigured k)
      fun _ => Fleet.Fitting n (k + 1) :=
    brings_hook hok hret fun v hv => ⟨hv.at hkn, hv.toManned.fit (by decide)⟩
  refine hook.mono ?_ fun _ _ h => h
  rintro v ⟨_, ⟨_, ⟨v₀, ⟨rfl, rfl, hv⟩, rfl⟩, rfl⟩, rfl⟩
  have hfit := hv.fit
  rw [Sizing.fit, hv.number k hkn] at hfit
  exact hfit

/-- **`startup`.** -/
theorem brings_startup (hok : hk.Ok ps) (hret : hk.Returning ps n) :
    Brings ps n (Fleet.Manned n .initialized) (startup ps hk) fun _ => Fleet.Equipped n .configured := by
  refine brings_require (fun _ hv => hv.state) (by decide) ?_
  refine .bind (brings_mapPdos hok hret) fun size => .assume (fun _ hv => hv.1) fun hsize => ?_
  have hfits : decide (size > toInt ps.pdoBufferSize) = false := decide_eq_false (Int.not_lt.2 hsize)
  rw [hfits]
  refine .bind (T := fun _ => Fleet.Manned n .initialized) (brings_pure fun _ hv => hv.2) fun _ => ?_
  refine brings_ask (a := .ecxConfigdc) rfl (fun b _ => ps.dcEnabled = true → b = true) (fun i w hi _ => hi)
    fun found => ?_
  refine .bind (T := fun _ => Fleet.Manned n .initialized) (.when (fun hmissed => ?_) fun _ _ hv => hv.2)
    fun _ => ?_
  · -- without a clock to be found there is nothing to complain about
    refine .assume (c := False) (fun v hv => ?_) fun h => h.elim
    obtain ⟨hnone, hdc⟩ : found = false ∧ ps.dcEnabled = true := by simpa using hmissed
    rw [hv.1 hdc] at hnone
    cases hnone
  refine .bind brings_setupDc fun _ => ?_
  refine brings_step (fun _ => Fleet.Fitting n 0) (fun i w _ hw => ?_) fun _ => ?_
  · exact { hw.store i with
      number := fun p hp => hw.id p hp
      fitted := fun p hp => absurd hp (Nat.not_lt_zero p) }
  refine (brings_forDevices (Fleet.Fitting n) (fun _ _ hv => hv.toManned) fun k hkn => ?_).mono (fun _ h => h)
    fun _ _ hv => hv.equipped
  refine brings_ask (a := .obytes (k + 1)) rfl (fun rx v => rx = v.sizing.Obytes (k + 1)) (fun _ _ _ _ => rfl)
    fun rx => ?_
  refine brings_ask (a := .ibytes (k + 1)) rfl (fun tx v => tx = v.sizing.Ibytes (k + 1)) (fun _ _ _ _ => rfl)
    fun tx => ?_
  exact brings_onPdoConfigured hok hret hkn

/-! ## `activate` -/

theorem Fleet.Equipped.store {s' : BusState} (i : Env) (h : (fleet n w).Equipped n s) :
    (fleet n (w.after exec 0 (.updateBusState s') i)).Equipped n s' :=
  { h.toManned.store i with
    number := h.number
    fitted := fun p hp => ⟨(h.fitted p hp).initialized, (h.fitted p hp).rx, (h.fitted p hp).tx⟩ }

/-- All devices are asked for a state, and take it. -/
theorem brings_requests {J : Fleet → Prop} (hJ : ∀ v, J v → v.Manned n s) {l : Loop} {state : ℕ}
    {q : Bool → P Unit}
    (hq : q true = pure ()) :
    Brings ps n J (forDevices l fun _ id => (setDeviceTargetState id state).bind q) fun _ => J :=
  brings_forDevices (fun _ => J) (fun _ => hJ) fun p hp => .bind (brings_setDeviceTargetState hJ hp) fun b =>
    .assume (fun _ hv => hv.1) fun hb => by
      subst hb
      rw [hq]
      exact brings_pure fun _ hv => hv.2

theorem brings_waits {J : Fleet → Prop} (hJ : ∀ v, J v → v.Manned n s) {l : Loop} {state : ℕ}
    {q : Bool → P Unit}
    (hq : q true = pure ()) :
    Brings ps n J (forDevices l fun _ id => (waitForDeviceTargetState id state).bind q) fun _ => J :=
  brings_forDevices (fun _ => J) (fun _ => hJ) fun p hp => .bind (brings_waitForDeviceTargetState hJ hp)
    fun b =>
    .assume (fun _ hv => hv.1) fun hb => by
      subst hb
      rw [hq]
      exact brings_pure fun _ hv => hv.2

/-- **A bus in service**, in `Operational` exactly if all slaves have reported it. -/
structure Fleet.Serving (n : ℕ) (s : BusState) (v : Fleet) : Prop extends v.Equipped n s where
  inService : s.inService
  reported : v.reported = decide (s = .operational)

/-- **`activate`.** -/
theorem brings_activate (hok : hk.Ok ps) (hret : hk.Returning ps n) :
    Brings ps n (Fleet.Equipped n .configured) (activate hk) fun _ => Fleet.Serving n .activated := by
  refine brings_require (fun _ hv => hv.state) (by decide) ?_
  refine .bind (brings_callbacks hok hret fun v hv => ⟨hv.toManned, hv.fit⟩) fun _ => ?_
  refine brings_step (fun _ => Fleet.Equipped n .configured) (fun i w _ hw => { hw with }) fun _ => ?_
  refine .bind (brings_requests (fun _ hv => hv.toManned) rfl) fun _ => ?_
  refine .bind (brings_waits (fun _ hv => hv.toManned) rfl) fun _ => ?_
  refine brings_step (fun _ => Fleet.Serving n .activated) (fun i w _ hw => ?_) fun _ => ?_
  · exact { hw.store i with inService := .inl rfl, reported := rfl }
  · exact brings_callbacks hok hret fun v hv => ⟨hv.toManned, hv.toEquipped.fit⟩

/-! ## `update_service` -/

theorem total_drainAll (m : ℕ) : (drainAll m).Total := by
  induction m with
  | zero => trivial
  | succ m ih =>
    refine Prog.total_perform.bind fun raw => ?_
    cases raw with
    | none => trivial
    | some raw => exact Prog.total_perform.bind fun _ => Prog.total_perform.withLock.bind fun _ => ih

theorem total_drainMailboxEvents : drainMailboxEvents.Total :=
  Prog.total_perform.bind fun m => total_drainAll (m + 1)

/-- A tick of a bus in `Activated` that is made in time. -/
theorem brings_operationalTimeout :
    Brings ps n (fun v => v.start.isSome = true ∧ v.Serving n .activated) (operationalTimeout ps) fun b v =>
      b = false ∧ v.Serving n .activated := by
  unfold operationalTimeout
  split
  · next hT =>
    refine brings_ask (a := .now) rfl (fun now v => ∀ tp ∈ v.start, ps.InTime now tp)
      (fun i w hi hw tp htp => hi tp htp hw.2.state) fun now => ?_
    refine brings_ask (a := .activationStartTp) rfl (fun start v => start = v.start) (fun _ _ _ _ => rfl)
      fun start => ?_
    cases start with
    | none =>
      refine .assume (c := False) (fun v hv => ?_) fun h => h.elim
      have hsome := hv.2.2.1
      rw [← hv.1] at hsome
      cases hsome
    | some tp =>
      refine brings_pure fun v hv => ⟨decide_eq_false (Int.not_lt.2 ?_), hv.2.2.2⟩
      exact hv.2.1 tp hv.1.symm hT
  · exact brings_pure fun v hv => ⟨rfl, hv.2⟩

/-- What the cached states of the slaves tell, as `reported` does. -/
def Cached (n : ℕ) (w : W) : Prop :=
  (fleet n w).reported =
    (List.range n).all fun p => lowNibble (w.st.slave (p + 1)).state = EC_STATE_OPERATIONAL

/-- A tick reads the states of all slaves at once. -/
theorem returns_updateDeviceStates :
    (single (healthy ps n) free).Returns (fun w => (fleet n w).Serving n .activated) updateDeviceStates
      fun _ w =>
      (fleet n w).Equipped n .activated ∧ Cached n w := by
  refine .withLock (.ask (T := fun _ w => (fleet n w).Equipped n .activated ∧ Cached n w)
    (fun i w _ hw => ⟨trivial, hw.toEquipped.after rfl rfl rfl i, ?_⟩) fun _ => .pure fun _ hw => hw)
  have hcount : w.st.context.ecatSlavecount = n := hw.count
  have hreported : haveReported n w.hist = false := hw.reported
  have hslave : ∀ p ∈ List.range n,
      ((exec .ecxReadstate i w.st).2.slave (p + 1)).state = (i.slaves (p + 1)).state := by
    intro p hp
    change (if p + 1 ≤ w.st.context.ecatSlavecount then _ else _ : Slave).state = _
    rw [if_pos (by rw [hcount]; exact List.mem_range.1 hp)]
  change (allReport n (fun id => (i.slaves id).state) || haveReported n w.hist) = _
  rw [hreported, Bool.or_false, allReport, Bool.eq_iff_iff, List.all_eq_true, List.all_eq_true]
  refine forall₂_congr fun p hp => ?_
  rw [World.after_st, hslave p hp]

/-- The first `k` slaves are cached as OPERATIONAL. -/
def cachedUpTo (k : ℕ) (w : W) : Bool :=
  (List.range k).all fun p => lowNibble (w.st.slave (p + 1)).state = EC_STATE_OPERATIONAL

/-- The loop that tests the devices, after the states have been read. -/
theorem returns_allInOperational :
    (single (healthy ps n) free).Returns (fun w => (fleet n w).Equipped n .activated ∧ Cached n w)
      allInOperational
      fun all w => all = (fleet n w).reported ∧ (fleet n w).Equipped n .activated := by
  -- the tests change neither the fleet nor the cache
  have still : ∀ {a : Act} {w : W} {i : Env}, a.passive = true → (exec a i w.st).2 = w.st →
      (fleet n w).Equipped n .activated ∧ Cached n w →
        (fleet n (w.after exec 0 a i)).Equipped n .activated ∧ Cached n (w.after exec 0 a i) := by
    intro a w i ha hst hw
    rw [Cached, fleet_after ha, World.after_st, hst]
    exact hw
  refine .told (r := List.range n) (fun i w _ hw => ⟨trivial, hw.1.devices, still rfl rfl hw⟩) ?_
  rw [List.range_eq_range']
  refine (Setting.Returns.foldRange (J := fun k all w => all = cachedUpTo k w ∧
    (fleet n w).Equipped n .activated ∧ Cached n w) (fun k hk all => ?_) true).mono (fun w hw => ⟨rfl, hw⟩)
      fun all w hw => ⟨hw.1.trans hw.2.2.symm, hw.2.1⟩
  refine .told (r := some (k + 1)) (fun i w _ hw => ⟨trivial, ?_, hw.1, still rfl rfl hw.2⟩) ?_
  · have hmem : 0 + k ∈ w.st.devices := by
      rw [show w.st.devices = List.range n from hw.2.1.devices, Nat.zero_add]
      exact List.mem_range.2 hk
    refine (if_pos hmem).trans (congrArg some ?_)
    rw [Nat.zero_add]
    exact hw.2.1.id k hk
  refine .bind (T := fun state w => state = lowNibble (w.st.slave (k + 1)).state ∧ all = cachedUpTo k w ∧
    (fleet n w).Equipped n .activated ∧ Cached n w) (.withLock (.ask (T := fun state w =>
      state = (w.st.slave (k + 1)).state ∧ all = cachedUpTo k w ∧
      (fleet n w).Equipped n .activated ∧ Cached n w)
        (fun i w _ hw => ⟨trivial, rfl, hw.1, still rfl rfl hw.2⟩) fun state => .pure fun w hw => ⟨?_, hw.2⟩))
    fun state => .pure fun w hw => ⟨?_, hw.2.2⟩
  · rw [hw.1]
  · rw [hw.1, hw.2.1, cachedUpTo, cachedUpTo, List.range_succ, List.all_append, List.all_cons, List.all_nil,
      Bool.and_true]

/-- A bus in service. -/
def Fleet.Serves (n : ℕ) (v : Fleet) : Prop := ∃ s, v.Serving n s

theorem Fleet.Serving.serves {v : Fleet} (h : v.Serving n s) : v.Serves n := ⟨s, h⟩

/-- A tick in `Activated`. -/
theorem brings_bringOperational :
    Brings ps n (Fleet.Serving n .activated) (bringOperational ps hk) fun _ => Fleet.Serves n := by
  refine brings_ask (a := .activationStartTp) rfl (fun start v => start = v.start) (fun _ _ _ _ => rfl)
    fun start => ?_
  refine .bind (T := fun _ v => v.start.isSome = true ∧ v.Serving n .activated) (.when (fun _ => ?_)
    fun hsome v hv => ⟨?_, hv.2⟩) fun _ => ?_
  · refine brings_skip rfl fun now => brings_step (a := .setActivationStartTp (some now)) (f := .pure)
      (fun _ v => v.start.isSome = true ∧ v.Serving n .activated) (fun i w _ hw => ⟨rfl, { hw.2 with }⟩)
      fun _ => brings_pure fun _ hv => hv
  · rw [← hv.1]
    simpa using hsome
  refine .bind brings_operationalTimeout fun b => .assume (fun _ hv => hv.1) fun hb => ?_
  subst hb
  refine .bind (T := fun _ => Fleet.Serving n .activated) (brings_pure fun _ hv => hv.2) fun _ => ?_
  refine .bind (T := fun _ => Fleet.Serving n .activated) (brings_requests (fun _ hv => hv.toManned) rfl)
    fun _ => ?_
  refine Setting.Returns.bind returns_updateDeviceStates fun _ => Setting.Returns.bind returns_allInOperational
    fun all => .when (fun hall => ?_) fun hall w hw =>
      ⟨.activated, { hw.2 with inService := .inl rfl, reported := ?_ }⟩
  · refine .perform fun i w _ hw => ⟨trivial, .operational, ?_⟩
    exact { hw.2.store i with inService := .inr rfl, reported := hw.1.symm.trans hall }
  · rw [← hw.1, hall]
    rfl

/-! ### In `Operational` -/

theorem brings_readSlavePortDiagnostics {J : Fleet → Prop} (adr : ℕ) :
    Brings ps n J (readSlavePortDiagnostics adr) fun _ => J :=
  brings_skip rfl fun _ => brings_skip rfl fun _ => brings_skip rfl fun _ => brings_pure fun _ hv => hv

/-- The slave whose ports are read has an entry. -/
theorem brings_updateDiagnosticsSlow (hn : 0 < n) {J : Fleet → Prop} (hJ : ∀ v, J v → v.Manned n s) :
    Brings ps n J updateDiagnosticsSlow fun _ => J := by
  refine Setting.Returns.ask (T := fun selected w => selected = w.st.currentSelectedDiagnosticsSlave ∧
    J (fleet n w)) (fun i w _ hw => ⟨trivial, rfl, by rw [fleet_after rfl]; exact hw⟩) fun selected => ?_
  refine .told (r := n) (fun i w _ hw => ⟨trivial, (hJ _ hw.2).count, hw.1, by
    rw [fleet_after rfl]; exact hw.2⟩) ?_
  refine .bind (T := fun _ w => w.st.currentSelectedDiagnosticsSlave < n ∧ J (fleet n w))
    (.when (fun _ => ?_) fun hlt w hw => ⟨?_, hw.2⟩) fun _ => ?_
  · exact .perform fun i w _ hw => ⟨trivial, hn, by rw [fleet_after rfl]; exact hw.2⟩
  · rw [← hw.1]
    simpa using hlt
  refine .ask (T := fun k w => k < n ∧ J (fleet n w)) (fun i w _ hw =>
    ⟨trivial, hw.1, by rw [fleet_after rfl]; exact hw.2⟩) fun k => .assume (fun _ hw => hw.1) fun hk => ?_
  have hentry : ∀ {w : W}, J (fleet n w) → k < w.st.latestDiagnostics.slaves.length := fun hw =>
    Nat.lt_of_lt_of_eq hk (hJ _ hw).entries.symm
  refine .mono (P := fun w => J (fleet n w)) (Q := fun _ w => J (fleet n w)) ?_ (fun _ hw => hw.2)
    fun _ _ h => h
  change Brings ps n J _ fun _ => J
  refine brings_skip rfl fun adr => .bind (brings_readSlavePortDiagnostics adr) fun ports => ?_
  refine .bind (.withLock ?_) fun _ => brings_act rfl
  refine brings_told (a := .publishPorts k ports) (r := true) rfl
    (fun i w _ hw => decide_eq_true (hentry hw)) ?_
  refine .survives (fun _ _ => rfl) (brings_skip rfl fun now => ?_)
  refine brings_told (a := .stampPorts k now) (r := true) rfl (fun i w _ hw => decide_eq_true (hentry hw)) ?_
  exact brings_pure fun _ hv => hv

/-- A tick in `Operational`. -/
theorem brings_backgroundDiagnostics (hn : 0 < n) :
    Brings ps n (Fleet.Serving n .operational) (backgroundDiagnostics ps)
      fun _ => Fleet.Serving n .operational := by
  refine .when (fun _ => ?_) fun _ _ hv => hv
  refine .bind (T := fun _ => Fleet.Serving n .operational) (.withLock ?_) fun _ =>
    .when (fun _ => brings_updateDiagnosticsSlow hn fun _ hv => hv.toManned) fun _ _ hv => hv
  refine brings_step (a := .ecxReadstate) (fun _ => Fleet.Serving n .operational) (fun i w _ hw => ?_)
    fun _ => brings_pure fun _ hv => hv
  refine { hw.toEquipped.after rfl rfl rfl i with inService := hw.inService, reported := ?_ }
  have hreported : haveReported n w.hist = true := hw.reported
  change (allReport n _ || haveReported n w.hist) = true
  rw [hreported, Bool.or_true]

/-- In each of the two states. -/
theorem Brings.serves {α : Type} {p : P α} {Q : α → Fleet → Prop} (h : ∀ s, s.inService →
    Brings ps n (Fleet.Serving n s) p Q) : Brings ps n (Fleet.Serves n) p Q := fun w ⟨s, hs⟩ =>
  h s hs.inService w hs

/-- **`update_service`.** -/
theorem brings_updateService (hn : 0 < n) :
    Brings ps n (Fleet.Serves n) (updateService ps hk) fun _ => Fleet.Serves n := by
  refine .serves fun s hs => ?_
  have hrefuse : s ∉ [BusState.preInit, .shutdown, .shuttingDown] := by rcases hs with rfl | rfl <;> decide
  refine brings_refuse (fun _ hv => hv.state) hrefuse ?_
  refine brings_skip rfl fun up => brings_skip (a := .setLinkUp up) rfl fun _ => brings_skip rfl fun free => ?_
  refine .bind (T := fun _ => Fleet.Serving n s) (.when (fun _ => ?_) fun _ _ hv => hv) fun _ => ?_
  · exact .withLock (brings_plain plain_drainMailboxEvents total_drainMailboxEvents)
  refine brings_stateIn (fun _ hv => hv.state) _ ?_
  rcases hs with rfl | rfl
  · exact .bind brings_bringOperational fun _ => brings_pure fun _ hv => hv
  · exact .bind (brings_backgroundDiagnostics hn) fun _ => brings_pure fun _ hv => hv.serves

/-! ## `update_rt` -/

section Cycle

variable {J : Fleet → Prop} {p : Addr}

/-- The checks of the accessors pass. -/
theorem brings_checkPdoAccess (hJ : ∀ v, J v → v.Manned n s) (hs : s.inService) (hp : p < n) {α : Type}
    {f : Unit → P α} {Q : α → Fleet → Prop} (hf : Brings ps n J (f ()) Q) :
    Brings ps n J ((checkPdoAccess (p + 1)).bind f) Q := by
  have hrefuse : s ∉ [BusState.preInit, .initialized] := by rcases hs with rfl | rfl <;> decide
  have honBus : (decide (0 < p + 1) && decide (p + 1 ≤ n)) = true := by simp [Nat.succ_le_of_lt hp]
  have hcheck : Brings ps n J (checkPdoAccess (p + 1)) fun _ => J := by
    refine brings_refuse (fun v hv => (hJ v hv).state) hrefuse ?_
    refine brings_told (a := .slavecount) (r := n) rfl (fun i w _ hw => (hJ _ hw).count) ?_
    change Brings ps n J (Prog.raiseIf (!(decide (0 < p + 1) && decide (p + 1 ≤ n))) _) _
    rw [honBus]
    exact brings_pure fun _ hv => hv
  exact hcheck.bind fun _ => hf

/-- A staging buffer has the size of the outputs. -/
theorem brings_updateWrite (hJ : ∀ v, J v → v.Equipped n s) (hs : s.inService) (hp : p < n) (tp : ℤ) :
    Brings ps n J (updateWrite p tp) fun _ => J := by
  refine .withLock (brings_told (a := .busPtr p) (r := true) rfl (fun i w _ hw => (hJ _ hw).bus p hp) ?_)
  refine .survives (fun _ _ => rfl) ?_
  refine brings_told (a := .deviceId p) (r := p + 1) rfl (fun i w _ hw => (hJ _ hw).id p hp) ?_
  refine brings_ask (a := .rxPdo p) rfl (fun data v => data.length = v.sizing.rx p) (fun _ _ _ _ => rfl)
    fun data => ?_
  refine .bind (T := fun _ => J) ?_ fun _ => brings_act rfl
  refine brings_checkPdoAccess (fun v hv => (hJ v hv.2).toManned) hs hp ?_
  refine brings_ask (a := .obytes (p + 1)) rfl (fun size v => size = v.sizing.Obytes (p + 1))
    (fun _ _ _ _ => rfl)
    fun size => ?_
  refine .passed (fun v hv => ?_) (.withLock (brings_skip rfl fun _ => brings_pure fun _ hv => hv.2.2))
  have hrx := ((hJ v hv.2.2).fitted p hp).rx
  rw [(hJ v hv.2.2).number p hp] at hrx
  simp [hv.2.1, hrx, hv.1]

/-- Received data has the size of the inputs, for which the buffer has been sized. -/
theorem brings_updateRead (hs : s.inService) (hp : p < n) (tp : ℤ) :
    Brings ps n (Fleet.Serving n s) (updateRead p tp) fun _ => Fleet.Serving n s := by
  refine .withLock (brings_told (a := .busPtr p) (r := true) rfl (fun i w _ hw => hw.bus p hp) ?_)
  refine .survives (fun _ _ => rfl) ?_
  refine brings_told (a := .deviceId p) (r := p + 1) rfl (fun i w _ hw => hw.id p hp) ?_
  refine brings_ask (a := .txSize p) rfl (fun m v => m = v.sizing.tx p) (fun _ _ _ _ => rfl) fun m => ?_
  refine .bind (T := fun data v => data.length = v.sizing.tx p ∧ v.Serving n s) ?_ fun data => ?_
  · refine brings_checkPdoAccess (fun v hv => hv.2.toManned) hs hp ?_
    refine brings_ask (a := .ibytes (p + 1)) rfl (fun size v => size = v.sizing.Ibytes (p + 1))
      (fun _ _ _ _ => rfl)
      fun size => ?_
    refine .passed (fun v hv => ?_) (.withLock ?_)
    · have htx := (hv.2.2.fitted p hp).tx
      rw [hv.2.2.number p hp] at htx
      simp [hv.2.1, htx, hv.1]
    · refine brings_ask (a := .copyFromInputs (p + 1) size) rfl (fun r _ => r.2.length = size)
        (fun _ _ _ _ => Memory.length_read _ _ _) fun r => brings_pure fun v hv => ⟨?_, hv.2.2.2⟩
      have htx := (hv.2.2.2.fitted p hp).tx
      rw [hv.2.2.2.number p hp] at htx
      rw [hv.1, hv.2.1, htx]
  · refine brings_step (a := .setTxPdo p data) (fun _ => Fleet.Serving n s) (fun i w _ hw => ?_)
      fun _ => brings_act rfl
    have hsame : fleet n (w.after exec 0 (.setTxPdo p data) i) = fleet n w := by
      rw [fleet_sized (a := .setTxPdo p data) rfl rfl rfl nofun nofun nofun, Fleet.sized, Sizing.perform, hw.1,
        Sizing.setTx_self]
    rw [hsame]
    exact hw.2

/-- The exchange takes no remainder by zero. -/
theorem brings_exchange (hdc : ps.dcEnabled = true → ps.dcCycleTime ≠ 0) :
    Brings ps n J (exchange ps) fun _ => J := by
  refine .withLock (brings_skip rfl fun _ => brings_skip rfl fun _ => brings_skip rfl fun _ =>
    .bind (T := fun _ => J) ?_ fun _ => brings_pure fun _ hv => hv)
  unfold dcCorrection
  split
  · next h =>
    refine brings_skip rfl fun b => ?_
    cases b with
    | false => exact brings_pure fun _ hv => hv
    | true =>
      refine brings_skip rfl fun dcTime => .survives (fun _ _ => decide_eq_true (hdc h)) ?_
      exact brings_skip rfl fun _ => brings_pure fun _ hv => hv
  · exact brings_pure fun _ hv => hv

theorem brings_updateDiagnosticsFast (hJ : ∀ v, J v → v.Manned n s) (wkc e : ℤ) :
    Brings ps n J (updateDiagnosticsFast ps wkc e) fun _ => J := by
  refine brings_skip rfl fun now => brings_skip (a := .stampDiagnostics now) rfl fun _ =>
    brings_skip (a := .countFrame wkc e) rfl fun _ => .when (fun _ => ?_) fun _ _ hv => hv
  refine brings_skip rfl fun free => .when (fun _ => .withLock ?_) fun _ _ hv => hv
  refine brings_told (a := .slavecount) (r := n) rfl (fun i w _ hw => (hJ _ hw).count) ?_
  rw [List.range_eq_range']
  refine .forRange (I := fun _ => J) fun k hk => ?_
  refine brings_told (a := .publishSlave (0 + k)) (r := true) rfl (fun i w _ hw => ?_)
    (brings_pure fun _ hv => hv)
  rw [Nat.zero_add]
  exact decide_eq_true (Nat.lt_of_lt_of_eq hk (hJ _ hw).entries.symm)

/-- **`update_rt`.** -/
theorem brings_updateRt (hdc : ps.dcEnabled = true → ps.dcCycleTime ≠ 0) :
    Brings ps n (Fleet.Serves n) (updateRt ps) fun _ => Fleet.Serves n := by
  refine .serves fun s hs => ?_
  have hrequire : s ∈ [BusState.activated, .operational] := by rcases hs with rfl | rfl <;> decide
  refine brings_require (fun _ hv => hv.state) hrequire (brings_skip rfl fun now => ?_)
  refine .bind (brings_forDevices (fun _ => Fleet.Serving n s) (fun _ _ hv => hv.toManned) fun p hp =>
    brings_updateWrite (fun _ hv => hv.toEquipped) hs hp now) fun _ => ?_
  refine .bind (brings_exchange hdc) fun cycle => ?_
  refine .bind (brings_forDevices (fun _ => Fleet.Serving n s) (fun _ _ hv => hv.toManned) fun p hp =>
    brings_updateRead hs hp now) fun _ => ?_
  refine .bind (T := fun _ => Fleet.Serving n s) (.when (fun _ =>
    brings_updateDiagnosticsFast (fun _ hv => hv.toManned) _ _) fun _ _ hv => hv) fun _ => ?_
  exact brings_pure fun _ hv => hv.serves

end Cycle

/-! ## From the first call on -/

/-- A call returns as its body does. -/
theorem Brings.invoke {o : Op} {J K : Fleet → Prop} (h : Brings ps n J (o.body ps hk) fun _ => K) :
    Brings ps n J (o.invoke ps hk) fun _ => K := by
  refine brings_skip rfl fun _ => .bind (T := fun r v => ∃ u, r = .ok u ∧ K v) (Setting.Returns.attempt h)
    fun r => .assume (c := ∃ u, r = .ok u) (fun _ hv => ⟨_, hv.choose_spec.1⟩) fun ⟨u, hr⟩ => ?_
  subst hr
  exact (brings_act rfl).mono (fun _ hv => hv.choose_spec.2) fun _ _ h => h

theorem Brings.void {α : Type} {p : P α} {J K : Fleet → Prop} (h : Brings ps n J p fun _ => K) :
    Brings ps n J (void p) fun _ => K :=
  h.bind fun _ => brings_pure fun _ hv => hv

/-- The calls that bring a bus up. -/
def bringUp : List Op := [.initializeBus, .startup, .activate]

/-- The calls that are made of a bus in service, again and again. -/
def Op.spins : Op → Bool
  | .updateRt | .updateService => true
  | _ => false

theorem brings_spins (hn : 0 < n) (hdc : ps.dcEnabled = true → ps.dcCycleTime ≠ 0) {ops : List Op}
    (hops : ∀ o ∈ ops, o.spins = true) :
    Brings ps n (Fleet.Serves n) (Prog.forEach ops fun o => o.invoke ps hk) fun _ => Fleet.Serves n := by
  induction ops with
  | nil => exact brings_pure fun _ hv => hv
  | cons o ops ih =>
    refine .bind (T := fun _ => Fleet.Serves n) (.invoke ?_) fun _ =>
      ih fun o' ho' => hops o' (List.mem_cons_of_mem o ho')
    have ho := hops o List.mem_cons_self
    cases o
    case updateRt => exact (brings_updateRt hdc).void
    case updateService => exact (brings_updateService hn).void
    all_goals cases ho

theorem brings_bringUp (hn : 0 < n) (hok : hk.Ok ps) (hret : hk.Returning ps n)
    (hdc : ps.dcEnabled = true → ps.dcCycleTime ≠ 0) {ops : List Op} (hops : ∀ o ∈ ops, o.spins = true) :
    Brings ps n Fleet.Fresh (Prog.forEach (bringUp ++ ops) fun o => o.invoke ps hk)
      fun _ => Fleet.Serves n := by
  have hinit : Brings ps n Fleet.Fresh (Op.initializeBus.body ps hk) fun _ => Fleet.Manned n .initialized :=
    (Brings.mono (brings_initializeBus hn) (fun _ hv => hv) fun _ _ hv => hv.2).void
  refine .bind hinit.invoke fun _ => .bind (brings_startup hok hret).invoke fun _ =>
    .bind (brings_activate hok hret).invoke fun _ => ?_
  exact (brings_spins hn hdc hops).mono (fun _ hv => hv.serves) fun _ _ h => h

/-- A bus that is alive and in `PreInit` is as good as new. -/
theorem fresh_of_run {good : UserCode → Prop} {ok : Guard Act Ans Env St} (hr : Run ps ok good w)
    (ha : w.st.alive = true) (hs : w.st.state = .preInit) : (fleet n w).Fresh := by
  have hbind : BindInv (core w) := run_bindInv hr
  have hcreated : w.st.devCount = 0 := hbind.none hs
  have hdevices : w.st.devices = [] := by
    rcases hbind.list with hl | hl
    · rw [show w.st.devices = List.range w.st.devCount from hl, hcreated, List.range_zero]
    · exact hl
  exact ⟨ha, hs, hdevices, hcreated⟩

/-- **A bus comes up and stays up**: whatever has failed before, `initialize`, `startup` and
`activate` return one after the other if SOEM opens the interface and finds slaves that do as they are
told, and so does every `update_rt` and `update_service` after them, in whatever order, as long as no
tick is too late for the timeout. With distributed clocks enabled, a slave has to have one, and the
cycle time must not be `0`. All devices are configured, and the bus is in `Operational` exactly if all
slaves have reported it at once. -/
theorem bringUp_serves {good : UserCode → Prop} {ok : Guard Act Ans Env St} (hr : Run ps ok good w)
    (ha : w.st.alive = true) (hs : w.st.state = .preInit) (hn : 0 < n) (hok : hk.Ok ps)
    (hret : hk.Returning ps n) (hdc : ps.dcEnabled = true → ps.dcCycleTime ≠ 0) {ops : List Op}
    (hops : ∀ o ∈ ops, o = .updateRt ∨ o = .updateService) {o : Outcome Exn Unit} {w' : W}
    (he : Exec exec (healthy ps n) 0 (Prog.forEach (bringUp ++ ops) fun o => o.invoke ps hk) w o w') :
    o = .ret () ∧ w'.st.devices = List.range n ∧
      (∀ p < n, (w'.st.dev p).deviceInfo.id = p + 1 ∧ (w'.st.dev p).pdoInitialized = true ∧
        (w'.st.dev p).rxPdo.length = (w'.st.slave (p + 1)).Obytes ∧
        (w'.st.dev p).txPdo.length = (w'.st.slave (p + 1)).Ibytes) ∧
      w'.st.state = if haveReported n w'.hist then .operational else .activated := by
  have hspins : ∀ o ∈ ops, o.spins = true := fun o ho => by rcases hops o ho with rfl | rfl <;> rfl
  have hbrings := brings_bringUp hn hok hret hdc hspins
  obtain ⟨u, rfl, s, hserving⟩ := Setting.Returns.sound hbrings he (fresh_of_run hr ha hs)
  refine ⟨rfl, hserving.devices, fun p hp => ?_, ?_⟩
  · have hfitted := hserving.fitted p hp
    have hid := hserving.number p hp
    refine ⟨hid, hfitted.initialized, ?_, ?_⟩
    · exact hid ▸ hfitted.rx
    · exact hid ▸ hfitted.tx
  · have hstate : w'.st.state = s := hserving.state
    have hreported : haveReported n w'.hist = decide (s = .operational) := hserving.reported
    rw [hstate, hreported]
    rcases hserving.inService with rfl | rfl <;> rfl

/-- One slave in state `s`, without a clock, and everything goes well. -/
def compliant (s : ℕ) : Env := { ret := 1, slavecount := 1, slaves := fun _ => { state := s } }

/-- The slave takes SAFE_OP, and OPERATIONAL when it is asked for it. -/
def compliantOne : List Env :=
  List.replicate 59 (compliant EC_STATE_SAFE_OP) ++ List.replicate 80 (compliant EC_STATE_OPERATIONAL)

/-- A new bus is brought up, with a tick between two cycles. -/
def bringUpOne : P Unit :=
  Prog.forEach (bringUp ++ [.updateRt, .updateService, .updateRt]) fun o => o.invoke {} .none

/-- The tick brings the bus into `Operational`, and the cycles before and after it return. -/
theorem bringUp_serves_one :
    (run exec 0 bringUpOne compliantOne ⟨{}, []⟩).1 = .ret () ∧
      (run exec 0 bringUpOne compliantOne ⟨{}, []⟩).2.1.st.state = .operational := by
  -- the run is left alone until its guard and its history are evaluated
  have hserves : ∀ (is : List Env) (w : W), w = ⟨{}, []⟩ →
      admits exec (healthy {} 1) 0 bringUpOne is w = true →
      haveReported 1 (run exec 0 bringUpOne is w).2.1.hist = true →
      (run exec 0 bringUpOne is w).1 = .ret () ∧
        (run exec 0 bringUpOne is w).2.1.st.state = .operational := by
    intro is w hw hadmits hreported
    have hr : Run {} free (fun _ => True) w := hw ▸ .start
    have hops : ∀ o ∈ [Op.updateRt, .updateService, .updateRt], o = .updateRt ∨ o = .updateService := by simp
    obtain ⟨hret, _, _, hstate⟩ := bringUp_serves hr (hw ▸ rfl) (hw ▸ rfl) Nat.one_pos (UserCode.none_ok {})
      UserCode.none_returning nofun hops (run_exec_admitted _ is w hadmits)
    exact ⟨hret, hstate.trans (if_pos hreported)⟩
  exact hserves compliantOne ⟨{}, []⟩ rfl (by decide +kernel) (by decide +kernel)

end EthercatInterface
