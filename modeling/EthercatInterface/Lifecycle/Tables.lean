import EthercatInterface.Lifecycle.Run
import EthercatInterface.Proof.Triples

/-!
# Devices, slaves and diagnostics

Three tables describe the slaves: SOEM's list, whose ids begin with 1, the devices that
`initialize` creates for them, and the diagnostics, whose indices begin with 0.

* `Roster`: what the alignment of the tables depends on. All operations but those of the lifecycle
  leave it alone (`Rests`).
* `Ranged`: the subscript of an action is in range. Every operation tests the id it is given, or
  takes it from a table.
* `tables_aligned`: between any two calls the tables are aligned, and no subscript of any call is
  out of range, whatever the ids it is called with.
-/

namespace EthercatInterface

open Interleave

variable {ps : Parameters} {hk : UserCode} {m : ℕ} {w : W}

/-! ## Subscripts -/

/-- What SOEM promises of the discovery: it counts the slaves it finds, fewer than its list
holds. -/
def soemFinds (m : ℕ) : Guard Act Ans Env St := fun _ a i _ =>
  match a with
  | .ecxConfigInit => if 0 < i.ret then i.slavecount = i.ret.toNat ∧ i.slavecount < m else i.slavecount = 0
  | _ => True

instance (m t : ℕ) (a : Act) (i : Env) (w : W) : Decidable (soemFinds m t a i w) := by
  unfold soemFinds
  split <;> infer_instance

/-- The number of slaves that an action finds. -/
def finds : (a : Act) → Ans a → Option ℕ
  | .ecxConfigInit, n => some n.toNat
  | _, _ => none

/-- The number of slaves found last. -/
def slavesFound (h : List Ev) : ℕ := (h.findSome? fun e => finds e.act e.ans).getD 0

/-- The subscript of an action in the slave list, or that of the slave SOEM is to talk to. -/
def slaveIndex : Act → Option ℕ
  | .slaveInfo id | .obytes id | .ibytes id | .hasdc id | .configadr id | .slaveState id
  | .setSlaveState id _ | .copyToOutputs id _ | .copyFromOutputs id _ | .copyFromInputs id _
  | .captureTopology id | .captureDc id | .ecxDcsync0 id _ _ | .ecxWritestate id
  | .ecxStatecheck id _ | .ecxSDOread id _ _ _ | .ecxSDOwrite id _ _ _ | .ecxFOEread id _ _
  | .ecxFOEwrite id _ _ | .ecxReadODlist id | .ecxReadODdescription id _ | .ecxReadOE id _ => some id
  | .publishSlave i => some (i + 1)
  | _ => none

/-- The entry of the diagnostics, or the device, was there. -/
def entryFound : (a : Act) → Ans a → Bool
  | .captureTopology _, b | .captureDc _, b | .publishSlave _, b | .publishPorts _ _, b
  | .stampPorts _ _, b => b
  | .deref _, id => id.isSome
  | _, _ => true

/-- **Every subscript is in range**: of the slave list, which has `m` entries of which the first
and those of the slaves are in use, of the diagnostics and of the devices. -/
structure Ranged (m : ℕ) (e : Ev) (h : List Ev) : Prop where
  slave : ∀ i ∈ slaveIndex e.act, i < m ∧ i ≤ slavesFound h
  entry : entryFound e.act e.ans = true

/-! ## The tables -/

/-- What the alignment of the tables depends on. -/
structure Roster where
  alive : Bool
  state : BusState
  /-- `ecatSlavecount_` -/
  count : ℕ
  /-- The size of `latest_diagnostics_.slaves`. -/
  entries : ℕ
  devices : List Addr
  created : ℕ
  id : Addr → DeviceId

def roster (s : St) : Roster where
  alive := s.alive
  state := s.state
  count := s.context.ecatSlavecount
  entries := s.latestDiagnostics.slaves.length
  devices := s.devices
  created := s.devCount
  id p := (s.dev p).deviceInfo.id

/-- Changes the tables. -/
def Act.enrols : Act → Bool
  | .updateBusState _ | .ecxConfigInit | .resizeSlaves | .emplaceDevice _ | .clearDevices
  | .destroyBackend => true
  | _ => false

theorem roster_exec {a : Act} (ha : a.enrols = false) (i : Env) (s : St) :
    roster (exec a i s).2 = roster s := by
  have hid : a.emplaces = false := by cases a <;> first | rfl | cases ha
  have hids : (roster (exec a i s).2).id = (roster s).id := funext fun p => deviceId_exec hid i s p
  cases a
  case ecxStatecheck id state =>
    simp only [exec]
    split <;> rfl
  all_goals first
    | rfl
    | (cases ha; done)
    | (simp only [roster] at hids ⊢; rw [hids]; rfl)
    | (simp only [roster, exec, St.modifyStatus, List.length_modify])

/-- The tables are large enough for the slaves and the devices. -/
structure Roster.Sound (m : ℕ) (v : Roster) : Prop where
  count : v.count < m
  entries : v.state.open → v.entries = v.count ∧ 0 < v.count
  onBus : ∀ p ∈ v.devices, 0 < v.id p ∧ v.id p ≤ v.count

/-- **They are aligned**: an open bus has one device for each slave, in order. -/
structure Roster.Aligned (m : ℕ) (v : Roster) : Prop extends v.Sound m where
  listed : v.alive = true → v.state.open → v.devices = List.range v.count ∧ ∀ p < v.count, v.id p = p + 1
  fresh : v.state = .preInit → v.devices = [] ∧ v.created = 0

/-- The tables are `v`, and no subscript has been out of range. -/
structure Seated (m : ℕ) (v : Roster) (w : W) : Prop where
  ranged : Always (Ranged m) w.hist
  found : v.count = slavesFound w.hist
  eq : roster w.st = v

/-- No subscript is out of range, up to and with an action. -/
def inRange (m : ℕ) : Guard Act Ans Env St := fun t a i w => Always (Ranged m) (w.after exec t a i).hist

/-- Runs in which SOEM counts as it promises, and that are to stay in range. -/
abbrev ranging (m : ℕ) : Setting Act Ans Env St := single (soemFinds m) (inRange m)

/-- Started with the tables `v`, the program leaves them alone. -/
def Keeping (m : ℕ) (v : Roster) {α : Type} (p : P α) : Prop :=
  (ranging m).Triple (Seated m v) p (fun _ => Seated m v) fun _ => Seated m v

theorem slavesFound_cons {a : Act} {t : ℕ} {r : Ans a} {h : List Ev} (ha : finds a r = none) :
    slavesFound (⟨t, a, r⟩ :: h) = slavesFound h := by
  unfold slavesFound
  rw [List.findSome?_cons, ha]

section Keeping

variable {v : Roster} {α β : Type}

/-- An action whose subscript is in range. -/
theorem Seated.after {a : Act} (ha : a.enrols = false) (i : Env)
    (hr : Ranged m ⟨0, a, (exec a i w.st).1⟩ w.hist) (h : Seated m v w) :
    inRange m 0 a i w ∧ Seated m v (w.after exec 0 a i) := by
  have hr' : Always (Ranged m) (w.after exec 0 a i).hist := ⟨hr, h.ranged⟩
  refine ⟨hr', hr', ?_, ?_⟩
  · have hf : finds a (exec a i w.st).1 = none := by cases a <;> first | rfl | cases ha
    rw [World.after_hist, slavesFound_cons hf]
    exact h.found
  · rw [World.after_st, roster_exec ha]
    exact h.eq

/-- An action without a subscript that leaves the tables alone. -/
def Act.plainly (a : Act) : Bool :=
  !a.enrols && (slaveIndex a).isNone && match a with
    | .publishPorts _ _ | .stampPorts _ _ | .deref _ => false
    | _ => true

/-- Without a subscript, and off the tables. -/
def Unindexed (a : Act) : Prop := a.plainly = true

theorem Unindexed.enrols {a : Act} (h : Unindexed a) : a.enrols = false := by
  cases a <;> first | rfl | cases h

theorem Unindexed.ranged {a : Act} (h : Unindexed a) {t : ℕ} {r : Ans a} {l : List Ev} :
    Ranged m ⟨t, a, r⟩ l := by
  refine ⟨fun i hi => ?_, ?_⟩ <;> cases a <;> first | rfl | (cases hi; done) | cases h

theorem keeps_seated {a : Act} (ha : Unindexed a) : (ranging m).Keeps (Seated m v) a := fun i _ _ hw =>
  hw.after ha.enrols i ha.ranged

theorem Draining.unindexed {a : Act} (h : Draining a) : Unindexed a := by
  cases a <;> first | rfl | cases h

theorem keeping_uses {p : P α} (hp : p.Uses Unindexed) : Keeping m v p :=
  .of_keeps (fun _ => keeps_seated) hp

theorem keeping_act {a : Act} (ha : a.plainly = true) : Keeping m v (act a) := keeping_uses (uses_act ha)

theorem keeping_fits {V : List Mutex → Prop} {p : P α} (hp : p.Fits Unindexed V) : Keeping m v p :=
  keeping_uses hp.uses

theorem keeping_drains {V : List Mutex → Prop} {p : P α} (hp : p.Fits Draining V) : Keeping m v p :=
  keeping_uses (hp.uses.mono fun _ => Draining.unindexed)

theorem keeping_pure {x : α} : Keeping m v (.pure x : P α) := .pure fun _ hw => hw

theorem Keeping.bind {p : P β} {f : β → P α} (hp : Keeping m v p) (hf : ∀ x, Keeping m v (f x)) :
    Keeping m v (p.bind f) :=
  Setting.Triple.bind hp hf

theorem Keeping.attempt {p : P α} (hp : Keeping m v p) : Keeping m v p.attempt := Setting.Triple.attempt hp

theorem Keeping.void {p : P α} (hp : Keeping m v p) : Keeping m v (EthercatInterface.void p) :=
  hp.bind fun _ => keeping_pure

theorem Keeping.withLock {l : List Mutex} {p : P α} (hp : Keeping m v p) : Keeping m v (Prog.withLock l p) :=
  Setting.Triple.withLock hp

theorem Keeping.when {b : Bool} {p : P Unit} (hp : Keeping m v p) : Keeping m v (Prog.when b p) :=
  Setting.Triple.when (fun _ => hp) fun _ _ hw => hw

theorem keeping_raiseIf {b : Bool} {e : Exn} : Keeping m v (Prog.raiseIf b e : P Unit) :=
  keeping_uses Prog.uses_raiseIf

theorem keeping_stateIn (l : List BusState) : Keeping m v (stateIn l) :=
  keeping_fits (V := AnyLock) (fits_stateIn (S := Unindexed) rfl l)

/-- What an action answers can be told from the tables. -/
theorem keeping_answer {a : Act} (ha : a.plainly = true) {f : Ans a → P α} {x : Ans a} {Q : α → W → Prop}
    {E : Exn → W → Prop} (hx : ∀ i s, roster s = v → (exec a i s).1 = x)
    (hf : (ranging m).Triple (Seated m v) (f x) Q E) :
    (ranging m).Triple (Seated m v) ((act a).bind f) Q E :=
  .bind (T := fun y w => y = x ∧ Seated m v w) (.perform fun i w hi hw =>
      ⟨(keeps_seated ha i w hi hw).1, hx i w.st hw.eq, (keeps_seated ha i w hi hw).2⟩) fun y =>
    .assume (c := y = x) (fun _ hw => hw.1) fun hy => by
      subst hy
      exact hf.mono (fun _ hw => hw.2) (fun _ _ h => h) fun _ _ h => h

/-- Started with the tables `v`, returns only if `c`. -/
def Checking (m : ℕ) (v : Roster) (c : Prop) (p : P Unit) : Prop :=
  (ranging m).Triple (Seated m v) p (fun _ w => c ∧ Seated m v w) fun _ => Seated m v

theorem Checking.then {c : Prop} {p : P Unit} {f : Unit → P α} (hp : Checking m v c p)
    (hf : c → Keeping m v (f ())) : Keeping m v (p.bind f) :=
  Setting.Triple.bind hp fun _ => .assume (c := c) (fun _ hw => hw.1) fun hc =>
    (hf hc).mono (fun _ hw => hw.2) (fun _ _ h => h) fun _ _ h => h

theorem Keeping.check {c : Prop} {p : P β} {f : β → P Unit} (hp : Keeping m v p)
    (hf : ∀ x, Checking m v c (f x)) : Checking m v c (p.bind f) :=
  Setting.Triple.bind hp hf

/-- `if (!has_device_on_bus(id)) throw`. -/
theorem checking_onBus {id : DeviceId} {e : Exn} : Checking m v (id ≤ v.count)
    ((hasDeviceOnBus id).bind fun b => Prog.raiseIf (!b) e) := by
  change Checking m v _ ((act .slavecount).bind fun n =>
    Prog.raiseIf (!(decide (0 < id) && decide (id ≤ n))) e)
  refine .bind (T := fun n w => n = v.count ∧ Seated m v w) (.perform fun i w hi hw => ?_) fun n => ?_
  · have h := keeps_seated (a := .slavecount) rfl i w hi hw
    exact ⟨h.1, by rw [← hw.eq]; rfl, h.2⟩
  refine .assume (c := n = v.count) (fun _ hw => hw.1) fun hn => ?_
  subst hn
  refine .raiseIf (fun _ _ hw => hw.2) fun hb _ hw => ⟨?_, hw.2⟩
  have hb' : 0 < id ∧ id ≤ v.count := by simpa using hb
  exact hb'.2

theorem keeping_onBus {id : DeviceId} {e : Exn} {f : Unit → P α} (hf : id ≤ v.count → Keeping m v (f ())) :
    Keeping m v ((hasDeviceOnBus id).bind fun b => (Prog.raiseIf (!b) e).bind f) := by
  have h := (checking_onBus (e := e)).then hf
  rw [Prog.bind_assoc] at h
  exact h

theorem checking_checkAccess {what : String} {id : DeviceId} :
    Checking m v (id ≤ v.count) (checkAccess what id) :=
  (keeping_stateIn _).check fun _ => keeping_raiseIf.check fun _ => checking_onBus

theorem checking_checkPdoAccess {id : DeviceId} : Checking m v (id ≤ v.count) (checkPdoAccess id) :=
  (keeping_stateIn _).check fun _ => keeping_raiseIf.check fun _ => checking_onBus

/-! ## Functions with subscripts -/

/-- A device of the list is there. -/
theorem keeping_deref {p : Addr} (hp : p ∈ v.devices) {k : Option DeviceId → P α} {Q : α → W → Prop}
    {E : Exn → W → Prop} (hk : (ranging m).Triple (Seated m v) (k (some (v.id p))) Q E) :
    (ranging m).Triple (Seated m v) ((act (.deref p)).bind k) Q E := by
  refine .bind (T := fun r w => r = some (v.id p) ∧ Seated m v w) (.perform fun i w _ hw => ?_)
    fun r => .assume (c := r = some (v.id p)) (fun _ hw => hw.1) fun hr => ?_
  · have hans : (exec (.deref p) i w.st).1 = some (v.id p) := by
      have hmem : p ∈ w.st.devices := by
        rw [← hw.eq] at hp
        exact hp
      rw [← hw.eq]
      exact if_pos hmem
    have h := hw.after (a := .deref p) rfl i ⟨nofun, by rw [hans]; rfl⟩
    exact ⟨h.1, hans, h.2⟩
  · subst hr
    exact hk.mono (fun _ hw => hw.2) (fun _ _ h => h) fun _ _ h => h

/-- The devices there are. -/
theorem keeping_devices {l : Loop} {f : List Addr → P α} {Q : α → W → Prop} {E : Exn → W → Prop}
    (hf : (ranging m).Triple (Seated m v) (f v.devices) Q E) :
    (ranging m).Triple (Seated m v) ((act (.devices l)).bind f) Q E :=
  keeping_answer (a := .devices l) rfl (fun _ s hs => by rw [← hs]; rfl) hf

/-- The loop over the devices, which are all there. -/
theorem keeping_forDevices {l : Loop} {body : Addr → DeviceId → P Unit} {E : Exn → W → Prop}
    (hb : ∀ p ∈ v.devices, (ranging m).Triple (Seated m v) (body p (v.id p)) (fun _ => Seated m v) E) :
    (ranging m).Triple (Seated m v) (forDevices l body) (fun _ => Seated m v) E := by
  refine keeping_devices (.forEach (fun _ => Seated m v) fun done p rest hl => ?_)
  have hp : p ∈ v.devices := by rw [hl]; simp
  exact keeping_deref hp (hb p hp)

/-- How many slaves there are. -/
theorem keeping_slavecount {f : ℕ → P α} {Q : α → W → Prop} {E : Exn → W → Prop}
    (hf : (ranging m).Triple (Seated m v) (f v.count) Q E) :
    (ranging m).Triple (Seated m v) ((act .slavecount).bind f) Q E :=
  keeping_answer (a := .slavecount) rfl (fun _ s hs => by rw [← hs]; rfl) hf

/-- The loop over the slaves. -/
theorem keeping_eachSlave {f : DeviceId → P Unit} (hf : ∀ id, 1 ≤ id → id ≤ v.count → Keeping m v (f id)) :
    Keeping m v (Prog.forEach (List.range' 1 v.count) f) := by
  refine Setting.Triple.forEach (fun _ => Seated m v) fun done id rest hl => ?_
  have hid : id ∈ List.range' 1 v.count := by rw [hl]; simp
  rw [List.mem_range'_1] at hid
  exact hf id hid.1 (Nat.lt_one_add_iff.1 hid.2)

theorem keeping_readSlavePortDiagnostics (c : ℕ) : Keeping m v (readSlavePortDiagnostics c) :=
  .bind (keeping_act rfl) fun _ => .bind (keeping_act rfl) fun _ => .bind (keeping_act rfl) fun _ => keeping_pure

theorem keeping_require {l : List BusState} {e : Exn} {f : Unit → P α}
    (hf : v.state ∈ l → Keeping m v (f ())) :
    Keeping m v ((stateIn l).bind fun b => (Prog.raiseIf (!b) e).bind f) :=
  triple_require (keeps_seated rfl) (fun _ hw => congrArg Roster.state hw.eq) (fun _ hw => hw) hf

theorem keeping_refuse {l : List BusState} {e : Exn} {f : Unit → P α}
    (hf : v.state ∉ l → Keeping m v (f ())) :
    Keeping m v ((stateIn l).bind fun b => (Prog.raiseIf b e).bind f) :=
  triple_refuse (keeps_seated rfl) (fun _ hw => congrArg Roster.state hw.eq) (fun _ hw => hw) hf

section Sound

variable (hv : v.Sound m)
include hv

/-- An action on a slave of the list. -/
theorem keeping_slave {a : Act} (ha : a.enrols = false) {id : DeviceId} (hid : id ≤ v.count)
    (hs : ∀ i ∈ slaveIndex a, i = id) (he : ∀ i s, roster s = v → entryFound a (exec a i s).1 = true) :
    Keeping m v (act a) :=
  .perform fun i w _ hw => hw.after ha i ⟨fun j hj => by
    rw [hs j hj, ← hw.found]
    exact ⟨Nat.lt_of_le_of_lt hid hv.count, hid⟩, he i w.st hw.eq⟩

/-- An action on a slave of the list that finds what it looks for. -/
theorem keeping_index {a : Act} (ha : a.enrols = false) {id : DeviceId} (hid : id ≤ v.count)
    (hs : slaveIndex a = some id) (he : ∀ r, entryFound a r = true) : Keeping m v (act a) :=
  keeping_slave hv ha hid (fun i hi => by rw [hs] at hi; exact (Option.some.inj hi).symm) fun _ _ _ => he _

/-- `set_device_target_state` succeeds only on a slave. -/
theorem keeping_setDeviceTargetState {id : DeviceId} (s : ℕ) {E : Exn → W → Prop} :
    (ranging m).Triple (Seated m v) (setDeviceTargetState id s)
      (fun b w => (b = true → id ≤ v.count) ∧ Seated m v w) E := by
  refine .withLock (keeping_slavecount ?_)
  change (ranging m).Triple _ (if id ≠ 0 ∧ (decide (0 < id) && decide (id ≤ v.count)) = false then _ else _) _ _
  split
  · exact .pure fun _ hw => ⟨nofun, hw⟩
  · next h =>
    have hid : id ≤ v.count := by
      by_contra hn
      exact h ⟨fun h0 => hn (h0 ▸ Nat.zero_le _), by simp [hn]⟩
    have act : ∀ {a : Act}, a.enrols = false → slaveIndex a = some id → (∀ r, entryFound a r = true) →
        (ranging m).Triple (Seated m v) (act a) (fun _ => Seated m v) E := fun ha hs he =>
      (keeping_index hv ha hid hs he).noThrow Prog.noThrow_perform
    exact .bind (act rfl rfl fun _ => rfl) fun _ => .bind (act rfl rfl fun _ => rfl) fun _ =>
      .pure fun _ hw => ⟨fun _ => hid, hw⟩

theorem keeping_requestState {id : DeviceId} (s : ℕ) : Keeping m v (setDeviceTargetState id s) :=
  (keeping_setDeviceTargetState hv s).mono (fun _ h => h) (fun _ _ h => h.2) fun _ _ h => h

theorem keeping_waitForDeviceTargetState {id : DeviceId} (hid : id ≤ v.count) (s : ℕ) :
    Keeping m v (waitForDeviceTargetState id s) :=
  .withLock (.bind (keeping_index hv rfl hid rfl fun _ => rfl) fun _ => keeping_pure)

theorem keeping_scanDevice (id : DeviceId) : Keeping m v (scanDevice id) := by
  refine .bind (keeping_stateIn _) fun _ => .bind keeping_raiseIf fun _ => ?_
  exact keeping_onBus fun hid => keeping_index hv rfl hid rfl fun _ => rfl

theorem keeping_scan : Keeping m v scan := by
  refine .bind (keeping_stateIn _) fun _ => .bind keeping_raiseIf fun _ => ?_
  refine keeping_slavecount ?_
  refine Setting.Triple.foldEach (fun _ _ => Seated m v) fun done id rest hl result => ?_
  have hid : id ∈ List.range' 1 v.count := by rw [hl]; simp
  rw [List.mem_range'_1] at hid
  have hle := Nat.lt_one_add_iff.1 hid.2
  exact Keeping.bind (keeping_index hv (a := .slaveInfo id) rfl hle rfl fun _ => rfl) fun _ => keeping_pure

theorem keeping_readRegisterUntyped (n : ℕ) (id : DeviceId) (a : ℕ) :
    Keeping m v (readRegisterUntyped n id a) :=
  checking_checkAccess.then fun hid => .bind keeping_raiseIf fun _ =>
    .bind (keeping_index hv (a := .configadr id) rfl hid rfl fun _ => rfl) fun _ =>
      .bind (keeping_act rfl) fun _ => keeping_pure

theorem keeping_writeRegisterUntyped (data : List UInt8) (id : DeviceId) (a : ℕ) :
    Keeping m v (writeRegisterUntyped data id a) :=
  checking_checkAccess.then fun hid => .bind keeping_raiseIf fun _ =>
    .bind (keeping_index hv (a := .configadr id) rfl hid rfl fun _ => rfl) fun _ =>
      .bind (keeping_act rfl) fun _ => keeping_pure

theorem keeping_readRxPdo (id : DeviceId) : Keeping m v (readRxPdo id) :=
  checking_checkPdoAccess.then fun hid =>
    .bind (keeping_index hv (a := .obytes id) rfl hid rfl fun _ => rfl) fun n =>
      .withLock (.bind (keeping_index hv (a := .copyFromOutputs id n) rfl hid rfl fun _ => rfl) fun _ => keeping_pure)

theorem keeping_writeRxPdo (id : DeviceId) (data : List UInt8) : Keeping m v (writeRxPdo id data) :=
  checking_checkPdoAccess.then fun hid =>
    .bind (keeping_index hv (a := .obytes id) rfl hid rfl fun _ => rfl) fun _ => .bind keeping_raiseIf fun _ =>
      .withLock (.bind (keeping_index hv (a := .copyToOutputs id data) rfl hid rfl fun _ => rfl) fun _ => keeping_pure)

theorem keeping_readTxPdo (id : DeviceId) (n : ℕ) : Keeping m v (readTxPdo id n) :=
  checking_checkPdoAccess.then fun hid =>
    .bind (keeping_index hv (a := .ibytes id) rfl hid rfl fun _ => rfl) fun size => .bind keeping_raiseIf fun _ =>
      .withLock (.bind (keeping_index hv (a := .copyFromInputs id size) rfl hid rfl fun _ => rfl) fun _ => keeping_pure)

theorem keeping_updateWrite (p : Addr) (tp : ℤ) : Keeping m v (updateWrite p tp) :=
  .withLock (.bind (keeping_act rfl) fun b => .bind (keeping_fits (V := AnyLock) (fits_crashUnless b)) fun _ =>
    .bind (keeping_act rfl) fun id => .bind (keeping_act rfl) fun rx => .bind (keeping_writeRxPdo hv id rx) fun _ =>
      keeping_act rfl)

theorem keeping_updateRead (p : Addr) (tp : ℤ) : Keeping m v (updateRead p tp) :=
  .withLock (.bind (keeping_act rfl) fun b => .bind (keeping_fits (V := AnyLock) (fits_crashUnless b)) fun _ =>
    .bind (keeping_act rfl) fun id => .bind (keeping_act rfl) fun n => .bind (keeping_readTxPdo hv id n) fun _ =>
      .bind (keeping_act rfl) fun _ => keeping_act rfl)

theorem keeping_exchange : Keeping m v (exchange ps) := by
  refine .withLock (.bind (keeping_act rfl) fun _ => .bind (keeping_act rfl) fun _ =>
    .bind (keeping_act rfl) fun _ => .bind ?_ fun _ => keeping_pure)
  unfold dcCorrection
  split
  · refine .bind (keeping_index hv (a := .hasdc 0) rfl (Nat.zero_le _) rfl fun _ => rfl) fun b => ?_
    split
    · exact .bind (keeping_act rfl) fun _ => .bind (keeping_fits (V := AnyLock) (fits_crashUnless _)) fun _ =>
        .bind (keeping_act rfl) fun _ => keeping_pure
    · exact keeping_pure
  · exact keeping_pure

/-! ## Diagnostics -/

/-- An action on an entry of the diagnostics. -/
theorem keeping_entry (hlen : v.entries = v.count) {a : Act} (ha : a.enrols = false) {n : ℕ} (hn : n < v.count)
    (hs : ∀ i ∈ slaveIndex a, i = n + 1)
    (he : ∀ i s, entryFound a (exec a i s).1 = decide (n < s.latestDiagnostics.slaves.length)) :
    Keeping m v (act a) := by
  refine keeping_slave hv ha (show n + 1 ≤ v.count from hn) hs fun i s hr => ?_
  have hl : s.latestDiagnostics.slaves.length = v.count := (congrArg Roster.entries hr).trans hlen
  rw [he, hl, decide_eq_true hn]

theorem keeping_captureTopology (hlen : v.entries = v.count) {id : DeviceId} (h1 : 1 ≤ id) (hid : id ≤ v.count) :
    Keeping m v (act (.captureTopology id)) := by
  obtain ⟨n, rfl⟩ : ∃ n, id = n + 1 := ⟨id - 1, (Nat.sub_add_cancel h1).symm⟩
  exact keeping_entry hv hlen rfl hid (fun i hi => (Option.some.inj hi).symm) fun _ _ => rfl

theorem keeping_captureDc (hlen : v.entries = v.count) {id : DeviceId} (h1 : 1 ≤ id) (hid : id ≤ v.count) :
    Keeping m v (act (.captureDc id)) := by
  obtain ⟨n, rfl⟩ : ∃ n, id = n + 1 := ⟨id - 1, (Nat.sub_add_cancel h1).symm⟩
  exact keeping_entry hv hlen rfl hid (fun i hi => (Option.some.inj hi).symm) fun _ _ => rfl

theorem keeping_updateDiagnosticsFast (ho : v.state.open) (wkc e : ℤ) :
    Keeping m v (updateDiagnosticsFast ps wkc e) := by
  refine .bind (keeping_act rfl) fun _ => .bind (keeping_act rfl) fun _ => .bind (keeping_act rfl) fun _ =>
    .when (.bind (keeping_act rfl) fun _ => .when (.withLock ?_))
  refine keeping_slavecount ?_
  refine Setting.Triple.forEach (fun _ => Seated m v) fun done n rest hl => ?_
  have hlt : n < v.count := List.mem_range.1 (by rw [hl]; simp)
  exact Keeping.bind (keeping_entry hv (hv.entries ho).1 (a := .publishSlave n) rfl hlt
    (fun i hi => (Option.some.inj hi).symm) fun _ _ => rfl) fun _ => keeping_fits (V := AnyLock) (fits_crashUnless _)

/-- The round robin stays inside the table. -/
theorem keeping_updateDiagnosticsSlow (ho : v.state.open) : Keeping m v updateDiagnosticsSlow := by
  obtain ⟨hlen, hpos⟩ := hv.entries ho
  let At (i : ℕ) (w : W) : Prop := w.st.currentSelectedDiagnosticsSlave = i ∧ Seated m v w
  have look : ∀ {α : Type} {p : P α}, Keeping m v p → ∀ {J : W → Prop}, (∀ w, J w → Seated m v w) →
      (ranging m).Triple J p (fun _ => Seated m v) fun _ => Seated m v := fun hp _ hJ =>
    Setting.Triple.mono hp hJ (fun _ _ h => h) fun _ _ h => h
  refine Setting.Triple.bind (T := fun i => At i) (.perform fun i w hi hw => ?_) fun selected => ?_
  · have h := keeps_seated (a := .currentSlave) rfl i w hi hw
    exact ⟨h.1, rfl, h.2⟩
  refine .bind (T := fun n w => n = v.count ∧ At selected w) (.perform fun i w hi hw => ?_) fun n =>
    .assume (c := n = v.count) (fun _ hw => hw.1) fun hn => ?_
  · have h := keeps_seated (a := .slavecount) rfl i w hi hw.2
    exact ⟨h.1, by rw [← hw.2.eq]; rfl, hw.1, h.2⟩
  -- an index past the last device is set back to `0` before it is used
  subst hn
  refine .bind (T := fun _ w => w.st.currentSelectedDiagnosticsSlave < v.count ∧ Seated m v w) (.when
    (fun _ => .perform fun i w hi hw => ?_) fun hb w hw => ⟨?_, hw.2.2⟩) fun _ => ?_
  · have h := keeps_seated (a := .setCurrentSlave 0) rfl i w hi hw.2.2
    exact ⟨h.1, hpos, h.2⟩
  · have hlt : ¬v.count ≤ selected := by simpa using hb
    rw [hw.2.1]
    omega
  refine .bind (T := fun i w => i < v.count ∧ Seated m v w) (.perform fun i w hi hw => ?_) fun i =>
    .assume (c := i < v.count) (fun _ hw => hw.1) fun hi => look ?_ fun _ hw => hw.2
  · have h := keeps_seated (a := .currentSlave) rfl i w hi hw.2
    exact ⟨h.1, hw.1, h.2⟩
  refine .bind (keeping_index hv (a := .configadr (i + 1)) rfl hi rfl fun _ => rfl) fun c =>
    .bind (keeping_readSlavePortDiagnostics c) fun ports => .bind (.withLock ?_) fun _ => keeping_act rfl
  refine .bind (keeping_entry hv hlen (a := .publishPorts i ports) rfl hi nofun fun _ _ => rfl) fun _ =>
    .bind (keeping_fits (V := AnyLock) (fits_crashUnless _)) fun _ => .bind (keeping_act rfl) fun now => ?_
  exact .bind (keeping_entry hv hlen (a := .stampPorts i now) rfl hi nofun fun _ _ => rfl) fun _ =>
    keeping_fits (V := AnyLock) (fits_crashUnless _)

theorem keeping_diagnostics (f : Bool) : Keeping m v (diagnostics ps f) := by
  refine keeping_refuse fun hs => ?_
  have ho : v.state.open := ⟨fun h => hs (by simp [h]), fun h => hs (by simp [h])⟩
  refine .bind (.when (.bind (keeping_stateIn _) fun _ => keeping_raiseIf)) fun _ =>
    .bind (p := takeSnapshot ps f) ?_ fun _ => .bind (.withLock (keeping_act rfl)) fun _ => keeping_pure
  unfold takeSnapshot
  split
  · exact .bind (keeping_updateDiagnosticsFast hv ho _ _) fun _ => .bind (keeping_updateDiagnosticsSlow hv ho)
      fun _ => keeping_act rfl
  · exact .withLock (keeping_act rfl)

theorem keeping_updateRt : Keeping m v (updateRt ps) := by
  refine keeping_require fun hs => ?_
  have ho : v.state.open := by
    rcases List.mem_cons.1 hs with h | h
    · exact ⟨by simp [h], by simp [h]⟩
    · have h := List.mem_singleton.1 h
      exact ⟨by simp [h], by simp [h]⟩
  refine .bind (keeping_act rfl) fun now => .bind (keeping_forDevices fun p _ => keeping_updateWrite hv p now)
    fun _ => .bind (keeping_exchange hv) fun c => .bind (keeping_forDevices fun p _ => keeping_updateRead hv p now)
      fun _ => ?_
  exact .bind (.when (keeping_updateDiagnosticsFast hv ho _ _)) fun _ => keeping_pure

/-! ## Operations outside the lifecycle -/

omit hv in
theorem keeping_throughBus {p : Addr} {k : DeviceId → P α} (hk : ∀ id, Keeping m v (k id)) :
    Keeping m v (throughBus p k) :=
  .bind (keeping_act rfl) fun _ => .bind keeping_raiseIf fun _ => .bind (keeping_act rfl) fun _ =>
    .bind (keeping_fits (V := AnyLock) (fits_crashUnless _)) fun _ => .bind (keeping_act rfl) hk

theorem keeping_changeDeviceState (id : DeviceId) (s : EthercatDeviceState) (b : Bool) :
    Keeping m v (changeDeviceState id s b) := by
  refine Setting.Triple.bind (keeping_setDeviceTargetState hv _) fun res => ?_
  split
  · exact .pure fun _ hw => hw.2
  · next h =>
    have hres : res = true := by
      revert h
      cases res <;> simp
    exact .assume (c := res = true → id ≤ v.count) (fun _ hw => hw.1) fun hid =>
      (keeping_waitForDeviceTargetState hv (hid hres) _).mono (fun _ hw => hw.2) (fun _ _ h => h) fun _ _ h => h

/-- A transfer through the mailbox of a slave, and what follows it. -/
theorem keeping_access {what : String} {id : DeviceId} {a : Act} {k : Ans a → P α} (ha : a.enrols = false)
    (hs : slaveIndex a = some id) (he : ∀ r, entryFound a r = true) (hk : ∀ r, Keeping m v (k r)) :
    Keeping m v (Prog.withLock [.mailbox]
      ((checkAccess what id).bind fun _ => drainMailboxEvents.bind fun _ => (act a).bind k)) :=
  .withLock (checking_checkAccess.then fun hid => .bind (keeping_drains draining_drainMailboxEvents) fun _ =>
    .bind (keeping_index hv ha hid hs he) hk)

theorem keeping_readSdoUntyped (n : ℕ) (id : DeviceId) (i s : ℕ) (c : Bool) :
    Keeping m v (readSdoUntyped n id i s c) := by
  refine keeping_access hv (a := .ecxSDOread id i s n) rfl rfl (fun _ => rfl) fun r =>
    .bind (keeping_drains (draining_finishMailboxAccess _ _)) fun finished => ?_
  split
  · exact keeping_pure
  · exact .bind keeping_raiseIf fun _ => keeping_pure

theorem keeping_writeSdoUntyped (data : List UInt8) (id : DeviceId) (i s : ℕ) :
    Keeping m v (writeSdoUntyped data id i s) :=
  keeping_access hv (a := .ecxSDOwrite id i s data) rfl rfl (fun _ => rfl) fun _ =>
    .bind (keeping_drains (draining_finishMailboxAccess _ _)) fun _ => keeping_pure

theorem keeping_foeWrite (id : DeviceId) (f : String) (data : List UInt8) : Keeping m v (foeWrite id f data) :=
  keeping_access hv (a := .ecxFOEwrite id f data) rfl rfl (fun _ => rfl) fun _ =>
    .bind (keeping_drains (draining_finishFoeAccess _ _)) fun _ => keeping_pure

theorem keeping_foeRead (id : DeviceId) (f : String) (n : ℕ) : Keeping m v (foeRead id f n) := by
  refine keeping_access hv (a := .ecxFOEread id f n) rfl rfl (fun _ => rfl) fun r =>
    .bind (keeping_drains (draining_finishFoeAccess _ _)) fun finished => ?_
  split <;> exact keeping_pure

theorem keeping_expandEntry {id : DeviceId} (hid : id ≤ v.count) (od : List ℕ) (obj : SDOEntry) :
    Keeping m v (expandEntry id od obj) := by
  unfold expandEntry
  split
  · exact keeping_pure
  split
  · exact keeping_pure
  · next itemIndex _ =>
    refine .bind (keeping_index hv (a := .ecxReadOE id itemIndex) rfl hid rfl fun _ => rfl) fun r => ?_
    cases r <;> exact keeping_pure

theorem keeping_readOdFromDevice (id : DeviceId) (f : Bool) : Keeping m v (readOdFromDevice id f) := by
  refine .bind (keeping_stateIn _) fun _ => .bind keeping_raiseIf fun _ => ?_
  refine keeping_onBus fun hid => ?_
  refine .withLock (.bind (keeping_index hv rfl hid rfl fun _ => rfl) fun r => ?_)
  cases r with
  | none => exact .throw fun _ hw => hw
  | some od =>
    refine Keeping.bind (Setting.Triple.foldEach (fun _ _ => Seated m v) fun _ x _ _ result => ?_) fun result => ?_
    · exact Keeping.bind (.bind (keeping_index hv (a := .ecxReadODdescription id x.2) rfl hid rfl fun _ => rfl)
        fun _ => keeping_pure) fun _ => keeping_pure
    · split
      · exact Setting.Triple.foldEach (fun _ _ => Seated m v) fun _ obj _ _ expanded =>
          Keeping.bind (keeping_expandEntry hv hid od obj) fun _ => keeping_pure
      · exact keeping_pure

/-- **The operations outside the lifecycle** find all they look for. -/
theorem keeping_body (o : Op) (hl : o.lifecycle = false) (hr : ∀ r, Keeping m v (hk.sdoReadCallback r))
    (hw : ∀ r, Keeping m v (hk.sdoWriteCallback r)) : Keeping m v (o.body ps hk) := by
  have readOd : ∀ id f, Keeping m v (readOdFromDevice id f) := keeping_readOdFromDevice hv
  have readSdo : ∀ n id i s c, Keeping m v (readSdoUntyped n id i s c) := keeping_readSdoUntyped hv
  have writeSdo : ∀ data id i s, Keeping m v (writeSdoUntyped data id i s) := keeping_writeSdoUntyped hv
  have foeWrite : ∀ id f data, Keeping m v (foeWrite id f data) := keeping_foeWrite hv
  have foeRead : ∀ id f n, Keeping m v (foeRead id f n) := keeping_foeRead hv
  -- each of the four mailbox accesses is also made through a device
  cases o with
  | initializeBus => cases hl
  | startup => cases hl
  | activate => cases hl
  | shutdown => cases hl
  | updateService => cases hl
  | destroyBus => cases hl
  | acquireDevice id =>
    exact Keeping.void (keeping_fits (V := AnyLock) (fits_acquireDevice (S := Unindexed) rfl (fun _ => rfl)
      (fun _ => rfl) id))
  | scan => exact (keeping_scan hv).void
  | scanDevice id => exact (keeping_scanDevice hv id).void
  | readOd id f => exact (readOd id f).void
  | updateRt => exact (keeping_updateRt hv).void
  | hasDevice id => exact Keeping.void (.bind (keeping_act rfl) fun _ => keeping_pure)
  | hasDeviceOnBus id =>
    exact Keeping.void (keeping_fits (V := AnyLock) (fits_hasDeviceOnBus (S := Unindexed) rfl id))
  | readSdoUntyped n id i s c => exact (readSdo n id i s c).void
  | readSdoUntypedAsync n id i s c => exact (readSdo n id i s c).bind hr
  | writeSdoUntyped data id i s => exact (writeSdo data id i s).void
  | writeSdoUntypedAsync data id i s => exact (writeSdo data id i s).bind hw
  | readRxPdo id => exact (keeping_readRxPdo hv id).void
  | writeRxPdo id data => exact keeping_writeRxPdo hv id data
  | readTxPdo id n => exact (keeping_readTxPdo hv id n).void
  | changeDeviceState id s b => exact (keeping_changeDeviceState hv id s b).void
  | foeWrite id f data => exact (foeWrite id f data).void
  | foeRead id f n => exact (foeRead id f n).void
  | readRegisterUntyped n id a => exact (keeping_readRegisterUntyped hv n id a).void
  | writeRegisterUntyped data id a => exact (keeping_writeRegisterUntyped hv data id a).void
  | diagnostics f => exact (keeping_diagnostics hv f).void
  | deviceSdoRead p n i s c => exact (keeping_throughBus fun id => readSdo n id i s c).void
  | deviceSdoWrite p data i s => exact (keeping_throughBus fun id => writeSdo data id i s).void
  | deviceReadOd p f => exact (keeping_throughBus fun id => readOd id f).void
  | deviceChangeDeviceState p s b =>
    exact (keeping_throughBus fun id => keeping_changeDeviceState hv id s b).void
  | deviceFoeWrite p f data => exact (keeping_throughBus fun id => foeWrite id f data).void
  | deviceFoeRead p f n => exact (keeping_throughBus fun id => foeRead id f n).void
  | getGenericRxPdo p n =>
    exact Keeping.void (.bind (keeping_act rfl) fun _ => .bind keeping_raiseIf fun _ =>
      .bind (keeping_act rfl) fun _ => .bind keeping_raiseIf fun _ => .withLock (keeping_act rfl))
  | setGenericRxPdo p rx =>
    exact .bind (keeping_act rfl) fun _ => .bind keeping_raiseIf fun _ =>
      .bind (keeping_act rfl) fun _ => .bind keeping_raiseIf fun _ => .withLock (keeping_act rfl)
  | getGenericTxPdo p n =>
    exact Keeping.void (.bind (keeping_act rfl) fun _ => .bind keeping_raiseIf fun _ =>
      .bind (keeping_act rfl) fun _ => .bind keeping_raiseIf fun _ => .withLock (keeping_act rfl))
  | releaseDevice p => exact keeping_act rfl

omit hv in
theorem keeping_invoke {o : Op} (hb : Keeping m v (o.body ps hk)) : Keeping m v (o.invoke ps hk) := by
  refine .bind (keeping_act rfl) fun _ => .bind hb.attempt fun r => ?_
  cases r with
  | ok x => exact keeping_act rfl
  | error e => exact .bind (keeping_act rfl) fun _ => .throw fun _ hw => hw

/-- **Code of users** leaves the tables alone. -/
theorem User.keeping {p : P Unit} (h : User ps p) : Keeping m v p := by
  induction h with
  | ret => exact keeping_pure
  | throw e => exact .throw fun _ hw => hw
  | decide _ ih => exact .bind (keeping_act rfl) ih
  | call hl _ _ _ ihr ihw ihk => exact .bind (keeping_invoke (keeping_body hv _ hl ihr ihw)).attempt ihk

end Sound

end Keeping

/-! ## The lifecycle -/

/-- The tables are aligned, and no subscript has been out of range. -/
def Tidy (m : ℕ) (w : W) : Prop := Seated m (roster w.st) w ∧ (roster w.st).Aligned m

/-- Started in `J`, the program leaves the tables aligned. -/
abbrev Tidies (m : ℕ) (J : W → Prop) {α : Type} (p : P α) : Prop :=
  (ranging m).Triple J p (fun _ => Tidy m) fun _ => Tidy m

section Lifecycle

variable {v v' : Roster} {α β : Type}

theorem Seated.tidy (h : Seated m v w) (hv : v.Aligned m) : Tidy m w := by
  obtain ⟨hr, hf, rfl⟩ := h
  exact ⟨⟨hr, hf, rfl⟩, hv⟩

theorem Tidies.of_seated {p : P α} (hp : ∀ v, v.Aligned m → Tidies m (Seated m v) p) : Tidies m (Tidy m) p :=
  fun w hw => hp _ hw.2 w hw.1

/-- First what leaves the tables alone. -/
theorem Keeping.tidies {p : P β} {f : β → P α} {Q : α → W → Prop} (hv : v.Aligned m) (hp : Keeping m v p)
    (hf : ∀ x, (ranging m).Triple (Seated m v) (f x) Q fun _ => Tidy m) :
    (ranging m).Triple (Seated m v) (p.bind f) Q fun _ => Tidy m :=
  Setting.Triple.bind (hp.mono (fun _ h => h) (fun _ _ h => h) fun _ _ h => h.tidy hv) hf

theorem Keeping.tidy {p : P α} (hv : v.Aligned m) (hp : Keeping m v p) : Tidies m (Seated m v) p :=
  hp.mono (fun _ h => h) (fun _ _ h => h.tidy hv) fun _ _ h => h.tidy hv

/-- An action that changes the tables, but for the count of slaves, and has no subscript. -/
theorem Seated.enrol {a : Act} (h : Seated m v w) (hf : ∀ r, finds a r = none) (hx : slaveIndex a = none)
    (he : ∀ r, entryFound a r = true) {i : Env} (hs : roster (exec a i w.st).2 = v') (hc : v'.count = v.count) :
    inRange m 0 a i w ∧ Seated m v' (w.after exec 0 a i) := by
  have hr : Always (Ranged m) (w.after exec 0 a i).hist := by
    refine ⟨⟨fun j hj => ?_, he _⟩, h.ranged⟩
    rw [hx] at hj
    cases hj
  refine ⟨hr, hr, ?_, hs⟩
  rw [hc, World.after_hist, slavesFound_cons (hf _)]
  exact h.found

def Roster.setState (v : Roster) (s : BusState) : Roster := { v with state := s }

/-- What follows a move of the bus. -/
theorem tidies_store {s : BusState} {f : Unit → P α} {Q : α → W → Prop}
    (hf : (ranging m).Triple (Seated m (v.setState s)) (f ()) Q fun _ => Tidy m) :
    (ranging m).Triple (Seated m v) ((act (.updateBusState s)).bind f) Q fun _ => Tidy m := by
  refine .bind (T := fun _ => Seated m (v.setState s)) (.perform fun i w _ hw => ?_) fun _ => hf
  have hs : roster (exec (.updateBusState s) i w.st).2 = v.setState s := by
    rw [← hw.eq]
    rfl
  exact hw.enrol (fun _ => rfl) rfl (fun _ => rfl) hs rfl

/-- What follows the end of the devices. -/
theorem tidies_clear {f : Unit → P α} {Q : α → W → Prop}
    (hf : (ranging m).Triple (Seated m { v with devices := [] }) (f ()) Q fun _ => Tidy m) :
    (ranging m).Triple (Seated m v) ((act .clearDevices).bind f) Q fun _ => Tidy m := by
  refine .bind (T := fun _ => Seated m { v with devices := [] }) (.perform fun i w _ hw => ?_) fun _ => hf
  have hs : roster (exec .clearDevices i w.st).2 = { v with devices := [] } := by
    rw [← hw.eq]
    rfl
  exact hw.enrol (fun _ => rfl) rfl (fun _ => rfl) hs rfl

/-- A move between open states. -/
theorem Roster.Aligned.advance (hv : v.Aligned m) {s : BusState} (ho : v.state.open) (hs : s ≠ .preInit) :
    (v.setState s).Aligned m where
  count := hv.count
  entries _ := hv.entries ho
  onBus := hv.onBus
  listed ha _ := hv.listed ha ho
  fresh h := absurd h hs

/-- A move to `Shutdown`, with or without the devices. -/
theorem Roster.Sound.shut (hv : v.Sound m) : (v.setState .shutdown).Aligned m where
  count := hv.count
  entries ho := absurd rfl ho.2
  onBus := hv.onBus
  listed _ ho := absurd rfl ho.2
  fresh h := by cases h

theorem Roster.Sound.empty (hv : v.Sound m) : Roster.Sound m { v with devices := [] } :=
  ⟨hv.count, hv.entries, nofun⟩

theorem tidies_pure {x : α} (hv : v.Aligned m) : Tidies m (Seated m v) (.pure x : P α) :=
  .pure fun _ hw => hw.tidy hv

theorem tidies_throw {e : Exn} {Q : α → W → Prop} (hv : v.Aligned m) :
    (ranging m).Triple (Seated m v) (.throw e : P α) Q fun _ => Tidy m :=
  .throw fun _ hw => hw.tidy hv

/-! ### `shutdown` -/

theorem keeping_callbacks (hv : v.Sound m) (hok : hk.Ok ps) (h : Hook) :
    Keeping m v (forDevices (.callback h) fun p _ => onCallback hk h p) :=
  keeping_forDevices fun p _ => .bind (keeping_act rfl) fun _ => (hok.hook h p).keeping hv

theorem tidies_closeInitialized (hv : v.Aligned m) : Tidies m (Seated m v) closeInitialized :=
  .withLock (tidies_clear (tidies_store (Keeping.tidy hv.toSound.empty.shut (keeping_act rfl))))

theorem tidies_teardown (hv : v.Aligned m) (ho : v.state.open) (hok : hk.Ok ps) :
    Tidies m (Seated m v) (teardown hk) := by
  have hs : (v.setState .shuttingDown).Aligned m := hv.advance ho (by decide)
  refine tidies_store ((keeping_callbacks hs.toSound hok .onPreShutdown).tidies hs fun _ => ?_)
  refine (keeping_requestState hs.toSound _).tidies hs fun _ => ?_
  refine (keeping_waitForDeviceTargetState hs.toSound (Nat.zero_le _) _).tidies hs fun _ => ?_
  have hd := hs.toSound.shut
  refine .bind (T := fun _ => Seated m ((v.setState .shuttingDown).setState .shutdown)) ?_ fun _ => ?_
  · refine .withLock ((keeping_act rfl).tidies hs fun _ => ?_)
    exact tidies_store (f := .pure) (Q := fun _ => Seated m ((v.setState .shuttingDown).setState .shutdown))
      (.pure fun _ hw => hw)
  refine (keeping_callbacks hd.toSound hok .onPostShutdown).tidies hd fun _ => ?_
  exact tidies_clear (f := .pure) (tidies_pure hd.toSound.empty.shut)

theorem seated_state : ∀ w, Seated m v w → w.st.state = v.state := fun _ hw => congrArg Roster.state hw.eq

theorem tidies_shutdown (hv : v.Aligned m) (hok : hk.Ok ps) : Tidies m (Seated m v) (shutdown hk) := by
  refine triple_branch (keeps_seated rfl) seated_state (fun _ => tidies_pure hv) fun h0 => ?_
  refine triple_branch (keeps_seated rfl) seated_state (fun _ => ?_) fun h1 => ?_
  · exact tidies_store (f := .pure) (tidies_pure hv.toSound.shut)
  refine triple_branch (keeps_seated rfl) seated_state (fun _ => tidies_closeInitialized hv) fun _ => ?_
  refine triple_branch (keeps_seated rfl) seated_state (fun _ => ?_) fun _ => tidies_throw hv
  have ho : v.state.open := ⟨fun h => h1 (by simp [h]), fun h => h0 (by simp [h])⟩
  exact tidies_teardown hv ho hok

/-- What gives up, or goes on with the tables as they were. -/
theorem tidies_abort (hv : v.Aligned m) (hok : hk.Ok ps) {b : Bool} {e : Exn} :
    (ranging m).Triple (Seated m v) (Prog.when b (shutdown hk >>= fun _ => Prog.throw e))
      (fun _ => Seated m v) fun _ => Tidy m :=
  .when (fun _ => .bind (tidies_shutdown hv hok) fun _ => .throw fun _ hw => hw) fun _ _ hw => hw

/-! ### `startup` and `activate` -/

theorem keeping_setupDc (hv : v.Sound m) (hlen : v.entries = v.count) : Keeping m v (setupDc ps) := by
  refine keeping_slavecount (Keeping.bind (keeping_eachSlave fun id h1 hid => ?_) fun _ => .when ?_)
  · exact .bind (keeping_captureDc hv hlen h1 hid) fun _ => keeping_fits (V := AnyLock) (fits_crashUnless _)
  refine keeping_slavecount (keeping_eachSlave fun id _ hid => ?_)
  exact .bind (keeping_index hv (a := .hasdc id) rfl hid rfl fun _ => rfl) fun _ =>
    .when (keeping_index hv rfl hid rfl fun _ => rfl)

theorem tidies_startup (hv : v.Aligned m) (hok : hk.Ok ps) : Tidies m (Seated m v) (startup ps hk) := by
  refine triple_require (keeps_seated rfl) seated_state (fun _ hw => hw.tidy hv) fun hs => ?_
  have ho : v.state.open := by
    rw [List.mem_singleton.1 hs]
    decide
  have hmap : Keeping m v (mapPdos ps hk) := .bind (keeping_callbacks hv.toSound hok .onStartup) fun _ =>
    .bind (keeping_act rfl) fun _ => .bind (keeping_act rfl) fun _ => keeping_act rfl
  refine hmap.tidies hv fun size => .bind (tidies_abort hv hok) fun _ => ?_
  refine (keeping_act rfl).tidies hv fun found => .bind (tidies_abort hv hok) fun _ => ?_
  refine (keeping_setupDc hv.toSound (hv.entries ho).1).tidies hv fun _ => tidies_store ?_
  have hc := hv.advance ho (s := .configured) (by decide)
  refine Keeping.tidy hc (keeping_forDevices fun p hp => ?_)
  have hid : (v.setState .configured).id p ≤ v.count := (hv.onBus p hp).2
  refine .bind (keeping_index hc.toSound (a := .obytes _) rfl hid rfl fun _ => rfl) fun rx => ?_
  refine .bind (keeping_index hc.toSound (a := .ibytes _) rfl hid rfl fun _ => rfl) fun tx => ?_
  refine .bind (keeping_act rfl) fun _ => .bind (keeping_act rfl) fun _ => .bind (keeping_act rfl) fun _ => ?_
  refine .bind (keeping_act rfl) fun _ => .bind (keeping_act rfl) fun _ => .bind (keeping_act rfl) fun _ => ?_
  exact .bind (keeping_act rfl) fun _ => .bind (keeping_act rfl) fun _ => (hok.hook _ p).keeping hc.toSound

theorem tidies_activate (hv : v.Aligned m) (hok : hk.Ok ps) : Tidies m (Seated m v) (activate hk) := by
  refine triple_require (keeps_seated rfl) seated_state (fun _ hw => hw.tidy hv) fun hs => ?_
  have ho : v.state.open := by
    rw [List.mem_singleton.1 hs]
    decide
  refine (keeping_callbacks hv.toSound hok .onPreActivate).tidies hv fun _ => ?_
  refine (keeping_act rfl).tidies hv fun _ => ?_
  have through : ∀ {α : Type} {p : P α}, Keeping m v p →
      (ranging m).Triple (Seated m v) p (fun _ => Seated m v) fun _ => Tidy m := fun hp =>
    hp.mono (fun _ h => h) (fun _ _ h => h) fun _ _ h => h.tidy hv
  refine .bind (keeping_forDevices fun p hp => .bind (through (keeping_requestState hv.toSound _)) fun _ =>
    tidies_abort hv hok) fun _ => ?_
  refine .bind (keeping_forDevices fun p hp => .bind (through (keeping_waitForDeviceTargetState hv.toSound
    (hv.onBus p hp).2 _)) fun _ => tidies_abort hv hok) fun _ => tidies_store ?_
  have ha := hv.advance ho (s := .activated) (by decide)
  exact Keeping.tidy ha (keeping_callbacks ha.toSound hok .onPostActivate)

/-! ### `update_service` -/

theorem keeping_allInOperational (hv : v.Sound m) : Keeping m v allInOperational := by
  refine keeping_devices (Setting.Triple.foldEach (fun _ _ => Seated m v) fun done p rest hl all => ?_)
  have hp : p ∈ v.devices := by rw [hl]; simp
  refine keeping_deref hp (Keeping.bind (p := getDeviceState (v.id p)) (.withLock ?_) fun _ => keeping_pure)
  exact .bind (keeping_index hv (a := .slaveState _) rfl (hv.onBus p hp).2 rfl fun _ => rfl) fun _ => keeping_pure

theorem tidies_bringOperational (hv : v.Aligned m) (ho : v.state.open) (hok : hk.Ok ps) :
    Tidies m (Seated m v) (bringOperational ps hk) := by
  refine (keeping_act rfl).tidies hv fun start => ?_
  refine (Keeping.when (.bind (keeping_act rfl) fun _ => keeping_act rfl)).tidies hv fun _ => ?_
  refine (keeping_fits (fits_operationalTimeout (S := Unindexed) (V := AnyLock) rfl rfl)).tidies hv fun _ => ?_
  refine .bind (tidies_abort hv hok) fun _ => ?_
  refine Keeping.tidies hv (keeping_forDevices fun p _ => Keeping.bind (keeping_requestState hv.toSound _)
    fun _ => keeping_pure) fun _ => ?_
  refine (keeping_uses (uses_updateDeviceStates (S := Unindexed) rfl)).tidies hv fun _ => ?_
  refine (keeping_allInOperational hv.toSound).tidies hv fun all => .when (fun _ => ?_) fun _ _ hw => hw.tidy hv
  exact tidies_store (f := .pure) (tidies_pure (hv.advance ho (s := .operational) (by decide)))

theorem tidies_updateService (hv : v.Aligned m) (hok : hk.Ok ps) :
    Tidies m (Seated m v) (updateService ps hk) := by
  refine triple_refuse (keeps_seated rfl) seated_state (fun _ hw => hw.tidy hv) fun hs => ?_
  have ho : v.state.open := ⟨fun h => hs (by simp [h]), fun h => hs (by simp [h])⟩
  refine (keeping_act rfl).tidies hv fun up => (keeping_act rfl).tidies hv fun _ => ?_
  refine (keeping_act rfl).tidies hv fun owns => ?_
  refine (Keeping.when (.withLock (keeping_drains draining_drainMailboxEvents))).tidies hv fun _ => ?_
  refine (keeping_stateIn _).tidies hv fun b => ?_
  split
  · exact .bind (tidies_bringOperational hv ho hok) fun _ => .pure fun _ hw => hw
  · refine Keeping.tidy hv (.bind (.when (.bind (keeping_uses (uses_updateDeviceStates (S := Unindexed) rfl))
      fun _ => .when (keeping_updateDiagnosticsSlow hv.toSound ho))) fun _ => keeping_pure)

/-! ### `initialize` -/

/-- While the bus is not open, its tables may be of any size. -/
theorem Roster.Aligned.recount (hv : v.Aligned m) (hs : v.state = .preInit) {n k : ℕ} (hn : n < m) :
    Roster.Aligned m { v with count := n, entries := k } where
  count := hn
  entries ho := absurd hs ho.1
  onBus p hp := by
    have h : v.devices = [] := (hv.fresh hs).1
    rw [h] at hp
    cases hp
  listed _ ho := absurd hs ho.1
  fresh := hv.fresh

/-- The devices of the first `k` slaves have been created. -/
def Roster.hosts (v : Roster) (k : ℕ) (f : Addr → DeviceId) : Roster :=
  { v with state := .initialized, devices := List.range k, created := k, id := f }

/-- Up to `k`, devices have the ids `1`, `2`, …. -/
def Numbered (k : ℕ) (f : Addr → DeviceId) : Prop := ∀ p < k, f p = p + 1

theorem Roster.hosts_sound {k : ℕ} {f : Addr → DeviceId} (hc : v.count < m) (hp : 0 < v.count)
    (hlen : v.entries = v.count) (hk : k ≤ v.count) (hf : Numbered k f) : (v.hosts k f).Sound m where
  count := hc
  entries _ := ⟨hlen, hp⟩
  onBus p h := by
    have hlt : p < k := List.mem_range.1 h
    change 0 < f p ∧ f p ≤ v.count
    rw [hf p hlt]
    exact ⟨Nat.succ_pos p, Nat.lt_of_lt_of_le hlt hk⟩

theorem Roster.hosts_aligned {f : Addr → DeviceId} (hv : (v.hosts v.count f).Sound m)
    (hf : Numbered v.count f) : (v.hosts v.count f).Aligned m :=
  ⟨hv, fun _ _ => ⟨rfl, hf⟩, nofun⟩

/-- A scan after the discovery finds the slave. -/
theorem scans_scanDevice (hv : v.Sound m) (hs : v.state ≠ .preInit) {id : DeviceId} (h1 : 0 < id)
    (hid : id ≤ v.count) {E : Exn → W → Prop} :
    (ranging m).Triple (Seated m v) (scanDevice id) (fun info w => info.id = id ∧ Seated m v w) E := by
  refine triple_ifState (keeps_seated rfl) seated_state ?_
  rw [decide_eq_false (by simpa using hs)]
  refine keeping_slavecount (f := fun n => (Prog.raiseIf (!(decide (0 < id) && decide (id ≤ n))) _).bind fun _ =>
    act (.slaveInfo id)) ?_
  rw [decide_eq_true h1, decide_eq_true hid]
  refine .perform fun i w _ hw => ?_
  have h := hw.after (a := .slaveInfo id) rfl i ⟨fun j hj => ?_, rfl⟩
  · exact ⟨h.1, rfl, h.2⟩
  · obtain rfl : id = j := Option.some.inj hj
    exact ⟨Nat.lt_of_le_of_lt hid hv.count, hw.found ▸ hid⟩

theorem numbered_update {k : ℕ} {f : Addr → DeviceId} (hf : Numbered k f) :
    Numbered (k + 1) (Function.update f k (k + 1)) := by
  intro p hp
  by_cases h : p = k
  · rw [h, Function.update_self]
  · rw [Function.update_of_ne h]
    exact hf p (by omega)

/-- One more device. -/
theorem hosts_emplaceDevice {k : ℕ} {f : Addr → DeviceId} (hv : (v.hosts k f).Sound m) (hk : k + 1 ≤ v.count)
    {E : Exn → W → Prop} :
    (ranging m).Triple (Seated m (v.hosts k f)) (do act (.emplaceDevice (← scanDevice (k + 1))))
      (fun _ => Seated m (v.hosts (k + 1) (Function.update f k (k + 1)))) E := by
  refine .bind (T := fun (info : DeviceInfo) w => info.id = k + 1 ∧ Seated m (v.hosts k f) w)
    (scans_scanDevice hv nofun (Nat.succ_pos k) hk) fun info => .perform fun i w _ hw => ?_
  obtain ⟨hinfo, hw⟩ := hw
  refine hw.enrol (a := .emplaceDevice info) (fun _ => rfl) rfl (fun _ => rfl) ?_ rfl
  have hn : w.st.devCount = k := congrArg Roster.created hw.eq
  have hf : (fun p => (w.st.dev p).deviceInfo.id) = f := congrArg Roster.id hw.eq
  -- the new device has the id it was scanned under, the others keep theirs
  have hids : (fun p => ((exec (.emplaceDevice info) i w.st).2.dev p).deviceInfo.id) =
      Function.update f k (k + 1) := by
    funext p
    rw [← hf, ← hinfo, ← hn]
    by_cases hp : p = w.st.devCount
    · subst hp
      simp [exec, St.modifyDev]
    · simp [exec, St.modifyDev, Function.update_of_ne hp]
  have hr : roster (exec (.emplaceDevice info) i w.st).2 = { roster w.st with
      devices := (roster w.st).devices ++ [(roster w.st).created]
      created := (roster w.st).created + 1
      id := fun p => ((exec (.emplaceDevice info) i w.st).2.dev p).deviceInfo.id } := rfl
  rw [hr, hids, hw.eq]
  simp only [Roster.hosts, List.range_succ]

/-- `initialize` creates one device for each slave. -/
theorem tidies_emplace (hc : v.count < m) (hp : 0 < v.count) (hlen : v.entries = v.count) {f : Addr → DeviceId} :
    (ranging m).Triple (Seated m (v.hosts 0 f)) (Prog.forEach (List.range' 1 v.count) fun id => do
        act (.emplaceDevice (← scanDevice id)))
      (fun _ => Tidy m) fun _ => Tidy m := by
  refine .mono (Setting.Triple.forEach (fun done w => ∃ g, Numbered done.length g ∧
    Seated m (v.hosts done.length g) w) fun done id rest hl w hw => ?_) (fun w hw => ⟨f, nofun, hw⟩)
    (fun _ w hw => ?_) fun _ _ h => h
  · obtain ⟨g, hg, hw⟩ := hw
    have hlen' : done.length < (List.range' 1 v.count).length := by rw [hl]; simp
    rw [List.length_range'] at hlen'
    -- the round that has `done` behind it is about the next slave
    obtain rfl : id = done.length + 1 := by
      have h : (List.range' 1 v.count)[done.length]? = some id := by rw [hl]; simp
      rw [List.getElem?_range' hlen'] at h
      injection h with h
      omega
    have hs : (v.hosts done.length g).Sound m := Roster.hosts_sound hc hp hlen (Nat.le_of_lt hlen') hg
    refine wp_mono (hosts_emplaceDevice (E := fun _ => Tidy m) hs hlen' w hw) fun o w' ho => ?_
    cases o with
    | ret x =>
      rw [List.length_append]
      exact ⟨_, numbered_update hg, ho⟩
    | exn e => exact ho
    | crash => trivial
  · rw [List.length_range'] at hw
    obtain ⟨g, hg, hw⟩ := hw
    exact hw.tidy (Roster.hosts_aligned (Roster.hosts_sound hc hp hlen (Nat.le_refl _) hg) hg)

theorem tidies_initializeBus (hm : 0 < m) (hv : v.Aligned m) : Tidies m (Seated m v) (initializeBus ps) := by
  refine triple_require (keeps_seated rfl) seated_state (fun _ hw => hw.tidy hv) fun hs => ?_
  have hpre : v.state = .preInit := List.mem_singleton.1 hs
  refine (keeping_act rfl).tidies hv fun ec => keeping_raiseIf.tidies hv fun _ => ?_
  -- what SOEM finds
  refine .bind (T := fun n w => n.toNat < m ∧ Seated m { v with count := n.toNat } w)
    (.perform fun i w hi hw => ?_) fun n => .assume (c := n.toNat < m) (fun _ hw => hw.1) fun hn => ?_
  · have hc : i.slavecount = i.ret.toNat ∧ i.ret.toNat < m := by
      have hi' : if 0 < i.ret then i.slavecount = i.ret.toNat ∧ i.slavecount < m else i.slavecount = 0 := hi
      split at hi'
      · exact ⟨hi'.1, hi'.1 ▸ hi'.2⟩
      · rw [Int.toNat_of_nonpos (by omega)]
        exact ⟨hi', hm⟩
    have hr : Always (Ranged m) (w.after exec 0 .ecxConfigInit i).hist := ⟨⟨nofun, rfl⟩, hw.ranged⟩
    refine ⟨hr, hc.2, hr, rfl, ?_⟩
    rw [← hw.eq, World.after_st]
    change Roster.mk _ _ i.slavecount _ _ _ _ = _
    rw [hc.1]
    rfl
  refine .bind (T := fun _ w => 0 < n ∧ Seated m { v with count := n.toNat } w) (.raiseIf (fun _ w hw => ?_)
    fun hb w hw => ⟨by simpa using hb, hw.2⟩) fun _ => .assume (c := 0 < n) (fun _ hw => hw.1) fun h0 => ?_
  · exact hw.2.tidy (hv.recount hpre hn)
  refine .bind (T := fun _ => Seated m { v with count := n.toNat, entries := n.toNat })
    (.perform fun i w _ hw => ?_) fun _ => ?_
  · refine hw.2.enrol (a := .resizeSlaves) (fun _ => rfl) rfl (fun _ => rfl) ?_ rfl
    have hr : roster (exec .resizeSlaves i w.st).2 = { roster w.st with
        entries := (resize w.st.latestDiagnostics.slaves (roster w.st).count {}).length } := rfl
    rw [hr, length_resize, hw.2.eq]
  have hv' := hv.recount hpre hn (k := n.toNat)
  refine keeping_slavecount (Keeping.tidies hv' (keeping_eachSlave fun id h1 hid => ?_) fun _ => ?_)
  · exact .bind (keeping_captureTopology hv'.toSound rfl h1 hid) fun _ =>
      keeping_fits (V := AnyLock) (fits_crashUnless _)
  refine (keeping_act rfl).tidies hv' fun up => (keeping_act rfl).tidies hv' fun _ => tidies_store ?_
  refine .bind (T := fun _ => Tidy m) ?_ fun _ => .pure fun _ hw => hw
  -- a bus that has not been initialized has no devices
  have hnone : Roster.setState { v with count := n.toNat, entries := n.toNat } .initialized =
      Roster.hosts { v with count := n.toNat, entries := n.toNat } 0 v.id := by
    simp [Roster.setState, Roster.hosts, (hv.fresh hpre).1, (hv.fresh hpre).2]
  rw [hnone]
  exact tidies_emplace (v := { v with count := n.toNat, entries := n.toNat }) hn
    (Int.lt_toNat.2 h0) rfl

/-! ### Calls and runs -/

theorem tidies_destroyBus (hv : v.Aligned m) (hok : hk.Ok ps) : Tidies m (Seated m v) (destroyBus hk) := by
  refine Keeping.tidies hv (keeping_forDevices fun p _ => keeping_act rfl) fun _ => ?_
  refine .bind (T := fun _ => Tidy m) ?_ fun _ => .perform fun i w _ hw => ?_
  · refine .bind (T := fun _ => Tidy m) (.attempt (tidies_shutdown hv hok)) fun r => ?_
    cases r with
    | ok x => exact .pure fun _ hw => hw
    | error e =>
      dsimp only
      split
      · exact .pure fun _ hw => hw
      · exact .crash
  · have hr : roster (exec .destroyBackend i w.st).2 = { roster w.st with alive := false, devices := [] } := rfl
    have h := hw.1.enrol (a := .destroyBackend) (fun _ => rfl) rfl (fun _ => rfl) hr rfl
    exact ⟨h.1, h.2.tidy ⟨⟨hw.2.count, hw.2.entries, nofun⟩, nofun, fun hs => ⟨rfl, (hw.2.fresh hs).2⟩⟩⟩

theorem tidy_unindexed {a : Act} (ha : Unindexed a) : (ranging m).Keeps (Tidy m) a := fun i w hi hw =>
  have h := keeps_seated ha i w hi hw.1
  ⟨h.1, h.2.tidy hw.2⟩

/-- **Every operation leaves the tables aligned.** -/
theorem tidies_invoke (hm : 0 < m) (hok : hk.Ok ps) (o : Op) : Tidies m (Tidy m) (o.invoke ps hk) := by
  refine triple_invoke (K := Tidy m) (tidy_unindexed (a := .call o) rfl) (Tidies.of_seated fun v hv => ?_)
    (fun _ => tidy_unindexed (a := .done o true) rfl) fun _ => tidy_unindexed (a := .done o false) rfl
  by_cases hl : o.lifecycle = false
  · exact Keeping.tidy hv (keeping_body hv.toSound o hl (fun r => (hok.sdoReadCallback r).keeping hv.toSound)
      fun r => (hok.sdoWriteCallback r).keeping hv.toSound)
  · cases o
    case initializeBus => exact triple_void (tidies_initializeBus hm hv)
    case startup => exact tidies_startup hv hok
    case activate => exact tidies_activate hv hok
    case shutdown => exact tidies_shutdown hv hok
    case updateService => exact triple_void (tidies_updateService hv hok)
    case destroyBus => exact tidies_destroyBus hv hok
    all_goals exact absurd rfl hl

end Lifecycle

theorem run_tidy {good : UserCode → Prop} (hm : 0 < m) (hr : Run ps (soemFinds m) good w) : Tidy m w := by
  induction hr with
  | start =>
    exact ⟨⟨trivial, rfl, rfl⟩, ⟨hm, fun h => absurd rfl h.1, nofun⟩, fun _ h => absurd rfl h.1, fun _ => ⟨rfl, rfl⟩⟩
  | @call w w' o hk out _ _ hok _ he hc ih =>
    have h := (tidies_invoke hm hok o).sound he ih
    cases out with
    | ret x => exact h
    | exn e => exact h
    | crash => exact absurd rfl hc

/-! ## `acquire_device` -/

/-- What `acquire_device` ends with on an initialized bus of `n` devices: device `id` is at the
address before `id`. -/
def acquired (n : ℕ) (id : DeviceId) : Outcome Exn Addr :=
  if 1 ≤ id ∧ id ≤ n then .ret (id - 1) else .exn (deviceNotFound (notFoundOnBus id))

theorem find_device {n : ℕ} {f : ℕ → ℕ} (hf : ∀ p < n, f p = p + 1) (id : ℕ) :
    (List.range n).find? (fun p => decide (f p = id)) = if 1 ≤ id ∧ id ≤ n then some (id - 1) else none := by
  split
  · next h =>
    have hlt : id - 1 < n := by omega
    rw [List.find?_range_eq_some]
    refine ⟨?_, List.mem_range.2 hlt, fun j hj => ?_⟩
    · rw [hf _ hlt, decide_eq_true_eq]
      omega
    · have hj' : j < n := by omega
      rw [hf j hj', Bool.not_eq_true', decide_eq_false_iff_not]
      omega
  · next h =>
    rw [List.find?_range_eq_none]
    intro p hp
    rw [hf p hp, Bool.not_eq_true', decide_eq_false_iff_not]
    omega

/-- The lookup that `acquire_device` makes twice finds the same device, or none, both times. -/
theorem exec_acquireDevice {n : ℕ} (hs : w.st.state = .initialized) (hd : w.st.devices = List.range n)
    (hi : Numbered n fun p => (w.st.dev p).deviceInfo.id) {id : DeviceId} {out : Outcome Exn Addr} {w' : W}
    (he : Exec exec free 0 (acquireDevice id) w out w') : out = acquired n id := by
  let found (p : Addr) : Bool := decide ((w.st.dev p).deviceInfo.id = id)
  have hfind : w.st.devices.find? found = if 1 ≤ id ∧ id ≤ n then some (id - 1) else none := by
    rw [hd]
    exact find_device hi id
  suffices h : wp exec free free 0 (acquireDevice id) (fun o _ => o = acquired n id) w from wp_sound he h
  refine fun i₀ _ => ⟨trivial, ?_⟩
  change wp exec free free 0 (Prog.bind (if w.st.state = .initialized then .pure true else .pure false) _) _ _
  rw [if_pos hs]
  refine fun i₁ _ => ⟨trivial, ?_⟩
  change wp exec free free 0 (Prog.bind (Prog.raiseIf (!(w.st.devices.find? found).isSome) _) _) _ _
  rw [hfind]
  unfold acquired
  split
  · next h =>
    refine fun i₂ _ => ⟨trivial, ?_⟩
    have hans : (exec (.acquire id) i₂ ((w.after exec 0 .getBusState i₀).after exec 0 (.findDevice id) i₁).st).1 =
        some (id - 1) := hfind.trans (if_pos h)
    rw [hans]
    rfl
  · exact rfl

/-! ## The tables are aligned -/

/-- **The tables of a bus with `n` slaves.** -/
structure Tabled (m n : ℕ) (w : W) : Prop where
  slaves : w.st.context.ecatSlavecount = n ∧ 0 < n ∧ n < m
  diagnostics : w.st.latestDiagnostics.slaves.length = n
  /-- One device for each id from `1` to `n`, in order. -/
  devices : w.st.devices = List.range n ∧ Numbered n fun p => (w.st.dev p).deviceInfo.id
  acquire : w.st.state = .initialized → ∀ id out w', Exec exec free 0 (acquireDevice id) w out w' →
    out = acquired n id

theorem Tidy.tabled (h : Tidy m w) (ha : w.st.alive = true) (ho : w.st.state.open) :
    Tabled m (slavesFound w.hist) w := by
  obtain ⟨⟨-, hf, -⟩, hv⟩ := h
  obtain ⟨hlen, hpos⟩ := hv.entries ho
  obtain ⟨hd, hi⟩ := hv.listed ha ho
  rw [← hf]
  exact ⟨⟨rfl, hpos, hv.count⟩, hlen, ⟨hd, hi⟩, fun hs _ _ _ => exec_acquireDevice hs hd hi⟩

/-- **Between any two calls the tables are aligned**, from `Initialized` to `ShuttingDown`, and no
call uses a subscript that is out of range. -/
theorem tables_aligned {good : UserCode → Prop} (hm : 0 < m) (hr : Run ps (soemFinds m) good w) :
    (w.st.alive = true → w.st.state.open → Tabled m (slavesFound w.hist) w) ∧
      Always (Ranged m) w.hist ∧
      ∀ (o : Op) (hk : UserCode) (out : Outcome Exn Unit) (w' : W), hk.Ok ps →
        Exec exec (soemFinds m) 0 (o.invoke ps hk) w out w' → Always (Ranged m) w'.hist := by
  have h := run_tidy hm hr
  refine ⟨h.tabled, h.1.ranged, fun o hk out w' hok he => ?_⟩
  exact (wp_sound he (wp_last (J := fun w => Always (Ranged m) w.hist) (fun _ _ _ hr => hr)
    (tidies_invoke hm hok o w h) h.1.ranged)).2

/-- `initialize`, with three slaves on the bus. -/
def initializeThree : Call :=
  { op := .initializeBus, env := [{}, {}, { ret := 1 }, { ret := 3, slavecount := 3 }] }

/-- A retried `initialize`, with three slaves on the bus the second time. -/
theorem tables_aligned_retried :
    Tabled 200 3 (world [{ op := .initializeBus, env := [{}, {}, { ret := 1 }] }, initializeThree]) := by
  have hr : Run {} (soemFinds 200) (fun _ => True)
      (world [{ op := .initializeBus, env := [{}, {}, { ret := 1 }] }, initializeThree]) :=
    run_admitted {} _ (by simp [initializeThree, UserCode.none_ok]) (by decide +kernel)
  exact (tables_aligned (by decide) hr).1 (by decide +kernel) (by decide +kernel)

end EthercatInterface
