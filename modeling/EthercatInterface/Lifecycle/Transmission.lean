import EthercatInterface.Lifecycle.Interface
import EthercatInterface.Proof.Members
import EthercatInterface.Proof.Triples

/-!
# Frames on a closed interface

Every function that puts frames on the wire tests `state_` first, except
`change_device_state`. So nothing is sent on an interface that is not open
(`transmissions_open`, whatever the hooks do), **as long as no state of a slave on the
bus, and no broadcast, is requested then**; an operation that would send throws, and
`change_device_state` of a slave that is not on the bus returns `false`.
-/

namespace EthercatInterface

open Interleave

variable {ps : Parameters} {hk : UserCode} {s : BusState} {w : W}

/-! ## On an open interface -/

/-- What is sent is sent between an `ecx_init` and the `ecx_close` after it. -/
def SentOpen (e : Ev) (h : List Ev) : Prop := e.act.transmits = true → LeftOpen (port h)

instance (e : Ev) (h : List Ev) : Decidable (SentOpen e h) :=
  inferInstanceAs (Decidable (_ → LeftOpen (port h)))

/-- A slave, by its id, that SOEM has not found. -/
def OffBus (id : DeviceId) (s : St) : Prop := id ≠ 0 ∧ s.context.ecatSlavecount < id

instance (id : DeviceId) (s : St) : Decidable (OffBus id s) := inferInstanceAs (Decidable (_ ∧ _))

/-- On a closed interface, states are requested only of slaves that are not on the bus,
or through devices without one. -/
def changesAdmitted : Guard Act Ans Env St := fun _ a _ w =>
  match a with
  | .call (.changeDeviceState id _ _) => LeftOpen (port w.hist) ∨ OffBus id w.st
  | .call (.deviceChangeDeviceState p _ _) =>
    LeftOpen (port w.hist) ∨ (w.st.dev p).bus = false ∨ OffBus (w.st.dev p).deviceInfo.id w.st
  | _ => True

/-- Moves the state of the bus, or opens or closes the interface. -/
def Act.steers : Act → Bool
  | .updateBusState _ | .ecxInit | .ecxClose => true
  | _ => false

/-- Keeps the state of the bus and of its interface. -/
def Mild (a : Act) : Prop := a.steers = false

theorem mild_act {a : Act} (h : a.steers = false) : (act a).Uses Mild := uses_act h

/-- Mild, and without a frame on the wire. -/
def Mute (a : Act) : Prop := (a.steers || a.transmits) = false

theorem Mute.mild {a : Act} (h : Mute a) : Mild a := (Bool.or_eq_false_iff.1 h).1

theorem Calm.mild {a : Act} (h : Calm a) : Mild a := by
  cases a <;> first | rfl | cases h

theorem Tacit.mute {a : Act} (h : Tacit a) : Mute a := by
  have hs := h.sendless
  cases a <;> first | rfl | (cases hs; done) | cases h

/-- The bus is in state `s`, and has sent nothing on a closed interface. -/
structure At (s : BusState) (w : W) : Prop where
  sent : Always SentOpen w.hist
  state : w.st.state = s
  isOpen : s.open → LeftOpen (port w.hist)

theorem port_mild {a : Act} (ha : Mild a) {i : Env} :
    port (w.after exec 0 a i).hist = port w.hist := by
  cases a <;> first | rfl | cases ha

theorem At.mild {a : Act} (ha : Mild a) (hs : a.transmits = true → LeftOpen (port w.hist))
    (h : At s w) (i : Env) : At s (w.after exec 0 a i) := by
  refine ⟨⟨hs, h.sent⟩, ?_, fun ho => by rw [port_mild ha]; exact h.isOpen ho⟩
  have hst : stored a = none := by cases a <;> first | rfl | cases ha
  rw [World.after_st, state_exec, hst]
  exact h.state

theorem At.mute {a : Act} (ha : Mute a) (h : At s w) (i : Env) : At s (w.after exec 0 a i) :=
  h.mild ha.mild (fun ht => absurd ht (by simp [(Bool.or_eq_false_iff.1 ha).2])) i

/-- A move between two states that are open, or into one that is not. -/
theorem At.store {s' : BusState} (hs : s'.open → s.open) (h : At s w) (i : Env) :
    At s' (w.after exec 0 (.updateBusState s') i) :=
  ⟨⟨(fun ht => by cases ht), h.sent⟩, rfl, fun ho => h.isOpen (hs ho)⟩

/-! ## Programs that leave the state alone -/

/-- Single-threaded runs that request states only where that is admitted. -/
abbrev wire : Setting Act Ans Env St := single changesAdmitted free

theorem keeps_mute {a : Act} (ha : (a.steers || a.transmits) = false) : wire.Keeps (At s) a :=
  fun i _ _ hw => ⟨trivial, hw.mute ha i⟩

/-- Started in state `s`, the program ends in `s`, and does not return if it `fails`. -/
def Stays (s : BusState) (fails : Bool) {α : Type} (p : P α) : Prop :=
  wire.Triple (At s) p (fun _ w => fails = false ∧ At s w) fun _ => At s

section Stays

variable {α β : Type} {fails : Bool}

theorem Stays.triple {p : P α} (h : Stays s fails p) :
    wire.Triple (At s) p (fun _ => At s) fun _ => At s :=
  h.mono (fun _ h => h) (fun _ _ h => h.2) fun _ _ h => h

theorem Stays.of_triple {p : P α} (h : wire.Triple (At s) p (fun _ => At s) fun _ => At s) :
    Stays s false p :=
  h.mono (fun _ h => h) (fun _ _ h => ⟨rfl, h⟩) fun _ _ h => h

theorem stays_mute {p : P α} (hp : p.Uses Mute) : Stays s false p :=
  .of_triple (.of_keeps (fun _ => keeps_mute) hp)

theorem stays_tacit {p : P α} (hp : p.Fits Tacit AnyLock) : Stays s false p :=
  stays_mute (hp.uses.mono fun _ => Tacit.mute)

theorem stays_act {a : Act} (ha : (a.steers || a.transmits) = false) : Stays s false (act a) :=
  stays_mute (uses_act ha)

theorem stays_pure {x : α} : Stays s false (.pure x : P α) := stays_mute trivial

theorem stays_throw {e : Exn} : Stays s fails (.throw e : P α) := .throw fun _ hw => hw

/-- What an open interface allows, whatever the state of the bus. -/
theorem triple_mild {p : P α} (hp : p.Uses Mild) :
    wire.Triple (fun w => At s w ∧ LeftOpen (port w.hist)) p
      (fun _ w => At s w ∧ LeftOpen (port w.hist)) fun _ w => At s w ∧ LeftOpen (port w.hist) := by
  refine .of_keeps (fun a ha i w _ hw => ⟨trivial, hw.1.mild ha (fun _ => hw.2) i, ?_⟩) hp
  rw [port_mild ha]
  exact hw.2

theorem stays_open (hs : s.open) {p : P α} (hp : p.Uses Mild) : Stays s false p :=
  .of_triple ((triple_mild hp).mono (fun _ hw => ⟨hw, hw.isOpen hs⟩) (fun _ _ hw => hw.1)
    fun _ _ hw => hw.1)

theorem Stays.bind {p : P β} {f : β → P α} (hp : Stays s false p) (hf : ∀ x, Stays s fails (f x)) :
    Stays s fails (p.bind f) :=
  hp.triple.bind hf

/-- What fails, fails whatever was to follow. -/
theorem Stays.stop {p : P β} {f : β → P α} (hp : Stays s true p) : Stays s true (p.bind f) :=
  Setting.Triple.bind hp fun _ _ hw => absurd hw.1 (by decide)

theorem Stays.attempt {p : P α} (hp : Stays s fails p) : Stays s false p.attempt :=
  .of_triple (.attempt hp.triple)

theorem Stays.void {p : P α} (hp : Stays s fails p) : Stays s fails (EthercatInterface.void p) :=
  triple_void hp

theorem Stays.forDevices {l : Loop} {body : Addr → DeviceId → P Unit}
    (hb : ∀ p id, Stays s false (body p id)) : Stays s false (forDevices l body) :=
  .of_triple (triple_forDevices (keeps_mute rfl) (fun _ => keeps_mute rfl) fun p id => (hb p id).triple)

theorem Stays.throughBus {p : Addr} {k : DeviceId → P α} (hk : ∀ id, Stays s fails (k id)) :
    Stays s fails (throughBus p k) :=
  .bind (stays_act rfl) fun _ => .bind (stays_mute Prog.uses_raiseIf) fun _ =>
    .bind (stays_act rfl) fun _ => .bind (stays_tacit (fits_crashUnless _)) fun _ =>
      .bind (stays_act rfl) hk

/-- `if (state_ is in l) throw e`. -/
theorem stays_refuse {l : List BusState} {e : Exn} {f : Unit → P α} (hs : s ∈ l) :
    Stays s true ((stateIn l).bind fun b => (Prog.raiseIf b e).bind f) :=
  triple_refuse (keeps_mute rfl) (fun _ hw => hw.state) (fun _ hw => hw) fun h => absurd hs h

/-- `if (state_ is not in l) throw e`. -/
theorem stays_require {l : List BusState} {e : Exn} {f : Unit → P α} (hs : s ∉ l) :
    Stays s true ((stateIn l).bind fun b => (Prog.raiseIf (!b) e).bind f) :=
  triple_require (keeps_mute rfl) (fun _ hw => hw.state) (fun _ hw => hw) fun h => absurd h hs

/-- A call ends as its body does. -/
theorem Stays.invoke {o : Op} (hb : Stays s fails (o.body ps hk)) : Stays s fails (o.invoke ps hk) :=
  triple_invoke (keeps_mute (a := .call o) rfl) hb
    (fun _ i _ _ hw => ⟨trivial, hw.1, hw.2.mute (a := .done o true) rfl i⟩) fun _ => keeps_mute rfl

end Stays

/-! ## Operations outside the lifecycle -/

/-- Operations that throw unless the bus is open. -/
def Op.refuses : Op → Bool
  | .readOd _ _ | .startup | .activate | .updateRt | .updateService | .readSdoUntyped ..
  | .readSdoUntypedAsync .. | .writeSdoUntyped .. | .writeSdoUntypedAsync .. | .foeWrite ..
  | .foeRead .. | .readRegisterUntyped .. | .writeRegisterUntyped .. | .diagnostics _
  | .deviceSdoRead .. | .deviceSdoWrite .. | .deviceReadOd .. | .deviceFoeWrite ..
  | .deviceFoeRead .. => true
  | _ => false

/-- Requests of a state of a slave. -/
def Op.changes : Op → Bool
  | .changeDeviceState .. | .deviceChangeDeviceState .. => true
  | _ => false

theorem not_open (hs : ¬s.open) : s = .preInit ∨ s = .shutdown := by
  unfold BusState.open at hs
  tauto

section Closed

variable (hs : ¬s.open)
include hs

theorem stays_checkAccess (what : String) (id : DeviceId) : Stays s true (checkAccess what id) :=
  stays_refuse (by rcases not_open hs with rfl | rfl <;> decide)

/-- **On a bus that is not open**, an operation that would send fails before it does. -/
theorem stays_body (o : Op) (hl : o.lifecycle = false) (hc : o.changes = false) :
    Stays s o.refuses (o.body ps hk) := by
  have refuse : ∀ {e : Exn} {α : Type} {f : Unit → P α},
      Stays s true ((stateIn [.preInit, .shutdown]).bind fun b => (Prog.raiseIf b e).bind f) :=
    stays_refuse (by rcases not_open hs with rfl | rfl <;> decide)
  have copy : ∀ {α : Type} {p : P α}, p.Fits Mute AnyLock → Stays s false p := fun hp => stays_mute hp.uses
  have mute : ∀ a, Meek a → Mute a := fun _ h => h.tacit.mute
  have readSdo : ∀ n id i s' c, Stays s true (readSdoUntyped n id i s' c) := fun _ id _ _ _ =>
    (stays_checkAccess hs _ id).stop.withLock
  have writeSdo : ∀ data id i s', Stays s true (writeSdoUntyped data id i s') := fun _ id _ _ =>
    (stays_checkAccess hs _ id).stop.withLock
  have write : ∀ id f data, Stays s true (foeWrite id f data) := fun id _ _ =>
    (stays_checkAccess hs _ id).stop.withLock
  have read : ∀ id f n, Stays s true (foeRead id f n) := fun id _ _ =>
    (stays_checkAccess hs _ id).stop.withLock
  -- an operation that sends checks the state first; the others only copy or look up
  cases o with
  | initializeBus => cases hl
  | startup => cases hl
  | activate => cases hl
  | shutdown => cases hl
  | updateService => cases hl
  | destroyBus => cases hl
  | changeDeviceState id t b => cases hc
  | deviceChangeDeviceState p t b => cases hc
  | acquireDevice id => exact (stays_tacit (tacit_acquireDevice id)).void
  | scan => exact (stays_tacit tacit_scan).void
  | scanDevice id => exact (stays_tacit (tacit_scanDevice id)).void
  | hasDevice id => exact (stays_tacit (tacit_hasDevice id)).void
  | hasDeviceOnBus id => exact (stays_tacit (tacit_hasDeviceOnBus id)).void
  | readRxPdo id => exact (copy (fits_readRxPdo mute trivial id fun _ => rfl)).void
  | writeRxPdo id data => exact copy (fits_writeRxPdo mute trivial id data rfl)
  | readTxPdo id n => exact (copy (fits_readTxPdo mute trivial id n fun _ => rfl)).void
  | getGenericRxPdo p n => exact (stays_tacit (tacit_getGenericRxPdo p n)).void
  | setGenericRxPdo p rx => exact copy (fits_setGenericRxPdo mute trivial rfl)
  | getGenericTxPdo p n => exact (stays_tacit (tacit_getGenericTxPdo p n)).void
  | releaseDevice p => exact stays_act rfl
  | readOd id f => exact refuse.void
  | updateRt =>
    exact Stays.void (stays_require (by rcases not_open hs with rfl | rfl <;> decide))
  | readSdoUntyped n id i s' c => exact (readSdo n id i s' c).void
  | readSdoUntypedAsync n id i s' c => exact (readSdo n id i s' c).stop
  | writeSdoUntyped data id i s' => exact (writeSdo data id i s').void
  | writeSdoUntypedAsync data id i s' => exact (writeSdo data id i s').stop
  | foeWrite id f data => exact (write id f data).void
  | foeRead id f n => exact (read id f n).void
  | readRegisterUntyped n id a => exact (stays_checkAccess hs _ id).stop.void
  | writeRegisterUntyped data id a => exact (stays_checkAccess hs _ id).stop.void
  | diagnostics f => exact refuse.void
  | deviceSdoRead p n i s' c => exact (Stays.throughBus fun id => readSdo n id i s' c).void
  | deviceSdoWrite p data i s' => exact (Stays.throughBus fun id => writeSdo data id i s').void
  | deviceReadOd p f => exact (Stays.throughBus fun id => refuse).void
  | deviceFoeWrite p f data => exact (Stays.throughBus fun id => write id f data).void
  | deviceFoeRead p f n => exact (Stays.throughBus fun id => read id f n).void

end Closed

/-! ## `change_device_state` -/

/-- The state of a slave that is not on the bus is not requested. -/
theorem wp_changeDeviceState {id : DeviceId} {t : EthercatDeviceState} {b : Bool} (h : At s w)
    (ho : OffBus id w.st) :
    wp exec changesAdmitted free 0 (changeDeviceState id t b)
      (fun out w' => out = .ret false ∧ At s w') w := by
  refine wp_bind (wp_withLock (wp_bind (wp_bind (wp_perform fun i _ => ⟨trivial, ?_⟩))))
  have hw := h.mute (a := .slavecount) rfl i
  obtain ⟨hid, hcount⟩ := ho
  have hon : (decide (0 < id) && decide (id ≤ w.st.context.ecatSlavecount)) = false := by
    rw [decide_eq_false (Nat.not_le.2 hcount), Bool.and_false]
  change wp exec changesAdmitted free 0 (if id ≠ 0 ∧ _ = false then _ else _) _ _
  rw [if_pos ⟨hid, hon⟩]
  change wp exec changesAdmitted free 0 (if (!b || !false) = true then _ else _) _ _
  rw [if_pos (by simp)]
  exact ⟨rfl, hw⟩

/-- A request that has been admitted. -/
theorem triple_change {id : DeviceId} {t : EthercatDeviceState} {b : Bool} :
    wire.Triple (fun w => At s w ∧ (LeftOpen (port w.hist) ∨ OffBus id w.st))
      (changeDeviceState id t b) (fun _ => At s) fun _ => At s := by
  rintro w ⟨h, ho | ho⟩
  · have hp : (changeDeviceState id t b).Uses Mild :=
      (Fits.plain (still_changeDeviceState id t b)).mono fun _ ha => ha.calm.mild
    exact (triple_mild hp).mono (fun _ hw => hw) (fun _ _ hw => hw.1) (fun _ _ hw => hw.1) w ⟨h, ho⟩
  · refine wp_mono (wp_changeDeviceState h ho) ?_
    rintro _ w' ⟨rfl, hw⟩
    exact hw

/-- What was admitted at the call is still so when the state is requested. -/
theorem stays_change {o : Op} (hc : o.changes = true) : Stays s false (o.invoke ps hk) := by
  have invoke : ∀ {o : Op} {J : W → Prop},
      (∀ i w, changesAdmitted 0 (.call o) i w → At s w → J (w.after exec 0 (.call o) i)) →
      wire.Triple J (o.body ps hk) (fun _ => At s) (fun _ => At s) →
      Stays s false (o.invoke ps hk) := fun hJ hb =>
    .of_triple (triple_invoke (fun i w hi hw => ⟨trivial, hJ i w hi hw⟩) hb
      (fun _ => keeps_mute rfl) fun _ => keeps_mute rfl)
  cases o
  case changeDeviceState id t b =>
    refine invoke (fun i w hi hw => ?_) (triple_void triple_change)
    exact ⟨hw.mute (a := .call (.changeDeviceState id t b)) rfl i, hi⟩
  case deviceChangeDeviceState p t b =>
    refine invoke (J := fun w => At s w ∧ (LeftOpen (port w.hist) ∨ (w.st.dev p).bus = false ∨
      OffBus (w.st.dev p).deviceInfo.id w.st)) (fun i w hi hw => ?_) (triple_void ?_)
    · exact ⟨hw.mute (a := .call (.deviceChangeDeviceState p t b)) rfl i, hi⟩
    -- a device that has been cut off fails before it asks for its id
    rintro w ⟨hw, hi⟩
    refine wp_bind (wp_perform fun i₁ _ => ⟨trivial, ?_⟩)
    have hw₁ := hw.mute (a := .busPtr p) rfl i₁
    refine wp_bind (wp_raiseIf (fun _ => hw₁) fun hb => wp_bind (wp_perform fun i₂ _ => ⟨trivial, ?_⟩))
    have hw₂ := hw₁.mute (a := .busAlive) rfl i₂
    refine wp_bind (wp_when (fun _ => trivial) fun _ => wp_bind (wp_perform fun i₃ _ => ⟨trivial, ?_⟩))
    refine triple_change _ ⟨hw₂.mute (a := .deviceId p) rfl i₃, hi.imp id fun h => h.resolve_left ?_⟩
    intro hn
    have hb' : (!(w.st.dev p).bus) = false := hb
    rw [hn] at hb'
    cases hb'
  all_goals cases hc

/-- **Code of users** sends nothing on a closed interface. -/
theorem User.stays {p : P Unit} (h : User ps p) : Stays s false p := by
  by_cases hs : s.open
  · exact stays_open hs (h.calm.mono fun _ => Calm.mild)
  induction h with
  | ret => exact stays_pure
  | throw e => exact stays_throw
  | decide _ ih => exact .bind (stays_act rfl) ih
  | @call o hk k hl _ _ _ _ _ ihk =>
    have call : Stays s (o.refuses && !o.changes) (o.invoke ps hk) := by
      by_cases hc : o.changes = true
      · rw [hc, Bool.not_true, Bool.and_false]
        exact stays_change hc
      · have hc' : o.changes = false := by simpa using hc
        rw [hc', Bool.not_false, Bool.and_true]
        exact (stays_body hs o hl hc').invoke
    exact Stays.bind (Stays.attempt call) ihk

/-! ## The lifecycle -/

/-- Nothing has been sent on a closed interface, and a bus that is open has an open one. -/
def Lawful (w : W) : Prop := At w.st.state w

theorem At.lawful (h : At s w) : Lawful w := by
  obtain rfl := h.state
  exact h

/-- Started in state `s`, the program ends in `s'` if it returns, and lawfully in any case. -/
def Advances (s s' : BusState) {α : Type} (p : P α) : Prop :=
  wire.Triple (At s) p (fun _ => At s') fun _ => Lawful

section Advances

variable {α β : Type} {s' s'' : BusState}

theorem Stays.advances {fails : Bool} {p : P α} (hp : Stays s fails p) : Advances s s p :=
  hp.triple.mono (fun _ h => h) (fun _ _ h => h) fun _ _ h => h.lawful

theorem Advances.bind {p : P β} {f : β → P α} (hp : Advances s s' p)
    (hf : ∀ x, Advances s' s'' (f x)) : Advances s s'' (p.bind f) :=
  Setting.Triple.bind hp hf

theorem advances_mute {a : Act} (ha : (a.steers || a.transmits) = false) : Advances s s (act a) :=
  (stays_act ha).advances

theorem advances_throw {e : Exn} : Advances s s' (.throw e : P α) := .throw fun _ hw => hw.lawful

theorem advances_store (hs : s'.open → s.open) : Advances s s' (act (.updateBusState s')) :=
  .perform fun i _ _ hw => ⟨trivial, hw.store hs i⟩

/-- `if (state_ is in l) p else q`. -/
theorem advances_ifState {l : List BusState} {p q : P α} (ht : s ∈ l → Advances s s' p)
    (hf : s ∉ l → Advances s s' q) :
    Advances s s' ((stateIn l).bind fun b => if b = true then p else q) :=
  triple_branch (keeps_mute rfl) (fun _ hw => hw.state) ht hf

/-- `if (state_ is not in l) throw e`. -/
theorem advances_require {l : List BusState} {e : Exn} {f : Unit → P α}
    (hf : s ∈ l → Advances s s' (f ())) :
    Advances s s' ((stateIn l).bind fun b => (Prog.raiseIf (!b) e).bind f) :=
  triple_require (keeps_mute rfl) (fun _ hw => hw.state) (fun _ hw => hw.lawful) hf

theorem Advances.forDevices {l : Loop} {body : Addr → DeviceId → P Unit}
    (hb : ∀ p id, Advances s s (body p id)) : Advances s s (forDevices l body) :=
  triple_forDevices (keeps_mute rfl) (fun _ => keeps_mute rfl) hb

end Advances

section Lifecycle

variable (hok : hk.Ok ps)
include hok

theorem stays_callbacks (h : Hook) :
    Stays s false (forDevices (.callback h) fun p _ => onCallback hk h p) :=
  .forDevices fun p _ => .bind (stays_act rfl) fun _ => (hok.hook h p).stays

omit hok in
/-- The last moment something may be sent. -/
theorem advances_closeRunning : Advances .shuttingDown .shutdown closeRunning := fun _ hw =>
  wp_withLock (wp_bind (wp_perform fun i _ => ⟨trivial, wp_perform fun j _ => ⟨trivial,
    ⟨(fun ht => by cases ht), (fun ht => by cases ht), hw.sent⟩, rfl, fun ho => absurd rfl ho.2⟩⟩))

omit hok in
theorem advances_closeInitialized : Advances .initialized .shutdown closeInitialized :=
  .withLock (.bind (advances_mute rfl) fun _ => .bind (advances_store fun ho => absurd rfl ho.2)
    fun _ _ hw => wp_perform fun i _ => ⟨trivial, ⟨(fun ht => by cases ht), hw.sent⟩, hw.state,
      fun ho => absurd rfl ho.2⟩)

theorem advances_teardown (hs : s.running) : Advances s .shutdown (teardown hk) := by
  refine .bind (advances_store fun _ => hs.open) fun _ =>
    .bind (stays_callbacks hok .onPreShutdown).advances fun _ => ?_
  have mild : ∀ {α : Type} {p : P α}, p.Uses Plain → Advances .shuttingDown .shuttingDown p :=
    fun hp => (stays_open (by decide) (hp.mono fun _ ha => ha.calm.mild)).advances
  refine .bind (mild (plain_setDeviceTargetState _ _)) fun _ =>
    .bind (mild (plain_waitForDeviceTargetState _ _)) fun _ => .bind advances_closeRunning fun _ => ?_
  exact .bind (stays_callbacks hok .onPostShutdown).advances fun _ => advances_mute rfl

theorem advances_shutdown : Advances s .shutdown (shutdown hk) := by
  refine advances_ifState (fun h => ?_) fun h₁ => ?_
  · obtain rfl : s = .shutdown := by simpa using h
    exact stays_pure.advances
  refine advances_ifState (fun h => advances_store fun ho => absurd rfl ho.2) fun h₂ => ?_
  refine advances_ifState (fun h => ?_) fun h₃ => ?_
  · obtain rfl : s = .initialized := by simpa using h
    exact advances_closeInitialized
  exact advances_ifState (fun h => advances_teardown hok (by simpa [BusState.running] using h))
    fun _ => advances_throw

/-- The error exits. -/
theorem advances_abort {b : Bool} {e : Exn} :
    Advances s s (Prog.when b (shutdown hk >>= fun _ => Prog.throw e)) :=
  .when (fun _ => .bind (advances_shutdown hok) fun _ => advances_throw) fun _ _ hw => hw

theorem advances_startup : Advances s .configured (startup ps hk) := by
  refine advances_require fun h => ?_
  obtain rfl : s = .initialized := by simpa using h
  have mild : ∀ {α : Type} {p : P α}, p.Uses Mild → Advances .initialized .initialized p :=
    fun hp => (stays_open (by decide) hp).advances
  refine .bind (.bind (stays_callbacks hok .onStartup).advances fun _ => .bind (mild (mild_act rfl))
    fun _ => .bind (mild (mild_act rfl)) fun _ => mild (mild_act rfl)) fun size =>
      .bind (advances_abort hok) fun _ => ?_
  refine .bind (mild (mild_act rfl)) fun dc => .bind (advances_abort hok) fun _ => ?_
  refine .bind (mild ?_) fun _ => .bind (advances_store fun _ => by decide) fun _ => ?_
  · exact uses_setupDc (S := Mild) (fun _ ha => ha.plain.calm.mild) (fun _ => rfl) fun _ _ _ => rfl
  refine .forDevices fun p id => .bind (advances_mute rfl) fun _ => .bind (advances_mute rfl) fun _ => ?_
  refine .bind (advances_mute rfl) fun _ => .bind (advances_mute rfl) fun _ => .bind (advances_mute rfl)
    fun _ => .bind (advances_mute rfl) fun _ => .bind (advances_mute rfl) fun _ => ?_
  exact .bind (advances_mute rfl) fun _ => .bind (advances_mute rfl) fun _ =>
    .bind (advances_mute rfl) fun _ => (hok.hook .onPdoConfigured p).stays.advances

theorem advances_activate : Advances s .activated (activate hk) := by
  refine advances_require fun h => ?_
  obtain rfl : s = .configured := by simpa using h
  have plain : ∀ {α : Type} {p : P α}, p.Uses Plain → Advances .configured .configured p :=
    fun hp => (stays_open (by decide) (hp.mono fun _ ha => ha.calm.mild)).advances
  refine .bind (stays_callbacks hok .onPreActivate).advances fun _ => .bind (advances_mute rfl) fun _ => ?_
  refine .bind (.forDevices fun p id => .bind (plain (plain_setDeviceTargetState id _)) fun _ =>
    advances_abort hok) fun _ => ?_
  refine .bind (.forDevices fun p id => .bind (plain (plain_waitForDeviceTargetState id _)) fun _ =>
    advances_abort hok) fun _ => ?_
  exact .bind (advances_store fun _ => by decide) fun _ => (stays_callbacks hok .onPostActivate).advances

end Lifecycle

/-! ## `initialize` -/

/-- From an interface just opened, the program ends in `Initialized` if it returns. -/
def Opens {α : Type} (p : P α) : Prop :=
  wire.Triple (fun w => At .preInit w ∧ LeftOpen (port w.hist)) p (fun _ => At .initialized)
    fun _ => Lawful

section Opens

variable {α β : Type}

theorem Opens.bind {p : P β} {f : β → P α} (hp : p.Uses Mild) (hf : ∀ x, Opens (f x)) :
    Opens (p.bind f) :=
  ((triple_mild hp).mono (fun _ h => h) (fun _ _ h => h) fun _ _ h => h.1.lawful).bind hf

/-- The bus becomes open after its interface. -/
theorem Opens.store {f : Unit → P α} (hf : Advances .initialized .initialized (f ())) :
    Opens ((act (.updateBusState .initialized)).bind f) :=
  Setting.Triple.bind (.perform fun _ _ _ hw =>
    ⟨trivial, ⟨(fun ht => by cases ht), hw.1.sent⟩, rfl, fun _ => hw.2⟩) fun _ => hf

theorem advances_initializeBus : Advances s .initialized (initializeBus ps) := by
  refine advances_require fun h w hw => ?_
  obtain rfl : s = .preInit := by simpa using h
  refine wp_bind (wp_perform fun i _ => ⟨trivial, ?_⟩)
  have hw₁ : At .preInit (w.after exec 0 .ecxInit i) :=
    ⟨⟨(fun ht => by cases ht), hw.sent⟩, hw.state, fun ho => absurd rfl ho.1⟩
  refine wp_bind (wp_raiseIf (fun _ => hw₁.lawful) fun hr => ?_)
  have ho : LeftOpen (port (w.after exec 0 .ecxInit i).hist) := by
    have hr' : 0 < i.ret := Int.not_le.1 (of_decide_eq_false hr)
    have he : portEvent .ecxInit i.ret = some .opened := if_pos hr'
    have hp : port (w.after exec 0 .ecxInit i).hist = .opened :: port w.hist :=
      List.filterMap_cons_some he
    rw [hp]
    rfl
  refine Opens.bind (mild_act (a := .ecxConfigInit) rfl) (fun n => .bind Prog.uses_raiseIf fun _ =>
    .bind (mild_act rfl) fun _ => .bind (plain_slaveIds.mono fun _ ha => ha.calm.mild) fun ids => ?_)
      _ ⟨hw₁, ho⟩
  refine .bind (.forEach (fun id => (mild_act rfl).bind fun _ =>
    (fits_crashUnless (V := AnyLock) _).uses) ids) fun _ => .bind (mild_act rfl) fun up =>
      .bind (mild_act rfl) fun _ => .store ?_
  refine (stays_open (by decide) ?_).advances
  refine (Prog.Uses.forEach (fun id => ?_) _).bind fun _ => trivial
  exact ((Fits.plain (Fits.still (tacit_scanDevice (V := AnyLock) id))).mono fun _ ha =>
    ha.calm.mild).bind fun _ => mild_act rfl

end Opens

/-! ## Every operation -/

/-- Started in state `s`, the program ends lawfully. -/
def Legal (s : BusState) {α : Type} (p : P α) : Prop :=
  wire.Triple (At s) p (fun _ => Lawful) fun _ => Lawful

section Legal

variable {α β : Type} {s' : BusState}

theorem Advances.legal {p : P α} (hp : Advances s s' p) : Legal s p :=
  hp.mono (fun _ h => h) (fun _ _ h => h.lawful) fun _ _ h => h

theorem Stays.legal {fails : Bool} {p : P α} (hp : Stays s fails p) : Legal s p := hp.advances.legal

theorem legal_pure {x : α} : Legal s (.pure x : P α) := stays_pure.legal

theorem Advances.andThen {p : P β} {f : β → P α} (hp : Advances s s' p) (hf : ∀ x, Legal s' (f x)) :
    Legal s (p.bind f) :=
  Setting.Triple.bind hp hf

/-- What keeps the law from every state, keeps it after any lawful end. -/
theorem Legal.then {p : P β} {f : β → P α} (hp : Legal s p) (hf : ∀ x s', Legal s' (f x)) :
    Legal s (p.bind f) :=
  Setting.Triple.bind hp fun x w hw => hf x _ w hw

theorem Legal.attempt {p : P α} (hp : Legal s p) : Legal s p.attempt := Setting.Triple.attempt hp

end Legal

section Every

variable (hok : hk.Ok ps)
include hok

theorem legal_bringOperational : Legal .activated (bringOperational ps hk) := by
  have mild : ∀ {α : Type} {p : P α}, p.Uses Mild → Advances .activated .activated p :=
    fun hp => (stays_open (by decide) hp).advances
  have plain : ∀ {α : Type} {p : P α}, p.Uses Plain → Advances .activated .activated p :=
    fun hp => mild (hp.mono fun _ ha => ha.calm.mild)
  refine (mild (mild_act rfl)).andThen fun start => (mild (Prog.uses_when ((mild_act rfl).bind fun _ =>
    mild_act rfl))).andThen fun _ => (plain plain_operationalTimeout).andThen fun late => ?_
  refine (advances_abort hok).andThen fun _ => Advances.andThen (.forDevices fun p id =>
    .bind (plain (plain_setDeviceTargetState id _)) fun _ => stays_pure.advances) fun _ => ?_
  refine (mild (uses_updateDeviceStates (S := Mild) rfl)).andThen fun _ =>
    (mild (uses_allInOperational (S := Mild) rfl (fun _ => rfl) fun _ => rfl)).andThen fun all => ?_
  exact .when (fun _ => (advances_store fun _ => by decide).legal) fun _ _ hw => hw.lawful

theorem legal_updateService : Legal s (updateService ps hk) := by
  refine triple_refuse (keeps_mute rfl) (fun _ hw => hw.state) (fun _ hw => hw.lawful) fun hs => ?_
  have ho : s.open := ⟨fun h => hs (by simp [h]), fun h => hs (by simp [h])⟩
  have mild : ∀ {α : Type} {p : P α}, p.Uses Mild → Advances s s p := fun hp => (stays_open ho hp).advances
  have drain : drainMailboxEvents.Uses Mild := plain_drainMailboxEvents.mono fun _ ha => ha.calm.mild
  refine (mild (mild_act rfl)).andThen fun up => (mild (mild_act rfl)).andThen fun _ =>
    (mild (mild_act rfl)).andThen fun owns =>
      (mild (Prog.uses_when (Prog.uses_withLock drain))).andThen fun _ => ?_
  refine triple_branch (keeps_mute rfl) (fun _ hw => hw.state) (fun h => ?_) fun _ => ?_
  · obtain rfl : s = .activated := by simpa using h
    exact (legal_bringOperational hok).then fun _ _ => legal_pure
  · refine (mild (Prog.uses_when ((uses_updateDeviceStates (S := Mild) rfl).bind fun _ =>
      Prog.uses_when ?_))).andThen fun _ => legal_pure
    exact plain_updateDiagnosticsSlow.mono fun _ ha => ha.calm.mild

theorem legal_destroyBus : Legal s (destroyBus hk) := by
  refine Advances.andThen (.forDevices fun p _ => advances_mute rfl) fun _ => ?_
  refine Legal.then (.then (advances_shutdown hok).legal.attempt fun r s' => ?_) fun _ s' =>
    (stays_act rfl).legal
  cases r with
  | ok x => exact legal_pure
  | error e =>
    dsimp only
    split
    · exact legal_pure
    · exact .crash

theorem legal_body (o : Op) (hl : o.lifecycle = true) : Legal s (o.body ps hk) := by
  cases o
  case initializeBus => exact triple_void advances_initializeBus.legal
  case startup => exact (advances_startup hok).legal
  case activate => exact (advances_activate hok).legal
  case shutdown => exact (advances_shutdown hok).legal
  case updateService => exact triple_void (legal_updateService hok)
  case destroyBus => exact legal_destroyBus hok
  all_goals cases hl

/-- **Every operation keeps the law**, from any state of the bus. -/
theorem legal_invoke (o : Op) : Legal s (o.invoke ps hk) := by
  have done : ∀ b, wire.Keeps Lawful (.done o b) := fun b i w _ hw =>
    ⟨trivial, (hw.mute (a := .done o b) rfl i).lawful⟩
  by_cases hl : o.lifecycle = true
  · exact triple_invoke (keeps_mute (a := .call o) rfl) (legal_body hok o hl)
      (fun _ => done true) fun _ => done false
  · have hl' : o.lifecycle = false := by simpa using hl
    by_cases hc : o.changes = true
    · exact (stays_change hc).legal
    by_cases hs : s.open
    · refine (stays_open hs ?_).legal
      refine Uses.invoke (S := Mild) rfl (fun _ => rfl) ((calm_body o hl' ?_ ?_).mono fun _ => Calm.mild)
      · exact fun r => (hok.sdoReadCallback r).calm
      · exact fun r => (hok.sdoWriteCallback r).calm
    · exact (stays_body hs o hl' (by simpa using hc)).invoke.legal

end Every

/-! ## Runs -/

variable {good : UserCode → Prop}

theorem run_lawful (hr : Run ps changesAdmitted good w) : Lawful w := by
  induction hr with
  | start => exact ⟨trivial, rfl, fun ho => absurd rfl ho.1⟩
  | @call w w' o hk out _ _ hok _ he hc ih =>
    have h := (legal_invoke hok o).sound he ih
    cases out with
    | ret x => exact h
    | exn e => exact h
    | crash => exact absurd rfl hc

/-- An operation that needs an open interface and does not find one. -/
theorem stays_refused (hs : ¬s.open) {o : Op} (ho : o.refuses = true) :
    Stays s true (o.invoke ps hk) := by
  have hin := not_open hs
  by_cases hl : o.lifecycle = false
  · have hc : o.changes = false := by cases o <;> first | rfl | cases ho
    exact ho ▸ (stays_body hs o hl hc).invoke
  · refine Stays.invoke ?_
    cases o
    case startup => exact stays_require (by rcases hin with rfl | rfl <;> decide)
    case activate => exact stays_require (by rcases hin with rfl | rfl <;> decide)
    case updateService =>
      exact Stays.void (stays_refuse (by rcases hin with rfl | rfl <;> decide))
    all_goals first | exact absurd rfl hl | cases ho

/-- **Nothing is sent on a closed interface**, whatever the hooks do; on one, operations that
would send throw, and the state of a slave that is not on the bus is not requested. -/
theorem transmissions_open (hr : Run ps changesAdmitted good w) :
    Always SentOpen w.hist ∧ (¬LeftOpen (port w.hist) →
      (∀ (o : Op) (hk : UserCode) (out : Outcome Exn Unit) (w' : W), o.refuses = true →
        Exec exec changesAdmitted 0 (o.invoke ps hk) w out w' → out ≠ .crash → ∃ e, out = .exn e) ∧
      ∀ (id : DeviceId) (t : EthercatDeviceState) (b : Bool) (out : Outcome Exn Bool) (w' : W),
        OffBus id w.st → Exec exec changesAdmitted 0 (changeDeviceState id t b) w out w' →
          out = .ret false) := by
  have h := run_lawful hr
  refine ⟨h.sent, fun hn => ⟨fun o hk out w' ho he hc => ?_, fun id t b out w' ho he => ?_⟩⟩
  · have hret := Setting.Triple.sound (stays_refused (fun hs => hn (h.isOpen hs)) ho) he h
    cases out with
    | ret x => exact absurd hret.1 (by decide)
    | exn e => exact ⟨e, rfl⟩
    | crash => exact absurd rfl hc
  · exact (wp_sound he (wp_changeDeviceState h ho)).1

/-- A bus that is still closed, asked for the state of a slave. -/
def askedEarly : W :=
  (run exec 0 ((Op.changeDeviceState 5 .safeOp false).invoke {} .none) [] ⟨{}, []⟩).2.1

theorem run_askedEarly : Run {} changesAdmitted (fun _ => True) askedEarly := by
  have he : Exec exec free 0 ((Op.changeDeviceState 5 .safeOp false).invoke {} .none) ⟨{}, []⟩ (.ret ())
      askedEarly := run_exec exec 0 _ [] _
  have hg : Exec exec changesAdmitted 0 ((Op.changeDeviceState 5 .safeOp false).invoke {} .none)
      ⟨{}, []⟩ (.ret ()) askedEarly := by
    refine Exec.guarded_act (S := fun a => ∀ o, a ≠ .call o) (fun a ha i w => ?_) he
      (fun _ => .inr ⟨by decide, by decide⟩) fun _ => ?_
    · cases a
      case call o => exact absurd rfl (ha o)
      all_goals trivial
    · have hb : ((Op.changeDeviceState 5 .safeOp false).body {} .none).Uses Plain :=
        Fits.plain (Fits.void (still_changeDeviceState 5 .safeOp false))
      refine (hb.mono fun a ha o h => ?_).attempt.bind fun r => ?_
      · subst h
        cases ha
      · cases r with
        | ok x => exact uses_act fun o h => by cases h
        | error e => exact (uses_act fun o h => by cases h).bind fun _ => trivial
  have ha : (Op.changeDeviceState 5 .safeOp false).Allowed {} := rfl
  exact .call .start ha (UserCode.none_ok {}) trivial hg (by simp)

/-- Nothing was sent on it, and it refuses to start up. -/
theorem transmissions_open_early : Always SentOpen askedEarly.hist ∧
    ∀ (hk : UserCode) (out : Outcome Exn Unit) (w' : W),
      Exec exec changesAdmitted 0 (Op.startup.invoke {} hk) askedEarly out w' → out ≠ .crash →
        ∃ e, out = .exn e := by
  obtain ⟨hsent, hclosed⟩ := transmissions_open run_askedEarly
  exact ⟨hsent, fun hk out w' => (hclosed (by decide)).1 .startup hk out w' rfl⟩

/-- After `shutdown`, `change_device_state` still asks all slaves for a state. -/
theorem transmissions_closed :
    ¬∀ ps w, Run ps free UserCode.Quiet w → Always SentOpen w.hist := by
  intro h
  have hr : Run {} free UserCode.Quiet (world [initializeOne, { op := .shutdown },
      { op := .changeDeviceState 0 .safeOp false }]) :=
    run_world _ (by simp [initializeOne, UserCode.none_ok, UserCode.none_quiet])
  exact absurd (h _ _ hr) (by decide)

end EthercatInterface
