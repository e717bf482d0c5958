import EthercatInterface.Proof.Promise

/-!
# Every operation, section by section

All functions of the library are sequences of actions, of sections that are not nested,
and of a few sections that are: the four mailbox accesses, the drain of the error list
and the two updates of a device. What goes through sequencing and holds of these parts
holds of every operation, whatever code users plug in (`Sectioned.invoke`).
-/

namespace EthercatInterface

open Interleave

/-- The drain of `internal_service_update`, which yields to a mailbox access. -/
def drainUnlessBusy : P Unit :=
  (act (.tryLock .mailbox)).bind fun owns =>
    Prog.when owns (Prog.withLock [.mailbox] drainMailboxEvents)

/-- Goes through sequencing, and holds of the mailbox accesses, the cycle, the diagnostics and
of what performs nothing else that these do. -/
structure Sewn (ps : Parameters) (F : ∀ {α : Type}, P α → Prop) : Prop where
  bind : ∀ {α β : Type} {p : P β} {f : β → P α}, F p → (∀ x, F (f x)) → F (p.bind f)
  attempt : ∀ {α : Type} {p : P α}, F p → F p.attempt
  flat : ∀ {α : Type} {p : P α}, p.Fits Spare AnyLock → F p
  drainUnlessBusy : F drainUnlessBusy
  diagnostics : ∀ f, F (diagnostics ps f)
  updateDiagnosticsSlow : F updateDiagnosticsSlow
  updateRt : F (updateRt ps)
  readSdoUntyped : ∀ n id i s c, F (readSdoUntyped n id i s c)
  writeSdoUntyped : ∀ data id i s, F (writeSdoUntyped data id i s)
  foeWrite : ∀ id f data, F (foeWrite id f data)
  foeRead : ∀ id f n, F (foeRead id f n)

theorem Fits.unboxed {V : List Mutex → Prop} {α : Type} {p : P α} (h : p.Fits Still V) :
    p.Fits Unboxed AnyLock :=
  h.mono (fun _ => Still.unboxed) fun _ _ => trivial

theorem Fits.spare {V : List Mutex → Prop} {α : Type} {p : P α} (h : p.Fits Modest V) :
    p.Fits Spare AnyLock :=
  h.mono (fun _ => Modest.spare) fun _ _ => trivial

theorem spare_act {V : List Mutex → Prop} {a : Act} (h : (a.boxes || a.cycles) = false) :
    (act a).Fits Spare V :=
  Prog.fits_perform h

theorem spare_updateDeviceStates : updateDeviceStates.Fits Spare AnyLock :=
  Prog.fits_withLock trivial ((spare_act rfl).bind fun _ => trivial)

section Sewn

variable {F : ∀ {α : Type}, P α → Prop} {ps : Parameters} {hk : UserCode} (hF : Sewn ps F)
include hF

theorem Sewn.modest {α : Type} {p : P α} (h : p.Fits Modest AnyLock) : F p := hF.flat (Fits.spare h)

theorem Sewn.woven : Woven ps F :=
  ⟨hF.bind, hF.attempt, hF.modest, hF.diagnostics, hF.readSdoUntyped, hF.writeSdoUntyped,
    hF.foeWrite, hF.foeRead⟩

theorem Sewn.act {a : Act} (ha : (a.boxes || a.cycles) = false) : F (act a) :=
  hF.flat (Prog.fits_perform ha)

theorem Sewn.when {b : Bool} {p : P Unit} (hp : F p) : F (Prog.when b p) := by
  cases b
  · exact hF.flat trivial
  · exact hp

theorem Sewn.raiseIf {b : Bool} {e : Exn} : F (Prog.raiseIf b e : P Unit) :=
  hF.flat Prog.fits_raiseIf

theorem Sewn.foldEach {β γ : Type} {f : γ → β → P γ} (hf : ∀ s x, F (f s x)) :
    ∀ (l : List β) (s : γ), F (Prog.foldEach l f s) := by
  intro l
  induction l with
  | nil => exact fun _ => hF.flat trivial
  | cons x l ih => exact fun s => hF.bind (hf s x) ih

theorem Sewn.forDevices {l : Loop} {body : Addr → DeviceId → P Unit}
    (hb : ∀ p id, F (body p id)) : F (forDevices l body) := by
  refine hF.bind (hF.act rfl) fun devices => hF.foldEach (fun _ p => ?_) devices ()
  refine hF.bind (hF.act rfl) fun r => ?_
  cases r with
  | none => exact hF.flat trivial
  | some id => exact hb p id

theorem Sewn.transfers {o : Op} (ho : o.transfers = true) : F (o.invoke ps hk) := by
  have meek : ∀ a, Meek a → Spare a := fun _ h => h.modest.spare
  refine hF.woven.invoke (hF.act rfl) (fun _ => hF.act rfl) ?_
  cases o
  case readRxPdo id =>
    exact hF.flat (Fits.void (fits_readRxPdo (V := AnyLock) meek trivial id fun _ => rfl))
  case writeRxPdo id data =>
    exact hF.flat (fits_writeRxPdo (V := AnyLock) meek trivial id data rfl)
  case readTxPdo id n =>
    exact hF.flat (Fits.void (fits_readTxPdo (V := AnyLock) meek trivial id n fun _ => rfl))
  case updateRt => exact hF.woven.void hF.updateRt
  case setGenericRxPdo p rx => exact hF.flat (fits_setGenericRxPdo meek trivial rfl)
  all_goals cases ho

theorem Sewn.user {p : P Unit} (h : User ps p) : F p :=
  hF.woven.user (fun _ _ => ⟨hF.act rfl, fun _ => hF.act rfl⟩)
    (fun _ _ ho => hF.transfers ho) h

theorem Sewn.allInOperational : F allInOperational := by
  refine hF.bind (hF.act rfl) fun devices => hF.foldEach (fun all p => ?_) devices true
  refine hF.bind (hF.act rfl) fun r => ?_
  cases r with
  | none => exact hF.flat trivial
  | some id =>
    refine hF.bind (p := getDeviceState id) ?_ fun _ => hF.flat trivial
    exact hF.flat (Prog.fits_withLock trivial ((spare_act rfl).bind fun _ => trivial))

/-! ## Lifecycle -/

variable (hok : hk.Ok ps)

include hok

theorem Sewn.callbacks (h : Hook) :
    F (EthercatInterface.forDevices (.callback h) fun p _ => onCallback hk h p) :=
  hF.forDevices fun p _ => hF.bind (hF.act rfl) fun _ => hF.user (hok.hook h p)

theorem Sewn.shutdown : F (shutdown hk) := by
  have stateIn : ∀ l, F (stateIn l) := fun l => hF.modest (modest_stateIn l)
  refine hF.bind (stateIn _) fun b => ?_
  split
  · exact hF.flat trivial
  refine hF.bind (stateIn _) fun b => ?_
  split
  · exact hF.act rfl
  refine hF.bind (stateIn _) fun b => ?_
  split
  · exact hF.flat (Prog.fits_withLock trivial ((spare_act rfl).bind fun _ =>
      (spare_act rfl).bind fun _ => spare_act rfl))
  refine hF.bind (stateIn _) fun b => ?_
  split
  · refine hF.bind (hF.act rfl) fun _ => hF.bind (hF.callbacks hok .onPreShutdown) fun _ => ?_
    refine hF.bind (hF.modest (modest_setDeviceTargetState _ _)) fun _ =>
      hF.bind (hF.modest (modest_waitForDeviceTargetState _ _)) fun _ => hF.bind (p := closeRunning)
        ?_ fun _ => hF.bind (hF.callbacks hok .onPostShutdown) fun _ => hF.act rfl
    exact hF.flat (Prog.fits_withLock trivial ((spare_act rfl).bind fun _ =>
      spare_act rfl))
  · exact hF.flat trivial

/-- What ends an operation that went wrong: `shutdown`, then a throw. -/
theorem Sewn.abort {b : Bool} {e : Exn} :
    F (Prog.when b do EthercatInterface.shutdown hk; Prog.throw e) :=
  hF.when (hF.bind (hF.shutdown hok) fun _ => hF.flat trivial)

theorem Sewn.startup : F (startup ps hk) := by
  refine hF.bind (hF.modest (modest_stateIn _)) fun _ => hF.bind hF.raiseIf fun _ => ?_
  refine hF.bind (p := mapPdos ps hk) ?_ fun size => hF.bind (hF.abort hok) fun _ => ?_
  · exact hF.bind (hF.callbacks hok .onStartup) fun _ => hF.bind (hF.act rfl) fun _ =>
      hF.bind (hF.act rfl) fun _ => hF.act rfl
  refine hF.bind (hF.act rfl) fun dc => hF.bind (hF.abort hok) fun _ => ?_
  refine hF.bind (p := setupDc ps) ?_ fun _ => hF.bind (hF.act rfl) fun _ =>
    hF.forDevices fun p id => ?_
  · refine hF.bind (hF.modest (Fits.modest meek_slaveIds)) fun ids => hF.bind (hF.foldEach (fun _ id => ?_) ids ())
      fun _ => hF.when (hF.bind (hF.modest (Fits.modest meek_slaveIds)) fun ids => hF.foldEach (fun _ id => ?_) ids ())
    · exact hF.bind (hF.act rfl) fun _ => hF.flat (fits_crashUnless _)
    · exact hF.bind (hF.act rfl) fun _ => hF.when (hF.act rfl)
  · refine hF.bind (hF.act rfl) fun _ => hF.bind (hF.act rfl) fun _ => hF.bind (hF.act rfl) fun _ => ?_
    refine hF.bind (hF.act rfl) fun _ => hF.bind (hF.act rfl) fun _ => hF.bind (hF.act rfl) fun _ => ?_
    refine hF.bind (hF.act rfl) fun _ => hF.bind (hF.act rfl) fun _ => hF.bind (hF.act rfl) fun _ => ?_
    exact hF.bind (hF.act rfl) fun _ => hF.user (hok.hook .onPdoConfigured p)

theorem Sewn.activate : F (activate hk) := by
  refine hF.bind (hF.modest (modest_stateIn _)) fun _ => hF.bind hF.raiseIf fun _ => ?_
  refine hF.bind (hF.callbacks hok .onPreActivate) fun _ => hF.bind (hF.act rfl) fun _ => ?_
  refine hF.bind (hF.forDevices fun p id => hF.bind (hF.modest (modest_setDeviceTargetState id _))
    fun _ => hF.abort hok) fun _ => ?_
  refine hF.bind (hF.forDevices fun p id => hF.bind (hF.modest (modest_waitForDeviceTargetState id _))
    fun _ => hF.abort hok) fun _ => ?_
  exact hF.bind (hF.act rfl) fun _ => hF.callbacks hok .onPostActivate

theorem Sewn.bringOperational : F (bringOperational ps hk) := by
  refine hF.bind (hF.act rfl) fun start => hF.bind (hF.when (hF.bind (hF.act rfl) fun _ =>
    hF.act rfl)) fun _ => ?_
  refine hF.bind (hF.flat (fits_operationalTimeout (S := Spare) rfl rfl)) fun late =>
    hF.bind (hF.abort hok) fun _ => ?_
  refine hF.bind (hF.forDevices fun _ id => hF.bind (hF.modest (modest_setDeviceTargetState id _))
    fun _ => hF.flat trivial) fun _ => hF.bind (hF.flat spare_updateDeviceStates) fun _ => ?_
  exact hF.bind (hF.allInOperational) fun _ => hF.when (hF.act rfl)

theorem Sewn.updateService : F (updateService ps hk) := by
  refine hF.bind (hF.modest (modest_stateIn _)) fun _ => hF.bind hF.raiseIf fun _ => ?_
  refine hF.bind (hF.act rfl) fun up => hF.bind (hF.act rfl) fun _ => ?_
  refine hF.bind (p := EthercatInterface.drainUnlessBusy) hF.drainUnlessBusy fun _ =>
    hF.bind (hF.modest (modest_stateIn _)) fun b => ?_
  split
  · exact hF.bind (hF.bringOperational hok) fun _ => hF.flat trivial
  · refine hF.bind (p := backgroundDiagnostics ps) (hF.when (hF.bind
      (hF.flat spare_updateDeviceStates) fun _ => hF.when ?_)) fun _ => hF.flat trivial
    exact hF.updateDiagnosticsSlow

/-- **Every operation**, with whatever code users plug in. -/
theorem Sewn.invoke (o : Op) : F (o.invoke ps hk) := by
  by_cases ht : o.transfers = true
  · exact hF.transfers ht
  refine hF.woven.invoke (hF.act rfl) (fun _ => hF.act rfl) ?_
  by_cases hl : o.lifecycle = false
  · exact hF.woven.body o hl (by simpa using ht) (fun r => hF.user (hok.sdoReadCallback r))
      fun r => hF.user (hok.sdoWriteCallback r)
  cases o
  case initializeBus =>
    refine hF.woven.void (hF.bind (hF.modest (modest_stateIn _)) fun _ => hF.bind hF.raiseIf fun _ => ?_)
    refine hF.bind (hF.act rfl) fun _ => hF.bind hF.raiseIf fun _ => hF.bind (hF.act rfl) fun n => ?_
    refine hF.bind hF.raiseIf fun _ => hF.bind (hF.act rfl) fun _ =>
      hF.bind (hF.modest (Fits.modest meek_slaveIds)) fun ids =>
        hF.bind (hF.foldEach (fun _ id => ?_) ids ()) fun _ => ?_
    · exact hF.bind (hF.act rfl) fun _ => hF.flat (fits_crashUnless _)
    refine hF.bind (hF.act rfl) fun _ => hF.bind (hF.act rfl) fun _ => hF.bind (hF.act rfl) fun _ => ?_
    refine hF.bind (hF.foldEach (fun _ id => ?_) _ ()) fun _ => hF.flat trivial
    exact hF.bind (hF.modest (Fits.modest (meek_scanDevice id))) fun _ => hF.act rfl
  case startup => exact hF.startup hok
  case activate => exact hF.activate hok
  case shutdown => exact hF.shutdown hok
  case updateService => exact hF.woven.void (hF.updateService hok)
  case destroyBus =>
    refine hF.bind (hF.forDevices fun p _ => hF.act rfl) fun _ => hF.bind ?_ fun _ => hF.act rfl
    refine hF.bind (hF.attempt (hF.shutdown hok)) fun r => ?_
    cases r with
    | ok x => exact hF.flat trivial
    | error e =>
      -- the destructor swallows a standard exception; any other one ends the process
      dsimp only
      split
      · exact hF.flat trivial
      · exact hF.flat trivial
  all_goals exact absurd rfl hl

end Sewn

/-! ## Invariants of a single thread -/

/-- From any world with `J`, the program ends in one, unless it dies, in one with `C`. -/
def Maintains (ok : Guard Act Ans Env St) (J C : W → Prop) {α : Type} (p : P α) : Prop :=
  ∀ w, J w → wp exec ok free 0 p (fun o w' => o.Leaves J C w') w

theorem acyclic_drainUnlessBusy : drainUnlessBusy.Uses fun a => a.cycles = false := by
  refine Prog.Uses.bind (uses_act rfl) fun _ => Prog.uses_when (Prog.uses_withLock ?_)
  exact mailing_drainMailboxEvents.uses.mono fun _ => Mailing.acyclic

theorem acyclic_updateWrite (p : Addr) (tp : ℤ) : (updateWrite p tp).Uses fun a => a.cycles = false := by
  obtain ⟨body, hu, hb⟩ := updateWrite_section (V := AnyLock) (S := fun a => a.cycles = false)
    (fun _ h => h.spare.acyclic) trivial p tp fun _ _ => rfl
  rw [hu]
  exact Prog.uses_withLock hb.uses

theorem acyclic_updateRead (p : Addr) (tp : ℤ) : (updateRead p tp).Uses fun a => a.cycles = false := by
  obtain ⟨body, hu, hb⟩ := updateRead_section (V := AnyLock) (S := fun a => a.cycles = false)
    (fun _ h => h.spare.acyclic) trivial p tp (fun _ _ => rfl) fun _ => rfl
  rw [hu]
  exact Prog.uses_withLock hb.uses

section Maintains

variable {ok : Guard Act Ans Env St} {J C : W → Prop} {α β : Type} {ps : Parameters} {hk : UserCode}

theorem Maintains.bind {p : P β} {f : β → P α} (hp : Maintains ok J C p)
    (hf : ∀ x, Maintains ok J C (f x)) : Maintains ok J C (p.bind f) := fun w hw =>
  wp_bind (wp_mono (hp w hw) fun o w' hw' => by
    cases o with
    | ret x => exact hf x w' hw'
    | exn e => exact hw'
    | crash => exact hw')

theorem Maintains.attempt {p : P α} (hp : Maintains ok J C p) : Maintains ok J C p.attempt :=
  fun w hw => wp_attempt (wp_mono (hp w hw) fun o w' hw' => by cases o <;> exact hw')

theorem Maintains.withLock {m : List Mutex} {p : P α} (hp : Maintains ok J C p) :
    Maintains ok J C (Prog.withLock m p) := fun w hw => wp_withLock (hp w hw)

theorem Maintains.when {b : Bool} {p : P Unit} (hp : Maintains ok J C p) :
    Maintains ok J C (Prog.when b p) := fun w hw => wp_when (fun _ => hp w hw) fun _ => hw

theorem maintains_pure {x : α} : Maintains ok J C (.pure x : P α) := fun _ hw => hw

/-- What all operations keep, holds between any two of a run. -/
theorem Run.maintained {good : UserCode → Prop} (h0 : J ⟨{}, []⟩)
    (hJ : ∀ (o : Op) hk, hk.Ok ps → good hk → Maintains ok J C (o.invoke ps hk)) {w : W}
    (hr : Run ps ok good w) : J w := by
  induction hr with
  | start => exact h0
  | @call w w' o hk out _ _ hok hg he hc ih =>
    have h := wp_sound he (hJ o hk hok hg w ih)
    cases out with
    | ret x => exact h
    | exn e => exact h
    | crash => exact absurd rfl hc

variable (hC : ∀ w, J w → C w)
include hC

theorem maintains_uses {S : Act → Prop} (hJ : ∀ a, S a → ∀ i w, ok 0 a i w → J w → J (w.after exec 0 a i))
    {p : P α} (hp : p.Uses S) : Maintains ok J C p := fun _ hw => by
  refine wp_mono (wp_uses (fun a ha i w hi hw => ⟨trivial, hJ a ha i w hi hw⟩) hp hw) fun o w' hw' => ?_
  cases o with
  | ret x => exact hw'
  | exn e => exact hw'
  | crash => exact hC w' hw'

section Cycle

variable (hJ : ∀ a, a.cycles = false → ∀ i w, ok 0 a i w → J w → J (w.after exec 0 a i))
include hJ

theorem maintains_acyclic {p : P α} (hp : p.Uses fun a => a.cycles = false) : Maintains ok J C p :=
  maintains_uses hC hJ hp

theorem maintains_modest {p : P α} (hp : p.Fits Modest AnyLock) : Maintains ok J C p :=
  maintains_acyclic hC hJ (hp.uses.mono fun _ h => h.spare.acyclic)

/-- **What every action keeps but those of the cycle**, the operations keep as soon as the cycle
and the diagnostics do. -/
theorem sewn_maintains (hd : ∀ f, Maintains ok J C (diagnostics ps f))
    (hs : Maintains ok J C updateDiagnosticsSlow) (hu : Maintains ok J C (updateRt ps)) :
    Sewn ps fun p => Maintains ok J C p := by
  have mailbox : ∀ {α : Type} {p : P α}, AccessSection p → Maintains ok J C p := fun hp => by
    obtain ⟨body, rfl, hb⟩ := hp.mailbox
    exact maintains_acyclic hC hJ (Prog.uses_withLock (hb.uses.mono fun _ => Mailing.acyclic))
  exact {
    bind := Maintains.bind
    attempt := Maintains.attempt
    flat := fun hp => maintains_acyclic hC hJ (hp.uses.mono fun _ => Spare.acyclic)
    drainUnlessBusy := maintains_acyclic hC hJ acyclic_drainUnlessBusy
    diagnostics := hd
    updateDiagnosticsSlow := hs
    updateRt := hu
    readSdoUntyped := fun n id i s c => mailbox (access_readSdoUntyped n id i s c)
    writeSdoUntyped := fun data id i s => mailbox (access_writeSdoUntyped data id i s)
    foeWrite := fun id f data => mailbox (access_foeWrite id f data)
    foeRead := fun id f n => mailbox (access_foeRead id f n) }

theorem maintains_loop {l : Loop} {f : Addr → P Unit} (hf : ∀ p, (f p).Uses fun a => a.cycles = false) :
    Maintains ok J C (forDevices l fun p _ => f p) :=
  maintains_acyclic hC hJ (Uses.forDevices rfl (fun _ => rfl) fun p _ => hf p)

/-- The cycle keeps what its exchange and its report keep. -/
theorem maintains_updateRt (hx : Maintains ok J C (exchange ps))
    (hf : ∀ wkc e, Maintains ok J C (updateDiagnosticsFast ps wkc e)) : Maintains ok J C (updateRt ps) := by
  refine (maintains_modest hC hJ (modest_stateIn _)).bind fun _ =>
    (maintains_modest hC hJ Prog.fits_raiseIf).bind fun _ => (maintains_modest hC hJ (modest_act rfl)).bind
      fun now => ?_
  refine .bind (maintains_loop hC hJ fun p => acyclic_updateWrite p now) fun _ => hx.bind fun cycle =>
    .bind (maintains_loop hC hJ fun p => acyclic_updateRead p now) fun _ => ?_
  exact (hf _ _).when.bind fun _ => maintains_pure

/-- So do the diagnostics that are forced. -/
theorem maintains_diagnostics (hf : Maintains ok J C (updateDiagnosticsFast ps 0 0))
    (hs : Maintains ok J C updateDiagnosticsSlow) (f : Bool) :
    Maintains ok J C (diagnostics ps f) := by
  have modest : ∀ {α : Type} {p : P α}, p.Fits Modest AnyLock → Maintains ok J C p :=
    maintains_modest hC hJ
  refine (modest (modest_stateIn _)).bind fun _ => (modest Prog.fits_raiseIf).bind fun _ =>
    (modest (Prog.fits_when ((modest_stateIn _).bind fun _ => Prog.fits_raiseIf))).bind fun _ => ?_
  refine Maintains.bind (p := takeSnapshot ps f) ?_ fun _ =>
    (modest (Prog.fits_withLock trivial (modest_act rfl))).bind fun _ => maintains_pure
  unfold takeSnapshot
  split
  · exact hf.bind fun _ => hs.bind fun _ => modest (modest_act rfl)
  · exact modest (Prog.fits_withLock trivial (modest_act rfl))

/-- **So does every operation.** -/
theorem maintains_invoke (hx : Maintains ok J C (exchange ps))
    (hf : ∀ wkc e, Maintains ok J C (updateDiagnosticsFast ps wkc e))
    (hs : Maintains ok J C updateDiagnosticsSlow) (hok : hk.Ok ps) (o : Op) :
    Maintains ok J C (o.invoke ps hk) :=
  (sewn_maintains hC hJ (maintains_diagnostics hC hJ (hf 0 0) hs) hs (maintains_updateRt hC hJ hx hf)).invoke
    hok o

end Cycle

end Maintains

/-! ## Sections -/

/-- Goes through sequencing, and holds of each part that operations are made of. -/
structure Sectioned (F : ∀ {α : Type}, P α → Prop) : Prop where
  bind : ∀ {α β : Type} {p : P β} {f : β → P α}, F p → (∀ x, F (f x)) → F (p.bind f)
  attempt : ∀ {α : Type} {p : P α}, F p → F p.attempt
  flat : ∀ {α : Type} {p : P α}, p.Fits Unboxed AnyLock → F p
  drainUnlessBusy : F drainUnlessBusy
  readSdoUntyped : ∀ n id i s c, F (readSdoUntyped n id i s c)
  writeSdoUntyped : ∀ data id i s, F (writeSdoUntyped data id i s)
  foeWrite : ∀ id f data, F (foeWrite id f data)
  foeRead : ∀ id f n, F (foeRead id f n)
  updateWrite : ∀ p tp, F (updateWrite p tp)
  updateRead : ∀ p tp, F (updateRead p tp)

section Sectioned

variable {F : ∀ {α : Type}, P α → Prop} {ps : Parameters} {hk : UserCode} (hF : Sectioned F)
include hF

theorem Sectioned.boxed : Boxed F :=
  ⟨hF.bind, hF.attempt, fun h => hF.flat (Fits.unboxed h), hF.readSdoUntyped, hF.writeSdoUntyped,
    hF.foeWrite, hF.foeRead⟩

theorem Sectioned.act {a : Act} (ha : a.boxes = false) : F (act a) :=
  hF.flat (Prog.fits_perform ha)

theorem Sectioned.still {α : Type} {p : P α} (h : p.Fits Still AnyLock) : F p :=
  hF.boxed.still h

theorem Sectioned.when {b : Bool} {p : P Unit} (hp : F p) : F (Prog.when b p) := by
  cases b
  · exact hF.flat trivial
  · exact hp

theorem Sectioned.raiseIf {b : Bool} {e : Exn} : F (Prog.raiseIf b e : P Unit) :=
  hF.flat Prog.fits_raiseIf

theorem Sectioned.foldEach {β γ : Type} {f : γ → β → P γ} (hf : ∀ s x, F (f s x)) :
    ∀ (l : List β) (s : γ), F (Prog.foldEach l f s) := by
  intro l
  induction l with
  | nil => exact fun _ => hF.flat trivial
  | cons x l ih => exact fun s => hF.bind (hf s x) ih

theorem Sectioned.forDevices {l : Loop} {body : Addr → DeviceId → P Unit}
    (hb : ∀ p id, F (body p id)) : F (forDevices l body) := by
  refine hF.bind (hF.act rfl) fun devices => hF.foldEach (fun _ p => ?_) devices ()
  refine hF.bind (hF.act rfl) fun r => ?_
  cases r with
  | none => exact hF.flat trivial
  | some id => exact hb p id

theorem Sectioned.updateRt : F (updateRt ps) := by
  refine hF.bind (hF.still (still_stateIn _)) fun _ => hF.bind hF.raiseIf fun _ => ?_
  refine hF.bind (hF.act rfl) fun now => hF.bind (hF.forDevices fun p _ => hF.updateWrite p now)
    fun _ => ?_
  refine hF.bind (hF.flat (fits_exchange (fun _ h => h.still.unboxed) trivial fun a ha => by
      cases a <;> first | rfl | cases ha))
    fun _ => hF.bind (hF.forDevices fun p _ => hF.updateRead p now) fun _ => ?_
  exact hF.bind (hF.when (hF.still (still_updateDiagnosticsFast _ _))) fun _ => hF.flat trivial

theorem Sectioned.sewn : Sewn ps F where
  bind := hF.bind
  attempt := hF.attempt
  flat h := hF.flat (h.mono (fun _ => Spare.unboxed) fun _ h => h)
  drainUnlessBusy := hF.drainUnlessBusy
  diagnostics f := hF.still (still_diagnostics f)
  updateDiagnosticsSlow := hF.still still_updateDiagnosticsSlow
  updateRt := hF.updateRt
  readSdoUntyped := hF.readSdoUntyped
  writeSdoUntyped := hF.writeSdoUntyped
  foeWrite := hF.foeWrite
  foeRead := hF.foeRead

/-- **Every operation**, section by section. -/
theorem Sectioned.invoke (hok : hk.Ok ps) (o : Op) : F (o.invoke ps hk) := hF.sewn.invoke hok o

end Sectioned

/-- Any operation, by any thread, with any code of users. -/
def anyCall (ps : Parameters) (_ : ℕ) (p : P Unit) : Prop :=
  ∃ (o : Op) (hk : UserCode), hk.Ok ps ∧ p = o.invoke ps hk

end EthercatInterface
