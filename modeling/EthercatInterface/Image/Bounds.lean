import EthercatInterface.Lifecycle.Run
import EthercatInterface.Proof.Members
import EthercatInterface.Proof.Promise

/-!
# Copies stay inside the process image

`copies_inBounds`: the accessors of the process data and the cyclic copies touch no
byte outside `io_map_`, in every single-threaded run in which **no mapping was larger
than the buffer**. `startup` publishes the regions before it compares the sizes, and
the accessors are not guarded against the state it leaves when they do not fit.

* `bounded`: a copy follows the reading of the size it copies, a mapping follows the
  sizing of the buffer. Every operation keeps this promise, hooks included.
* `ImageInv`: what an action whose promise holds keeps of the image.
-/

namespace EthercatInterface

open Interleave

/-! ## The property -/

/-- The bytes of `io_map_` that a copy touches. -/
def spanOf : (a : Act) → Ans a → Option Span
  | .copyToOutputs _ _, sp => some sp
  | .copyFromOutputs _ _, r => some r.1
  | .copyFromInputs _ _, r => some r.1
  | _, _ => none

/-- No byte outside a buffer that `startup` made of `n` bytes. -/
def Span.Inside (n : ℕ) (sp : Span) : Prop :=
  sp.size = 0 ∨ (sp.offset + sp.size ≤ sp.mapSize ∧ sp.mapSize = n)

instance (n : ℕ) : DecidablePred (Span.Inside n) := fun sp =>
  inferInstanceAs (Decidable (sp.size = 0 ∨ _))

/-- Every copy performed so far stayed inside the process image. -/
def InBounds (ps : Parameters) (h : List Ev) : Prop :=
  ∀ e ∈ h, ∀ sp ∈ spanOf e.act e.ans, sp.Inside ps.pdoBufferSize

instance (ps : Parameters) (h : List Ev) : Decidable (InBounds ps h) :=
  inferInstanceAs (Decidable (∀ e ∈ h, ∀ sp ∈ spanOf e.act e.ans, sp.Inside ps.pdoBufferSize))

def mappedSize : (a : Act) → Ans a → Option ℤ
  | .ecxConfigMapGroup, n => some n
  | _, _ => none

/-- The sizes `ecx_config_map_group` has returned. -/
def mappedSizes (h : List Ev) : List ℤ := h.filterMap fun e => mappedSize e.act e.ans

/-- SOEM places the process data of every slave inside the size it returns. -/
def Env.Maps (i : Env) : Prop := ∀ id,
  ((i.slaves id).Obytes = 0 ∨ ((i.slaves id).outputs + (i.slaves id).Obytes : ℤ) ≤ i.ret) ∧
    ((i.slaves id).Ibytes = 0 ∨ ((i.slaves id).inputs + (i.slaves id).Ibytes : ℤ) ≤ i.ret)

/-- The behaviour assumed of SOEM. -/
def soemMaps : Guard Act Ans Env St := fun _ a i _ => a = .ecxConfigMapGroup → i.Maps

/-! ## The promise -/

/-- When a copy, a mapping or a resizing of the buffer may be performed. -/
def bounded (ps : Parameters) : Act → List Ev → Prop
  | .copyToOutputs id data, h => ∃ t h', h = ⟨t, .obytes id, data.length⟩ :: h'
  | .copyFromOutputs id n, h => ∃ t h', h = ⟨t, .obytes id, n⟩ :: h'
  | .copyFromInputs id n, h => ∃ t h', h = ⟨t, .ibytes id, n⟩ :: h'
  | .ecxConfigMapGroup, h => ∃ t h', h = ⟨t, .resizeIoMap ps.pdoBufferSize, ()⟩ :: h'
  | .resizeIoMap n, _ => n = ps.pdoBufferSize
  | _, _ => True

variable {ps : Parameters} {hk : UserCode} {t : ℕ}

theorem bounded_plain (a : Act) (ha : Plain a) (h : List Ev) : bounded ps a h := by
  cases a <;> first | exact trivial | exact absurd ha Bool.noConfusion

/-- A part of a program that the promise does not bind. -/
theorem bounded_uses {α : Type} {p : P α} (hp : p.Uses Plain) : Honours (bounded ps) t p :=
  honours_plain bounded_plain hp

/-- Actions of the lifecycle that the promise does not bind. -/
def Loose (a : Act) : Prop := ∀ ps h, bounded ps a h

theorem bounded_loose {α : Type} {p : P α} (hp : p.Uses Loose) : Honours (bounded ps) t p :=
  .uses (fun _ ha => ha ps) hp

/-! ## The accessors keep it -/

theorem bounded_readRxPdo (id : DeviceId) : Honours (bounded ps) t (readRxPdo id) := by
  refine (bounded_uses (plain_checkPdoAccess id)).bind fun _ h => ?_
  refine .bind (.perform trivial fun n => .withLock ?_)
  exact .bind (.perform ⟨t, h, rfl⟩ fun _ => trivial)

theorem bounded_writeRxPdo (id : DeviceId) (data : List UInt8) :
    Honours (bounded ps) t (writeRxPdo id data) := by
  refine (bounded_uses (plain_checkPdoAccess id)).bind fun _ h => ?_
  refine .bind (.perform trivial fun n => .bind (.raiseIf (fun _ => trivial) fun hn => .withLock ?_))
  have hn : data.length = n := by simpa using hn
  exact .bind (.perform ⟨t, h, by rw [hn]⟩ fun _ => trivial)

theorem bounded_readTxPdo (id : DeviceId) (n : ℕ) : Honours (bounded ps) t (readTxPdo id n) := by
  refine (bounded_uses (plain_checkPdoAccess id)).bind fun _ h => ?_
  refine .bind (.perform trivial fun n => .bind (.raiseIf (fun _ => trivial) fun _ => .withLock ?_))
  exact .bind (.perform ⟨t, h, rfl⟩ fun _ => trivial)

theorem bounded_updateWrite (p : Addr) (tp : ℤ) : Honours (bounded ps) t (updateWrite p tp) := by
  refine .withLock ((honours_act fun _ => trivial).bind fun _ => honours_crashUnless.bind fun _ => ?_)
  refine (honours_act fun _ => trivial).bind fun id => (honours_act fun _ => trivial).bind fun rx => ?_
  exact (bounded_writeRxPdo id rx).bind fun _ => honours_act fun _ => trivial

theorem bounded_updateRead (p : Addr) (tp : ℤ) : Honours (bounded ps) t (updateRead p tp) := by
  refine .withLock ((honours_act fun _ => trivial).bind fun _ => honours_crashUnless.bind fun _ => ?_)
  refine (honours_act fun _ => trivial).bind fun id => (honours_act fun _ => trivial).bind fun n => ?_
  refine (bounded_readTxPdo id n).bind fun _ => (honours_act fun _ => trivial).bind fun _ => ?_
  exact honours_act fun _ => trivial

theorem bounded_updateRt : Honours (bounded ps) t (updateRt ps) := by
  refine (bounded_uses (plain_stateIn _)).bind fun _ => Honours.raiseIf.bind fun _ => ?_
  refine (honours_act fun _ => trivial).bind fun now => ?_
  refine (Honours.forDevices (fun _ => trivial) (fun _ _ => trivial)
    fun p _ => bounded_updateWrite p now).bind fun _ => ?_
  refine Honours.bind (p := exchange ps) ?_ fun _ => ?_
  · refine .withLock ((honours_act fun _ => trivial).bind fun _ => (honours_act fun _ =>
      trivial).bind fun _ => (honours_act fun _ => trivial).bind fun _ => ?_)
    exact (bounded_uses plain_dcCorrection).bind fun _ => honours_pure
  refine (Honours.forDevices (fun _ => trivial) (fun _ _ => trivial)
    fun p _ => bounded_updateRead p now).bind fun _ => ?_
  exact (Honours.when (bounded_uses (plain_updateDiagnosticsFast _ _))).bind fun _ => honours_pure

theorem bounded_transfers {o : Op} (h : o.transfers = true) :
    Honours (bounded ps) t (o.body ps hk) := by
  cases o
  case readRxPdo id => exact Honours.void (bounded_readRxPdo id)
  case writeRxPdo id data => exact bounded_writeRxPdo id data
  case readTxPdo id n => exact Honours.void (bounded_readTxPdo id n)
  case updateRt => exact Honours.void bounded_updateRt
  case setGenericRxPdo p rx =>
    exact .uses (S := fun a => ∀ h, bounded ps a h) (fun _ ha => ha) (fits_setGenericRxPdo
      (V := AnyLock) (fun a ha => bounded_plain a ha.modest.still.plain) trivial fun _ => trivial).uses
  all_goals cases h

theorem bounded_user {p : P Unit} (h : User ps p) : Honours (bounded ps) t p :=
  h.honours bounded_plain (fun _ _ _ => ⟨trivial, fun _ => trivial⟩) fun _ _ ho =>
    Honours.invoke (fun _ => trivial) (fun _ _ => trivial) (bounded_transfers ho)

/-! ## The lifecycle keeps it -/

section Lifecycle

variable (hok : hk.Ok ps)
include hok

theorem bounded_callbacks (h : Hook) :
    Honours (bounded ps) t (forDevices (.callback h) fun p _ => onCallback hk h p) :=
  honours_callbacks (fun _ => trivial) (fun _ _ => trivial) (fun _ _ => trivial)
    fun p => bounded_user (hok.hook h p)

theorem bounded_teardown : Honours (bounded ps) t (teardown hk) := by
  refine .bind (honours_act fun _ => trivial) fun _ => .bind (bounded_callbacks hok _) fun _ => ?_
  refine .bind (bounded_uses (plain_setDeviceTargetState _ _)) fun _ =>
    .bind (bounded_uses (plain_waitForDeviceTargetState _ _)) fun _ => .bind (p := closeRunning) ?_
      fun _ => .bind (bounded_callbacks hok _) fun _ => ?_
  · exact .withLock (.bind (honours_act fun _ => trivial) fun _ => honours_act fun _ => trivial)
  · exact honours_act fun _ => trivial

theorem bounded_shutdown : Honours (bounded ps) t (shutdown hk) := by
  refine .bind (bounded_uses (plain_stateIn _)) fun b => ?_
  split
  · exact honours_pure
  refine .bind (bounded_uses (plain_stateIn _)) fun b => ?_
  split
  · exact honours_act fun _ => trivial
  refine .bind (bounded_uses (plain_stateIn _)) fun b => ?_
  split
  · exact .withLock (.bind (honours_act fun _ => trivial) fun _ =>
      .bind (honours_act fun _ => trivial) fun _ => honours_act fun _ => trivial)
  refine .bind (bounded_uses (plain_stateIn _)) fun b => ?_
  split
  · exact bounded_teardown hok
  · exact honours_throw

theorem bounded_abort {b : Bool} {e : Exn} :
    Honours (bounded ps) t (Prog.when b (shutdown hk >>= fun _ => Prog.throw e)) :=
  .when (.bind (bounded_shutdown hok) fun _ => honours_throw)

/-- `startup` sizes the buffer right before the mapping. -/
theorem bounded_mapPdos : Honours (bounded ps) t (mapPdos ps hk) := by
  refine .bind (bounded_callbacks hok _) fun _ => .bind (honours_act fun _ => trivial) fun _ h => ?_
  exact .bind (.perform rfl fun _ => .perform ⟨t, h, rfl⟩ fun _ => trivial)

theorem bounded_onPdoConfigured (p : Addr) (n m : ℕ) :
    Honours (bounded ps) t (onPdoConfigured hk p n m) := by
  refine .bind (honours_act fun _ => trivial) fun _ => .bind (honours_act fun _ => trivial) fun _ => ?_
  refine .bind (honours_act fun _ => trivial) fun _ => .bind (honours_act fun _ => trivial) fun _ => ?_
  refine .bind (honours_act fun _ => trivial) fun _ => .bind (honours_act fun _ => trivial) fun _ => ?_
  exact .bind (honours_act fun _ => trivial) fun _ => .bind (honours_act fun _ => trivial)
    fun _ => bounded_user (hok.hook _ p)

theorem bounded_startup : Honours (bounded ps) t (startup ps hk) := by
  refine .bind (bounded_uses (plain_stateIn _)) fun _ => .bind .raiseIf fun _ => ?_
  refine .bind (bounded_mapPdos hok) fun size => .bind (bounded_abort hok) fun _ => ?_
  refine .bind (honours_act fun _ => trivial) fun dc => .bind (bounded_abort hok) fun _ => ?_
  refine .bind (p := setupDc ps) ?_ fun _ => .bind (honours_act fun _ => trivial) fun _ => ?_
  · refine .bind (bounded_uses plain_slaveIds) fun ids => .bind (.forEach (fun id => ?_) ids)
      fun _ => .when (.bind (bounded_uses plain_slaveIds) fun ids => .forEach (fun id => ?_) ids)
    · exact .bind (honours_act fun _ => trivial) fun _ => honours_crashUnless
    · exact .bind (honours_act fun _ => trivial) fun _ => .when (honours_act fun _ => trivial)
  · refine Honours.forDevices (fun _ => trivial) (fun _ _ => trivial) fun p id => ?_
    exact .bind (honours_act fun _ => trivial) fun n => .bind (honours_act fun _ => trivial)
      fun m => bounded_onPdoConfigured hok p n m

theorem bounded_activate : Honours (bounded ps) t (activate hk) := by
  refine .bind (bounded_uses (plain_stateIn _)) fun _ => .bind .raiseIf fun _ => ?_
  refine .bind (bounded_callbacks hok _) fun _ => .bind (honours_act fun _ => trivial) fun _ => ?_
  refine .bind (Honours.forDevices (fun _ => trivial) (fun _ _ => trivial) fun _ id => ?_) fun _ =>
    .bind (Honours.forDevices (fun _ => trivial) (fun _ _ => trivial) fun _ id => ?_) fun _ => ?_
  · exact .bind (bounded_uses (plain_setDeviceTargetState id _)) fun _ => bounded_abort hok
  · exact .bind (bounded_uses (plain_waitForDeviceTargetState id _)) fun _ => bounded_abort hok
  · exact .bind (honours_act fun _ => trivial) fun _ => bounded_callbacks hok _

theorem bounded_bringOperational : Honours (bounded ps) t (bringOperational ps hk) := by
  refine .bind (honours_act fun _ => trivial) fun start => .bind (.when ?_) fun _ => ?_
  · exact .bind (honours_act fun _ => trivial) fun _ => honours_act fun _ => trivial
  refine .bind (bounded_uses plain_operationalTimeout) fun _ => .bind (bounded_abort hok) fun _ => ?_
  refine .bind (Honours.forDevices (fun _ => trivial) (fun _ _ => trivial) fun _ id => ?_) fun _ => ?_
  · exact .bind (bounded_uses (plain_setDeviceTargetState id _)) fun _ => honours_pure
  refine .bind (bounded_loose (uses_updateDeviceStates fun _ _ => trivial)) fun _ => .bind
    (bounded_loose (uses_allInOperational (fun _ _ => trivial) (fun _ _ _ => trivial)
      fun _ _ _ => trivial)) fun _ => .when (honours_act fun _ => trivial)

theorem bounded_updateService : Honours (bounded ps) t (updateService ps hk) := by
  refine .bind (bounded_uses (plain_stateIn _)) fun _ => .bind .raiseIf fun _ => ?_
  refine .bind (honours_act fun _ => trivial) fun _ => .bind (honours_act fun _ => trivial) fun _ => ?_
  refine .bind (honours_act fun _ => trivial) fun owns => .bind (.when (.withLock
    (bounded_uses plain_drainMailboxEvents))) fun _ => .bind (bounded_uses (plain_stateIn _)) fun b => ?_
  split
  · exact .bind (bounded_bringOperational hok) fun _ => honours_pure
  · refine .bind (.when (.bind (bounded_loose (uses_updateDeviceStates fun _ _ => trivial))
      fun _ => .when (bounded_uses plain_updateDiagnosticsSlow))) fun _ => honours_pure

theorem bounded_destroyBus : Honours (bounded ps) t (destroyBus hk) := by
  refine .bind (Honours.forDevices (fun _ => trivial) (fun _ _ => trivial) fun p _ => ?_) fun _ => ?_
  · exact honours_act fun _ => trivial
  refine .bind (.bind (.attempt (bounded_shutdown hok)) fun r => ?_) fun _ => honours_act fun _ => trivial
  cases r with
  | ok u => exact honours_pure
  | error e =>
    dsimp only
    split
    · exact honours_pure
    · exact honours_crash

end Lifecycle

theorem bounded_initializeBus : Honours (bounded ps) t (initializeBus ps) := by
  refine .bind (bounded_uses (plain_stateIn _)) fun _ => .bind .raiseIf fun _ => ?_
  refine .bind (honours_act fun _ => trivial) fun _ => .bind .raiseIf fun _ => ?_
  refine .bind (honours_act fun _ => trivial) fun n => .bind .raiseIf fun _ => ?_
  refine .bind (honours_act fun _ => trivial) fun _ => .bind (bounded_uses plain_slaveIds) fun ids => ?_
  refine .bind (.forEach (fun id => ?_) ids) fun _ => .bind (honours_act fun _ => trivial) fun _ => ?_
  · exact .bind (honours_act fun _ => trivial) fun _ => honours_crashUnless
  refine .bind (honours_act fun _ => trivial) fun _ => .bind (honours_act fun _ => trivial) fun _ => ?_
  refine .bind (.forEach (fun id => ?_) _) fun _ => honours_pure
  exact .bind (bounded_uses (plain_scanDevice id)) fun _ => honours_act fun _ => trivial

/-- **Every operation keeps the promise.** -/
theorem bounded_invoke (hok : hk.Ok ps) (o : Op) : Honours (bounded ps) t (o.invoke ps hk) := by
  refine Honours.invoke (fun _ => trivial) (fun _ _ => trivial) ?_
  by_cases ht : o.transfers = true
  · exact bounded_transfers ht
  by_cases hl : o.lifecycle = false
  · exact honours_body bounded_plain o hl (by simpa using ht)
      (fun r => bounded_user (hok.sdoReadCallback r)) fun r => bounded_user (hok.sdoWriteCallback r)
  cases o
  case initializeBus => exact Honours.void bounded_initializeBus
  case startup => exact bounded_startup hok
  case activate => exact bounded_activate hok
  case shutdown => exact bounded_shutdown hok
  case updateService => exact Honours.void (bounded_updateService hok)
  case destroyBus => exact bounded_destroyBus hok
  all_goals exact absurd rfl hl

/-! ## The image -/

/-- What the last action says of the state it left. -/
def Current (s : St) : Ev → Prop
  | ⟨_, .obytes id, n⟩ => (s.region id).Obytes = n
  | ⟨_, .ibytes id, n⟩ => (s.region id).Ibytes = n
  | ⟨_, .resizeIoMap n, _⟩ => s.ioMapSize = n
  | _ => True

/-- Every region that is not empty lies inside a buffer of the configured size. -/
structure Mapped (n : ℕ) (s : St) : Prop where
  outputs : ∀ id, Span.Inside n ⟨(s.region id).outputs, (s.region id).Obytes, s.ioMapSize⟩
  inputs : ∀ id, Span.Inside n ⟨(s.region id).inputs, (s.region id).Ibytes, s.ioMapSize⟩

/-- Kept as long as no mapping is too large. -/
structure ImageInv (ps : Parameters) (w : W) : Prop where
  mapped : Mapped ps.pdoBufferSize w.st
  inBounds : InBounds ps w.hist

theorem current_after (w : W) (t : ℕ) (a : Act) (i : Env) :
    Current (w.after exec t a i).st ⟨t, a, (exec a i w.st).1⟩ := by
  cases a <;> first | exact trivial | exact rfl

/-- Resizing a buffer to the configured size keeps what was inside inside. -/
theorem Span.Inside.resize {n off size mapSize : ℕ} (h : Span.Inside n ⟨off, size, mapSize⟩) :
    Span.Inside n ⟨off, size, n⟩ := by
  rcases h with h | ⟨h, hm⟩
  · exact .inl h
  · exact .inr ⟨hm ▸ h, rfl⟩

/-- SOEM's contract, for a mapping that fits. -/
theorem Env.Maps.inside {i : Env} (h : i.Maps) {n : ℕ} (hn : i.ret ≤ n) (id : DeviceId) :
    Span.Inside n ⟨(i.slaves id).outputs, (i.slaves id).Obytes, n⟩ ∧
      Span.Inside n ⟨(i.slaves id).inputs, (i.slaves id).Ibytes, n⟩ := by
  have fits : ∀ {off size : ℕ}, size = 0 ∨ ((off + size : ℕ) : ℤ) ≤ i.ret →
      Span.Inside n ⟨off, size, n⟩ := by
    intro off size h
    rcases h with h | h
    · exact .inl h
    · refine .inr ⟨?_, rfl⟩
      have : off + size ≤ n := by omega
      exact this
  obtain ⟨ho, hi⟩ := h id
  exact ⟨fits (by exact_mod_cast ho), fits (by exact_mod_cast hi)⟩

theorem Mapped.exec {n : ℕ} {s : St} {a : Act} {i : Env} (h : Mapped n s)
    (hr : ∀ m, a = .resizeIoMap m → m = n)
    (hm : a = .ecxConfigMapGroup → s.ioMapSize = n ∧ i.Maps ∧ i.ret ≤ n) :
    Mapped n (EthercatInterface.exec a i s).2 := by
  by_cases hres : a.resizes = true
  · cases a <;> cases hres
    rename_i m
    obtain rfl := hr m rfl
    exact ⟨fun id => (h.outputs id).resize, fun id => (h.inputs id).resize⟩
  by_cases hrem : a.remaps = true
  · cases a <;> cases hrem
    · exact ⟨fun id => .inl rfl, fun id => .inl rfl⟩
    · obtain ⟨hs, hmaps, hn⟩ := hm rfl
      have hsize : (EthercatInterface.exec .ecxConfigMapGroup i s).2.ioMapSize = n := hs
      exact ⟨fun id => by rw [hsize]; exact (hmaps.inside hn id).1,
        fun id => by rw [hsize]; exact (hmaps.inside hn id).2⟩
  · have hreg := region_exec (a := a) (by simpa using hrem) i s
    have hsize := ioMapSize_exec (a := a) (by simpa using hres) i s
    exact ⟨fun id => by rw [hreg, hsize]; exact h.outputs id,
      fun id => by rw [hreg, hsize]; exact h.inputs id⟩

/-- A copy of the size just read stays inside. -/
theorem span_inside {a : Act} {i : Env} {s : St} {h : List Ev} (hm : Mapped ps.pdoBufferSize s)
    (hb : bounded ps a h) (hc : ∀ e ∈ h.head?, Current s e) :
    ∀ sp ∈ spanOf a (exec a i s).1, sp.Inside ps.pdoBufferSize := by
  -- the action before each copy asked for the size of the region, and nothing moved it since
  cases a
  case copyToOutputs id data =>
    obtain ⟨t, h', rfl⟩ := hb
    have hn : (s.region id).Obytes = data.length := hc _ rfl
    rintro sp ⟨⟩
    have ho := hm.outputs id
    rw [hn] at ho
    exact ho
  case copyFromOutputs id n =>
    obtain ⟨t, h', rfl⟩ := hb
    have hn : (s.region id).Obytes = n := hc _ rfl
    rintro sp ⟨⟩
    have ho := hm.outputs id
    rw [hn] at ho
    exact ho
  case copyFromInputs id n =>
    obtain ⟨t, h', rfl⟩ := hb
    have hn : (s.region id).Ibytes = n := hc _ rfl
    rintro sp ⟨⟩
    have hi := hm.inputs id
    rw [hn] at hi
    exact hi
  all_goals rintro sp ⟨⟩

/-- **One action** keeps the image. -/
theorem ImageInv.after {w : W} {a : Act} {i : Env} (h : ImageInv ps w)
    (hok : soemMaps 0 a i w) (hb : bounded ps a (own 0 w.hist))
    (hc : ∀ e ∈ (own 0 w.hist).head?, Current w.st e)
    (hfit : ∀ n ∈ mappedSizes (w.after exec 0 a i).hist, n ≤ ps.pdoBufferSize) :
    ImageInv ps (w.after exec 0 a i) where
  mapped := by
    refine h.mapped.exec (fun m hm => by subst hm; exact hb) fun hm => ?_
    subst hm
    obtain ⟨t, h', hh⟩ := hb
    refine ⟨hc ⟨t, .resizeIoMap ps.pdoBufferSize, ()⟩ (by rw [hh]; rfl), hok rfl, ?_⟩
    exact hfit i.ret (by simp [mappedSizes, mappedSize, exec])
  inBounds := by
    intro e he
    rcases List.mem_cons.1 he with rfl | he
    · exact span_inside h.mapped hb hc
    · exact h.inBounds e he

variable {w : W}

/-- What every action keeps: the last answer is still true, and the image holds if
every mapping fitted. -/
def ImageKept (ps : Parameters) (w : W) : Prop :=
  (∀ e ∈ (own 0 w.hist).head?, Current w.st e) ∧
    ((∀ n ∈ mappedSizes w.hist, n ≤ ps.pdoBufferSize) → ImageInv ps w)

theorem ImageKept.start : ImageKept ps ⟨{}, []⟩ := by
  refine ⟨fun e he => absurd he (by simp), fun _ => ⟨⟨fun _ => .inl rfl, fun _ => .inl rfl⟩, ?_⟩⟩
  exact fun e he => absurd he List.not_mem_nil

theorem ImageKept.after {a : Act} {i : Env} (h : ImageKept ps w) (hok : soemMaps 0 a i w)
    (hb : bounded ps a (own 0 w.hist)) : ImageKept ps (w.after exec 0 a i) := by
  refine ⟨?_, fun hfit => ?_⟩
  · rw [World.after_hist, own_cons_self]
    rintro e ⟨⟩
    exact current_after w 0 a i
  · refine ImageInv.after (h.2 fun n hn => hfit n ?_) hok hb h.1 hfit
    rw [World.after_hist, mappedSizes, List.filterMap_cons]
    split
    · exact hn
    · exact List.mem_cons_of_mem _ hn

theorem run_imageKept (hr : Run ps soemMaps (fun _ => True) w) : ImageKept ps w := by
  induction hr with
  | start => exact .start
  | call _ _ hok _ he _ ih =>
    exact (he.obeys (fun a i w hg hb hw => hw.after hg hb) (bounded_invoke hok _ _) ih).1

/-- **Every copy stays inside the process image** if every mapping fitted into it. -/
theorem copies_inBounds (hr : Run ps soemMaps (fun _ => True) w)
    (hf : ∀ n ∈ mappedSizes w.hist, n ≤ ps.pdoBufferSize) : InBounds ps w.hist :=
  ((run_imageKept hr).2 hf).inBounds

/-- `startup`, with a mapping of `size` bytes that puts one output byte of every slave at `off`. -/
def startupMapping (size : ℤ) (off : ℕ) : Call :=
  { op := .startup
    env := List.replicate 7 {} ++ [{ ret := size, slaves := fun _ => { Obytes := 1, outputs := off } }] }

theorem run_startupMapping {size : ℤ} {off : ℕ} (h : (off : ℤ) + 1 ≤ size) (o : Op) :
    Run {} soemMaps (fun _ => True) (world [initializeOne, startupMapping size off, { op := o }]) := by
  refine run_world_of (G := Env.Maps) (fun _ => ⟨.inl rfl, .inl rfl⟩) (fun _ _ _ hi _ => hi) _ ?_
  have hmap : Env.Maps { ret := size, slaves := fun _ => { Obytes := 1, outputs := off } } :=
    fun _ => ⟨.inr h, .inl rfl⟩
  simp [initializeOne, startupMapping, UserCode.none_ok, hmap]
  simp [Env.Maps]

/-- The outputs of the only slave are written, in a buffer they fit into. -/
theorem copies_inBounds_write :
    InBounds {} (world [initializeOne, startupMapping 1 0, { op := .writeRxPdo 1 [7] }]).hist :=
  copies_inBounds (run_startupMapping (by decide) _) (by decide)

/-- After a `startup` that refused a mapping of one byte too many, the outputs of the
slave are still read, past the end of the buffer. -/
theorem copies_escape : ¬∀ ps w, Run ps soemMaps (fun _ => True) w → InBounds ps w.hist := by
  intro h
  have hr : Run {} soemMaps (fun _ => True)
      (world [initializeOne, startupMapping 8193 8192, { op := .readRxPdo 1 }]) :=
    run_startupMapping (by decide) _
  exact absurd (h _ _ hr) (by decide)

end EthercatInterface
