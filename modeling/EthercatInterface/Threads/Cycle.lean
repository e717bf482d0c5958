import EthercatInterface.Image.Staging
import EthercatInterface.Lib.Atomic
import EthercatInterface.Threads.State

/-!
# Cycles and the accessors of the process data, among threads

Every operation outside the lifecycle upholds `Staging`. Most of their actions fit
whatever the world is (`Act.idle`). A copy by `update_rt` fits because the section of
`update_write` takes the staging buffer to the outputs as a whole, a frame is sent after
the loop of these sections, and `update_read` is a section too.
-/

namespace EthercatInterface

open Interleave

variable {s : St} {t : ℕ} {ok : Guard Act Ans Env St} {ps : Parameters} {hk : UserCode}

/-- Fits into every world. -/
def Act.idle (a : Act) : Bool :=
  match a with
  | .copyToOutputs _ _ | .setTxPdo _ _ | .ecxSendProcessdata | .updateBusState _ => false
  | a => !a.rebuilds

def Idle (a : Act) : Prop := a.idle = true

theorem Idle.fits {a : Act} (ha : Idle a) (w : W) : Fits s t a w := by
  have none : ∀ {α : Type} (x : α), x ∈ (none : Option α) → False := fun x h => by cases h
  cases a <;> first
    | exact ⟨rfl, fun _ h => (none _ h).elim, fun _ _ h => (none _ h).elim,
        fun _ _ h => (none _ h).elim, fun h => Act.noConfusion h, fun _ _ h => (none _ h).elim⟩
    | cases ha

theorem fits_copy {id : DeviceId} {data : List UInt8} {w : W} (hid : s.OnBus id)
    (hn : data.length = (s.region id).Obytes)
    (hc : lastCall (own t w.hist) = some .updateRt →
      ∃ p ∈ s.devices, s.idOf p = id ∧ data = staged s p w.hist) :
    Fits s t (.copyToOutputs id data) w where
  rebuilds := rfl
  stored _ h := by cases h
  copied id' data' h := by cases mem_copiedTo.1 h; exact ⟨hid, hn⟩
  staged id' data' h := by cases mem_copiedTo.1 h; exact hc
  sent h := by cases h
  handed _ _ h := by cases h

theorem fits_send {w : W} (hc : ∀ p ∈ s.devices, (cycleWrite t (s.idOf p) w.hist).isSome) :
    Fits s t .ecxSendProcessdata w where
  rebuilds := rfl
  stored _ h := by cases h
  copied _ _ h := by cases h
  staged _ _ h := by cases h
  sent _ := hc
  handed _ _ h := by cases h

theorem fits_setTxPdo {p : Addr} {data : List UInt8} {w : W}
    (hd : data = inputsOf s (s.idOf p) w.hist) : Fits s t (.setTxPdo p data) w where
  rebuilds := rfl
  stored _ h := by cases h
  copied _ _ h := by cases h
  staged _ _ h := by cases h
  sent h := by cases h
  handed q data' h := by
    simp only [txWritten, Option.mem_def, Option.ite_none_right_eq_some, Option.some.injEq] at h
    rw [h.1, ← h.2]
    exact hd

theorem fits_operational {w : W} : Fits s t (.updateBusState .operational) w where
  rebuilds := rfl
  stored b h := .inr (Option.some.inj h).symm
  copied _ _ h := by cases h
  staged _ _ h := by cases h
  sent h := by cases h
  handed _ _ h := by cases h

theorem Plain.idle {a : Act} (ha : Plain a) : Idle a := by
  cases a <;> first | rfl | cases ha

theorem Serving.idle {a : Act} (ha : Serving a) : Idle a := by
  rcases ha with ha | ha
  · exact ha.plain.idle
  · cases a <;> first | rfl | cases ha

/-- Inside an operation, the last call stays the last. -/
theorem lastCall_inner {a : Act} (ha : Inner a) (r : Ans a) {h : List Ev} :
    lastCall (⟨t, a, r⟩ :: h) = lastCall h := by
  cases a <;> first | rfl | cases ha

theorem cycleWrite_self (a : Act) (r : Ans a) (id : DeviceId) (h : List Ev) :
    cycleWrite t id (⟨t, a, r⟩ :: h) =
      if (called a).isSome then none
      else if (copiedTo id a).isSome then some h else cycleWrite t id h := by
  rw [cycleWrite, if_pos rfl]

theorem cycleWrite_ne {e : Ev} (he : e.tid ≠ t) (id : DeviceId) (h : List Ev) :
    cycleWrite t id (e :: h) = cycleWrite t id h := by
  rw [cycleWrite, if_neg he]

/-- A copy stays in the past of the operation it belongs to. -/
theorem cycleWrite_inner {a : Act} (ha : (a.marks || a.lifecycle) = false) (r : Ans a)
    {id : DeviceId} {h : List Ev} (hc : (cycleWrite t id h).isSome) : (cycleWrite t id (⟨t, a, r⟩ :: h)).isSome := by
  have hn : ¬(called a).isSome := by cases a <;> first | exact Bool.noConfusion | cases ha
  rw [cycleWrite_self, if_neg hn]
  split
  · rfl
  · exact hc

/-- Only the thread's own past matters. -/
theorem cycleWrite_own (t : ℕ) (id : DeviceId) (h : List Ev) :
    (cycleWrite t id (own t h)).isSome = (cycleWrite t id h).isSome := by
  induction h with
  | nil => rfl
  | cons e h ih =>
    obtain ⟨u, a, r⟩ := e
    by_cases he : u = t
    · subst he
      rw [own_cons_self, cycleWrite_self, cycleWrite_self]
      by_cases hcall : (called a).isSome
      · rw [if_pos hcall, if_pos hcall]
      rw [if_neg hcall, if_neg hcall]
      by_cases hcopy : (copiedTo id a).isSome
      · rw [if_pos hcopy, if_pos hcopy]; rfl
      · rw [if_neg hcopy, if_neg hcopy, ih]
    · rw [own_cons_ne he, ih, cycleWrite_ne he]

/-! ## Accessors -/

section Layout

variable (hl : Layout s)
include hl

theorem upholds_idle {α : Type} {p : P α} (hp : p.Uses Idle) : Upholds exec ok (Staging s) t p :=
  .uses (fun _ ha _ w _ hw => hw.after hl (ha.fits w)) hp

theorem upholds_plain {α : Type} {p : P α} (hp : p.Uses Plain) : Upholds exec ok (Staging s) t p :=
  upholds_idle hl (hp.mono fun _ => Plain.idle)

theorem sustains_idle {a : Act} (ha : a.idle = true) {Q : Outcome Exn (Ans a) → List Ev → Prop}
    {h : List Ev} (hQ : ∀ i w, Staging s w → own t w.hist = h →
      Q (.ret (exec a i w.st).1) (⟨t, a, (exec a i w.st).1⟩ :: h)) :
    Sustains exec ok (Staging s) t (act a) Q h :=
  .perform fun i w _ hw hh => ⟨hw.after hl (Idle.fits ha w), hQ i w hw hh⟩

variable (ok) in
theorem sustains_checkPdoAccess (id : DeviceId) (h : List Ev) :
    Sustains exec ok (Staging s) t (checkPdoAccess id) (fun o _ => o = .ret () → s.OnBus id) h := by
  refine .bind ((upholds_plain hl (plain_stateIn _) h).mono fun o h' _ => ?_)
  cases o with
  | exn e => exact fun h => by cases h
  | crash => exact fun h => by cases h
  | ret b =>
    refine .bind (.raiseIf (fun _ h => by cases h) fun _ => .bind (.bind ?_))
    refine sustains_idle hl rfl fun i w hw _ => .raiseIf (fun _ h => by cases h) fun hb _ => ?_
    rw [Bool.not_eq_false', Bool.and_eq_true, decide_eq_true_eq, decide_eq_true_eq] at hb
    exact ⟨hb.1, hw.slavecount ▸ hb.2⟩

theorem upholds_readRxPdo (id : DeviceId) : Upholds exec ok (Staging s) t (readRxPdo id) :=
  upholds_idle hl (uses_readRxPdo (fun _ h => h.plain.idle) id fun _ => rfl)

theorem upholds_readTxPdo (id : DeviceId) (n : ℕ) :
    Upholds exec ok (Staging s) t (readTxPdo id n) :=
  upholds_idle hl (uses_readTxPdo (fun _ h => h.plain.idle) id n fun _ => rfl)

/-- `write_rx_pdo`, called by users: a copy that is no part of a cycle. -/
theorem sustains_writeRxPdo (id : DeviceId) (data : List UInt8) {h : List Ev}
    (hc : lastCall h ≠ some .updateRt) :
    Sustains exec ok (Staging s) t (writeRxPdo id data) (fun _ _ => True) h := by
  refine .seq ((sustains_checkPdoAccess ok hl id h).frame (K := fun h => lastCall h ≠ some .updateRt)
    (fun a ha r h hc => by rw [lastCall_inner ha]; exact hc)
    ((plain_checkPdoAccess id).mono fun _ => Plain.inner) hc) fun _ h₁ ⟨hid, hc⟩ => ?_
  have hid := hid rfl
  refine .bind (sustains_idle hl rfl fun i w hw _ => .bind (.raiseIf (fun _ => trivial) fun hn => ?_))
  have hn : data.length = (s.region id).Obytes := by
    rw [← hw.region]
    exact of_not_not (of_decide_eq_false hn)
  refine .withLock fun w' hw' hh => wp_bind (wp_perform fun i' _ => ⟨trivial, ?_⟩)
  refine ⟨hw'.after hl (fits_copy hid hn fun hcyc => absurd ?_ hc), trivial⟩
  rw [← hcyc, hh]
  exact (lastCall_inner (a := .obytes id) rfl _).symm

/-! ## `update_write` and `update_read` -/

theorem wp_idle {a : Act} (ha : a.idle = true) {Q : Outcome Exn (Ans a) → W → Prop} {w : W}
    (hw : Staging s w) (hQ : ∀ i w', Staging s w' → w'.hist = ⟨t, a, (exec a i w.st).1⟩ :: w.hist →
      Q (.ret (exec a i w.st).1) w') : wp exec ok free t (act a) Q w :=
  wp_perform fun i _ => ⟨trivial, hQ i _ (hw.after hl (Idle.fits ha w)) rfl⟩

/-- What was staged is copied as it is, and the copy belongs to the cycle. -/
theorem wp_writeStaged {p : Addr} (hp : p ∈ s.devices) {data : List UInt8} {w : W}
    (hw : Staging s w) (hd : data = staged s p w.hist) :
    wp exec ok free t (writeRxPdo (s.idOf p) data) (fun o w' => Staging s w' ∧
      (o = .ret () → (cycleWrite t (s.idOf p) (own t w'.hist)).isSome)) w := by
  -- the checks read only, so what was staged before them still is
  have checks := wp_frame exec (S := fun a => rxWritten p a = none)
    (J := fun w => data = staged s p w.hist)
    (fun a ha i w hw => by rw [World.after_hist, staged_cons, ha]; exact hw)
    (uses_checkPdoAccess (S := fun a => rxWritten p a = none) rfl rfl (s.idOf p))
    ((sustains_checkPdoAccess ok hl (s.idOf p) (own t w.hist)).alone hw) hd
  refine wp_bind (wp_mono checks fun o w₁ ⟨⟨hw₁, hid⟩, hd₁⟩ => ?_)
  cases o with
  | exn e => exact ⟨hw₁, fun h => by cases h⟩
  | crash => exact ⟨hw₁, fun h => by cases h⟩
  | ret u =>
    refine wp_bind (wp_idle hl rfl hw₁ fun i w₂ hw₂ h₂ => ?_)
    refine wp_bind (wp_raiseIf (fun _ => ⟨hw₂, fun h => by cases h⟩) fun hn => ?_)
    have hn : data.length = (s.region (s.idOf p)).Obytes := by
      rw [← hw₁.region]
      exact of_not_not (of_decide_eq_false hn)
    have hd₂ : data = staged s p w₂.hist := by rw [h₂, staged_cons]; exact hd₁
    refine wp_withLock (wp_bind (wp_perform fun j _ => ⟨trivial, ?_⟩))
    refine ⟨hw₂.after hl (fits_copy (hid rfl) hn fun _ => ⟨p, hp, rfl, hd₂⟩), fun _ => ?_⟩
    rw [World.after_hist, own_cons_self, cycleWrite_self]
    simp [called, copiedTo]

/-- The section of `update_write` takes the staging buffer to the outputs of the slave. -/
theorem sustains_updateWrite {p : Addr} (hp : p ∈ s.devices) (tp : ℤ) (h : List Ev) :
    Sustains exec ok (Staging s) t (updateWrite p tp)
      (fun o h' => o = .ret () → (cycleWrite t (s.idOf p) h').isSome) h := by
  refine .withLock fun w hw _ => ?_
  refine wp_bind (wp_idle hl rfl hw fun i w₁ hw₁ _ => ?_)
  refine wp_bind (wp_when (fun _ => ⟨hw₁, fun h => by cases h⟩) fun _ => ?_)
  refine wp_bind (wp_idle hl rfl hw₁ fun i w₂ hw₂ _ => ?_)
  rw [show (exec (.deviceId p) i w₁.st).1 = s.idOf p from hw₁.idOf p]
  refine wp_bind (wp_idle hl rfl hw₂ fun i w₃ hw₃ h₃ => ?_)
  have hd : (exec (.rxPdo p) i w₂.st).1 = staged s p w₃.hist := by
    rw [h₃, staged_cons]
    exact hw₂.rxPdo p
  refine wp_bind (wp_mono (wp_writeStaged hl hp hw₃ hd) fun o w₄ ⟨hw₄, hcopy⟩ => ?_)
  cases o with
  | exn e => exact ⟨hw₄, fun h => by cases h⟩
  | crash => exact ⟨hw₄, fun h => by cases h⟩
  | ret u =>
    refine wp_idle hl rfl hw₄ fun i w₅ hw₅ h₅ => ⟨hw₅, fun _ => ?_⟩
    rw [h₅, own_cons_self]
    exact cycleWrite_inner rfl _ (hcopy rfl)

/-- `read_tx_pdo` answers the inputs of the slave. -/
theorem wp_readTxPdo {id : DeviceId} {n : ℕ} {w : W} (hw : Staging s w) :
    wp exec ok free t (readTxPdo id n) (fun o w' => Staging s w' ∧
      ∀ data, o = .ret data → data = inputsOf s id w'.hist) w := by
  refine wp_bind (wp_mono ((sustains_checkPdoAccess ok hl id (own t w.hist)).alone hw)
    fun o w₁ ⟨hw₁, hid⟩ => ?_)
  cases o with
  | exn e => exact ⟨hw₁, fun _ h => by cases h⟩
  | crash => exact ⟨hw₁, fun _ h => by cases h⟩
  | ret u =>
    refine wp_bind (wp_idle hl rfl hw₁ fun i w₂ hw₂ _ => ?_)
    refine wp_bind (wp_raiseIf (fun _ => ⟨hw₂, fun _ h => by cases h⟩) fun _ => wp_withLock ?_)
    refine wp_bind (wp_idle hl rfl hw₂ fun j w₃ hw₃ h₃ => ⟨hw₃, fun data hd => ?_⟩)
    cases hd
    rw [h₃, inputsOf_cons, ← hw₂.inputs id (hid rfl)]
    change w₂.st.ioMap.read (w₂.st.region id).inputs (w₁.st.region id).Ibytes = _
    rw [hw₁.region, hw₂.region]
    rfl

/-- The section of `update_read` takes the inputs of the slave to the input buffer. -/
theorem upholds_updateRead (p : Addr) (tp : ℤ) :
    Upholds exec ok (Staging s) t (updateRead p tp) := by
  refine fun h => .withLock fun w hw _ => ?_
  refine wp_bind (wp_idle hl rfl hw fun i w₁ hw₁ _ => ?_)
  refine wp_bind (wp_when (fun _ => ⟨hw₁, trivial⟩) fun _ => ?_)
  refine wp_bind (wp_idle hl rfl hw₁ fun i w₂ hw₂ _ => ?_)
  rw [show (exec (.deviceId p) i w₁.st).1 = s.idOf p from hw₁.idOf p]
  refine wp_bind (wp_idle hl rfl hw₂ fun i w₃ hw₃ _ => ?_)
  refine wp_bind (wp_mono (wp_readTxPdo hl hw₃) fun o w₄ ⟨hw₄, hdata⟩ => ?_)
  cases o with
  | exn e => exact ⟨hw₄, trivial⟩
  | crash => exact ⟨hw₄, trivial⟩
  | ret data =>
    refine wp_bind (wp_perform fun j _ => ⟨trivial, ?_⟩)
    exact wp_idle hl rfl (hw₄.after hl (fits_setTxPdo (hdata data rfl))) fun _ _ hw₅ _ => ⟨hw₅, trivial⟩

/-! ## `update_rt` -/

/-- The devices `l` have been written in the operation begun last. -/
def Written (s : St) (t : ℕ) (l : List Addr) (h : List Ev) : Prop :=
  ∀ p ∈ l, (cycleWrite t (s.idOf p) h).isSome

omit hl in
theorem Written.cons {l : List Addr} {h : List Ev} (hw : Written s t l h) {a : Act} (ha : Inner a)
    (r : Ans a) : Written s t l (⟨t, a, r⟩ :: h) :=
  fun p hp => cycleWrite_inner ha r (hw p hp)

/-- A frame is sent when every device has been written. -/
theorem sustains_exchange {h : List Ev} (hd : Written s t s.devices h) :
    Sustains exec ok (Staging s) t (exchange ps) (fun _ _ => True) h := by
  refine .withLock fun w hw hh => wp_bind (wp_perform fun i _ => ⟨trivial, ?_⟩)
  have hw := hw.after (i := i) hl (fits_send (t := t) fun p hp => by
    rw [← cycleWrite_own, hh]
    exact hd p hp)
  refine Sustains.alone (upholds_idle hl ?_ _) hw
  refine Prog.Uses.bind (uses_act rfl) fun received => Prog.Uses.bind (uses_act rfl) fun n => ?_
  exact (uses_plain (fun _ => Plain.idle) plain_dcCorrection).bind fun _ => trivial

theorem sustains_writeDevices (tp : ℤ) (h : List Ev) :
    Sustains exec ok (Staging s) t (forDevices .updateWrite fun p _ => updateWrite p tp)
      (fun o h' => o = .ret () → Written s t s.devices h') h := by
  refine .bind (sustains_idle hl rfl fun i w hw _ => ?_)
  rw [show (exec (.devices .updateWrite) i w.st).1 = s.devices from hw.devices]
  refine .forEach (Written s t) (fun done p rest hdev h' hd => ?_) (fun h' hd _ => hd)
    fun p hp => by cases hp
  have hp : p ∈ s.devices := hdev ▸ List.mem_append_right done List.mem_cons_self
  refine .bind (sustains_idle hl rfl fun i w hw _ => ?_)
  -- a device of the list is not destroyed while the bus runs
  have hderef : (exec (.deref p) i w.st).1 = some (w.st.idOf p) := if_pos (hw.devices ▸ hp)
  rw [hderef]
  refine (Sustains.frame (K := Written s t done) (fun a ha r h hd => hd.cons ha r)
    (uses_updateWrite (fun _ h => h.plain.inner) p tp fun _ _ => rfl)
    (sustains_updateWrite hl hp tp _) (hd.cons (a := .deref p) rfl _)).mono fun o h'' ⟨hnow, hd⟩ => ?_
  cases o with
  | exn e => exact fun h => by cases h
  | crash => exact fun h => by cases h
  | ret u =>
    intro q hq
    rcases List.mem_append.1 hq with hq | hq
    · exact hd q hq
    · obtain rfl := List.mem_singleton.1 hq
      exact hnow rfl

/-- **A cycle**: write the devices, exchange, read the devices. -/
theorem upholds_updateRt : Upholds exec ok (Staging s) t (updateRt ps) := by
  refine .bind (upholds_plain hl (plain_stateIn _)) fun _ => .bind (upholds_plain hl
    Prog.uses_raiseIf) fun _ => .bind (upholds_plain hl (plain_act rfl)) fun now h => ?_
  refine .seq (sustains_writeDevices hl now h) fun _ h₁ hd => ?_
  refine .seq (sustains_exchange hl (hd rfl)) fun cycle h₂ _ => ?_
  refine (Upholds.bind ?_ fun _ => .bind (.when (upholds_plain hl (plain_updateDiagnosticsFast _ _)))
    fun _ => upholds_pure) h₂
  refine .bind (upholds_idle hl (uses_act rfl)) fun l => .forEach (fun p => ?_) l
  refine .bind (upholds_idle hl (uses_act rfl)) fun r => ?_
  cases r with
  | none => exact upholds_crash
  | some id => exact upholds_updateRead hl p now

/-! ## Operations -/

theorem upholds_compositional :
    Compositional fun p => Upholds exec ok (Staging s) t p :=
  ⟨Upholds.bind, Upholds.attempt, upholds_plain hl⟩

theorem upholds_transfers {o : Op} (ho : o.transfers = true) :
    Upholds exec ok (Staging s) t (o.invoke ps hk) := by
  have hF : Boxed fun p => Upholds exec ok (Staging s) t p := (upholds_compositional hl).boxed
  cases o
  case updateRt =>
    exact hF.invoke (upholds_idle hl (uses_act rfl)) (fun _ => upholds_idle hl (uses_act rfl))
      (.bind (upholds_updateRt hl) fun _ => upholds_pure)
  case readRxPdo id =>
    exact hF.invoke (upholds_idle hl (uses_act rfl)) (fun _ => upholds_idle hl (uses_act rfl))
      (.bind (upholds_readRxPdo hl id) fun _ => upholds_pure)
  case readTxPdo id n =>
    exact hF.invoke (upholds_idle hl (uses_act rfl)) (fun _ => upholds_idle hl (uses_act rfl))
      (.bind (upholds_readTxPdo hl id n) fun _ => upholds_pure)
  case setGenericRxPdo p rx =>
    refine hF.invoke (upholds_idle hl (uses_act rfl)) (fun _ => upholds_idle hl (uses_act rfl)) ?_
    exact upholds_idle hl (fits_setGenericRxPdo (S := Idle) (V := AnyLock)
      (fun _ ha => ha.modest.still.plain.idle) trivial rfl).uses
  case writeRxPdo id data =>
    -- the call is remembered up to the write it is about
    refine fun h => .bind (sustains_idle hl rfl fun i w hw _ => ?_)
    refine .seq (K := fun _ _ => True) (.attempt ((sustains_writeRxPdo hl id data ?_).mono
      fun o _ _ => by cases o <;> trivial)) fun r h' _ => ?_
    · rw [lastCall_cons]
      exact fun h => by cases h
    cases r with
    | ok x => exact upholds_idle hl (p := act (.done _ true)) (uses_act rfl) h'
    | error e =>
      exact Upholds.bind (upholds_idle hl (p := act (.done _ false)) (uses_act rfl))
        (fun _ => upholds_throw) h'
  all_goals cases ho

theorem upholds_user {p : P Unit} (h : User ps p) : Upholds exec ok (Staging s) t p :=
  User.holds (upholds_compositional hl).boxed
    (fun _ _ => ⟨upholds_idle hl (uses_act rfl), fun _ => upholds_idle hl (uses_act rfl)⟩)
    (fun _ _ ho => upholds_transfers hl ho) h

/-- **Every operation outside the lifecycle** upholds the invariant. -/
theorem upholds_invoke (hok : hk.Ok ps) {o : Op} (ho : o.lifecycle = false) :
    Upholds exec ok (Staging s) t (o.invoke ps hk) := by
  by_cases ht : o.transfers = true
  · exact upholds_transfers hl ht
  have hF : Boxed fun p => Upholds exec ok (Staging s) t p := (upholds_compositional hl).boxed
  exact hF.invoke (upholds_idle hl (uses_act rfl)) (fun _ => upholds_idle hl (uses_act rfl))
    (hF.body o ho (by simpa using ht) (fun r => upholds_user hl (hok.sdoReadCallback r))
      fun r => upholds_user hl (hok.sdoWriteCallback r))

/-! ## `update_service`, while the bus stays in service -/

/-- The bus stays in `Activated` or `Operational`. -/
def inService : Guard Act Ans Env St := fun _ a _ _ => ∀ b ∈ stored a, b = .activated ∨ b = .operational

/-- A bus in service compares with no other state. -/
theorem sustains_stateIn : ∀ (l : List BusState), (∀ b ∈ l, b ≠ .activated ∧ b ≠ .operational) →
    ∀ h, Sustains exec ok (Staging s) t (stateIn l) (fun o _ => ∀ b, o = .ret b → b = false) h
  | [], _, _ => fun b hb => by cases hb; rfl
  | b :: l, hb, h => by
    refine .bind (sustains_idle hl rfl fun i w hw _ => ?_)
    have hne : w.st.state ≠ b := fun h => by
      have := hb b List.mem_cons_self
      rcases hw.state with hs | hs
      · exact this.1 (h ▸ hs)
      · exact this.2 (h ▸ hs)
    change Sustains exec ok (Staging s) t (if w.st.state = b then _ else _) _ _
    rw [if_neg hne]
    exact sustains_stateIn l (fun b h => hb b (List.mem_cons_of_mem _ h)) _

/-- A shutdown would not leave the bus in service. -/
theorem upholds_shutdown : Upholds exec inService (Staging s) t (shutdown hk) := by
  have skip : ∀ (l : List BusState) {p q : P Unit}, (∀ b ∈ l, b ≠ .activated ∧ b ≠ .operational) →
      Upholds exec inService (Staging s) t q →
      Upholds exec inService (Staging s) t (stateIn l >>= fun b => if b = true then p else q) := by
    intro l p q hb hq h
    refine .seq (sustains_stateIn hl l hb h) fun b h' hf => ?_
    rw [hf b rfl]
    exact hq h'
  refine skip _ (by decide) (skip _ (by decide) (skip _ (by decide) ?_))
  refine .bind (upholds_plain hl (plain_stateIn _)) fun b => ?_
  split
  · refine fun h => .bind (.perform fun i w hok _ _ => ?_)
    rcases hok _ rfl with h | h <;> cases h
  · exact upholds_throw

/-- The service stores no state but `Operational`. -/
theorem upholds_bringOperational : Upholds exec inService (Staging s) t (bringOperational ps hk) := by
  have serving : ∀ {α : Type} {p : P α}, p.Uses Serving → Upholds exec inService (Staging s) t p :=
    fun hp => upholds_idle hl (hp.mono fun _ => Serving.idle)
  refine .bind (serving (uses_act (.inl rfl))) fun start => ?_
  refine .bind (.when (.bind (serving (uses_act (.inl rfl))) fun _ =>
    serving (uses_act (.inr rfl)))) fun _ => ?_
  refine .bind (upholds_plain hl plain_operationalTimeout) fun late => ?_
  refine .bind (.when (.bind (upholds_shutdown hl) fun _ => upholds_throw)) fun _ => ?_
  refine .bind (serving (Uses.forDevices (.inr rfl) (fun _ => .inl rfl) fun _ id => ?_)) fun _ => ?_
  · exact ((blind_setDeviceTargetState id _).mono fun _ => .inl).bind fun _ => trivial
  refine .bind (serving (uses_updateDeviceStates (.inr rfl))) fun _ => ?_
  refine .bind (serving (uses_allInOperational (.inr rfl) (fun _ => .inl rfl) fun _ => .inr rfl))
    fun all => .when fun h => .perform fun i w _ hw _ => ⟨hw.after hl fits_operational, trivial⟩

theorem upholds_updateService : Upholds exec inService (Staging s) t (updateService ps hk) := by
  refine .bind (upholds_plain hl (plain_stateIn _)) fun _ => .bind (upholds_plain hl
    Prog.uses_raiseIf) fun _ => ?_
  refine .bind (upholds_plain hl (plain_act rfl)) fun up => .bind (upholds_plain hl (plain_act rfl))
    fun _ => .bind (upholds_plain hl (plain_act rfl)) fun owns => ?_
  refine .bind (upholds_plain hl (Prog.uses_when (Prog.uses_withLock plain_drainMailboxEvents)))
    fun _ => .bind (upholds_plain hl (plain_stateIn _)) fun b => ?_
  split
  · exact .bind (upholds_bringOperational hl) fun _ => upholds_pure
  · refine .bind (.when (.bind (upholds_idle hl (uses_updateDeviceStates rfl)) fun _ => .when ?_))
      fun _ => upholds_pure
    exact upholds_plain hl plain_updateDiagnosticsSlow

end Layout

end EthercatInterface
