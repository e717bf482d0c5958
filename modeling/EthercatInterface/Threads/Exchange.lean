import Mathlib.Data.List.Infix
import EthercatInterface.Threads.Accessors

/-!
# The last set goes out, the last frame comes in

One thread runs cycles, any thread calls the accessors of the devices.
`exchange_in_order`: in every interleaving a frame carries, for each device, what was set last
before the `update_write` of its cycle, what is set is the argument of a `set_generic_rx_pdo`,
once for each call that succeeds, and `get_generic_tx_pdo` returns the inputs of the last cycle
whose `update_read` had run at some moment of the call.

* `driving`: only the cyclic thread copies outputs, and only in `update_rt`.
* `lastCopy_eq`: what was copied in a cycle is what was staged then, until the next copy.
-/

namespace EthercatInterface

open Interleave

variable {s : St} {rt : ℕ} {ps : Parameters}

/-! ## The property -/

def zeros (n : ℕ) : List UInt8 := List.replicate n 0

/-- A mapped bus in service: slaves share no bytes, devices are different slaves, and no
process data has been exchanged yet. -/
structure Ready (s : St) : Prop where
  state : s.state = .activated ∨ s.state = .operational
  layout : Layout s
  ids : ∀ p ∈ s.devices, ∀ q ∈ s.devices, s.idOf p = s.idOf q → p = q
  rxPdo : ∀ p ∈ s.devices, (s.dev p).rxPdo = zeros (s.region (s.idOf p)).Obytes
  txPdo : ∀ p ∈ s.devices, (s.dev p).txPdo = zeros (s.region (s.idOf p)).Ibytes
  inputs : ∀ p ∈ s.devices, s.ioMap.read (s.region (s.idOf p)).inputs (s.region (s.idOf p)).Ibytes =
    zeros (s.region (s.idOf p)).Ibytes

/-- The calls: cycles on thread `rt`, the generic accessors of the devices on every thread. -/
def cyclic (ps : Parameters) (rt t : ℕ) (p : P Unit) : Prop :=
  ∃ (o : Op) (hk : UserCode), hk.Ok ps ∧ p = o.invoke ps hk ∧ match o with
    | .updateRt => t = rt
    | .getGenericRxPdo _ _ | .setGenericRxPdo _ _ | .getGenericTxPdo _ _ => True
    | _ => False

/-- A frame carries for each device what was set last before the copy of its cycle. -/
def SentInOrder (s : St) : List Ev → Prop := Always fun e h =>
  ∀ sent ∈ frameOf e.act e.ans, ∀ p ∈ s.devices, ∃ past ∈ cycleWrite e.tid (s.idOf p) h,
    sent.frame (s.idOf p) = (lastSet p past).getD (zeros (s.region (s.idOf p)).Obytes)

/-- A call of `get_generic_tx_pdo` that succeeds has returned the inputs of the last cycle received
before the last `update_read` of the device, as of a moment of the call. -/
def ReturnedInOrder (s : St) : List Ev → Prop := Always fun e h =>
  ∀ p ∈ s.devices, ∀ n, e.act = .done (.getGenericTxPdo p n) true →
    ∃ bytes past, Handed e.tid p n bytes past h ∧
      bytes = ((lastRead p past).bind (received (s.idOf p))).getD (zeros (s.region (s.idOf p)).Ibytes)

/-! ## Who copies -/

def Act.drives : Act → Bool
  | .copyToOutputs _ _ | .ecxSendProcessdata => true
  | _ => false

/-- Outputs are copied and sent by the cyclic thread, in `update_rt`. -/
def driving (rt t : ℕ) (a : Act) (h : List Ev) : Prop :=
  a.drives = true → t = rt ∧ lastCall h = some .updateRt

/-- The promise, of a whole history. -/
def Driven (rt : ℕ) : List Ev → Prop := Always fun e h => driving rt e.tid e.act (own e.tid h)

theorem driving_idle {t : ℕ} {a : Act} (ha : a.drives = false) (h : List Ev) : driving rt t a h :=
  fun hd => by rw [ha] at hd; cases hd

theorem driving_plain {t : ℕ} (a : Act) (ha : Plain a) (h : List Ev) : driving rt t a h :=
  driving_idle (by cases a <;> first | rfl | cases ha) h

/-- Inside `update_rt`, the last call is `update_rt`. -/
theorem driving_updateRt {hk : UserCode} : Honours (driving rt rt) rt (Op.updateRt.invoke ps hk) := by
  intro h
  have hbody : (Op.updateRt.body ps hk).Uses Inner :=
    Uses.void (uses_updateRt (fun _ h => h.plain.inner) fun a ha => by cases a <;> first | rfl | cases ha)
  have hinner : ∀ a, Inner a → ∀ r h, lastCall h = some .updateRt →
      driving rt rt a h ∧ lastCall (⟨rt, a, r⟩ :: h) = some .updateRt :=
    fun a ha r h hc => ⟨fun _ => ⟨rfl, hc⟩, (lastCall_inner ha r).trans hc⟩
  refine .bind (.perform (driving_idle rfl h) fun r => ?_)
  refine .seq (Obeys.uses hinner hbody.attempt (lastCall_cons _ _)) fun x h₁ _ => ?_
  have done : ∀ b, Honours (driving rt rt) rt (act (.done .updateRt b)) := fun b =>
    honours_act (driving_idle rfl)
  cases x with
  | ok x => exact done true h₁
  | error e => exact (done false).bind (fun _ => honours_throw) h₁

theorem driving_cyclic {t : ℕ} (p : P Unit) (hp : cyclic ps rt t p) : Honours (driving rt t) t p := by
  obtain ⟨o, hk, -, rfl, ho⟩ := hp
  have accessor : ∀ {o : Op}, (o.body ps hk).Uses Plain → Honours (driving rt t) t (o.invoke ps hk) :=
    fun hb => Honours.invoke (driving_idle rfl) (fun _ => driving_idle rfl)
      (honours_plain driving_plain hb)
  cases o
  case updateRt => obtain rfl : t = rt := ho; exact driving_updateRt
  case getGenericRxPdo p n => exact accessor (Fits.plain (Fits.void (Fits.still (tacit_getGenericRxPdo p n))))
  case setGenericRxPdo p rx =>
    refine Honours.invoke (driving_idle rfl) (fun _ => driving_idle rfl) ?_
    exact .uses (S := fun a => ∀ h, driving rt t a h) (fun _ ha => ha) (fits_setGenericRxPdo
      (V := AnyLock) (fun a ha => driving_plain a ha.modest.still.plain) trivial (driving_idle rfl)).uses
  case getGenericTxPdo p n => exact accessor (Fits.plain (Fits.void (Fits.still (tacit_getGenericTxPdo p n))))
  all_goals cases ho

theorem upholds_cyclic {t : ℕ} (hl : Layout s) {p : P Unit} (hp : cyclic ps rt t p) :
    Upholds exec free (Staging s) t p := by
  obtain ⟨o, hk, hok, rfl, ho⟩ := hp
  refine upholds_invoke hl hok ?_
  cases o <;> first | rfl | cases ho

theorem faithful_cyclic {t : ℕ} (p : P Unit) (hp : cyclic ps rt t p) : Honours (faithful t) t p := by
  obtain ⟨o, hk, -, rfl, ho⟩ := hp
  have plain : ∀ {o : Op}, (∀ b, (Act.done o b).promised = false) → (o.body ps hk).Uses Plain →
      Honours (faithful t) t (o.invoke ps hk) := fun hd hb =>
    faithful_invoke hd (hb.mono fun a ha => by cases a <;> first | rfl | cases ha)
  cases o
  case updateRt =>
    exact faithful_invoke (fun _ => rfl) (Uses.void (uses_updateRt
      (fun a ha => by cases a <;> first | rfl | cases ha)
      fun a ha => by cases a <;> first | rfl | cases ha))
  case getGenericRxPdo p n =>
    exact plain (fun _ => rfl) (Fits.plain (Fits.void (Fits.still (tacit_getGenericRxPdo p n))))
  case setGenericRxPdo p rx => exact faithful_setGenericRxPdo rx
  case getGenericTxPdo p n => exact faithful_getGenericTxPdo n
  all_goals cases ho

/-! ## What a frame carries -/

/-- What the cyclic thread copied in its cycle was staged then, and nothing has been copied since. -/
theorem lastCopy_eq {id : DeviceId} {past : List Ev} {h : List Ev} (hc : Copies s h)
    (hd : Driven rt h) (hw : cycleWrite rt id h = some past) :
    ∃ p ∈ s.devices, s.idOf p = id ∧ lastCopy id h = some (staged s p past) := by
  induction h with
  | nil => cases hw
  | cons e h ih =>
    obtain ⟨u, a, r⟩ := e
    rw [lastCopy_cons]
    -- only the cyclic thread copies, so what another one does is skipped
    cases hcopy : copiedTo id a with
    | none =>
      by_cases hu : u = rt
      · subst hu
        rw [cycleWrite_self, hcopy] at hw
        split at hw
        · cases hw
        · exact ih hc.2 hd.2 hw
      · rw [cycleWrite_ne hu] at hw
        exact ih hc.2 hd.2 hw
    | some data =>
      obtain ⟨rfl, hcall⟩ := hd.1 (by cases mem_copiedTo.1 hcopy; rfl)
      obtain ⟨p, hp, hid, rfl⟩ := hc.1 id data hcopy hcall
      rw [cycleWrite_self, hcopy] at hw
      split at hw
      · cases hw
      · cases hw
        exact ⟨p, hp, hid, rfl⟩

theorem sentInOrder_of {h : List Ev} (hs : Ready s) (hc : Copies s h) (hsend : Sends s h)
    (hd : Driven rt h) : SentInOrder s h := by
  induction h with
  | nil => trivial
  | cons e h ih =>
    refine ⟨fun sent hsent p hp => ?_, ih hc.2 hsend.2 hd.2⟩
    obtain ⟨hframe, hwritten⟩ := hsend.1 sent hsent
    obtain ⟨past, hpast⟩ := Option.isSome_iff_exists.1 (hwritten p hp)
    have ht : e.tid = rt := by
      obtain ⟨u, a, r⟩ := e
      cases a <;> cases hsent
      exact (hd.1 rfl).1
    rw [ht] at hpast ⊢
    obtain ⟨q, hq, hid, hlast⟩ := lastCopy_eq hc.2 hd.2 hpast
    obtain rfl := hs.ids q hq p hp hid
    refine ⟨past, hpast, ?_⟩
    rw [hframe _ _ hlast, staged, hs.rxPdo q hq]

theorem returnedInOrder_of {h : List Ev} (hs : Ready s) (hg : Gets s h) (hf : Faithful h) :
    ReturnedInOrder s h := by
  refine always_of_suffix fun e h' hsuf p hp n he => ?_
  obtain ⟨bytes, past, hh, hpast⟩ := (hf.handed.suffix hsuf).1 p n he
  -- what was read then is what was in the buffer then
  have hread : bytes = shown s p past :=
    (hg.suffix (hpast.trans ((List.suffix_cons _ _).trans hsuf))).1 p bytes (if_pos rfl)
  refine ⟨bytes, past, hh, hread.trans ?_⟩
  rw [shown]
  cases lastRead p past with
  | none => exact hs.txPdo p hp
  | some past =>
    change inputsOf s (s.idOf p) past = _
    rw [inputsOf, hs.inputs p hp]
    rfl

section Exchange

variable {c : Conf Act Ans (List Mutex) Exn St}
  (hr : Reaches exec free (cyclic ps rt) (Conf.idle ⟨s, []⟩) c)
include hr

theorem reaches_staging (hs : Ready s) : Staging s c.world :=
  reaches_sustains (J := Staging s) (fun _ _ hp => upholds_cyclic hs.layout hp) hr (Staging.start hs.state)

theorem reaches_driven : Driven rt c.world.hist :=
  (reaches_inv (P := driving rt) (J := fun w => Driven rt w.hist)
    (fun _ p hp => driving_cyclic p hp) (fun _ _ _ _ _ ha hw => ⟨ha, hw⟩) hr (keeps_idle _ _) trivial).2

theorem reaches_faithful : Faithful c.world.hist :=
  (reaches_inv (P := faithful) (J := fun w => Faithful w.hist)
    (fun _ p hp => faithful_cyclic p hp) (fun _ _ _ _ _ ha hw => ⟨ha, hw⟩) hr (keeps_idle _ _) trivial).2

/-- **In every interleaving** the last set goes out, and the inputs of the last cycle come in. -/
theorem exchange_in_order (hs : Ready s) :
    SentInOrder s c.world.hist ∧ SetsInOrder c.world.hist ∧ ReturnedInOrder s c.world.hist := by
  have hw := reaches_staging hr hs
  have hf := reaches_faithful hr
  exact ⟨sentInOrder_of hs hw.copies hw.sends (reaches_driven hr), hf.sets, returnedInOrder_of hs hw.gets hf⟩

end Exchange

/-! ## A bus with one device -/

/-- `startup`, with a mapping of one output byte and one input byte behind it. -/
def startupBoth : Call :=
  { op := .startup
    env := List.replicate 7 {} ++ [{ ret := 2, slaves := fun _ =>
      { Obytes := 1, outputs := 0, Ibytes := 1, inputs := 1 } }] }

/-- A bus with one device of one output byte and one input byte, in state `Activated`. -/
def mappedOne : St := (world [initializeOne, startupBoth, activateOne]).st

theorem layout_mappedOne : Layout mappedOne := by
  have one : ∀ id, mappedOne.OnBus id → id = 1 := by
    rintro id ⟨h1, hn⟩
    rw [show mappedOne.context.ecatSlavecount = 1 from rfl] at hn
    omega
  constructor
  · intro id id' h h' hne
    exact absurd ((one id h).trans (one id' h').symm) hne
  · intro id id' h h' hne
    exact absurd ((one id h).trans (one id' h').symm) hne
  · intro id id' h h'
    obtain rfl := one id h
    obtain rfl := one id' h'
    exact .inr (.inr (.inl (by decide)))

theorem ready_mappedOne : Ready mappedOne where
  state := .inl rfl
  layout := layout_mappedOne
  ids := by decide
  rxPdo := by decide
  txPdo := by decide
  inputs := by decide

/-- Thread 1 sets the output, thread 0 runs a cycle, thread 1 gets the input. -/
def setCycleGet : List (Choice Act Ans (List Mutex) Exn Env) :=
  .call 1 (Op.invoke {} .none (.setGenericRxPdo 0 [7])) :: Choice.steps 1 6 ++
    .call 0 (Op.invoke {} .none .updateRt) :: Choice.steps 0 6 ++
    .step 0 [({} : Env), { inputs := fun _ => some [9] }] :: Choice.steps 0 8 ++
    .call 1 (Op.invoke {} .none (.getGenericTxPdo 0 1)) :: Choice.steps 1 6

theorem cyclic_setCycleGet (t : ℕ) (p : P Unit) (hp : Choice.call t p ∈ setCycleGet) :
    cyclic {} 0 t p := by
  simp only [setCycleGet, List.append_assoc, List.cons_append, List.mem_append, Choice.call_mem_call,
    Choice.call_mem_step, Choice.call_mem_steps, false_or, or_false] at hp
  rcases hp with ⟨rfl, rfl⟩ | ⟨rfl, rfl⟩ | ⟨rfl, rfl⟩
  · exact ⟨.setGenericRxPdo 0 [7], .none, UserCode.none_ok _, rfl, trivial⟩
  · exact ⟨.updateRt, .none, UserCode.none_ok _, rfl, rfl⟩
  · exact ⟨.getGenericTxPdo 0 1, .none, UserCode.none_ok _, rfl, trivial⟩

theorem reaches_setCycleGet : Reaches exec free (cyclic {} 0) (Conf.idle ⟨mappedOne, []⟩)
    ((Conf.idle ⟨mappedOne, []⟩).follow exec setCycleGet) :=
  reaches_follow cyclic_setCycleGet

/-- What has been done by then. -/
def setCycleGetHist : List Ev := ((Conf.idle ⟨mappedOne, []⟩).follow exec setCycleGet).world.hist

/-- The operation that is over, and whether it has succeeded. -/
def ended : Act → Option (Op × Bool)
  | .done o ok => some (o, ok)
  | _ => none

theorem ended_eq_some {a : Act} {o : Op} {ok : Bool} (h : ended a = some (o, ok)) : a = .done o ok := by
  cases a <;> cases h
  rfl

/-- The call returned the input that came back, whenever it read it. -/
theorem returned_setCycleGet (hret : ReturnedInOrder mappedOne setCycleGetHist) :
    ∃ e past h, e :: h <:+ setCycleGetHist ∧ e.tid = 1 ∧ e.act = .done (.getGenericTxPdo 0 1) true ∧
      Handed 1 0 1 [9] past h := by
  have hdone : (setCycleGetHist.head?.map fun e => (e.tid, ended e.act)) =
      some (1, some (.getGenericTxPdo 0 1, true)) := by decide +kernel
  have hnine : ∀ past ∈ setCycleGetHist.tails, (∃ e ∈ past, called e.act = some (.getGenericTxPdo 0 1)) →
      ((lastRead 0 past).bind (received (mappedOne.idOf 0))).getD
        (zeros (mappedOne.region (mappedOne.idOf 0)).Ibytes) = [9] := by decide +kernel
  obtain ⟨e, he, hd⟩ := Option.map_eq_some_iff.1 hdone
  obtain ⟨ht, ha⟩ := Prod.mk.inj hd
  obtain ⟨h, hh⟩ := List.head?_eq_some_iff.1 he
  have hact := ended_eq_some ha
  have hsuf : e :: h <:+ setCycleGetHist := hh ▸ List.suffix_rfl
  obtain ⟨bytes, past, ⟨earlier, hy, hcall, hpast⟩, hb⟩ := (hret.suffix hsuf).1 0 (by decide) 1 hact
  have hin : ∃ e ∈ past, called e.act = some (.getGenericTxPdo 0 1) :=
    ⟨_, mem_of_mem_own (hcall.subset List.mem_cons_self), rfl⟩
  obtain rfl := hb.trans
    (hnine past ((List.mem_tails _ _).2 (hpast.trans ((List.suffix_cons _ _).trans hsuf))) hin)
  rw [ht] at hy hcall
  exact ⟨e, past, h, hsuf, ht, hact, earlier, hy, hcall, hpast⟩

/-- A call sets 7, the frame carries it, and a call returns the 9 that came back. -/
theorem exchange_in_order_setCycleGet :
    (∃ e ∈ setCycleGetHist, ended e.act = some (.setGenericRxPdo 0 [7], true)) ∧
    (∃ e ∈ setCycleGetHist, ∃ sent ∈ frameOf e.act e.ans, sent.frame 1 = [7]) ∧
    (∃ e past h, e :: h <:+ setCycleGetHist ∧ e.tid = 1 ∧ e.act = .done (.getGenericTxPdo 0 1) true ∧
      Handed 1 0 1 [9] past h) ∧
    SentInOrder mappedOne setCycleGetHist ∧ SetsInOrder setCycleGetHist ∧
      ReturnedInOrder mappedOne setCycleGetHist := by
  have h := exchange_in_order reaches_setCycleGet ready_mappedOne
  have hsent : (setCycleGetHist.any fun e =>
      (frameOf e.act e.ans).any fun sent => sent.frame 1 = [7]) = true := by decide +kernel
  refine ⟨by decide +kernel, ?_, returned_setCycleGet h.2.2, h⟩
  simpa [List.any_eq_true, Option.any_eq_true] using hsent

end EthercatInterface
