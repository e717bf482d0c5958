import EthercatInterface.Proof.Footprint
import EthercatInterface.Proof.Members

/-!
# Process data on its way

Outputs go from `set_generic_rx_pdo` to the staging buffer of a device, from there to
the outputs of its slave (`update_write`), and from there into a frame. Inputs go from a
frame to the inputs of the slave, and from there to the input buffer of the device
(`update_read`). A history says what is on each of these stations.

* `staged`, `lastCopy`, `inputsOf`, `shown`: the contents of the stations.
* `Staging`: what holds whenever no thread is inside a section. `Staging.after`: an action
  keeps it if it fits (`Fits`).
-/

namespace EthercatInterface

open Interleave

/-! ## The stations -/

/-- The id of the device at `p`. -/
def St.idOf (s : St) (p : Addr) : DeviceId := (s.dev p).deviceInfo.id

/-- The positions of the slaves. -/
def St.OnBus (s : St) (id : ℕ) : Prop := 1 ≤ id ∧ id ≤ s.context.ecatSlavecount

/-- The argument of the last `set_generic_rx_pdo` on `p`; a call counts from its section on. -/
def lastSet (p : Addr) (h : List Ev) : Option (List UInt8) := h.findSome? fun e => rxWritten p e.act

/-- The staging buffer of `p`. -/
def staged (s : St) (p : Addr) (h : List Ev) : List UInt8 := (lastSet p h).getD (s.dev p).rxPdo

/-- The bytes an action copies to the outputs of slave `id`. -/
def copiedTo (id : DeviceId) : Act → Option (List UInt8)
  | .copyToOutputs id' data => if id' = id then some data else none
  | _ => none

/-- The bytes copied last to the outputs of slave `id`. -/
def lastCopy (id : DeviceId) (h : List Ev) : Option (List UInt8) :=
  h.findSome? fun e => copiedTo id e.act

/-- The input bytes of slave `id` that came back with a frame. -/
def cameBack (id : DeviceId) : (a : Act) → Ans a → Option (List UInt8)
  | .ecxReceiveProcessdata, r => r.inputs id
  | _, _ => none

/-- The input bytes of slave `id` from the last cycle that received any. -/
def received (id : DeviceId) (h : List Ev) : Option (List UInt8) :=
  h.findSome? fun e => cameBack id e.act e.ans

/-- The inputs of slave `id` in the process image. -/
def inputsOf (s : St) (id : DeviceId) (h : List Ev) : List UInt8 :=
  (received id h).getD (s.ioMap.read (s.region id).inputs (s.region id).Ibytes)

/-- The past of the last `update_read` of `p`. -/
def lastRead (p : Addr) : List Ev → Option (List Ev)
  | [] => none
  | e :: h => if (txWritten p e.act).isSome then some h else lastRead p h

/-- The input buffer of `p`. -/
def shown (s : St) (p : Addr) (h : List Ev) : List UInt8 :=
  match lastRead p h with
  | none => (s.dev p).txPdo
  | some past => inputsOf s (s.idOf p) past

theorem staged_cons (s : St) (p : Addr) (e : Ev) (h : List Ev) :
    staged s p (e :: h) = (rxWritten p e.act).getD (staged s p h) := by
  rw [staged, lastSet, List.findSome?_cons]
  cases rxWritten p e.act <;> rfl

theorem lastCopy_cons (id : DeviceId) (e : Ev) (h : List Ev) :
    lastCopy id (e :: h) = (copiedTo id e.act).or (lastCopy id h) := by
  rw [lastCopy, List.findSome?_cons]
  cases copiedTo id e.act <;> rfl

theorem mem_copiedTo {id : DeviceId} {data : List UInt8} {a : Act} :
    data ∈ copiedTo id a ↔ a = .copyToOutputs id data := by
  constructor
  · intro h
    cases a
    case copyToOutputs id' data' =>
      simp only [copiedTo, Option.mem_def, Option.ite_none_right_eq_some, Option.some.injEq] at h
      rw [h.1, h.2]
    all_goals cases h
  · rintro rfl
    exact if_pos rfl

theorem inputsOf_cons (s : St) (id : DeviceId) (e : Ev) (h : List Ev) :
    inputsOf s id (e :: h) = (cameBack id e.act e.ans).getD (inputsOf s id h) := by
  rw [inputsOf, received, List.findSome?_cons]
  cases cameBack id e.act e.ans <;> rfl

/-! ## Cycles -/

def called : Act → Option Op
  | .call o => some o
  | _ => none

/-- The operation begun last. -/
def lastCall (h : List Ev) : Option Op := h.findSome? fun e => called e.act

theorem lastCall_cons (e : Ev) (h : List Ev) : lastCall (e :: h) = (called e.act).or (lastCall h) := by
  rw [lastCall, List.findSome?_cons]
  cases called e.act <;> rfl

/-- The past of the last copy to the outputs of slave `id` in the operation that thread `t`
has begun last. -/
def cycleWrite (t : ℕ) (id : DeviceId) : List Ev → Option (List Ev)
  | [] => none
  | e :: h =>
    if e.tid = t then
      if (called e.act).isSome then none
      else if (copiedTo id e.act).isSome then some h else cycleWrite t id h
    else cycleWrite t id h

/-- The frame an action sends. -/
def frameOf : (a : Act) → Ans a → Option Sent
  | .ecxSendProcessdata, sent => some sent
  | _, _ => none

/-- What an action reads from the input buffer of `p`. -/
def gotTx (p : Addr) : (a : Act) → Ans a → Option (List UInt8)
  | .getTxPdo q, r => if p = q then some r else none
  | _, _ => none

/-- A copy by `update_rt` takes the staging buffer of a device to the outputs of its slave. -/
def Copies (s : St) : List Ev → Prop := Always fun e h =>
  ∀ id, ∀ data ∈ copiedTo id e.act, lastCall (own e.tid h) = some .updateRt →
    ∃ p ∈ s.devices, s.idOf p = id ∧ data = staged s p h

/-- A frame holds what was copied last, after an `update_write` of every device in its cycle. -/
def Sends (s : St) : List Ev → Prop := Always fun e h =>
  ∀ sent ∈ frameOf e.act e.ans, (∀ id, ∀ data ∈ lastCopy id h, sent.frame id = data) ∧
    ∀ p ∈ s.devices, (cycleWrite e.tid (s.idOf p) h).isSome

/-- What is read from an input buffer is what is in it. -/
def Gets (s : St) : List Ev → Prop := Always fun e h =>
  ∀ p, ∀ bytes ∈ gotTx p e.act e.ans, bytes = shown s p h

/-! ## The invariant -/

/-- No two slaves share a byte of the process image, and no outputs overlap any inputs. -/
structure Layout (s : St) : Prop where
  outputs : ∀ id id', s.OnBus id → s.OnBus id' → id ≠ id' →
    Apart (s.region id).outputs (s.region id).Obytes (s.region id').outputs (s.region id').Obytes
  inputs : ∀ id id', s.OnBus id → s.OnBus id' → id ≠ id' →
    Apart (s.region id).inputs (s.region id).Ibytes (s.region id').inputs (s.region id').Ibytes
  across : ∀ id id', s.OnBus id → s.OnBus id' →
    Apart (s.region id).outputs (s.region id).Obytes (s.region id').inputs (s.region id').Ibytes

/-- What holds between sections, from the state `s` on. -/
structure Staging (s : St) (w : W) : Prop where
  state : w.st.state = .activated ∨ w.st.state = .operational
  devices : w.st.devices = s.devices
  idOf : ∀ p, w.st.idOf p = s.idOf p
  slavecount : w.st.context.ecatSlavecount = s.context.ecatSlavecount
  region : w.st.region = s.region
  rxPdo : ∀ p, (w.st.dev p).rxPdo = staged s p w.hist
  outputs : ∀ id, ∀ data ∈ lastCopy id w.hist, s.OnBus id ∧
    w.st.ioMap.read (s.region id).outputs (s.region id).Obytes = data
  inputs : ∀ id, s.OnBus id →
    w.st.ioMap.read (s.region id).inputs (s.region id).Ibytes = inputsOf s id w.hist
  txPdo : ∀ p, (w.st.dev p).txPdo = shown s p w.hist
  copies : Copies s w.hist
  sends : Sends s w.hist
  gets : Gets s w.hist

theorem Staging.start {s : St} (hs : s.state = .activated ∨ s.state = .operational) :
    Staging s ⟨s, []⟩ where
  state := hs
  devices := rfl
  idOf _ := rfl
  slavecount := rfl
  region := rfl
  rxPdo _ := rfl
  outputs _ _ h := by cases h
  inputs _ _ := rfl
  txPdo _ := rfl
  copies := trivial
  sends := trivial
  gets := trivial

/-! ## One action -/

/-- Sets the bus up, or takes it down. -/
def Act.rebuilds (a : Act) : Bool := a.emplaces || a.clears || a.rebuffers || a.remaps || a.resizes

/-- What has to hold for `a` to be in order in the world `w`. -/
structure Fits (s : St) (t : ℕ) (a : Act) (w : W) : Prop where
  rebuilds : a.rebuilds = false
  stored : ∀ b ∈ stored a, b = .activated ∨ b = .operational
  copied : ∀ id, ∀ data ∈ copiedTo id a, s.OnBus id ∧ data.length = (s.region id).Obytes
  staged : ∀ id, ∀ data ∈ copiedTo id a, lastCall (own t w.hist) = some .updateRt →
    ∃ p ∈ s.devices, s.idOf p = id ∧ data = staged s p w.hist
  sent : a = .ecxSendProcessdata → ∀ p ∈ s.devices, (cycleWrite t (s.idOf p) w.hist).isSome
  handed : ∀ p, ∀ data ∈ txWritten p a, data = inputsOf s (s.idOf p) w.hist

theorem shown_cons (s : St) (p : Addr) (e : Ev) (h : List Ev) :
    shown s p (e :: h) =
      if (txWritten p e.act).isSome then inputsOf s (s.idOf p) h else shown s p h := by
  unfold shown
  rw [lastRead]
  by_cases he : (txWritten p e.act).isSome
  · simp [he]
  · simp [he]

/-- The bytes stored for a slave fill its inputs. -/
theorem length_received {s : St} {i : Env} {id : DeviceId} {bs : List UInt8}
    (h : s.received i id = some bs) : bs.length = (s.region id).Ibytes := by
  simp only [St.received] at h
  split at h
  · obtain ⟨bs', -, rfl⟩ := Option.map_eq_some_iff.1 h
    exact length_resize _ _ _
  · cases h

section Step

variable {s : St} {t : ℕ} {a : Act} {i : Env} {w : W} (hl : Layout s) (hw : Staging s w)
  (hf : Fits s t a w)
include hw

theorem Staging.onBus {id : DeviceId} (h : id ∈ List.range' 1 w.st.context.ecatSlavecount) :
    s.OnBus id := by
  obtain ⟨h1, hn⟩ := List.mem_range'_1.1 h
  rw [hw.slavecount] at hn
  exact ⟨h1, by omega⟩

include hf in
theorem Staging.rxPdo_after (p : Addr) :
    ((w.after exec t a i).st.dev p).rxPdo = staged s p (w.after exec t a i).hist := by
  have hr := hf.rebuilds
  simp only [Act.rebuilds, Bool.or_eq_false_iff] at hr
  rw [World.after_st, World.after_hist, staged_cons, rxPdo_exec hr.1.1.1.1 hr.1.1.2, hw.rxPdo]

include hf in
theorem Staging.txPdo_after (p : Addr) :
    ((w.after exec t a i).st.dev p).txPdo = shown s p (w.after exec t a i).hist := by
  have hr := hf.rebuilds
  simp only [Act.rebuilds, Bool.or_eq_false_iff] at hr
  rw [World.after_st, World.after_hist, shown_cons, txPdo_exec hr.1.1.1.1 hr.1.1.2, hw.txPdo]
  cases h : txWritten p a with
  | none => rfl
  | some data => exact hf.handed p data h

include hl hf in
/-- The outputs of a slave stay as they are unless they are written. -/
theorem Staging.outputs_kept {id : DeviceId} (hid : s.OnBus id) (hn : copiedTo id a = none) :
    (w.after exec t a i).st.ioMap.read (s.region id).outputs (s.region id).Obytes =
      w.st.ioMap.read (s.region id).outputs (s.region id).Obytes := by
  have hr := hf.rebuilds
  simp only [Act.rebuilds, Bool.or_eq_false_iff] at hr
  rw [World.after_st]
  cases a
  case copyToOutputs id' data =>
    have hne : id' ≠ id := fun h => by simp [copiedTo, h] at hn
    obtain ⟨hid', hlen⟩ := hf.copied id' data (mem_copiedTo.2 rfl)
    change (w.st.ioMap.write (w.st.region id').outputs data).read _ _ = _
    rw [hw.region]
    exact Memory.read_write_apart _ (hlen ▸ hl.outputs id id' hid hid' hne.symm)
  case ecxReceiveProcessdata =>
    refine Memory.read_scatter_apart (fun id' hid' bs hbs => ?_) _
    change Apart _ _ (w.st.region id').inputs _
    rw [length_received hbs, hw.region]
    exact hl.across id id' hid (hw.onBus hid')
  all_goals rw [ioMap_exec hr.2 rfl]

include hl hf in
theorem Staging.outputs_after (id : DeviceId) (data : List UInt8)
    (hd : data ∈ lastCopy id (w.after exec t a i).hist) : s.OnBus id ∧
      (w.after exec t a i).st.ioMap.read (s.region id).outputs (s.region id).Obytes = data := by
  rw [World.after_hist, lastCopy_cons] at hd
  cases hc : copiedTo id a with
  | none =>
    rw [hc] at hd
    obtain ⟨hid, hread⟩ := hw.outputs id data hd
    exact ⟨hid, (hw.outputs_kept hl hf hid hc).trans hread⟩
  | some data' =>
    rw [hc] at hd
    obtain rfl : data' = data := Option.some.inj hd
    obtain ⟨hid, hlen⟩ := hf.copied id data' hc
    obtain rfl := mem_copiedTo.1 hc
    refine ⟨hid, ?_⟩
    change (w.st.ioMap.write (w.st.region id).outputs data').read _ _ = _
    rw [hw.region, ← hlen]
    exact Memory.read_write _ _ _

include hl hf in
theorem Staging.inputs_after (id : DeviceId) (hid : s.OnBus id) :
    (w.after exec t a i).st.ioMap.read (s.region id).inputs (s.region id).Ibytes =
      inputsOf s id (w.after exec t a i).hist := by
  have hr := hf.rebuilds
  simp only [Act.rebuilds, Bool.or_eq_false_iff] at hr
  rw [World.after_st, World.after_hist, inputsOf_cons, ← hw.inputs id hid]
  -- two actions write to the image: one to outputs only, the other to every input
  cases a
  case copyToOutputs id' data =>
    obtain ⟨hid', hlen⟩ := hf.copied id' data (mem_copiedTo.2 rfl)
    change (w.st.ioMap.write (w.st.region id').outputs data).read _ _ = _
    rw [hw.region]
    exact Memory.read_write_apart _ (hlen ▸ (hl.across id' id hid' hid).symm)
  case ecxReceiveProcessdata =>
    have hmem : id ∈ List.range' 1 w.st.context.ecatSlavecount := by
      obtain ⟨h1, hn⟩ := hid
      rw [List.mem_range'_1, hw.slavecount]
      exact ⟨h1, by omega⟩
    change (w.st.ioMap.scatter (fun j => (w.st.region j).inputs) (w.st.received i) _).read _ _ = _
    rw [hw.region]
    refine Memory.read_scatter hmem List.nodup_range' (fun bs hbs => ?_)
      (fun id' hid' hne bs hbs => ?_) _
    · rw [length_received hbs, hw.region]
    · rw [length_received hbs, hw.region]
      exact hl.inputs id id' hid (hw.onBus hid') hne.symm
  all_goals rw [ioMap_exec hr.2 rfl]; rfl

include hf in
theorem Staging.sends_after : Sends s (w.after exec t a i).hist := by
  refine ⟨fun sent hs => ?_, hw.sends⟩
  cases a <;> cases hs
  refine ⟨fun id data hd => ?_, hf.sent rfl⟩
  change w.st.ioMap.read (w.st.region id).outputs (w.st.region id).Obytes = data
  rw [hw.region]
  exact (hw.outputs id data hd).2

theorem Staging.gets_after : Gets s (w.after exec t a i).hist := by
  refine ⟨fun p bytes hg => ?_, hw.gets⟩
  rw [← hw.txPdo p]
  cases a
  case getTxPdo q =>
    simp only [gotTx, Option.mem_def, Option.ite_none_right_eq_some, Option.some.injEq] at hg
    obtain ⟨rfl, rfl⟩ := hg
    rfl
  all_goals cases hg

include hl hf in
/-- **One action** that fits. -/
theorem Staging.after : Staging s (w.after exec t a i) := by
  have hr := hf.rebuilds
  simp only [Act.rebuilds, Bool.or_eq_false_iff] at hr
  obtain ⟨⟨⟨⟨he, hc⟩, hb⟩, hm⟩, -⟩ := hr
  exact {
    state := by
      rw [World.after_st, state_exec]
      cases hs : stored a with
      | none => exact hw.state
      | some b => exact hf.stored b hs
    devices := (devices_exec he hc i w.st).trans hw.devices
    idOf := fun p => (deviceId_exec he i w.st p).trans (hw.idOf p)
    slavecount := (slavecount_exec hm i w.st).trans hw.slavecount
    region := (region_exec hm i w.st).trans hw.region
    rxPdo := hw.rxPdo_after hf
    outputs := hw.outputs_after hl hf
    inputs := hw.inputs_after hl hf
    txPdo := hw.txPdo_after hf
    copies := ⟨hf.staged, hw.copies⟩
    sends := hw.sends_after hf
    gets := hw.gets_after }

end Step

end EthercatInterface
