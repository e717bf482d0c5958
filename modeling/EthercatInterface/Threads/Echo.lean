import EthercatInterface.Lib.Pipeline
import EthercatInterface.Threads.Exchange

/-!
# What is set comes back

Process data goes round: from the staging buffer of a device to the outputs of its slave,
with a frame to the slave, back with a frame, and into the input buffer of the device. If
the slave answers its outputs some frames later, `echo_in_order` says of everything
`get_generic_tx_pdo` returns which `set_generic_rx_pdo` it is the answer to, that
answers come in the order of their sets, and that they come within so many cycles.

* `source`: when the contents of the input buffer left the staging buffer.
* `Tours`: a cycle that succeeds has taken the data of every device along.
-/

namespace EthercatInterface

open Interleave

variable {s : St} {rt n : ℕ} {ps : Parameters} {p : Addr} {h : List Ev}

/-! ## The property -/

/-- A slave that answers what a frame brings `delay` frames later, and has inputs before. -/
structure Responder where
  delay : ℕ
  idle : List UInt8
  respond : List UInt8 → List UInt8

variable {slave : Responder}

/-- The slave at position `id` does so. -/
def Responds (slave : Responder) (id : DeviceId) : List Ev → Prop := Always fun e h =>
  ∀ bytes ∈ cameBack id e.act e.ans, bytes =
    ((h.filterMap fun e => frameOf e.act e.ans)[slave.delay]?).elim slave.idle
      fun sent => slave.respond (sent.frame id)

instance (slave : Responder) (id : DeviceId) : DecidablePred (Responds slave id) := fun _ =>
  inferInstanceAs (Decidable (Always _ _))

/-- Copies the inputs of its slave to the input buffer of `p`. -/
def takes (p : Addr) (e : Ev) : Bool := (txWritten p e.act).isSome

/-- Brings inputs of slave `id`. -/
def brings (id : DeviceId) (e : Ev) : Bool := (cameBack id e.act e.ans).isSome

/-- Sends a frame. -/
def sends (e : Ev) : Bool := (frameOf e.act e.ans).isSome

/-- Copies a staging buffer to the outputs of slave `id`. -/
def copies (id : DeviceId) (e : Ev) : Bool := (copiedTo id e.act).isSome

/-- The stations of process data that is answered `n` frames later, the last one first. -/
def stations (s : St) (n : ℕ) (p : Addr) : List (Ev → Bool) :=
  [takes p, brings (s.idOf p)] ++ (List.replicate n sends ++ [sends, copies (s.idOf p)])

/-- When the contents of the input buffer of `p` left the staging buffer. -/
def source (s : St) (n : ℕ) (p : Addr) (h : List Ev) : Option (List Ev) := back (stations s n p) h

/-- A call of `update_rt` on thread `rt` began after `earlier`, and has succeeded. -/
structure Lap (rt : ℕ) (earlier during h : List Ev) : Prop where
  done : ⟨rt, .done .updateRt true, ()⟩ :: (during ++ ⟨rt, .call .updateRt, ()⟩ :: earlier) <:+ h
  quiet : ∀ e ∈ during, e.tid = rt → (called e.act).isNone

/-- `n` of them, one after the other. -/
def Laps (rt : ℕ) : ℕ → List Ev → List Ev → Prop
  | 0, earlier, h => earlier <:+ h
  | n + 1, earlier, h => ∃ before during, Laps rt n earlier before ∧ Lap rt before during h

/-- The bytes handed out answer the last set before their source. Sources do not go back in
time, and no set is missed that came before `delay` cycles and one more that brings inputs. -/
structure Echoed (s : St) (rt : ℕ) (slave : Responder) (p : Addr) (bytes : List UInt8)
    (h : List Ev) : Prop where
  answer : ∀ past ∈ source s slave.delay p h,
    bytes = slave.respond ((lastSet p past).getD (zeros (s.region (s.idOf p)).Obytes))
  unanswered : source s slave.delay p h = none →
    bytes = zeros (s.region (s.idOf p)).Ibytes ∨ bytes = slave.idle
  ordered : ∀ h', h' <:+ h → ∀ past ∈ source s slave.delay p h',
    ∃ past' ∈ source s slave.delay p h, past <:+ past'
  recent : ∀ earlier before during, Laps rt slave.delay earlier before → Lap rt before during h →
    (∃ e ∈ during, e.tid = rt ∧ brings (s.idOf p) e = true) →
    ∃ past ∈ source s slave.delay p h, earlier <:+ past

/-! ## Where the contents come from -/

theorem lastRead_eq (p : Addr) (h : List Ev) : lastRead p h = latest (takes p) h := by
  induction h with
  | nil => rfl
  | cons e h ih =>
    rw [lastRead, latest, ih]
    rfl

/-- What was copied to the outputs of the slave of `p` was staged then. -/
theorem latest_copies (hs : Ready s) (hc : Copies s h) (hd : Driven rt h) (hp : p ∈ s.devices)
    (hw : (cycleWrite rt (s.idOf p) h).isSome) :
    ∃ past, latest (copies (s.idOf p)) h = some past ∧ lastCopy (s.idOf p) h = some (staged s p past) := by
  obtain ⟨written, hw⟩ := Option.isSome_iff_exists.1 hw
  obtain ⟨_, _, _, hlast⟩ := lastCopy_eq hc hd hw
  cases hl : latest (copies (s.idOf p)) h with
  | none => cases (latest_eq_none hl).symm.trans hlast
  | some past =>
    obtain ⟨e, data, he, hsuf, hdata⟩ := latest_findSome? hl
    have hcall : lastCall (own e.tid past) = some .updateRt :=
      ((hd.suffix hsuf).1 (by rw [mem_copiedTo.1 he]; rfl)).2
    obtain ⟨q, hq, hid, rfl⟩ := (hc.suffix hsuf).1 _ data he hcall
    obtain rfl := hs.ids q hq p hp hid
    exact ⟨past, rfl, hdata⟩

/-- What a frame brought to the slave of `p` was staged when it was copied. -/
theorem frame_staged (hs : Ready s) (hc : Copies s h) (hsend : Sends s h) (hd : Driven rt h)
    (hp : p ∈ s.devices) {past : List Ev} (hl : latest sends h = some past) :
    ∃ sent staging, h.findSome? (fun e => frameOf e.act e.ans) = some sent ∧
      latest (copies (s.idOf p)) past = some staging ∧ sent.frame (s.idOf p) = staged s p staging := by
  obtain ⟨⟨t, a, r⟩, sent, he, hsuf, hsent⟩ := latest_findSome? hl
  obtain ⟨hframe, hwritten⟩ := (hsend.suffix hsuf).1 sent he
  have ht : t = rt := by
    cases a <;> cases he
    exact ((hd.suffix hsuf).1 rfl).1
  have hw : (cycleWrite t (s.idOf p) past).isSome := hwritten p hp
  rw [ht] at hw
  obtain ⟨staging, hcopy, hlast⟩ := latest_copies hs (hc.suffix hsuf).2 (hd.suffix hsuf).2 hp hw
  exact ⟨sent, staging, hsent, hcopy, hframe _ _ hlast⟩

/-- What comes back from the slave of `p`. -/
theorem received_source (hs : Ready s) (hc : Copies s h) (hsend : Sends s h) (hd : Driven rt h)
    (hp : p ∈ s.devices) {bytes : List UInt8}
    (hb : bytes = ((h.filterMap fun e => frameOf e.act e.ans)[n]?).elim slave.idle
      fun sent => slave.respond (sent.frame (s.idOf p))) :
    (∀ past ∈ back (List.replicate n sends ++ [sends, copies (s.idOf p)]) h,
      bytes = slave.respond (staged s p past)) ∧
    (back (List.replicate n sends ++ [sends, copies (s.idOf p)]) h = none → bytes = slave.idle) := by
  rw [getElem?_filterMap] at hb
  rw [back_append]
  cases hback : back (List.replicate n sends) h with
  | none =>
    rw [show back (.replicate n fun e : Ev => (frameOf e.act e.ans).isSome) h = none from hback] at hb
    exact ⟨fun _ h => (by cases h), fun _ => hb⟩
  | some x =>
    rw [show back (.replicate n fun e : Ev => (frameOf e.act e.ans).isSome) h = some x from hback] at hb
    have hx : x <:+ h := back_suffix hback
    cases hl : latest sends x with
    | none =>
      rw [show (some x).bind _ = _ from latest_eq_none hl] at hb
      rw [Option.bind_some, back, hl]
      exact ⟨fun _ h => (by cases h), fun _ => hb⟩
    | some past =>
      obtain ⟨sent, staging, hsent, hcopy, hframe⟩ :=
        frame_staged hs (hc.suffix hx) (hsend.suffix hx) (hd.suffix hx) hp hl
      have hsource : back [sends, copies (s.idOf p)] x = some staging := by
        rw [back, hl, Option.bind_some, back, hcopy]
        rfl
      rw [show (some x).bind _ = _ from hsent, Option.elim_some, hframe] at hb
      rw [Option.bind_some, hsource]
      exact ⟨fun _ h => Option.some.inj h ▸ hb, fun h => (by cases h)⟩

/-- The contents of the input buffer. -/
theorem shown_source (hs : Ready s) (hw : Copies s h) (hsend : Sends s h) (hd : Driven rt h)
    (hp : p ∈ s.devices) (hr : Responds slave (s.idOf p) h) :
    (∀ past ∈ source s slave.delay p h, shown s p h = slave.respond (staged s p past)) ∧
    (source s slave.delay p h = none →
      shown s p h = zeros (s.region (s.idOf p)).Ibytes ∨ shown s p h = slave.idle) := by
  rw [source, stations, List.cons_append, List.cons_append, List.nil_append, back]
  cases hl : latest (takes p) h with
  | none =>
    have hshown : shown s p h = zeros (s.region (s.idOf p)).Ibytes := by
      rw [shown, lastRead_eq, hl]
      exact hs.txPdo p hp
    exact ⟨fun _ h => (by cases h), fun _ => .inl hshown⟩
  | some x =>
    obtain ⟨e, -, hx⟩ := latest_some hl
    have hshown : shown s p h = (received (s.idOf p) x).getD (zeros (s.region (s.idOf p)).Ibytes) := by
      rw [shown, lastRead_eq, hl]
      change inputsOf s (s.idOf p) x = _
      rw [inputsOf, hs.inputs p hp]
    rw [hshown, Option.bind_some, back]
    cases hin : latest (brings (s.idOf p)) x with
    | none =>
      rw [received, latest_eq_none hin]
      exact ⟨fun _ h => (by cases h), fun _ => .inl rfl⟩
    | some y =>
      obtain ⟨e', bytes, he', hy, hb⟩ := latest_findSome? hin
      have hyh := hy.trans ((List.suffix_cons e x).trans hx)
      rw [received, hb, Option.getD_some, Option.bind_some]
      obtain ⟨hsome, hnone⟩ := received_source hs (hw.suffix hyh).2 (hsend.suffix hyh).2 (hd.suffix hyh).2
        hp ((hr.suffix hyh).1 bytes he')
      exact ⟨hsome, fun h => .inr (hnone h)⟩

/-! ## What a cycle takes along -/

/-- What a thread has done in the operation it began last, of its own past. -/
def tour (h : List Ev) : List Ev := h.takeWhile fun e => (called e.act).isNone

/-- The data of `p` has gone out, and what has come back has landed. -/
structure Toured (s : St) (p : Addr) (l : List Ev) : Prop where
  sent : Chained [sends, copies (s.idOf p)] l
  landed : (∃ e ∈ l, brings (s.idOf p) e = true) →
    Chained [takes p, brings (s.idOf p), sends, copies (s.idOf p)] l

/-- **A cycle that succeeds** has taken the data of every device along. -/
def Tours (s : St) (rt : ℕ) : List Ev → Prop := Always fun e h =>
  e.tid = rt → e.act = .done .updateRt true → ∀ p ∈ s.devices, Toured s p (tour (own rt h))

/-- What holds between any two actions of accessors and cycles. -/
structure Touring (s : St) (rt : ℕ) (w : W) : Prop where
  devices : w.st.devices = s.devices
  idOf : ∀ p, w.st.idOf p = s.idOf p
  tours : Tours s rt w.hist

/-- Keeps the devices, and is not the end of a cycle. -/
def Tame (a : Act) : Prop := (a.emplaces || a.clears) = false ∧ a ≠ .done .updateRt true

theorem Touring.after {w : W} (hw : Touring s rt w) {t : ℕ} {a : Act} (ha : (a.emplaces || a.clears) = false)
    (hd : t = rt → a = .done .updateRt true → ∀ p ∈ s.devices, Toured s p (tour (own rt w.hist)))
    (i : Env) : Touring s rt (w.after exec t a i) := by
  obtain ⟨he, hc⟩ := Bool.or_eq_false_iff.1 ha
  exact {
    devices := (devices_exec he hc i w.st).trans hw.devices
    idOf := fun p => (deviceId_exec he i w.st p).trans (hw.idOf p)
    tours := ⟨hd, hw.tours⟩ }

theorem upholds_tame {t : ℕ} {α : Type} {q : P α} (hq : q.Uses Tame) :
    Upholds exec free (Touring s rt) t q :=
  .uses (fun _ ha i _ _ hw => hw.after ha.1 (fun _ h => absurd h ha.2) i) hq

/-! ### The steps of a cycle -/

/-- Inside an operation, and brings no inputs. -/
def Carried (a : Act) : Prop := Inner a ∧ a ≠ .ecxReceiveProcessdata

theorem Carried.inner {a : Act} (ha : Carried a) : Inner a := ha.1

theorem Plain.carried {a : Act} (ha : Plain a) : Carried a := ⟨ha.inner, by rintro rfl; cases ha⟩

theorem Inner.tame {a : Act} (ha : Inner a) : Tame a := by
  refine ⟨?_, by rintro rfl; cases ha⟩
  cases a <;> first | rfl | cases ha

theorem Carried.brings {a : Act} (ha : Carried a) (t : ℕ) (r : Ans a) (id : DeviceId) :
    brings id ⟨t, a, r⟩ = false := by
  cases a <;> first | rfl | exact absurd rfl ha.2

theorem tour_inner {a : Act} (ha : Inner a) (t : ℕ) (r : Ans a) (h : List Ev) :
    tour (⟨t, a, r⟩ :: h) = ⟨t, a, r⟩ :: tour h := by
  have hn : (called a).isNone = true := by cases a <;> first | rfl | cases ha
  exact List.takeWhile_cons_of_pos hn

/-- On the way out: nothing has come back, and the data of the devices `l` is copied. -/
structure Outward (s : St) (l : List Addr) (h : List Ev) : Prop where
  nothing : ∀ e ∈ tour h, ∀ id, brings id e = false
  copied : ∀ p ∈ l, Chained [copies (s.idOf p)] (tour h)

/-- On the way back: the data is out, and what came back has landed at the devices `l`. -/
structure Inward (s : St) (l : List Addr) (h : List Ev) : Prop where
  sent : ∀ p ∈ s.devices, Chained [sends, copies (s.idOf p)] (tour h)
  brought : ∀ p ∈ s.devices, (∃ e ∈ tour h, brings (s.idOf p) e = true) →
    Chained [brings (s.idOf p), sends, copies (s.idOf p)] (tour h)
  landed : ∀ p ∈ l, (∃ e ∈ tour h, brings (s.idOf p) e = true) →
    Chained [takes p, brings (s.idOf p), sends, copies (s.idOf p)] (tour h)

section Steps

variable {l : List Addr} {a : Act} {α β : Type}

theorem Outward.carried (ho : Outward s l h) (ha : Carried a) (r : Ans a) :
    Outward s l (⟨rt, a, r⟩ :: h) := by
  constructor
  · rw [tour_inner ha.inner]
    rintro e he id
    rcases List.mem_cons.1 he with rfl | he
    · exact ha.brings rt r id
    · exact ho.nothing e he id
  · rw [tour_inner ha.inner]
    exact fun p hp => (ho.copied p hp).mono (List.suffix_cons _ _)

/-- Inputs in a longer tour that brings none were there before. -/
theorem brought_carried {id : DeviceId} (ha : Carried a) {r : Ans a}
    (he : ∃ e ∈ tour (⟨rt, a, r⟩ :: h), brings id e = true) : ∃ e ∈ tour h, brings id e = true := by
  obtain ⟨e, he, hb⟩ := he
  rw [tour_inner ha.inner] at he
  rcases List.mem_cons.1 he with rfl | he
  · rw [ha.brings] at hb
    cases hb
  · exact ⟨e, he, hb⟩

theorem Inward.carried (hi : Inward s l h) (ha : Carried a) (r : Ans a) :
    Inward s l (⟨rt, a, r⟩ :: h) where
  sent p hp := by
    rw [tour_inner ha.inner]
    exact (hi.sent p hp).mono (List.suffix_cons _ _)
  brought p hp he := by
    rw [tour_inner ha.inner]
    exact (hi.brought p hp (brought_carried ha he)).mono (List.suffix_cons _ _)
  landed p hp he := by
    rw [tour_inner ha.inner]
    exact (hi.landed p hp (brought_carried ha he)).mono (List.suffix_cons _ _)

/-- Known of a thread's own past, and not lost inside an operation. -/
def Abiding (rt : ℕ) (K : List Ev → Prop) : Prop :=
  ∀ a, Carried a → ∀ r h, K h → K (⟨rt, a, r⟩ :: h)

theorem abiding_outward : Abiding rt (Outward s l) := fun _ ha r _ ho => ho.carried ha r

theorem abiding_inward : Abiding rt (Inward s l) := fun _ ha r _ hi => hi.carried ha r

/-- A part of a cycle, by what the thread knows of its own past before and after it. -/
def Leg (s : St) (rt : ℕ) (K : List Ev → Prop) (q : P α) (K' : α → List Ev → Prop) : Prop :=
  ∀ h, K h → Sustains exec free (Touring s rt) rt q (fun o h' => ∀ x, o = .ret x → K' x h') h

namespace Leg

variable {K : List Ev → Prop}

theorem bind {q : P β} {f : β → P α} {T : β → List Ev → Prop} {K' : α → List Ev → Prop}
    (hq : Leg s rt K q T) (hf : ∀ x, Leg s rt (T x) (f x) K') : Leg s rt K (q.bind f) K' := by
  refine fun h hK => .bind ((hq h hK).mono fun o h' ho => ?_)
  cases o with
  | ret x => exact hf x h' (ho x rfl)
  | exn e => exact nofun
  | crash => exact nofun

theorem within {m : List Mutex} {q : P α} {K' : α → List Ev → Prop} (hq : Leg s rt K q K') :
    Leg s rt K (Prog.withLock m q) K' := fun h hK => (hq h hK).within

theorem perform {K' : Ans a → List Ev → Prop} (ha : Inner a)
    (hK : ∀ i w, Touring s rt w → ∀ h, K h →
      K' (exec a i w.st).1 (⟨rt, a, (exec a i w.st).1⟩ :: h)) : Leg s rt K (act a) K' := by
  refine fun h h0 => .perform fun i w _ hw _ => ⟨hw.after ha.tame.1 (fun _ hd => absurd hd ha.tame.2) i, ?_⟩
  rintro x ⟨⟩
  exact hK i w hw h h0

/-- What is known stays known. -/
theorem uses (hK : Abiding rt K) {q : P α} (hq : q.Uses Carried) :
    Leg s rt K q fun _ => K := fun h h0 =>
  ((upholds_tame (hq.mono fun _ ha => ha.inner.tame) h).frame hK hq h0).mono fun _ _ ho _ _ => ho.2

theorem outward {q : P α} (hq : q.Uses Carried) : Leg s rt (Outward s l) q fun _ => Outward s l :=
  uses abiding_outward hq

theorem inward {q : P α} (hq : q.Uses Carried) : Leg s rt (Inward s l) q fun _ => Inward s l :=
  uses abiding_inward hq

/-- A fact about an answer is carried along with it. -/
theorem assume {c : Prop} {q : P α} {K' : α → List Ev → Prop} (hq : c → Leg s rt K q K') :
    Leg s rt (fun h => c ∧ K h) q K' := fun h hK => hq hK.1 h hK.2

/-- A loop over the devices. -/
theorem forDevices {v : Loop} {body : Addr → DeviceId → P Unit} (K : List Addr → List Ev → Prop)
    (hK : ∀ l, Abiding rt (K l)) (hv : v.cyclic = true)
    (hbody : ∀ done p id, p ∈ s.devices → Leg s rt (K done) (body p id) fun _ => K (done ++ [p])) :
    Leg s rt (K []) (EthercatInterface.forDevices v body) fun _ => K s.devices := by
  have hinner : Carried (.devices v) := by
    refine ⟨?_, fun h => (by cases h)⟩
    change (false || !v.cyclic) = false
    rw [hv]
    rfl
  refine .bind (T := fun devices h => devices = s.devices ∧ K [] h)
    (.perform hinner.inner fun i w hw h h0 => ⟨hw.devices, hK _ _ hinner _ _ h0⟩) fun devices => ?_
  refine .assume fun hdev => ?_
  subst hdev
  refine fun h h0 => .forEach K (fun done p rest hl h' hd => ?_) (fun h' hd _ _ => hd) h0
  have hp : p ∈ s.devices := by
    rw [hl]
    simp
  have hderef : Leg s rt (K done) (act (.deref p)) fun _ => K done :=
    .uses (hK done) (uses_act ⟨rfl, fun h => (by cases h)⟩)
  refine ((show Leg s rt (K done) _ fun _ => K (done ++ [p]) from hderef.bind fun id => ?_)
    h' hd).mono fun o h'' ho => ?_
  · cases id with
    | some id => exact hbody done p id hp
    | none => exact fun _ _ _ h => (by cases h)
  cases o with
  | ret u => exact ho u rfl
  | exn e => exact fun _ h => (by cases h)
  | crash => exact fun _ h => (by cases h)

end Leg

/-! ### A cycle -/

theorem uses_crashUnless {S : Act → Prop} {c : Bool} : (crashUnless c).Uses S := Prog.uses_when trivial

theorem leg_writeRxPdo (done : List Addr) (p : Addr) (data : List UInt8) :
    Leg s rt (Outward s done) (writeRxPdo (s.idOf p) data) fun _ => Outward s (done ++ [p]) := by
  refine .bind (.outward ((plain_checkPdoAccess _).mono fun _ => Plain.carried)) fun _ =>
    .bind (.outward (uses_act ⟨rfl, nofun⟩)) fun size => .bind (.outward Prog.uses_raiseIf) fun _ =>
    .within (.bind (T := fun _ => Outward s (done ++ [p])) (.perform rfl fun _ _ _ h ho => ?_) fun _ => ?_)
  · have hcarried : Carried (.copyToOutputs (s.idOf p) data) := ⟨rfl, nofun⟩
    refine ⟨(ho.carried hcarried _).nothing, fun q hq => ?_⟩
    rcases List.mem_append.1 hq with hq | hq
    · exact (ho.carried hcarried _).copied q hq
    · obtain rfl := List.mem_singleton.1 hq
      rw [tour_inner hcarried.inner]
      exact Chained.cons (show Chained [] _ from trivial) (by rw [copies, mem_copiedTo.2 rfl]; rfl)
  · exact .outward trivial

theorem leg_deviceId (p : Addr) :
    Leg s rt (Outward s l) (act (.deviceId p)) fun id h => id = s.idOf p ∧ Outward s l h :=
  .perform rfl fun _ _ hw _ ho => ⟨hw.idOf p, ho.carried (a := .deviceId p) ⟨rfl, nofun⟩ _⟩

theorem leg_updateWrite (done : List Addr) (p : Addr) (tp : ℤ) :
    Leg s rt (Outward s done) (updateWrite p tp) fun _ => Outward s (done ++ [p]) := by
  refine .within (.bind (.outward (uses_act ⟨rfl, nofun⟩)) fun b => .bind (.outward uses_crashUnless) fun _ =>
    .bind (leg_deviceId p) fun id => .assume fun hid => ?_)
  subst hid
  exact .bind (.outward (uses_act ⟨rfl, nofun⟩)) fun data => .bind (leg_writeRxPdo done p data) fun _ =>
    .outward (uses_act ⟨rfl, nofun⟩)

/-- The frame takes along what has been copied, and brings what comes back. -/
theorem leg_exchange : Leg s rt (Outward s s.devices) (exchange ps) fun _ => Inward s [] := by
  have hsend : Inner .ecxSendProcessdata := rfl
  have hreceive : Inner .ecxReceiveProcessdata := rfl
  refine .within (.bind (T := fun _ h => (∀ e ∈ tour h, ∀ id, brings id e = false) ∧
    ∀ p ∈ s.devices, Chained [sends, copies (s.idOf p)] (tour h))
      (.perform hsend fun _ _ _ h ho => ?_) fun _ => ?_)
  · refine ⟨(ho.carried ⟨hsend, nofun⟩ _).nothing, fun p hp => ?_⟩
    rw [tour_inner hsend]
    exact (ho.copied p hp).cons rfl
  refine .bind (T := fun _ => Inward s []) (.perform hreceive fun _ _ _ h ho => ?_) fun received => ?_
  · obtain ⟨hnothing, hout⟩ := ho
    refine ⟨fun p hp => ?_, fun p hp he => ?_, nofun⟩
    · rw [tour_inner hreceive]
      exact (hout p hp).mono (List.suffix_cons _ _)
    · rw [tour_inner hreceive] at he ⊢
      obtain ⟨e, he, hb⟩ := he
      rcases List.mem_cons.1 he with rfl | he
      · exact (hout p hp).cons hb
      · rw [hnothing e he] at hb
        cases hb
  · exact .bind (.inward (uses_act ⟨rfl, nofun⟩)) fun _ => .bind
      (.inward (plain_dcCorrection.mono fun _ => Plain.carried)) fun _ => .inward trivial

theorem leg_updateRead (done : List Addr) (hp : p ∈ s.devices) (tp : ℤ) :
    Leg s rt (Inward s done) (updateRead p tp) fun _ => Inward s (done ++ [p]) := by
  refine .within (.bind (.inward (uses_act ⟨rfl, nofun⟩)) fun b => .bind (.inward uses_crashUnless) fun _ =>
    .bind (.inward (uses_act ⟨rfl, nofun⟩)) fun id => .bind (.inward (uses_act ⟨rfl, nofun⟩)) fun size =>
    .bind (.inward (uses_readTxPdo (fun _ ha => ha.plain.carried) id size fun _ => ⟨rfl, nofun⟩))
      fun data => ?_)
  refine .bind (T := fun _ => Inward s (done ++ [p])) (.perform rfl fun _ _ _ h hi => ?_) fun _ =>
    .inward (uses_act ⟨rfl, nofun⟩)
  have hcarried : Carried (.setTxPdo p data) := ⟨rfl, nofun⟩
  refine ⟨(hi.carried hcarried _).sent, (hi.carried hcarried _).brought, fun q hq he => ?_⟩
  rcases List.mem_append.1 hq with hq | hq
  · exact (hi.carried hcarried _).landed q hq he
  · obtain rfl := List.mem_singleton.1 hq
    rw [tour_inner hcarried.inner]
    exact (hi.brought q hp (brought_carried hcarried he)).cons (by rw [takes, txWritten, if_pos rfl]; rfl)

/-- **A cycle** that begins now. -/
theorem leg_updateRt : Leg s rt (fun h => tour h = []) (updateRt ps)
    fun _ h => ∀ p ∈ s.devices, Toured s p (tour h) := by
  have carried : ∀ {α : Type} {q : P α}, q.Uses Plain → q.Uses Carried :=
    fun hq => hq.mono fun _ => Plain.carried
  have hcycle : Leg s rt (Outward s []) (updateRt ps) fun _ => Inward s s.devices := by
    refine .bind (.outward (carried (plain_stateIn _))) fun _ => .bind (.outward Prog.uses_raiseIf) fun _ =>
      .bind (.outward (uses_act ⟨rfl, nofun⟩)) fun now => ?_
    refine .bind (.forDevices (Outward s) (fun _ => abiding_outward) rfl
      fun done p _ _ => leg_updateWrite done p now) fun _ => .bind leg_exchange fun cycle => ?_
    refine .bind (.forDevices (Inward s) (fun _ => abiding_inward) rfl
      fun done p _ hp => leg_updateRead done hp now) fun _ => ?_
    exact .bind (.inward (Prog.uses_when (carried (plain_updateDiagnosticsFast _ _)))) fun _ =>
      .inward trivial
  intro h hempty
  have hstart : Outward s [] h := ⟨by rw [hempty]; exact nofun, nofun⟩
  exact (hcycle h hstart).mono fun o h' ho x hx p hp =>
    ⟨(ho x hx).sent p hp, (ho x hx).landed p hp⟩

/-- **The calls**: a cycle that succeeds has taken everything along. -/
theorem upholds_touring {t : ℕ} {q : P Unit} (hq : cyclic ps rt t q) :
    Upholds exec free (Touring s rt) t q := by
  obtain ⟨o, hk, -, rfl, ho⟩ := hq
  have hboxed : Boxed fun {α : Type} (q : P α) => q.Uses Tame := (Compositional.mk (F := fun q => q.Uses Tame)
    (fun hp hf => hp.bind hf) (fun hp => hp.attempt) fun hp => hp.mono fun _ ha => ha.inner.tame).boxed
  have accessor : ∀ {o : Op}, o ≠ .updateRt → (o.body ps hk).Uses Inner →
      Upholds exec free (Touring s rt) t (o.invoke ps hk) := fun ho hb =>
    upholds_tame (hboxed.invoke (uses_act ⟨rfl, nofun⟩)
      (fun _ => uses_act ⟨rfl, fun h => ho (by cases h; rfl)⟩) (hb.mono fun _ => Inner.tame))
  have plain : ∀ {α : Type} {q : P α}, q.Fits Still AnyLock → (void q).Uses Inner := fun hq =>
    (Fits.plain (Fits.void hq)).mono fun _ => Plain.inner
  cases o
  case updateRt =>
    obtain rfl : t = rt := ho
    have hbody : Leg s t (fun h => tour h = []) (Op.updateRt.body ps hk)
        fun _ h => ∀ p ∈ s.devices, Toured s p (tour h) := leg_updateRt.bind fun _ _ ht _ _ => ht
    refine fun h => .bind (.perform fun i w _ hw _ =>
      ⟨hw.after (a := .call .updateRt) rfl (fun _ => nofun) i, ?_⟩)
    refine .seq (K := fun o h' => ∀ x, o = .ret (.ok x) → ∀ p ∈ s.devices, Toured s p (tour h'))
      (.attempt ((hbody _ rfl).mono fun o h' ho => ?_)) fun r h' hr => ?_
    · cases o with
      | ret x => exact fun _ _ => ho x rfl
      | exn e => exact nofun
      | crash => exact nofun
    cases r with
    | ok x =>
      refine .perform fun i w _ hw hh => ⟨hw.after rfl (fun _ _ => ?_) i, trivial⟩
      rw [hh]
      exact hr x rfl
    | error e =>
      exact .bind (.perform fun i w _ hw _ => ⟨hw.after rfl (fun _ h => by cases h) i, trivial⟩)
  case getGenericRxPdo p n => exact accessor nofun (plain (Fits.still (tacit_getGenericRxPdo p n)))
  case setGenericRxPdo p rx =>
    exact accessor nofun (fits_setGenericRxPdo (S := Inner) (V := AnyLock)
      (fun _ ha => ha.modest.still.plain.inner) trivial rfl).uses
  case getGenericTxPdo p n => exact accessor nofun (plain (Fits.still (tacit_getGenericTxPdo p n)))
  all_goals cases ho

end Steps

/-! ## How recent the contents are -/

theorem tour_own {earlier during : List Ev}
    (hq : ∀ e ∈ during, e.tid = rt → (called e.act).isNone) (r : Unit) :
    tour (own rt (during ++ ⟨rt, .call .updateRt, r⟩ :: earlier)) = own rt during := by
  have hown : ∀ e ∈ own rt during, (called e.act).isNone = true := by
    intro e he
    obtain ⟨he, ht⟩ := List.mem_filter.1 he
    exact hq e he (of_decide_eq_true ht)
  have happ : own rt (during ++ ⟨rt, .call .updateRt, r⟩ :: earlier) =
      own rt during ++ ⟨rt, .call .updateRt, r⟩ :: own rt earlier := by
    rw [← own_cons_self rt (.call .updateRt) r earlier]
    exact List.filter_append ..
  rw [happ, tour, List.takeWhile_append_of_pos hown, List.takeWhile_cons_of_neg (by simp [called]),
    List.append_nil]

/-- What a cycle has taken along. -/
theorem Tours.lap {earlier during : List Ev} (ht : Tours s rt h) (hl : Lap rt earlier during h)
    (hp : p ∈ s.devices) : Toured s p (own rt during) := by
  have hlap := (ht.suffix hl.done).1 rfl rfl p hp
  rwa [tour_own hl.quiet] at hlap

/-- Cycle after cycle, the data gets further. -/
theorem Tours.laps {earlier before later : List Ev} {fs : List (Ev → Bool)} (ht : Tours s rt h)
    (hp : p ∈ s.devices) (hl : Laps rt n earlier before)
    (hc : Chained (fs ++ [sends, copies (s.idOf p)]) later) (hs : later ++ before <:+ h) :
    ∃ past, back (fs ++ (List.replicate n sends ++ [sends, copies (s.idOf p)])) h = some past ∧
      earlier <:+ past := by
  induction n generalizing fs later before with
  | zero =>
    obtain ⟨past, hb, hpast⟩ := hc.back hs
    exact ⟨past, hb, List.IsSuffix.trans hl hpast⟩
  | succ n ih =>
    obtain ⟨before', during, hl, hlap⟩ := hl
    have hbefore : Tours s rt before := ht.suffix ((List.suffix_append later before).trans hs)
    have hout : Chained [sends, copies (s.idOf p)] during := (hbefore.lap hlap hp).sent.of_own
    obtain ⟨l, rfl⟩ := hlap.done
    -- the frame of this cycle carries the data of an earlier one
    have hfirst : Chained (fs ++ [sends]) later := by
      rw [show fs ++ [sends, copies (s.idOf p)] = (fs ++ [sends]) ++ [copies (s.idOf p)] by simp] at hc
      exact hc.of_append
    have hchain := hfirst.append
      (hout.amid (l ++ [⟨rt, .done .updateRt true, ()⟩]) [⟨rt, .call .updateRt, ()⟩])
    obtain ⟨past, hb, hpast⟩ := ih hl hchain (by simpa using hs)
    exact ⟨past, by simpa [List.replicate_succ] using hb, hpast⟩

theorem source_recent {earlier before during : List Ev} (ht : Tours s rt h) (hp : p ∈ s.devices)
    (hl : Laps rt n earlier before) (hlap : Lap rt before during h)
    (hin : ∃ e ∈ during, e.tid = rt ∧ brings (s.idOf p) e = true) :
    ∃ past ∈ source s n p h, earlier <:+ past := by
  obtain ⟨e, he, hrt, hb⟩ := hin
  have hround := ((ht.lap hlap hp).landed ⟨e, List.mem_filter.2 ⟨he, decide_eq_true hrt⟩, hb⟩).of_own
  have hchain : Chained ([takes p, brings (s.idOf p)] ++ [sends, copies (s.idOf p)])
      ([] ++ (during ++ [⟨rt, .call .updateRt, ()⟩])) := hround.amid [] _
  refine ht.laps hp hl hchain (List.IsSuffix.trans ?_ hlap.done)
  simp

/-- Everything read from the input buffer answers the last set of its source. -/
theorem reads_echoed (hs : Ready s) {c : Conf Act Ans (List Mutex) Exn St}
    (hr : Reaches exec free (cyclic ps rt) (Conf.idle ⟨s, []⟩) c) (hp : p ∈ s.devices)
    (hslave : Responds slave (s.idOf p) c.world.hist) :
    Always (fun e h => ∀ bytes ∈ gotTx p e.act e.ans, Echoed s rt slave p bytes h) c.world.hist := by
  have hw := reaches_staging hr hs
  have hd := reaches_driven hr
  have ht : Touring s rt c.world := reaches_sustains (J := Touring s rt)
    (fun t q hq => upholds_touring hq) hr ⟨rfl, fun _ => rfl, trivial⟩
  refine always_of_suffix fun e h hsuf bytes hb => ?_
  have hshown : bytes = shown s p h := (hw.gets.suffix hsuf).1 p bytes hb
  obtain ⟨hsome, hnone⟩ := shown_source hs (hw.copies.suffix hsuf).2 (hw.sends.suffix hsuf).2
    (hd.suffix hsuf).2 hp (hslave.suffix hsuf).2
  rw [hshown]
  exact {
    answer := fun past hpast => by
      rw [hsome past hpast, staged, hs.rxPdo p hp]
    unanswered := hnone
    ordered := fun h' hh past hpast => back_mono hh hpast
    recent := fun earlier before during hl hlap hin =>
      source_recent (h := h) (ht.tours.suffix hsuf).2 hp hl hlap hin }

/-- **What is set comes back**, in every interleaving: whatever is read from the input buffer of a
device answers the last set of its source, in order and in time. What is set are the arguments of
`set_generic_rx_pdo`, and what `get_generic_tx_pdo` returns has been read so. -/
theorem echo_in_order (hs : Ready s) {c : Conf Act Ans (List Mutex) Exn St}
    (hr : Reaches exec free (cyclic ps rt) (Conf.idle ⟨s, []⟩) c) (hp : p ∈ s.devices)
    (hslave : Responds slave (s.idOf p) c.world.hist) :
    Always (fun e h => ∀ bytes ∈ gotTx p e.act e.ans, Echoed s rt slave p bytes h) c.world.hist ∧
    SetsInOrder c.world.hist ∧
    Always (fun e h => ∀ n, e.act = .done (.getGenericTxPdo p n) true →
      ∃ bytes past, Handed e.tid p n bytes past h ∧ Echoed s rt slave p bytes past) c.world.hist := by
  have hreads := reads_echoed hs hr hp hslave
  have hf := reaches_faithful hr
  refine ⟨hreads, hf.sets, always_of_suffix fun e h hsuf n he => ?_⟩
  obtain ⟨bytes, past, hh, hpast⟩ := (hf.handed.suffix hsuf).1 p n he
  have hread := (hreads.suffix (hpast.trans ((List.suffix_cons _ _).trans hsuf))).1 bytes (if_pos rfl)
  exact ⟨bytes, past, hh, hread⟩

/-- A slave that adds two to what it is sent. -/
def addsTwo : Responder where
  delay := 0
  idle := [0]
  respond := List.map (· + 2)

/-- A device of one byte, set to 7, a cycle, and the 9 that is returned. -/
theorem echo_in_order_setCycleGet :
    (∃ e past h, e :: h <:+ setCycleGetHist ∧ e.tid = 1 ∧ e.act = .done (.getGenericTxPdo 0 1) true ∧
      Handed 1 0 1 [9] past h) ∧
    setCycleGetHist.findSome? (fun e => gotTx 0 e.act e.ans) = some [9] ∧
    Always (fun e h => ∀ bytes ∈ gotTx 0 e.act e.ans, Echoed mappedOne 0 addsTwo 0 bytes h) setCycleGetHist ∧
    SetsInOrder setCycleGetHist ∧
    Always (fun e h => ∀ n, e.act = .done (.getGenericTxPdo 0 n) true → ∃ bytes past,
      Handed e.tid 0 n bytes past h ∧ Echoed mappedOne 0 addsTwo 0 bytes past) setCycleGetHist := by
  have hr := reaches_setCycleGet
  have hslave : Responds addsTwo 1 setCycleGetHist := by decide +kernel
  refine ⟨?_, by decide +kernel, echo_in_order ready_mappedOne hr (by decide) hslave⟩
  exact returned_setCycleGet
    (returnedInOrder_of ready_mappedOne (reaches_staging hr ready_mappedOne).gets (reaches_faithful hr))

end EthercatInterface
