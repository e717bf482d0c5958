import EthercatInterface.Lifecycle.Run
import EthercatInterface.Proof.Sections
import EthercatInterface.Proof.Triples

/-!
# The frame counters

`update_diagnostics_fast` counts frames in two places: at the end of a cycle, and in a forced
update of the diagnostics, which sends none. In a cycle it counts whatever `ecx_send_processdata`
returned, unless a device throws in `update_read` first.

* `exchanges`: the exchanges with the bus in a history.
* `Counted`: the counters agree with them.
* `frames_counted`: they do after every call of a run in which each frame is sent, comes back
  to devices that can read it, and no update is forced.
-/

namespace EthercatInterface

open Interleave

variable {ps : Parameters} {hk : UserCode} {w : W}

/-! ## Exchanges -/

/-- One exchange with the bus: what `ecx_send_processdata` returned, the working counter that
came back, and the one that was expected. -/
structure Exchanged where
  sent : ℤ
  received : ℤ
  expected : ℤ

/-- What a call of `ecx_send_processdata` returned. -/
def sendResult : (a : Act) → Ans a → Option ℤ
  | .ecxSendProcessdata, r => some r.ret
  | _, _ => none

/-- What a call of `ecx_receive_processdata` returned. -/
def receiveResult : (a : Act) → Ans a → Option ℤ
  | .ecxReceiveProcessdata, r => some r.wkc
  | _, _ => none

/-- The exchange that ends with an action, after `h`. -/
def exchangeAt (h : List Ev) : (a : Act) → Ans a → Option Exchanged
  | .expectedWkc, x => some {
      sent := (h.findSome? fun e => sendResult e.act e.ans).getD 0
      received := (h.findSome? fun e => receiveResult e.act e.ans).getD 0
      expected := x }
  | _, _ => none

/-- The exchanges of a history, newest first. A cycle of `update_rt` makes one. -/
def exchanges : List Ev → List Exchanged
  | [] => []
  | e :: h => (exchangeAt h e.act e.ans).toList ++ exchanges h

/-- **The counters say what the exchanges were.** -/
structure Counted (b : BusStatus) (l : List Exchanged) : Prop where
  framesSent : b.framesSent = l.countP fun x => 0 < x.sent
  framesLost : b.framesLost = l.countP fun x => x.received < 0
  wkcMismatches : b.wkcMismatches = l.countP fun x => 0 ≤ x.received ∧ x.received ≠ x.expected

/-- An exchange whose frame was sent is counted right. -/
theorem Counted.countFrame {b : BusStatus} {l : List Exchanged} (h : Counted b l) {x : Exchanged}
    (hx : 0 < x.sent) : Counted (b.countFrame x.received x.expected) (x :: l) := by
  refine ⟨?_, ?_, ?_⟩
  · rw [List.countP_cons_of_pos (by simpa using hx), ← h.framesSent]
    rfl
  · rw [List.countP_cons, ← h.framesLost]
    by_cases hr : x.received < 0 <;> simp [BusStatus.countFrame, hr]
  · rw [List.countP_cons, ← h.wkcMismatches]
    by_cases hr : 0 ≤ x.received ∧ x.received ≠ x.expected <;> simp [BusStatus.countFrame, hr]

/-- `update_read` throws nothing for this device. -/
structure St.Readable (s : St) (p : Addr) : Prop where
  onBus : 0 < (s.dev p).deviceInfo.id ∧ (s.dev p).deviceInfo.id ≤ s.context.ecatSlavecount
  sized : (s.dev p).txPdo.length = (s.slave (s.dev p).deviceInfo.id).Ibytes

theorem St.Readable.modifyDev {s : St} {p q : Addr} {f : EthercatDevice → EthercatDevice}
    (hi : (f (s.dev p)).deviceInfo = (s.dev p).deviceInfo)
    (hl : (f (s.dev p)).txPdo.length = (s.dev p).txPdo.length) (h : s.Readable q) :
    (s.modifyDev p f).Readable q := by
  have hid : ((s.modifyDev p f).dev q).deviceInfo = (s.dev q).deviceInfo := by
    rw [dev_modifyDev]
    split
    · next hq => rw [hq, hi]
    · rfl
  have htx : ((s.modifyDev p f).dev q).txPdo.length = (s.dev q).txPdo.length := by
    rw [dev_modifyDev]
    split
    · next hq => rw [hq, hl]
    · rfl
  exact ⟨by rw [hid]; exact h.onBus, by rw [htx, hid]; exact h.sized⟩

/-- Every frame is sent, with devices that can read what comes back, and the diagnostics are
updated by cycles only: a forced update is one in `Initialized` or `ShuttingDown`. -/
def undisturbed : Guard Act Ans Env St
  | _, .ecxSendProcessdata, i, w => 0 < i.ret ∧ ∀ p ∈ w.st.devices, w.st.Readable p
  | _, .stampDiagnostics _, _, w => w.st.state ∈ [BusState.activated, .operational]
  | _, _, _, _ => True

instance (s : St) (p : Addr) : Decidable (s.Readable p) :=
  decidable_of_iff _ ⟨fun h => ⟨h.1, h.2⟩, fun h => And.intro h.onBus h.sized⟩

instance (t : ℕ) (a : Act) (i : Env) (w : W) : Decidable (undisturbed t a i w) := by
  cases a
  case ecxSendProcessdata =>
    exact inferInstanceAs (Decidable (0 < i.ret ∧ ∀ p ∈ w.st.devices, w.st.Readable p))
  case stampDiagnostics tp =>
    exact inferInstanceAs (Decidable (w.st.state ∈ [BusState.activated, .operational]))
  all_goals exact isTrue trivial

instance (b : BusStatus) (l : List Exchanged) : Decidable (Counted b l) :=
  decidable_of_iff _ ⟨fun h => ⟨h.1, h.2.1, h.2.2⟩,
    fun h => And.intro h.framesSent (And.intro h.framesLost h.wkcMismatches)⟩

/-- The counters are right. -/
def Accounted (w : W) : Prop := Counted w.st.latestDiagnostics.bus (exchanges w.hist)

/-- The counters are right but for the exchange of the cycle that runs, which can be read. -/
structure Uncounted (c : Cycle) (w : W) : Prop where
  state : w.st.state ∈ [BusState.activated, .operational]
  readable : ∀ p ∈ w.st.devices, w.st.Readable p
  exchanged : ∃ x l, exchanges w.hist = x :: l ∧ 0 < x.sent ∧ x.received = c.wkc ∧
    x.expected = c.expectedWkc ∧ Counted w.st.latestDiagnostics.bus l

/-- Ends an exchange, or counts one. -/
def Act.tallies : Act → Bool
  | .expectedWkc | .countFrame _ _ => true
  | _ => false

theorem exchanges_skip {a : Act} (ha : a.tallies = false) {t : ℕ} {r : Ans a} {h : List Ev} :
    exchanges (⟨t, a, r⟩ :: h) = exchanges h := by
  cases a <;> first | rfl | cases ha

theorem frames_exec {a : Act} (ha : a.tallies = false) (i : Env) (s : St) (l : List Exchanged) :
    Counted (exec a i s).2.latestDiagnostics.bus l ↔ Counted s.latestDiagnostics.bus l := by
  cases a
  case ecxStatecheck id state =>
    simp only [exec]
    split <;> exact Iff.rfl
  case setLinkUp up => exact ⟨fun h => ⟨h.1, h.2, h.3⟩, fun h => ⟨h.1, h.2, h.3⟩⟩
  all_goals first | exact Iff.rfl | cases ha

/-- **No other operation** changes the counters. -/
theorem Accounted.after {a : Act} (ha : a.tallies = false) (i : Env) (h : Accounted w) :
    Accounted (w.after exec 0 a i) := by
  unfold Accounted
  rw [World.after_hist, exchanges_skip ha]
  exact (frames_exec ha i w.st _).2 h

/-! ## A cycle -/

/-- Started in `J`, ends in `Q` and throws only from right counters. -/
abbrev Cycles {α : Type} (J : W → Prop) (p : P α) (Q : α → W → Prop) : Prop :=
  (single undisturbed free).Triple J p Q fun _ => Accounted

section Read

variable {c : Cycle} {s : St} {p : Addr}

/-- The cycle has come to state `s`. -/
def Reading (c : Cycle) (s : St) (w : W) : Prop := Uncounted c w ∧ w.st = s

/-- What leaves the devices and the slaves as they are leaves the cycle where it is. -/
theorem Uncounted.after {a : Act} (ha : a.tallies = false) (hst : stored a = none) {i : Env}
    (hd : (exec a i w.st).2.devices = w.st.devices)
    (hr : ∀ p, w.st.Readable p → (exec a i w.st).2.Readable p) (h : Uncounted c w) :
    Uncounted c (w.after exec 0 a i) := by
  obtain ⟨x, l, he, hs, hx, hy, hl⟩ := h.exchanged
  refine ⟨?_, fun p hp => hr p (h.readable p (hd ▸ hp)), x, l, ?_, hs, hx, hy, (frames_exec ha i w.st l).2 hl⟩
  · rw [World.after_st, state_exec, hst]
    exact h.state
  · rw [World.after_hist, exchanges_skip ha, he]

theorem Reading.skip {a : Act} (ha : a.tallies = false) (hst : stored a = none) {i : Env}
    (hs : (exec a i s).2 = s) (h : Reading c s w) : Reading c s (w.after exec 0 a i) := by
  obtain ⟨h, rfl⟩ := h
  exact ⟨h.after ha hst (congrArg St.devices hs) fun p hp => by rwa [hs], hs⟩

/-- An action that looks answers what the state tells. -/
theorem cycles_look {α : Type} {a : Act} (ha : a.tallies = false) (hst : stored a = none) {x : Ans a}
    (hs : ∀ i, exec a i s = (x, s)) {f : Ans a → P α} {Q : α → W → Prop}
    (hf : Cycles (Reading c s) (f x) Q) : Cycles (Reading c s) ((act a).bind f) Q := by
  refine .bind (T := fun y w => y = x ∧ Reading c s w) (.perform fun i w _ hw => ⟨trivial, ?_, ?_⟩)
    fun y => .assume (c := y = x) (fun _ hw => hw.1) fun hy => ?_
  · exact congrArg Prod.fst ((congrArg (exec a i) hw.2).trans (hs i))
  · exact hw.skip ha hst (by rw [hs i])
  · subst hy
    exact hf.mono (fun _ hw => hw.2) (fun _ _ h => h) fun _ _ h => h

theorem cycles_crashUnless {α : Type} {b : Bool} {J : W → Prop} {f : Unit → P α} {Q : α → W → Prop}
    (hf : Cycles J (f ()) Q) : Cycles J ((crashUnless b).bind f) Q := by
  cases b
  · exact fun _ _ => trivial
  · exact hf

theorem cycles_checkPdoAccess {id : DeviceId} (hst : s.state ∈ [BusState.activated, .operational])
    (hid : 0 < id ∧ id ≤ s.context.ecatSlavecount) :
    Cycles (Reading c s) (checkPdoAccess id) fun _ => Reading c s := by
  have hr : (single undisturbed free).Keeps (Reading c s) .getBusState :=
    fun i w _ hw => ⟨trivial, hw.skip rfl rfl rfl⟩
  have hs : s.state ∉ [BusState.preInit, .initialized] := by
    intro h
    simp only [List.mem_cons, List.not_mem_nil, or_false] at h hst
    rcases h with h | h <;> rcases hst with h' | h' <;> cases h.symm.trans h'
  refine triple_ifState hr (fun w hw => congrArg St.state hw.2) ?_
  rw [decide_eq_false hs]
  refine cycles_look (a := .slavecount) rfl rfl (fun _ => rfl) ?_
  have hb : (decide (0 < id) && decide (id ≤ s.context.ecatSlavecount)) = true := by simp [hid.1, hid.2]
  change Cycles (Reading c s) (Prog.raiseIf (!(decide (0 < id) && decide (id ≤ s.context.ecatSlavecount))) _) _
  rw [hb]
  exact .pure fun _ hw => hw

/-- A device that can be read is read. -/
theorem cycles_updateRead (hst : s.state ∈ [BusState.activated, .operational]) (hp : s.Readable p) (tp : ℤ) :
    Cycles (Reading c s) (updateRead p tp) fun _ w => Uncounted c w ∧ w.st.devices = s.devices := by
  refine .withLock (cycles_look rfl rfl (fun _ => rfl) (cycles_crashUnless ?_))
  refine cycles_look rfl rfl (fun _ => rfl) (cycles_look rfl rfl (fun _ => rfl) ?_)
  refine .bind (T := fun data w => data.length = (s.dev p).txPdo.length ∧ Reading c s w)
    (.bind (cycles_checkPdoAccess hst hp.onBus) fun _ => cycles_look rfl rfl (fun _ => rfl) ?_) fun data => ?_
  · have hsize : decide ((s.dev p).txPdo.length ≠ (s.slave (s.dev p).deviceInfo.id).Ibytes) = false := by
      simp [hp.sized]
    rw [hsize]
    refine .withLock (cycles_look rfl rfl (fun _ => rfl) (.pure fun w hw => ⟨?_, hw⟩))
    exact (Memory.length_read _ _ _).trans hp.sized.symm
  · refine .bind (T := fun _ w => Uncounted c w ∧ w.st.devices = s.devices) (.perform ?_) fun _ => .perform ?_
    · rintro i w _ ⟨hlen, hw, rfl⟩
      exact ⟨trivial, hw.after rfl rfl rfl fun q hq =>
        hq.modifyDev (p := p) (f := fun d => { d with txPdo := data }) rfl hlen, rfl⟩
    · rintro i w _ ⟨hw, hd⟩
      exact ⟨trivial, hw.after rfl rfl rfl fun q hq =>
        hq.modifyDev (p := p) (f := fun d => { d with txPdoLastReadTime := tp }) rfl rfl, hd⟩

end Read

/-! ## The exchange and the loops -/

/-- The state of a bus in service, with right counters. -/
def InService (s : BusState) (w : W) : Prop := Accounted w ∧ w.st.state = s

theorem cycles_dcCorrection {c : Cycle} : Cycles (Uncounted c) (dcCorrection ps) fun _ => Uncounted c := by
  suffices h : ∀ s, Cycles (Reading c s) (dcCorrection ps) fun _ => Uncounted c from
    fun w hw => h w.st w ⟨hw, rfl⟩
  intro s
  unfold dcCorrection
  split
  · refine cycles_look rfl rfl (fun _ => rfl) ?_
    split
    · refine cycles_look rfl rfl (fun _ => rfl) (cycles_crashUnless ?_)
      refine .bind (T := fun _ => Uncounted c) (.perform fun i w _ hw => ⟨trivial, ?_⟩) fun _ =>
        .pure fun _ hw => hw
      exact hw.1.after rfl rfl rfl fun _ hq => ⟨hq.onBus, hq.sized⟩
    · exact .pure fun _ hw => hw.1
  · exact .pure fun _ hw => hw.1

/-- An exchange is made, and left to be counted. -/
theorem cycles_exchange {s : BusState} (hs : s ∈ [BusState.activated, .operational]) :
    Cycles (InService s) (exchange ps) Uncounted := by
  refine .withLock fun w hw => wp_bind (wp_perform fun i hi => ⟨trivial, ?_⟩)
  refine wp_bind (wp_perform fun j _ => ⟨trivial, wp_bind (wp_perform fun k _ => ⟨trivial, ?_⟩)⟩)
  obtain ⟨⟨hsent, hread⟩, hb, rfl⟩ := hi, hw
  let c : Cycle := ⟨j.ret, w.st.context.outputsWKC * 2 + w.st.context.inputsWKC, none⟩
  refine (cycles_dcCorrection (c := c)).bind (fun r => .pure fun w h => ⟨h.state, h.readable, h.exchanged⟩) _
    ⟨hs, fun p hp => ?_, ⟨i.ret, j.ret, _⟩, exchanges w.hist, rfl, hsent, rfl, rfl, hb⟩
  exact ⟨(hread p hp).onBus, (hread p hp).sized⟩

theorem keeps_accounted {a : Act} (ha : a.tallies = false) : (single undisturbed free).Keeps Accounted a :=
  fun i _ _ hw => ⟨trivial, hw.after ha i⟩

theorem keeps_inService {s : BusState} {a : Act} (ha : a.tallies = false) (hst : stored a = none) :
    (single undisturbed free).Keeps (InService s) a := fun i w _ hw =>
  ⟨trivial, hw.1.after ha i, by rw [World.after_st, state_exec, hst]; exact hw.2⟩

theorem untallied {a : Act} (ha : a.cycles = false) : a.tallies = false := by
  cases a <;> first | rfl | cases ha

/-- The exchange is counted, once. -/
theorem cycles_countFrame {c : Cycle} :
    Cycles (Uncounted c) (updateDiagnosticsFast ps c.wkc c.expectedWkc) fun _ => Accounted := by
  refine .bind (T := fun _ => Uncounted c) (.perform fun i w _ hw => ⟨trivial, ?_⟩) fun now => ?_
  · exact hw.after rfl rfl rfl fun _ hq => ⟨hq.onBus, hq.sized⟩
  refine .bind (T := fun _ => Uncounted c) (.perform fun i w _ hw => ⟨trivial, ?_⟩) fun _ => ?_
  · exact hw.after rfl rfl rfl fun _ hq => ⟨hq.onBus, hq.sized⟩
  refine .bind (T := fun _ => Accounted) (.perform fun i w _ hw => ⟨trivial, ?_⟩) fun _ => ?_
  · obtain ⟨⟨s, r, e⟩, l, he, hs, rfl, rfl, hl⟩ := hw.exchanged
    change Counted _ (exchanges w.hist)
    rw [he]
    exact hl.countFrame hs
  · refine .of_keeps (C := fun a => a.tallies = false) (fun a => keeps_accounted) (Prog.uses_when ?_)
    have look : ∀ a : Act, a.tallies = false → (act a).Uses fun a => a.tallies = false := fun a ha => uses_act ha
    refine (look _ rfl).bind fun _ => Prog.uses_when (Prog.uses_withLock ((look _ rfl).bind fun n => ?_))
    exact Prog.Uses.forEach (fun i => (look _ rfl).bind fun _ => (fits_crashUnless (V := AnyLock) _).uses) _

theorem cycles_readDevices {c : Cycle} (now : ℤ) :
    Cycles (Uncounted c) (forDevices .updateRead fun p _ => updateRead p now) fun _ => Uncounted c := by
  intro w hw
  have keep : ∀ {a : Act}, a.tallies = false → stored a = none → (∀ i s, (exec a i s).2 = s) →
      (single undisturbed free).Keeps (fun w' => Uncounted c w' ∧ w'.st.devices = w.st.devices) a :=
    fun ha hst hs i w' _ h => ⟨trivial,
      h.1.after ha hst (congrArg St.devices (hs i w'.st)) fun p hp => by rwa [hs],
      (congrArg St.devices (hs i w'.st)).trans h.2⟩
  refine (triple_loop (J := fun w' => w' = w) (D := w.st.devices)
    (fun _ w' => Uncounted c w' ∧ w'.st.devices = w.st.devices) ?_ ?_ ?_).mono (fun _ h => h)
    (fun _ _ h => h.1) (fun _ _ h => h) w rfl
  · rintro i w' hi rfl
    exact ⟨trivial, rfl, (keep rfl rfl (fun _ _ => rfl) i w' hi ⟨hw, rfl⟩).2⟩
  · exact fun _ p => keep rfl rfl fun _ _ => rfl
  · intro done p rest hD id w' hw'
    obtain ⟨hu, hd⟩ := hw'.2
    have hp : p ∈ w'.st.devices := by simp [hd, hD]
    exact ((cycles_updateRead hu.state (hu.readable p hp) now).mono (fun _ h => h)
      (fun _ _ h => ⟨h.1, h.2.trans hd⟩) fun _ _ h => h) w' ⟨hu, rfl⟩

/-- **A cycle is counted once**, if its frame is sent and can be read. -/
theorem cycles_updateRt (hps : isDiagnosticsEnabled ps.diagnostics.pdoDiagnostics = true) (s : BusState) :
    Cycles (InService s) (updateRt ps) fun _ => Accounted := by
  refine triple_require (keeps_inService rfl rfl) (fun _ hw => hw.2) (fun _ hw => hw.1) fun hs => ?_
  refine .bind (T := fun _ => InService s) (.perform (keeps_inService rfl rfl)) fun now => ?_
  refine .bind (T := fun _ => InService s) ?_ fun _ => .bind (cycles_exchange hs) fun c => ?_
  · refine triple_forDevices (keeps_inService rfl rfl) (fun _ => keeps_inService rfl rfl) fun p id => ?_
    obtain ⟨body, hu, hb⟩ := updateWrite_section (V := AnyLock)
      (S := fun a => a.tallies = false ∧ stored a = none)
      (fun _ h => ⟨untallied h.spare.acyclic, h.still.plain.calm.stored⟩) trivial p now fun _ _ => ⟨rfl, rfl⟩
    rw [hu]
    exact (Setting.Triple.of_keeps (fun _ ha => keeps_inService ha.1 ha.2) (Prog.uses_withLock hb.uses)).mono
      (fun _ h => h) (fun _ _ h => h) fun _ _ h => h.1
  refine .bind (cycles_readDevices now) fun _ => ?_
  rw [hps]
  exact cycles_countFrame.bind fun _ => .pure fun _ h => h

/-! ## The other operations -/

/-- An update that is forced breaks the rule. -/
theorem cycles_forced {s : BusState} (hs : s ∉ [BusState.activated, .operational]) {Q : Unit → W → Prop} :
    Cycles (InService s) (updateDiagnosticsFast ps 0 0) Q := by
  refine .bind (T := fun _ => InService s) (.perform (keeps_inService rfl rfl)) fun now => ?_
  exact .bind (T := fun _ _ => False) (.perform fun i w hi hw => absurd (hw.2 ▸ hi) hs) fun _ =>
    fun _ h => h.elim

theorem cycles_diagnostics (s : BusState) (forceUpdate : Bool) :
    Cycles (InService s) (diagnostics ps forceUpdate) fun _ => Accounted := by
  have look : ∀ {a : Act}, a.tallies = false → stored a = none →
      Cycles (InService s) (act a) fun _ => InService s := fun ha hst => .perform (keeps_inService ha hst)
  refine triple_refuse (keeps_inService rfl rfl) (fun _ hw => hw.2) (fun _ hw => hw.1) fun _ => ?_
  have tail : ∀ snapshot : DiagnosticsSnapshot, Cycles (InService s)
      ((Prog.withLock [.mailboxStatus] (act .mailboxStatus)).bind fun mailbox =>
        .pure { snapshot with mailbox := mailbox }) fun _ => Accounted := fun snapshot =>
    .bind (.withLock (look rfl rfl)) fun _ => .pure fun _ hw => hw.1
  cases forceUpdate
  · exact .bind (T := fun _ => InService s) (.pure fun _ hw => hw) fun _ =>
      .bind (.withLock (look rfl rfl)) tail
  · refine .bind (T := fun _ w => s ∉ [BusState.activated, .operational] ∧ InService s w) ?_ fun _ =>
      .assume (c := s ∉ [BusState.activated, .operational]) (fun _ hw => hw.1) fun hs => ?_
    · refine triple_ifState (keeps_inService rfl rfl) (fun _ hw => hw.2) ?_
      refine .raiseIf (fun _ _ hw => hw.1) fun h _ hw => ⟨fun hm => ?_, hw⟩
      have hn : s ∉ [BusState.operational, .activated, .configured] := of_decide_eq_false h
      rcases List.mem_cons.1 hm with rfl | hm
      · exact hn (by decide)
      · rcases List.mem_singleton.1 hm with rfl
        exact hn (by decide)
    · refine .stop (.stop ?_)
      exact (cycles_forced hs).mono (fun _ hw => hw.2) (fun _ _ h => h) fun _ _ h => h

/-- The counters are right throughout. -/
theorem run_accounted {good : UserCode → Prop} (hps : isDiagnosticsEnabled ps.diagnostics.pdoDiagnostics = true)
    (hr : Run ps undisturbed good w) : Accounted w := by
  have leaves : ∀ {α : Type} {p : P α}, (∀ s, Cycles (InService s) p fun _ => Accounted) →
      Maintains undisturbed Accounted (fun _ => True) p := fun h w hw =>
    wp_mono (h w.st.state w ⟨hw, rfl⟩) fun o w' h' => by cases o <;> exact h'
  refine hr.maintained (C := fun _ => True) ⟨rfl, rfl, rfl⟩ fun o hk hok _ => ?_
  have slow : updateDiagnosticsSlow.Uses fun a => a.tallies = false :=
    (fits_updateDiagnosticsSlow (fun _ h => untallied h.spare.acyclic) (fun _ => rfl) (fun _ _ => rfl)
      fun _ _ => rfl).uses
  exact (sewn_maintains (fun _ _ => trivial) (fun a ha i _ _ hw => hw.after (untallied ha) i)
    (fun f => leaves fun s => cycles_diagnostics s f)
    (maintains_uses (fun _ _ => trivial) (fun _ ha i _ _ hw => hw.after ha i) slow)
    (leaves fun s => cycles_updateRt hps s)).invoke hok o

/-- **The frame counters are exact** between any two calls of a run in which every frame is
sent and can be read, and no update is forced. -/
theorem frames_counted {good : UserCode → Prop} (hps : isDiagnosticsEnabled ps.diagnostics.pdoDiagnostics = true)
    (hr : Run ps undisturbed good w) : Counted w.st.latestDiagnostics.bus (exchanges w.hist) :=
  run_accounted hps hr

/-! ## A frame that comes back, and two that do not exist -/

/-- A cycle whose frame is sent with the result `sent` and comes back with the counter `wkc`. -/
def cycleOne (sent wkc : ℤ) : Call :=
  { op := .updateRt, env := List.replicate 14 {} ++ [{ ret := sent }, { ret := wkc }] }

/-- One device in service, then the calls. -/
def served (calls : List Call) : W :=
  (runCalls {} ⟨{}, []⟩ ([initializeOne, { op := .startup }, activateOne] ++ calls)).getD ⟨{}, []⟩

/-- A frame that is lost and one with an unexpected counter. -/
theorem frames_counted_served :
    Counted (served [cycleOne 1 (-1), cycleOne 1 3]).st.latestDiagnostics.bus
      (exchanges (served [cycleOne 1 (-1), cycleOne 1 3]).hist) :=
  have hr : Run {} undisturbed (fun _ => True) (served [cycleOne 1 (-1), cycleOne 1 3]) :=
    run_admitted {} _ (by simp [initializeOne, activateOne, cycleOne, UserCode.none_ok]) (by decide +kernel)
  frames_counted rfl hr

/-- A frame that is not sent is counted. -/
theorem frames_unsent : ¬∀ ps w, isDiagnosticsEnabled ps.diagnostics.pdoDiagnostics = true →
    Run ps free (fun _ => True) w → Counted w.st.latestDiagnostics.bus (exchanges w.hist) := by
  intro h
  have hr : Run {} free (fun _ => True) (served [cycleOne 0 (-1)]) :=
    run_calls {} _ (by simp [initializeOne, activateOne, cycleOne, UserCode.none_ok])
  exact absurd (h {} _ rfl hr) (by decide)

/-- So is one that nobody sends: `diagnostics(true)` after `initialize`. -/
theorem frames_forced : ¬∀ ps w, isDiagnosticsEnabled ps.diagnostics.pdoDiagnostics = true →
    Run ps free (fun _ => True) w → Counted w.st.latestDiagnostics.bus (exchanges w.hist) := by
  intro h
  have hr : Run {} free (fun _ => True) (world [initializeOne, { op := .diagnostics true }]) :=
    run_world _ (by simp [initializeOne, UserCode.none_ok])
  exact absurd (h {} _ rfl hr) (by decide)

end EthercatInterface
