import EthercatInterface.Lifecycle.Run
import EthercatInterface.Proof.Sections
import EthercatInterface.Proof.Triples

/-!
# Slaves that are left mapped

`ecx_config_map_group` moves the slaves beyond PRE_OP. `shutdown` requests PRE_OP of all of them
before it closes the interface, unless the bus is still in `Initialized`; and that is where
`startup` leaves it until it has set up the distributed clocks.

`lowered_iff`: the interface is closed with mapped slaves on it **exactly if `startup` has aborted
after the mapping**, because the process image was too large or the clocks were missing.
-/

namespace EthercatInterface

open Interleave

variable {ps : Parameters} {hk : UserCode} {w : W}

/-! ## Mapped slaves -/

/-- Puts PRE_OP into the list, for all slaves. -/
def lowersAll : Act → Bool
  | .setSlaveState 0 state => state = EC_STATE_PRE_OP
  | _ => false

/-- An action, after `h`, is the end of `set_device_target_state(0, PRE_OP)`. -/
def requestsPreOp (h : List Ev) : Act → Bool
  | .ecxWritestate 0 => h.head?.any fun e => lowersAll e.act
  | _ => false

/-- Maps the slaves. -/
def Act.maps : Act → Bool
  | .ecxConfigMapGroup => true
  | _ => false

/-- The slaves have been mapped, and PRE_OP has not been requested of all of them since. -/
def leftMapped : List Ev → Bool
  | [] => false
  | e :: h => e.act.maps || (leftMapped h && !requestsPreOp h e.act)

/-- The interface is not closed on mapped slaves. -/
def ClosedLowered (e : Ev) (h : List Ev) : Prop := e.act.closes = true → leftMapped h = false

instance (e : Ev) (h : List Ev) : Decidable (ClosedLowered e h) := inferInstanceAs (Decidable (_ → _))

/-- The mapping fits into the process image, and the clocks that are asked for are there. -/
def startupGoesOn (ps : Parameters) : (a : Act) → Ans a → Bool
  | .ecxConfigMapGroup, size => size ≤ toInt ps.pdoBufferSize
  | .ecxConfigdc, found => found || !ps.dcEnabled
  | _, _ => true

/-- `startup` does not abort after the mapping. -/
def GoesOn (ps : Parameters) (e : Ev) (_ : List Ev) : Prop := startupGoesOn ps e.act e.ans = true

instance (e : Ev) (h : List Ev) : Decidable (GoesOn ps e h) := inferInstanceAs (Decidable (_ = _))

/-- Closes the interface, maps the slaves, or brings the bus into a state before `Configured`. -/
def Act.founds : Act → Bool
  | .ecxClose | .ecxConfigMapGroup | .ecxConfigdc | .updateBusState .preInit
  | .updateBusState .initialized => true
  | _ => false

/-- The law for a history after which the slaves have been mapped, and `c` decides whether
`startup` goes on. -/
def Law (ps : Parameters) (c : Prop) (h : List Ev) : Prop :=
  Always ClosedLowered h ∧ c ↔ Always (GoesOn ps) h

/-- **The law**, and that mapped slaves are found beyond `Initialized`. -/
structure Lowers (ps : Parameters) (w : W) : Prop where
  law : Law ps True w.hist
  state : leftMapped w.hist = true → w.st.state ≠ .preInit ∧ w.st.state ≠ .initialized

/-- The slaves are mapped on a bus in `Initialized`. -/
structure Undecided (ps : Parameters) (c : Prop) (w : W) : Prop where
  law : Law ps c w.hist
  mapped : leftMapped w.hist = true
  state : w.st.state = .initialized

theorem leftMapped_cons {a : Act} (ha : a.maps = false) {t : ℕ} {r : Ans a} {h : List Ev} :
    leftMapped (⟨t, a, r⟩ :: h) = (leftMapped h && !requestsPreOp h a) := by
  rw [leftMapped, ha, Bool.false_or]

theorem leftMapped_of_cons {a : Act} (ha : a.maps = false) {t : ℕ} {r : Ans a} {h : List Ev}
    (hl : leftMapped (⟨t, a, r⟩ :: h) = true) : leftMapped h = true := by
  rw [leftMapped_cons ha] at hl
  exact (Bool.and_eq_true_iff.1 hl).1

/-- What closes nothing and sets nothing up does not touch the law. -/
theorem Law.after {a : Act} (hc : a.closes = false) (hg : ∀ r, startupGoesOn ps a r = true) {i : Env} {c : Prop}
    (h : Law ps c w.hist) : Law ps c (w.after exec 0 a i).hist := by
  have hcl : Always ClosedLowered (w.after exec 0 a i).hist ↔ Always ClosedLowered w.hist :=
    ⟨fun h => h.2, fun h => ⟨fun he => absurd he (by simp [hc]), h⟩⟩
  have hgo : Always (GoesOn ps) (w.after exec 0 a i).hist ↔ Always (GoesOn ps) w.hist :=
    ⟨fun h => h.2, fun h => ⟨hg _, h⟩⟩
  unfold Law
  rw [hcl, hgo]
  exact h

theorem Act.maps_of_founds {a : Act} (ha : a.founds = false) : a.maps = false := by
  cases a <;> first | rfl | cases ha

theorem Lowers.after {a : Act} (ha : a.founds = false) (i : Env) (h : Lowers ps w) :
    Lowers ps (w.after exec 0 a i) := by
  refine ⟨h.law.after ?_ fun r => ?_, fun hl => ?_⟩
  · cases a <;> first | rfl | cases ha
  · cases a <;> first | rfl | cases ha
  · have hs := h.state (leftMapped_of_cons (Act.maps_of_founds ha) hl)
    rw [World.after_st, state_exec]
    cases hst : stored a with
    | none => exact hs
    | some s =>
      -- a state that is stored is one from `Configured` on
      cases a <;> cases hst
      cases s <;> first | (cases ha; done) | simp

/-! ## Operations that keep the law -/

/-- Started in `J`, the program leaves the law behind. -/
abbrev Lowering (ps : Parameters) (J : W → Prop) {α : Type} (p : P α) : Prop :=
  (single free free).Triple J p (fun _ => Lowers ps) fun _ => Lowers ps

/-- The law, on a bus in state `s`. -/
def LowersIn (ps : Parameters) (s : BusState) (w : W) : Prop := Lowers ps w ∧ w.st.state = s

section Lowering

variable {α β : Type} {s : BusState}

theorem keeps_lowersIn {a : Act} (ha : a.founds = false) (hs : stored a = none) :
    (single free free).Keeps (LowersIn ps s) a := fun i w _ hw =>
  ⟨trivial, hw.1.after ha i, by rw [World.after_st, state_exec, hs]; exact hw.2⟩

theorem lowering_uses {p : P α} (hp : p.Uses fun a => a.founds = false) : Lowering ps (Lowers ps) p :=
  .of_keeps (fun _ ha i _ _ hw => ⟨trivial, hw.after ha i⟩) hp

theorem lowering_act {a : Act} (ha : a.founds = false) : Lowering ps (Lowers ps) (act a) :=
  lowering_uses (uses_act ha)

theorem Calm.unfounding {a : Act} (h : Calm a) : a.founds = false := by
  cases a <;> first | rfl | cases h

theorem lowering_calm {p : P α} (hp : p.Uses Calm) : Lowering ps (Lowers ps) p :=
  lowering_uses (hp.mono fun _ => Calm.unfounding)

theorem lowering_plain {p : P α} (hp : p.Uses Plain) : Lowering ps (Lowers ps) p :=
  lowering_calm (hp.mono fun _ => Plain.calm)

/-- The state the program starts in may be taken for granted. -/
theorem lowering_inState {p : P α} (hp : ∀ s, Lowering ps (LowersIn ps s) p) : Lowering ps (Lowers ps) p :=
  fun w hw => hp w.st.state w ⟨hw, rfl⟩

theorem lowering_known {p : P α} (hp : Lowering ps (Lowers ps) p) : Lowering ps (LowersIn ps s) p :=
  hp.mono (fun _ hw => hw.1) (fun _ _ h => h) fun _ _ h => h

theorem lowering_forDevices {l : Loop} {body : Addr → DeviceId → P Unit}
    (hb : ∀ p id, Lowering ps (Lowers ps) (body p id)) : Lowering ps (Lowers ps) (forDevices l body) :=
  triple_forDevices (fun i _ _ hw => ⟨trivial, hw.after rfl i⟩) (fun _ i _ _ hw => ⟨trivial, hw.after rfl i⟩) hb

end Lowering

/-! ## `shutdown` -/

/-- An interface without mapped slaves may be closed. -/
theorem Law.close {h : List Ev} {t : ℕ} (hl : Law ps True h) (hm : leftMapped h = false) :
    Law ps True (⟨t, .ecxClose, ()⟩ :: h) :=
  ⟨fun hc => ⟨rfl, hl.1 ⟨hc.1.2, trivial⟩⟩, fun hg => ⟨⟨fun _ => hm, (hl.2 hg.2).1⟩, trivial⟩⟩

theorem lowering_closeInitialized : Lowering ps (LowersIn ps .initialized) closeInitialized := by
  refine .withLock (.bind (T := fun _ => LowersIn ps .initialized) (.perform (keeps_lowersIn rfl rfl)) fun _ => ?_)
  refine .bind (T := fun _ w => Lowers ps w ∧ leftMapped w.hist = false) (.perform fun i w _ hw => ?_) fun _ => ?_
  · refine ⟨trivial, hw.1.after rfl i, ?_⟩
    have hl : leftMapped w.hist = false := by
      by_contra hl
      exact (hw.1.state (by simpa using hl)).2 hw.2
    rw [World.after_hist, leftMapped_cons rfl, hl]
    rfl
  · refine .perform fun i w _ hw => ⟨trivial, hw.1.law.close hw.2, fun hl => ?_⟩
    exact hw.1.state (leftMapped_of_cons rfl hl)

/-- After PRE_OP has been requested. -/
def Lowered (ps : Parameters) (w : W) : Prop := Lowers ps w ∧ leftMapped w.hist = false

theorem lowered_after {a : Act} (ha : a.founds = false) (i : Env) (h : Lowered ps w) :
    Lowered ps (w.after exec 0 a i) := by
  refine ⟨h.1.after ha i, ?_⟩
  rw [World.after_hist, leftMapped_cons (Act.maps_of_founds ha), h.2]
  rfl

/-- The request lowers them all. -/
theorem lowering_request : (single free free).Triple (Lowers ps) (setDeviceTargetState 0 EC_STATE_PRE_OP)
    (fun _ => Lowered ps) fun _ => Lowers ps := by
  refine .withLock (.bind (T := fun _ => Lowers ps) (lowering_plain ?_) fun onBus => ?_)
  · exact Fits.plain (still_hasDeviceOnBus (V := AnyLock) 0)
  refine .bind (T := fun _ w => Lowers ps w ∧ w.hist.head?.any (fun e => lowersAll e.act) = true)
    (.perform fun i w _ hw => ⟨trivial, hw.after rfl i, rfl⟩) fun _ => ?_
  refine .bind (T := fun _ => Lowered ps) (.perform fun i w _ hw => ⟨trivial, hw.1.after rfl i, ?_⟩)
    fun _ => .pure fun _ h => h
  have hr : requestsPreOp w.hist (.ecxWritestate 0) = true := hw.2
  rw [World.after_hist, leftMapped_cons rfl, hr]
  exact Bool.and_false _

theorem lowering_teardown (hok : hk.Ok ps) : Lowering ps (Lowers ps) (teardown hk) := by
  have callbacks : ∀ h : Hook, Lowering ps (Lowers ps)
      (EthercatInterface.forDevices (.callback h) fun p _ => onCallback hk h p) := fun h =>
    lowering_forDevices fun p _ => .bind (lowering_act rfl) fun _ => lowering_calm (hok.hook h p).calm
  refine .bind (lowering_act rfl) fun _ => .bind (callbacks .onPreShutdown) fun _ => ?_
  refine .bind lowering_request fun _ => .bind (T := fun _ => Lowered ps) ?_ fun _ => .bind ?_ fun _ =>
    .bind (callbacks .onPostShutdown) fun _ => lowering_act rfl
  · have keep : ∀ a, Plain a → (single free free).Keeps (Lowered ps) a := fun a ha i w _ hw =>
      ⟨trivial, lowered_after ha.calm.unfounding i hw⟩
    exact (Setting.Triple.of_keeps keep (plain_waitForDeviceTargetState _ _)).mono (fun _ h => h)
      (fun _ _ h => h) fun _ _ h => h.1
  · refine .withLock (.bind (T := fun _ => Lowers ps) (.perform fun i w _ hw => ?_) fun _ => lowering_act rfl)
    exact ⟨trivial, hw.1.law.close hw.2, fun hl => hw.1.state (leftMapped_of_cons rfl hl)⟩

theorem lowering_shutdown (hok : hk.Ok ps) : Lowering ps (Lowers ps) (shutdown hk) := by
  refine lowering_inState fun s => ?_
  have keep : (single free free).Keeps (LowersIn ps s) .getBusState := keeps_lowersIn rfl rfl
  have st : ∀ w, LowersIn ps s w → w.st.state = s := fun _ hw => hw.2
  refine triple_branch keep st (fun _ => .pure fun _ hw => hw.1) fun _ => ?_
  refine triple_branch keep st (fun _ => lowering_known (lowering_act rfl)) fun _ => ?_
  refine triple_branch keep st (fun h => ?_) fun _ => ?_
  · obtain rfl : s = .initialized := by simpa using h
    exact lowering_closeInitialized
  · exact triple_branch keep st (fun _ => lowering_known (lowering_teardown hok)) fun _ => .throw fun _ hw => hw.1

theorem lowering_abort (hok : hk.Ok ps) {b : Bool} {e : Exn} :
    Lowering ps (Lowers ps) (Prog.when b (shutdown hk >>= fun _ => Prog.throw e)) :=
  .when (fun _ => .bind (lowering_shutdown hok) fun _ => .throw fun _ hw => hw) fun _ _ hw => hw

/-! ## `startup` -/

theorem Undecided.after {a : Act} {c : Prop} (ha : a.founds = false) (hw : ∀ h, requestsPreOp h a = false)
    (hs : stored a = none) (i : Env) (h : Undecided ps c w) : Undecided ps c (w.after exec 0 a i) := by
  refine ⟨h.law.after ?_ fun r => ?_, ?_, ?_⟩
  · cases a <;> first | rfl | cases ha
  · cases a <;> first | rfl | cases ha
  · rw [World.after_hist, leftMapped_cons (Act.maps_of_founds ha), h.mapped, hw]
    rfl
  · rw [World.after_st, state_exec, hs]
    exact h.state

/-- Aborts with mapped slaves on the bus: they are not lowered. -/
theorem lowering_giveUp {c : Prop} (hc : ¬c) {e : Exn} {Q : Unit → W → Prop} :
    (single free free).Triple (Undecided ps c) (shutdown hk >>= fun _ => Prog.throw e) Q fun _ => Lowers ps := by
  have keep : (single free free).Keeps (Undecided ps c) .getBusState := fun i w _ hw =>
    ⟨trivial, hw.after rfl (fun _ => rfl) rfl i⟩
  refine .bind (T := fun _ => Lowers ps) ?_ fun _ => .throw fun _ hw => hw
  refine triple_branch keep (fun _ hw => hw.state) (fun h => absurd h (by decide)) fun _ => ?_
  refine triple_branch keep (fun _ hw => hw.state) (fun h => absurd h (by decide)) fun _ => ?_
  refine triple_branch keep (fun _ hw => hw.state) (fun _ => ?_) fun h => absurd h (by decide)
  refine .withLock (.bind (T := fun _ => Undecided ps c) (.perform fun i w _ hw =>
    ⟨trivial, hw.after rfl (fun _ => rfl) rfl i⟩) fun _ => ?_)
  refine .bind (T := fun _ w => Law ps c w.hist ∧ leftMapped w.hist = true ∧ w.st.state = .shutdown)
    (.perform fun i w _ hw => ⟨trivial, hw.law.after rfl fun _ => rfl, ?_, rfl⟩) fun _ => ?_
  · rw [World.after_hist, leftMapped_cons rfl, hw.mapped]
    rfl
  · rintro w ⟨hl, hm, hs⟩ i -
    refine ⟨trivial, ⟨fun h => ?_, fun h => absurd (hl.2 h.2).2 hc⟩, fun _ => ?_⟩
    · have hn : leftMapped w.hist = false := h.1.1 rfl
      rw [hm] at hn
      cases hn
    · rw [World.after_st]
      change w.st.state ≠ _ ∧ w.st.state ≠ _
      rw [hs]
      simp

/-- Where `startup` may abort, the law is decided. -/
theorem lowering_decide {b : Bool} {e : Exn} :
    (single free free).Triple (Undecided ps (b = false)) (Prog.when b (shutdown hk >>= fun _ => Prog.throw e))
      (fun _ => Undecided ps True) fun _ => Lowers ps := by
  refine .when (fun hb => ?_) fun hb w hw => ?_
  · exact lowering_giveUp (by simp [hb])
  · exact ⟨by simpa [Law, hb] using hw.law, hw.mapped, hw.state⟩

theorem undecided_mapped {i : Env} (hw : LowersIn ps .initialized w) :
    Undecided ps (decide (i.ret > toInt ps.pdoBufferSize) = false) (w.after exec 0 .ecxConfigMapGroup i) := by
  refine ⟨?_, rfl, hw.2⟩
  have hc : decide (i.ret > toInt ps.pdoBufferSize) = false ↔ startupGoesOn ps .ecxConfigMapGroup i.ret = true := by
    simp [startupGoesOn]
  unfold Law
  rw [hc]
  refine ⟨fun h => ⟨h.2, hw.1.law.1 ⟨h.1.2, trivial⟩⟩, fun h => ⟨⟨nofun, (hw.1.law.2 h.2).1⟩, h.1⟩⟩

theorem undecided_clocks {i : Env} (hw : Undecided ps True w) :
    Undecided ps ((!i.flag && ps.dcEnabled) = false) (w.after exec 0 .ecxConfigdc i) := by
  refine ⟨?_, ?_, hw.state⟩
  · have hc : (!i.flag && ps.dcEnabled) = false ↔ startupGoesOn ps .ecxConfigdc i.flag = true := by
      cases hf : i.flag <;> cases hd : ps.dcEnabled <;> simp [startupGoesOn, hd]
    unfold Law
    rw [hc]
    exact ⟨fun h => ⟨h.2, hw.law.1 ⟨h.1.2, trivial⟩⟩, fun h => ⟨⟨nofun, (hw.law.2 h.2).1⟩, h.1⟩⟩
  · rw [World.after_hist, leftMapped_cons rfl, hw.mapped]
    rfl

/-- Leaves mapped slaves as they are, and the bus in its state. -/
def Harmless (a : Act) : Prop := a.founds = false ∧ (∀ h, requestsPreOp h a = false) ∧ stored a = none

theorem Meek.harmless {a : Act} (h : Meek a) : Harmless a := by
  refine ⟨h.modest.still.plain.calm.unfounding, fun l => ?_, h.modest.still.plain.calm.stored⟩
  cases a <;> first | rfl | cases h

theorem harmless_setupDc : (setupDc ps).Uses Harmless := by
  have look : ∀ a, a.founds = false → (∀ h, requestsPreOp h a = false) → stored a = none →
      (act a).Uses Harmless := fun _ hf hr hs => uses_act ⟨hf, hr, hs⟩
  have ids : slaveIds.Uses Harmless := (meek_slaveIds (V := AnyLock)).uses.mono fun _ => Meek.harmless
  refine ids.bind fun l => (Prog.Uses.forEach (fun id => ?_) l).bind fun _ => Prog.uses_when (ids.bind fun l =>
    Prog.Uses.forEach (fun id => ?_) l)
  · exact (look _ rfl (fun _ => rfl) rfl).bind fun _ => (fits_crashUnless (V := AnyLock) _).uses
  · exact (look _ rfl (fun _ => rfl) rfl).bind fun _ => Prog.uses_when (look _ rfl (fun _ => rfl) rfl)

theorem noThrow_setupDc : (setupDc ps).NoThrow := by
  refine noThrow_slaveIds.bind fun ids => (Prog.NoThrow.forEach (fun id => ?_) ids).bind fun _ =>
    Prog.noThrow_when (noThrow_slaveIds.bind fun ids => Prog.NoThrow.forEach (fun id => ?_) ids)
  · exact Prog.noThrow_perform.bind fun _ => noThrow_crashUnless _
  · exact Prog.noThrow_perform.bind fun _ => Prog.noThrow_when Prog.noThrow_perform

/-- `initialize` makes the bus `Initialized` before any slave is mapped. -/
theorem lowering_initializeBus : Lowering ps (Lowers ps) (initializeBus ps) := by
  refine lowering_inState fun s => triple_require (keeps_lowersIn rfl rfl) (fun _ hw => hw.2) (fun _ hw => hw.1)
    fun h => ?_
  obtain rfl : s = .preInit := by simpa using h
  have act : ∀ {a : Act}, a.founds = false → stored a = none → (single free free).Triple
      (LowersIn ps .preInit) (act a) (fun _ => LowersIn ps .preInit) fun _ => Lowers ps :=
    fun ha hs => .perform (keeps_lowersIn ha hs)
  have raise : ∀ {b : Bool} {e : Exn}, (single free free).Triple (LowersIn ps .preInit)
      (Prog.raiseIf b e : P Unit) (fun _ => LowersIn ps .preInit) fun _ => Lowers ps :=
    .raiseIf (fun _ _ hw => hw.1) fun _ _ hw => hw
  have uses : ∀ {α : Type} {p : P α}, p.Uses (fun a => a.founds = false ∧ stored a = none) →
      (single free free).Triple (LowersIn ps .preInit) p (fun _ => LowersIn ps .preInit) fun _ => Lowers ps :=
    fun hp => (Setting.Triple.of_keeps (fun _ ha => keeps_lowersIn ha.1 ha.2) hp).mono (fun _ h => h)
      (fun _ _ h => h) fun _ _ h => h.1
  refine .bind (act rfl rfl) fun ec => .bind raise fun _ => .bind (act rfl rfl) fun n => .bind raise fun _ =>
    .bind (act rfl rfl) fun _ => .bind (uses ?_) fun ids => .bind (uses ?_) fun _ => .bind (act rfl rfl) fun up =>
      .bind (act rfl rfl) fun _ => .bind (T := fun _ => Lowers ps) (.perform fun i w _ hw => ?_) fun _ => ?_
  · exact plain_slaveIds.mono fun _ ha => ⟨ha.calm.unfounding, ha.calm.stored⟩
  · have look : ∀ id, (EthercatInterface.act (.captureTopology id)).Uses
        fun a => a.founds = false ∧ stored a = none := fun id => uses_act ⟨rfl, rfl⟩
    exact Prog.Uses.forEach (fun id => (look id).bind fun _ => (fits_crashUnless (V := AnyLock) _).uses) ids
  · -- mapped slaves would mean a bus beyond `Initialized`, and this one comes from `PreInit`
    refine ⟨trivial, hw.1.law.after rfl fun _ => rfl, fun hl => ?_⟩
    exact absurd hw.2 (hw.1.state (leftMapped_of_cons rfl hl)).1
  · refine .bind (lowering_uses (Prog.Uses.forEach (fun id => ?_) _)) fun _ => .pure fun _ hw => hw
    exact ((plain_scanDevice id).mono fun _ ha => ha.calm.unfounding).bind fun _ => uses_act rfl

section Lifecycle

variable (hok : hk.Ok ps)
include hok

theorem lowering_callbacks (h : Hook) :
    Lowering ps (Lowers ps) (EthercatInterface.forDevices (.callback h) fun p _ => onCallback hk h p) :=
  lowering_forDevices fun p _ => .bind (lowering_act rfl) fun _ => lowering_calm (hok.hook h p).calm

theorem lowering_startup : Lowering ps (Lowers ps) (startup ps hk) := by
  refine lowering_inState fun s => triple_require (keeps_lowersIn rfl rfl) (fun _ hw => hw.2) (fun _ hw => hw.1)
    fun h => ?_
  obtain rfl : s = .initialized := by simpa using h
  have act : ∀ {a : Act}, a.founds = false → stored a = none → (single free free).Triple
      (LowersIn ps .initialized) (act a) (fun _ => LowersIn ps .initialized) fun _ => Lowers ps :=
    fun ha hs => .perform (keeps_lowersIn ha hs)
  refine .bind (T := fun size => Undecided ps (decide (size > toInt ps.pdoBufferSize) = false))
    (.bind (T := fun _ => LowersIn ps .initialized) ?_ fun _ => .bind (act rfl rfl) fun _ =>
      .bind (act rfl rfl) fun _ => .perform fun i w _ hw => ⟨trivial, undecided_mapped hw⟩) fun size => ?_
  · refine (Setting.Triple.of_keeps (C := fun a => a.founds = false ∧ stored a = none)
      (fun a ha => keeps_lowersIn ha.1 ha.2) (uses_callbacks ⟨rfl, rfl⟩ (fun _ => ⟨rfl, rfl⟩) (fun _ => ⟨rfl, rfl⟩)
        fun p => (hok.hook .onStartup p).calm.mono fun _ ha => ⟨ha.unfounding, ha.stored⟩)).mono (fun _ h => h)
      (fun _ _ h => h) fun _ _ h => h.1
  -- each check that fails shuts the bus down; past both, `startup` goes on
  refine .bind lowering_decide fun _ => .bind (T := fun found =>
    Undecided ps ((!found && ps.dcEnabled) = false)) (.perform fun i w _ hw => ⟨trivial, undecided_clocks hw⟩)
    fun found => .bind lowering_decide fun _ => ?_
  refine .bind (T := fun _ => Undecided ps True) ?_ fun _ => .bind (T := fun _ => Lowers ps)
    (.perform fun i w _ hw => ⟨trivial, hw.law.after rfl fun _ => rfl, fun _ => ⟨nofun, nofun⟩⟩) fun _ => ?_
  · have keep : ∀ a, Harmless a → (single free free).Keeps (Undecided ps True) a := fun a ha i w _ hw =>
      ⟨trivial, hw.after ha.1 ha.2.1 ha.2.2 i⟩
    exact (Setting.Triple.of_keeps keep harmless_setupDc).noThrow noThrow_setupDc
  · refine lowering_forDevices fun p id => .bind (lowering_act rfl) fun _ => .bind (lowering_act rfl) fun _ => ?_
    refine .bind (lowering_act rfl) fun _ => .bind (lowering_act rfl) fun _ => .bind (lowering_act rfl) fun _ => ?_
    refine .bind (lowering_act rfl) fun _ => .bind (lowering_act rfl) fun _ => .bind (lowering_act rfl) fun _ => ?_
    refine .bind (lowering_act rfl) fun _ => .bind (lowering_act rfl) fun _ => ?_
    exact lowering_calm (hok.hook .onPdoConfigured p).calm

theorem lowering_activate : Lowering ps (Lowers ps) (activate hk) := by
  refine .bind (lowering_plain (plain_stateIn _)) fun _ => .bind (lowering_plain Prog.uses_raiseIf) fun _ => ?_
  refine .bind (lowering_callbacks hok .onPreActivate) fun _ => .bind (lowering_act rfl) fun _ => ?_
  refine .bind (lowering_forDevices fun p id => .bind (lowering_plain (plain_setDeviceTargetState id _)) fun _ =>
    lowering_abort hok) fun _ => ?_
  refine .bind (lowering_forDevices fun p id => .bind (lowering_plain (plain_waitForDeviceTargetState id _))
    fun _ => lowering_abort hok) fun _ => ?_
  exact .bind (lowering_act rfl) fun _ => lowering_callbacks hok .onPostActivate

theorem lowering_updateService : Lowering ps (Lowers ps) (updateService ps hk) := by
  refine .bind (lowering_plain (plain_stateIn _)) fun _ => .bind (lowering_plain Prog.uses_raiseIf) fun _ => ?_
  refine .bind (lowering_act rfl) fun up => .bind (lowering_act rfl) fun _ => .bind (lowering_act rfl) fun owns =>
    .bind (lowering_plain (Prog.uses_when (Prog.uses_withLock plain_drainMailboxEvents))) fun _ =>
      .bind (lowering_plain (plain_stateIn _)) fun b => ?_
  have states : Lowering ps (Lowers ps) updateDeviceStates :=
    lowering_uses (uses_updateDeviceStates (S := fun a => a.founds = false) rfl)
  split
  · refine .bind (T := fun _ => Lowers ps) ?_ fun _ => .pure fun _ hw => hw
    refine .bind (lowering_act rfl) fun start => .bind (lowering_uses (Prog.uses_when
      ((uses_act (S := fun a => a.founds = false) rfl).bind fun _ => uses_act rfl))) fun _ => ?_
    refine .bind (lowering_plain plain_operationalTimeout) fun _ => .bind (lowering_abort hok) fun _ => ?_
    refine .bind (lowering_forDevices fun _ id => .bind (lowering_plain (plain_setDeviceTargetState id _))
      fun _ => .pure fun _ hw => hw) fun _ => .bind states fun _ => ?_
    refine .bind (lowering_uses (uses_allInOperational (S := fun a => a.founds = false) rfl (fun _ => rfl)
      fun _ => rfl)) fun all => .when (fun _ => lowering_act rfl) fun _ _ hw => hw
  · refine .bind (T := fun _ => Lowers ps) (.when (fun _ => .bind states fun _ => .when (fun _ => ?_)
      fun _ _ hw => hw) fun _ _ hw => hw) fun _ => .pure fun _ hw => hw
    exact lowering_plain plain_updateDiagnosticsSlow

theorem lowering_destroyBus : Lowering ps (Lowers ps) (destroyBus hk) := by
  refine .bind (lowering_forDevices fun p _ => lowering_act rfl) fun _ => .bind (T := fun _ => Lowers ps) ?_
    fun _ => lowering_act rfl
  refine .bind (T := fun _ => Lowers ps) (.attempt (lowering_shutdown hok)) fun r => ?_
  cases r with
  | ok x => exact .pure fun _ hw => hw
  | error e =>
    dsimp only
    split
    · exact .pure fun _ hw => hw
    · exact .crash

/-- **Every operation keeps the law.** -/
theorem lowering_invoke (o : Op) : Lowering ps (Lowers ps) (o.invoke ps hk) := by
  refine triple_invoke (K := Lowers ps) (fun i _ _ hw => ⟨trivial, hw.after rfl i⟩) ?_
    (fun _ i _ _ hw => ⟨trivial, hw.after rfl i⟩) fun _ i _ _ hw => ⟨trivial, hw.after rfl i⟩
  by_cases hl : o.lifecycle = false
  · exact lowering_calm (calm_body o hl (fun r => (hok.sdoReadCallback r).calm)
      fun r => (hok.sdoWriteCallback r).calm)
  · cases o
    case initializeBus => exact triple_void lowering_initializeBus
    case startup => exact lowering_startup hok
    case activate => exact lowering_activate hok
    case shutdown => exact lowering_shutdown hok
    case updateService => exact triple_void (lowering_updateService hok)
    case destroyBus => exact lowering_destroyBus hok
    all_goals exact absurd rfl hl

end Lifecycle

/-! ## Runs -/

theorem run_lowers {good : UserCode → Prop} (hr : Run ps free good w) : Lowers ps w := by
  induction hr with
  | start => exact ⟨⟨fun _ => trivial, fun _ => ⟨trivial, trivial⟩⟩, nofun⟩
  | @call w w' o hk out _ _ hok _ he hc ih =>
    have h := (lowering_invoke hok o).sound he ih
    cases out with
    | ret x => exact h
    | exn e => exact h
    | crash => exact absurd rfl hc

/-- **No interface is closed on mapped slaves**, exactly if no `startup` has aborted after the
mapping; whatever the hooks do. -/
theorem lowered_iff {good : UserCode → Prop} (hr : Run ps free good w) :
    Always ClosedLowered w.hist ↔ Always (GoesOn ps) w.hist :=
  ⟨fun h => (run_lowers hr).law.1 ⟨h, trivial⟩, fun h => ((run_lowers hr).law.2 h).1⟩

/-- A bus that is shut down after `startup`. -/
theorem lowered_iff_configured :
    Always ClosedLowered (world [initializeOne, { op := .startup }, { op := .shutdown }]).hist := by
  have hr : Run {} free UserCode.Quiet (world [initializeOne, { op := .startup }, { op := .shutdown }]) :=
    run_world _ (by simp [initializeOne, UserCode.none_ok, UserCode.none_quiet])
  exact (lowered_iff hr).2 (by decide)

/-- SOEM maps one byte too many. -/
def startupTooLarge : Call := { op := .startup, env := List.replicate 7 {} ++ [{ ret := 8193 }] }

/-- `startup` refuses the mapping, and closes the interface on the slaves as they are. -/
theorem lowered_tooLarge : ¬∀ ps w, Run ps free UserCode.Quiet w → Always ClosedLowered w.hist := by
  intro h
  have hr : Run {} free UserCode.Quiet (world [initializeOne, startupTooLarge]) :=
    run_world _ (by simp [initializeOne, startupTooLarge, UserCode.none_ok, UserCode.none_quiet])
  exact absurd (h {} _ hr) (by decide)

end EthercatInterface
