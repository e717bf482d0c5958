import EthercatInterface.Lifecycle.Run
import EthercatInterface.Proof.Triples
import EthercatInterface.Threads.Forward

/-!
# The timeout of the transition into OPERATIONAL

The first tick after `activate` stores when it was. Every tick in `Activated` looks at the clock
once more, compares what it reads with the time stored, and shuts the bus down if that is too long
ago. `activate` clears the stored time.

* `activationStart`, `tickReading`: the two times that a tick compares, told by the history.
* `Fires`, `Spares`: a tick that is out of patience, and one that is not.
* `TimesOut`: a tick fires **exactly if what it reads is more than the timeout after the activation
  start**, and none does once the bus has been in `Operational`, or without a timeout.
* `operational_in_time_iff`: so it is for every timeout up to `longestTimeout`, of 292 years; the
  nanoseconds of a longer one overflow, and there are ticks that fire too early.
-/

namespace EthercatInterface

open Interleave

variable {ps : Parameters} {ok : Guard Act Ans Env St} {hk : UserCode} {w w' : W}
  {Q : Unit → W → Prop} {E : Exn → W → Prop}

/-! ## The two times -/

/-- `activate` has succeeded. -/
def Act.activates : Act → Bool
  | .done .activate true => true
  | _ => false

/-- A tick begins. -/
def Act.ticks : Act → Bool
  | .call .updateService => true
  | _ => false

/-- The activation start an action stores. -/
def startStored : Act → Option ℤ
  | .setActivationStartTp tp => tp
  | _ => none

/-- **The activation start**: the first that was stored since `activate` last succeeded. -/
def activationStart : List Ev → Option ℤ
  | [] => none
  | e :: h => if e.act.activates then none else (activationStart h).or (startStored e.act)

/-- Finds an activation start. -/
def loadsStart : (a : Act) → Ans a → Bool
  | .activationStartTp, tp => Option.isSome tp
  | _, _ => false

/-- What the clock said, if it was looked at last. -/
def clockRead : (a : Act) → Ans a → Option ℤ
  | .now, now => some now
  | _, _ => none

/-- **The reading** of the last tick: what the clock said, the first time that the activation
start was found right after. -/
def tickReading : List Ev → Option ℤ
  | [] => none
  | e :: h =>
    if e.act.ticks then none
    else (tickReading h).or
      (if loadsStart e.act e.ans then h.head?.bind fun e => clockRead e.act e.ans else none)

/-- The tick shuts the bus down, and throws. -/
def Fires (out : Outcome Exn Unit) (w' : W) : Prop :=
  out = .exn notOperationalInTime ∧ w'.st.state = .shutdown

/-- The tick leaves the bus as it is, or brings it from `Activated` into `Operational`. -/
def Spares (w : W) (out : Outcome Exn Unit) (w' : W) : Prop :=
  out ≠ .exn notOperationalInTime ∧
    (w'.st.state = w.st.state ∨ w.st.state = .activated ∧ w'.st.state = .operational)

/-- Has to do with the two times. -/
def Act.winds : Act → Bool
  | .setActivationStartTp _ | .done .activate true | .call .updateService => true
  | _ => false

/-- Unrelated to the two times, and to the state of the bus. -/
def Act.idles (a : Act) : Bool := !a.winds && (stored a).isNone &&
  match a with
  | .activationStartTp => false
  | _ => true

section Effect

variable {a : Act} {t : ℕ} {r : Ans a} {h : List Ev}

theorem activationStart_skip (ha : a.winds = false) :
    activationStart (⟨t, a, r⟩ :: h) = activationStart h := by
  have hact : a.activates = false := by
    cases a
    case done o b => cases o <;> cases b <;> first | rfl | cases ha
    all_goals rfl
  have hst : startStored a = none := by
    cases a <;> first | rfl | cases ha
  simp [activationStart, hact, hst]

/-- A reading is kept to the end of the tick. -/
theorem tickReading_keep (ha : a.winds = false) {now : ℤ} (hr : tickReading h = some now) :
    tickReading (⟨t, a, r⟩ :: h) = some now := by
  have htick : a.ticks = false := by
    cases a
    case call o => cases o <;> first | rfl | cases ha
    all_goals rfl
  simp [tickReading, htick, hr]

theorem tickReading_skip (ha : a.idles = true) : tickReading (⟨t, a, r⟩ :: h) = tickReading h := by
  have htick : a.ticks = false := by
    cases a
    case call o => cases o <;> first | rfl | cases ha
    all_goals rfl
  have hload : loadsStart a r = false := by
    cases a <;> first | rfl | cases ha
  simp [tickReading, htick, hload]

theorem activationStartTp_exec (ha : a.winds = false) (i : Env) (s : St) :
    (exec a i s).2.activationStartTp = s.activationStartTp := by
  cases a
  case ecxStatecheck id state =>
    simp only [exec]
    split <;> rfl
  all_goals first | rfl | cases ha

theorem Act.winds_of_idles (ha : a.idles = true) : a.winds = false := by
  simp only [Act.idles, Bool.and_eq_true, Bool.not_eq_true'] at ha
  exact ha.1.1

end Effect

theorem Calm.unwound {a : Act} (h : Calm a) : a.winds = false := by
  cases a
  case call o => cases o <;> first | rfl | cases h
  case done o b => cases o <;> first | rfl | cases h
  all_goals first | rfl | cases h

/-! ## What is known on the way -/

/-- What the clock can say: a time after its epoch, in 64 bits. -/
def ClockReading (t : ℤ) : Prop := 0 ≤ t ∧ t < 2 ^ 63

instance (t : ℤ) : Decidable (ClockReading t) := inferInstanceAs (Decidable (_ ∧ _))

/-- The environment answers with readings of the clock. -/
def KeepsTime (ok : Guard Act Ans Env St) : Prop := ∀ t i w, ok t .now i w → ClockReading i.clock

/-- In `Activated`, with the activation start as the history has it. -/
structure Held (w : W) : Prop where
  state : w.st.state = .activated
  start : w.st.activationStartTp = activationStart w.hist
  reading : ∀ t₀, activationStart w.hist = some t₀ → ClockReading t₀

/-- A tick that has compared nothing yet. -/
structure Unread (w : W) : Prop extends Held w where
  unread : tickReading w.hist = none

/-- The last action was a look at the state of the bus. -/
def Looked (w : W) : Prop := ∃ s past, w.hist = ⟨0, .getBusState, s⟩ :: past

/-- A tick that has an activation start to compare with. -/
def Started (w : W) : Prop := Unread w ∧ w.st.activationStartTp.isSome = true

/-- A tick that has compared the two times, if there is a timeout: it is `late`, or not. -/
def Judged (ps : Parameters) (late : Bool) (w : W) : Prop :=
  ∃ t₀, activationStart w.hist = some t₀ ∧ ClockReading t₀ ∧
    (late = true → 0 < ps.timeoutTransitionOperational) ∧
    (0 < ps.timeoutTransitionOperational → ∃ now, tickReading w.hist = some now ∧ ClockReading now ∧
      late = decide (toInt64 (now - t₀) > toInt64 (ps.timeoutTransitionOperational * 1000000)))

section Known

variable {a : Act} {i : Env} {late : Bool}

theorem Held.after (h : Held w) (ha : a.winds = false) (hs : stored a = none) :
    Held (w.after exec 0 a i) where
  state := by rw [World.after_st, state_exec, hs]; exact h.state
  start := by
    rw [World.after_st, World.after_hist, activationStartTp_exec ha, activationStart_skip ha]
    exact h.start
  reading t₀ ht₀ := h.reading t₀ ((activationStart_skip ha).symm.trans ht₀)

theorem Unread.after (h : Unread w) (ha : a.idles = true) : Unread (w.after exec 0 a i) where
  toHeld := h.toHeld.after (Act.winds_of_idles ha) <| by
    simp only [Act.idles, Bool.and_eq_true, Option.isNone_iff_eq_none] at ha
    exact ha.1.2
  unread := (tickReading_skip ha).trans h.unread

theorem Started.after (h : Started w) (ha : a.idles = true) : Started (w.after exec 0 a i) := by
  refine ⟨h.1.after ha, ?_⟩
  rw [World.after_st, activationStartTp_exec (Act.winds_of_idles ha)]
  exact h.2

theorem Judged.after (h : Judged ps late w) (ha : a.winds = false) : Judged ps late (w.after exec 0 a i) := by
  obtain ⟨t₀, hstart, ht₀, hpos, hread⟩ := h
  refine ⟨t₀, (activationStart_skip ha).trans hstart, ht₀, hpos, fun hT => ?_⟩
  obtain ⟨now, hnow, hlate⟩ := hread hT
  exact ⟨now, tickReading_keep ha hnow, hlate⟩

end Known

/-! ## A tick in `Activated` -/

/-- What the tick has found of an activation start. -/
theorem timed_load : (single ok free).Triple
    (fun w => Unread w ∧ Looked w) (act .activationStartTp)
    (fun start w => start = w.st.activationStartTp ∧ Unread w) E := by
  refine .perform fun i w _ hw => ⟨trivial, rfl, ?_⟩
  obtain ⟨hw, s, past, hhist⟩ := hw
  refine ⟨hw.toHeld.after rfl rfl, ?_⟩
  rw [World.after_hist, tickReading, hw.unread, hhist]
  cases w.st.activationStartTp.isSome <;> simp [Act.ticks, clockRead]

/-- The first tick stores one. -/
theorem timed_store (hclock : KeepsTime ok) (start : Option ℤ) : (single ok free).Triple
    (fun w => start = w.st.activationStartTp ∧ Unread w)
    (Prog.when start.isNone ((act .now).bind fun now => act (.setActivationStartTp (some now))))
    (fun _ => Started) E := by
  -- the first tick after `activate` stores its own reading, a later one finds it
  refine .when (fun hn => ?_) fun hn w hw => ⟨hw.2, ?_⟩
  · refine .bind (T := fun now w => w.st.activationStartTp = none ∧ Unread w ∧ ClockReading now)
      (.perform fun i w hi hw => ?_) fun now => .perform fun i w _ hw => ?_
    · exact ⟨trivial, hw.1.symm.trans (Option.isNone_iff_eq_none.1 hn), hw.2.after rfl, hclock _ _ _ hi⟩
    · obtain ⟨hempty, hunread, hnow⟩ := hw
      have hstart : activationStart (w.after exec 0 (.setActivationStartTp (some now)) i).hist = some now := by
        have hnone : activationStart w.hist = none := hunread.start.symm.trans hempty
        rw [World.after_hist, activationStart, hnone]
        rfl
      refine ⟨trivial, ⟨⟨hunread.state, hstart.symm, fun t₀ ht₀ => ?_⟩, ?_⟩, rfl⟩
      · obtain rfl := Option.some.inj (hstart.symm.trans ht₀)
        exact hnow
      · rw [World.after_hist, tickReading, hunread.unread]
        rfl
  · rw [← hw.1]
    cases start
    · cases hn
    · rfl

/-- The comparison. -/
theorem timed_operationalTimeout (hclock : KeepsTime ok) : (single ok free).Triple Started (operationalTimeout ps)
    (fun late w => Judged ps late w ∧ Held w) E := by
  unfold operationalTimeout
  split
  · next hT =>
    refine .bind (T := fun now w => Started w ∧ ClockReading now ∧ ∃ past, w.hist = ⟨0, .now, now⟩ :: past)
      (.perform fun i w hi hw => ⟨trivial, hw.after rfl, hclock _ _ _ hi, w.hist, rfl⟩) fun now => ?_
    refine .bind (T := fun tp w => ∃ t₀, tp = some t₀ ∧ activationStart w.hist = some t₀ ∧ ClockReading now ∧
      tickReading w.hist = some now ∧ Held w) (.perform fun i w _ hw => ⟨trivial, ?_⟩) fun tp => ?_
    · -- the start is loaded right after the reading that it is compared with
      obtain ⟨⟨hw, hsome⟩, hreading, past, hhist⟩ := hw
      obtain ⟨t₀, ht₀⟩ := Option.isSome_iff_exists.1 hsome
      refine ⟨t₀, ht₀, ?_, hreading, ?_, hw.toHeld.after rfl rfl⟩
      · rw [World.after_hist, activationStart_skip rfl, ← hw.start, ht₀]
      · have hload : loadsStart .activationStartTp (exec .activationStartTp i w.st).1 = true := hsome
        rw [World.after_hist, tickReading, hw.unread, hload, hhist]
        rfl
    · rintro w ⟨t₀, rfl, hstart, hreading, hnow, hw⟩
      exact ⟨⟨t₀, hstart, hw.reading t₀ hstart, fun _ => hT, fun _ => ⟨now, hnow, hreading, rfl⟩⟩, hw⟩
  · next hT =>
    refine .pure fun w hw => ⟨?_, hw.1.toHeld⟩
    obtain ⟨t₀, ht₀⟩ := Option.isSome_iff_exists.1 hw.2
    have hstart : activationStart w.hist = some t₀ := hw.1.start.symm.trans ht₀
    exact ⟨t₀, hstart, hw.1.reading t₀ hstart, fun h => (by cases h), fun h => absurd h hT⟩

/-- How a tick ends that has compared the two times. -/
abbrev InTime (ps : Parameters) (w : W) : Prop :=
  Judged ps false w ∧ (Held w ∨ w.st.state = .operational)

abbrev TooLate (ps : Parameters) (e : Exn) (w : W) : Prop :=
  Judged ps true w ∧ e = notOperationalInTime ∧ w.st.state = .shutdown

theorem ShutDown.over {c c' : Core} {r : Except Exn Unit} (h : ShutDown False c r c') :
    c'.state = .shuttingDown ∨ c'.state = .shutdown := by
  by_cases hs : c.state = .shuttingDown
  · cases h with
    | stuck _ => exact .inl hs
    | torn hr => exact absurd hs (by rcases hr with hr | hr | hr <;> simp [hr])
    | already h => cases hs.symm.trans h
    | unopened h => cases hs.symm.trans h
    | initialized h => cases hs.symm.trans h
    | preThrew ht => exact ht.elim
    | postThrew ht => exact ht.elim
  · exact .inr (h.safe hs).2

theorem unwound_shutdown (hok : hk.Ok ps) : (shutdown hk).Uses fun a => a.winds = false :=
  uses_shutdown (fun _ ha => ha.calm.unwound) (fun _ => rfl) (fun _ => rfl) (fun _ _ => rfl) rfl rfl
    fun h p => (hok.hook h p).calm.mono fun _ => Calm.unwound

section Tick

variable (hh : Hooks ps False hk)
include hh

/-- A tick that is late shuts the bus down. -/
theorem timed_expire : (single ok free).Triple (fun w => Judged ps true w ∧ Held w)
    ((shutdown hk).bind fun _ => (.throw notOperationalInTime : P Unit)) Q (TooLate ps) := by
  refine .bind (T := fun _ w => Judged ps true w ∧ w.st.state = .shutdown) (fun w hw => ?_) fun _ =>
    .throw fun w hw => ⟨hw.1, rfl, hw.2⟩
  have hleads : wp exec ok free 0 (shutdown hk) (fun o w' => o.Ends (ShutDown False (core w)) (core w')) w :=
    wp_iff_exec.2 fun o w' he => (leads_shutdown hh).sound (core_simulates ok 0) he
  -- a bus in `Activated` is not being shut down, so `shutdown` gets to its end
  have hactive : (core w).state ≠ .shuttingDown := by
    have hs : (core w).state = .activated := hw.2.state
    rw [hs]
    decide
  refine wp_mono (wp_frame exec (fun a ha i w hw => hw.after ha) (unwound_shutdown hh.ok) hleads hw.1)
    fun o w' ho => ?_
  cases o with
  | ret u => exact ⟨ho.2, (ho.1.safe hactive).2⟩
  | exn e => cases (ho.1.safe hactive).1
  | crash => trivial

omit hh in
/-- The rest of a tick that is not. -/
theorem timed_requestOperational : (single ok free).Triple (fun w => Judged ps false w ∧ Held w) (do
      forDevices .requestOperational fun _ id => do
        let _ ← setDeviceTargetState id EC_STATE_OPERATIONAL
        pure ()
      updateDeviceStates
      Prog.when (← allInOperational) (act (.updateBusState .operational)))
    (fun _ => InTime ps) E := by
  have keep : ∀ {α : Type} {p : P α}, (p.Uses fun a => a.winds = false ∧ stored a = none) → p.NoThrow →
      (single ok free).Triple (fun w => Judged ps false w ∧ Held w) p
        (fun _ w => Judged ps false w ∧ Held w) E := fun hp hn =>
    (Setting.Triple.of_keeps (fun a ha i w _ hw =>
      ⟨trivial, hw.1.after ha.1, hw.2.after ha.1 ha.2⟩) hp).noThrow hn
  have plain : ∀ a, Plain a → a.winds = false ∧ stored a = none := fun _ ha =>
    ⟨ha.calm.unwound, ha.calm.stored⟩
  refine .bind (keep (Uses.forDevices ⟨rfl, rfl⟩ (fun _ => ⟨rfl, rfl⟩) fun _ id => ?_)
    (noThrow_forDevices fun _ id => ?_)) fun _ => ?_
  · exact ((plain_setDeviceTargetState id _).mono plain).bind fun _ => trivial
  · exact (noThrow_setDeviceTargetState id _).bind fun _ => trivial
  refine .bind (keep (uses_updateDeviceStates ⟨rfl, rfl⟩) noThrow_updateDeviceStates) fun _ => ?_
  refine .bind (keep (uses_allInOperational ⟨rfl, rfl⟩ (fun _ => ⟨rfl, rfl⟩) fun _ => ⟨rfl, rfl⟩)
    noThrow_allInOperational) fun all => ?_
  -- the bus moves on only when every device reports `Operational`
  refine .when (fun _ => .perform fun i w _ hw => ⟨trivial, hw.1.after rfl, .inr rfl⟩) fun _ w hw => ?_
  exact ⟨hw.1, .inl hw.2⟩

theorem timed_bringOperational (hclock : KeepsTime ok) : (single ok free).Triple
    (fun w => Unread w ∧ Looked w) (bringOperational ps hk)
    (fun _ => InTime ps) (TooLate ps) := by
  refine .bind timed_load fun start => .bind (timed_store hclock start) fun _ => ?_
  refine .bind (timed_operationalTimeout hclock) fun late => .bind (T := fun _ w => Judged ps false w ∧ Held w) ?_
    fun _ => timed_requestOperational
  -- the comparison decides between the teardown and the request
  cases late with
  | true => exact timed_expire hh
  | false => exact fun w hw => hw

/-- A tick in `Activated` ends in one of two ways. -/
theorem timed_tick (hclock : KeepsTime ok) : (single ok free).Triple Held (Op.updateService.invoke ps hk)
    (fun _ => InTime ps) (TooLate ps) := by
  -- up to the comparison nothing reads the clock for it or moves the bus
  have keep : ∀ {α : Type} {p : P α}, (p.Uses fun a => a.idles = true) → p.NoThrow →
      (single ok free).Triple Unread p (fun _ => Unread) (TooLate ps) := fun hp hn =>
    (Setting.Triple.of_keeps (fun a ha i w _ hw => ⟨trivial, hw.after ha⟩) hp).noThrow hn
  have act : ∀ {a : Act}, a.idles = true →
      (single ok free).Triple Unread (act a) (fun _ => Unread) (TooLate ps) := fun ha =>
    keep (uses_act ha) Prog.noThrow_perform
  have drain : drainMailboxEvents.Uses fun a => a.idles = true :=
    mailing_drainMailboxEvents.uses.mono fun a ha => by cases a <;> first | rfl | cases ha
  refine triple_invoke (K := Unread) (fun i w _ hw => ⟨trivial, ?_⟩) (triple_void ?_)
    (fun _ i w _ hw => ?_) fun e i w _ hw => ?_
  · have hsame : activationStart (w.after exec 0 (.call .updateService) i).hist = activationStart w.hist := by
      rw [World.after_hist, activationStart]
      exact Option.or_none
    exact ⟨⟨hw.state, hw.start.trans hsame.symm, fun t₀ ht₀ => hw.reading t₀ (hsame.symm.trans ht₀)⟩, rfl⟩
  · refine triple_ifState (s := .activated) (fun i w _ hw => ⟨trivial, hw.after rfl⟩)
      (fun w hw => hw.state) ?_
    refine .bind (T := fun _ => Unread) (.raiseIf (fun h => absurd h (by decide)) fun _ _ hw => hw)
      fun _ => ?_
    refine .bind (act rfl) fun up => .bind (act rfl) fun _ => .bind (act rfl) fun owns => ?_
    refine .bind (keep (Prog.uses_when (Prog.uses_withLock drain))
      (Prog.noThrow_when (Prog.noThrow_withLock noThrow_drainMailboxEvents))) fun _ => ?_
    refine .bind (T := fun b w => b = true ∧ Unread w ∧ Looked w) ?_
      fun b => .assume (c := b = true) (fun w hw => hw.1) fun hb => ?_
    · refine .bind (T := fun s w => s = .activated ∧ Unread w ∧ Looked w)
        (.perform fun i w _ hw => ⟨trivial, hw.state, hw.after rfl, _, _, rfl⟩) fun s => ?_
      refine .assume (c := s = .activated) (fun w hw => hw.1) fun hs => ?_
      subst hs
      exact .pure fun w hw => ⟨rfl, hw.2⟩
    · subst hb
      exact .bind ((timed_bringOperational hh hclock).mono (fun w hw => hw.2) (fun _ _ h => h) fun _ _ h => h)
        fun _ => .pure fun w hw => hw
  · refine ⟨trivial, hw.1.after rfl, ?_⟩
    exact hw.2.imp (fun h => h.after rfl rfl) fun h => h
  · exact ⟨trivial, hw.1.after rfl, hw.2⟩

omit hh in
/-- In other states a tick does not get to the comparison. -/
theorem timed_otherTick {s : BusState} (hs : s ≠ .activated) : (single ok free).Triple
    (fun w => w.st.state = s) (Op.updateService.invoke ps hk) (fun _ w => w.st.state = s)
    fun e w => e ≠ notOperationalInTime ∧ w.st.state = s := by
  have keeps : ∀ {a : Act}, stored a = none → (single ok free).Keeps (fun w => w.st.state = s) a :=
    fun ha i w _ hw => ⟨trivial, (state_exec _ i w.st).trans (by rw [ha]; exact hw)⟩
  have keep : ∀ {α : Type} {p : P α}, (p.Uses fun a => stored a = none) → p.NoThrow →
      (single ok free).Triple (fun w => w.st.state = s) p (fun _ w => w.st.state = s)
        fun e w => e ≠ notOperationalInTime ∧ w.st.state = s := fun hp hn =>
    (Setting.Triple.of_keeps (fun a ha => keeps ha) hp).noThrow hn
  have act : ∀ {a : Act}, stored a = none → (single ok free).Triple (fun w => w.st.state = s) (act a)
      (fun _ w => w.st.state = s) fun e w => e ≠ notOperationalInTime ∧ w.st.state = s :=
    fun ha => keep (uses_act ha) Prog.noThrow_perform
  have plain : ∀ a, Plain a → stored a = none := fun _ ha => ha.calm.stored
  refine triple_invoke (K := fun w => w.st.state = s) (keeps rfl) (triple_void ?_) (fun _ => keeps rfl)
    fun e i w hi hw => ⟨trivial, hw.1, (keeps rfl i w hi hw.2).2⟩
  -- the background diagnostics are all that such a tick may still do
  refine triple_refuse (keeps rfl) (fun w hw => hw) (fun w hw => ⟨by decide, hw⟩) fun _ => ?_
  refine .bind (act rfl) fun up => .bind (act rfl) fun _ => .bind (act rfl) fun owns => ?_
  refine .bind (keep (Prog.uses_when (Prog.uses_withLock (plain_drainMailboxEvents.mono plain)))
    (Prog.noThrow_when (Prog.noThrow_withLock noThrow_drainMailboxEvents))) fun _ => ?_
  refine triple_branch (keeps rfl) (fun w hw => hw) (fun h => absurd (List.mem_singleton.1 h) hs) fun _ => ?_
  refine .bind (keep (Prog.uses_when ?_) noThrow_backgroundDiagnostics) fun _ => .pure fun w hw => hw
  exact (uses_updateDeviceStates (S := fun a => stored a = none) rfl).bind fun _ =>
    Prog.uses_when (plain_updateDiagnosticsSlow.mono plain)

end Tick

/-! ## The state between operations -/

section Moved

variable {c c₀ c' : Core} {o : Op} {r : Except Exn Unit}

/-- The bus does not go backwards, and gets into `Activated` only by an `activate` that succeeds. -/
structure Advanced (c : Core) (o : Op) (r : Except Exn Unit) (c' : Core) : Prop where
  forward : c.state ≤ c'.state
  activated : c'.state = .activated → c.state = .activated ∨ o = .activate ∧ r = .ok ()

theorem Advanced.same (h : c'.state = c.state) : Advanced c o r c' :=
  ⟨h ▸ BusState.le_refl _, fun hs => .inl (h ▸ hs)⟩

theorem Advanced.to (s s' : BusState) (h : c.state = s) (h' : c'.state = s') (hle : s ≤ s')
    (hs : s' ≠ .activated) : Advanced c o r c' :=
  ⟨h ▸ h' ▸ hle, fun ha => absurd (h'.symm.trans ha) hs⟩

theorem Advanced.over {r₀ : Except Exn Unit} (h : ShutDown False c₀ r₀ c') (hs : c₀.state = c.state) :
    Advanced c o r c' := by
  by_cases hd : c₀.state = .shuttingDown
  · rcases h.over with h' | h'
    · exact .same (h'.trans (hd.symm.trans hs))
    · exact .to .shuttingDown .shutdown (hs.symm.trans hd) h' (by decide) (by decide)
  · exact .to _ .shutdown rfl (h.safe hd).2 (le_shutdown _) (by decide)

theorem clearBusAll_state (c : Core) : c.clearBusAll.state = c.state := by
  rw [Core.clearBusAll, Core.clearBus_eq]

/-- **Every operation advances the bus**, if no hook throws. -/
theorem Moved.advanced (h : Moved False c o r c') : Advanced c o r c' := by
  -- one case per way an operation moves the core; those in which a hook throws are excluded
  cases h with
  | @initialized r₀ c₁ h =>
    have hfin : (c₁.finish .initializeBus (r₀.map fun _ => ())).state = c₁.state := by cases r₀ <;> rfl
    cases h with
    | refused _ => exact .same hfin
    | unopened _ => exact .same hfin
    | noDevices _ => exact .same hfin
    | opened n hs =>
      exact .to .preInit .initialized hs (hfin.trans (Core.emplaceN_state ..)) (by decide) (by decide)
  | startedUp h =>
    cases h with
    | refused _ => exact .same rfl
    | hookThrew ht => exact ht.elim
    | aborted hs h => exact .over h (Core.notifyAll_state ..)
    | pdoThrew ht => exact ht.elim
    | configured hs =>
      exact .to .initialized .configured hs (Core.notifyAll_state ..) (by decide) (by decide)
  | activated h =>
    cases h with
    | refused _ => exact .same rfl
    | preThrew ht => exact ht.elim
    | aborted hs h => exact .over h (Core.notifyAll_state ..)
    | postThrew ht => exact ht.elim
    | activated hs =>
      have hs' : (c.activated.notifyAll .onPostActivate c.devices).state = .activated :=
        Core.notifyAll_state ..
      exact ⟨by rw [hs, hs']; decide, fun _ => .inr ⟨rfl, rfl⟩⟩
  | shutDown h => exact .over h rfl
  | serviced h =>
    cases h with
    | unchanged => exact .same rfl
    | operational hs => exact .to .activated .operational hs rfl (by decide) (by decide)
    | timeout hs h => exact .over h rfl
  | destroyed h =>
    cases h with
    | destroyed h =>
      have hd := Advanced.over (o := .destroyBus) (r := .ok ()) h (clearBusAll_state c)
      exact ⟨hd.forward, hd.activated⟩
  | other _ => exact .same rfl

theorem Moved.closed (h : Moved False c o r c') (ho : o = .shutdown ∨ o = .destroyBus) :
    c'.state ≠ .activated := by
  have left : ∀ {c : Core} {r : Except Exn Unit} {c' : Core}, ShutDown False c r c' →
      c'.state ≠ .activated := fun h => by
    rcases h.over with h | h <;> (rw [h]; decide)
  cases h with
  | shutDown h => exact left h
  | destroyed h =>
    cases h with
    | destroyed h =>
      have hs := left h
      exact hs
  | other h => rcases ho with rfl | rfl <;> cases h
  | initialized _ => simp at ho
  | startedUp _ => simp at ho
  | activated _ => simp at ho
  | serviced _ => simp at ho

end Moved

/-! ## Every operation -/

/-- The operations that begin with a test of the state that `Activated` does not pass. -/
def Op.refusesActivated : Op → Bool
  | .initializeBus | .startup | .activate => true
  | _ => false

/-- An operation that is refused leaves the two times alone. -/
theorem timed_refused {o : Op} (ho : o.refusesActivated = true) :
    (single ok free).Triple Held (o.invoke ps hk) (fun _ _ => False) fun _ => Held := by
  have keeps : ∀ {a : Act}, a.winds = false → stored a = none → (single ok free).Keeps Held a :=
    fun ha hs i w _ hw => ⟨trivial, hw.after ha hs⟩
  have require : ∀ {α : Type} {l : List BusState} {e : Exn} {f : Unit → P α}, BusState.activated ∉ l →
      (single ok free).Triple Held ((stateIn l).bind fun b => (Prog.raiseIf (!b) e).bind f)
        (fun _ _ => False) fun _ => Held := fun hl =>
    triple_require (s := .activated) (keeps rfl rfl) (fun w hw => hw.state) (fun _ hw => hw)
      fun h => absurd h hl
  refine triple_invoke (K := Held) (keeps ?_ rfl) ?_ (fun _ _ _ _ hw => hw.elim) fun _ => keeps ?_ rfl
  · cases o <;> first | rfl | cases ho
  · cases o
    case initializeBus => exact triple_void (require (by decide))
    case startup => exact require (by decide)
    case activate => exact require (by decide)
    all_goals cases ho
  · cases o <;> rfl

/-- No activation start is stored. -/
def Unstarted (w : W) : Prop := w.st.activationStartTp = none

theorem Unstarted.after {a : Act} {i : Env} (h : Unstarted w) (ha : a.winds = false) :
    Unstarted (w.after exec 0 a i) :=
  (activationStartTp_exec ha i w.st).trans h

/-- `activate` clears the activation start before it asks the first slave for SAFE_OP. -/
theorem timed_activate (hok : hk.Ok ps) : (single ok free).Triple (fun _ => True) (activate hk)
    (fun _ => Unstarted) fun _ _ => True := by
  have skip : ∀ {α : Type} (p : P α),
      (single ok free).Triple (fun _ => True) p (fun _ _ => True) fun _ _ => True := fun p w _ =>
    wp_mono (wp_true p w) fun o w' _ => by cases o <;> trivial
  have keep : ∀ {α : Type} {p : P α}, (p.Uses fun a => a.winds = false) →
      (single ok free).Triple Unstarted p (fun _ => Unstarted) fun _ _ => True := fun hp =>
    (Setting.Triple.of_keeps (fun a ha i w _ hw => ⟨trivial, hw.after ha⟩) hp).mono
      (fun _ h => h) (fun _ _ h => h) fun _ _ _ => trivial
  have calm : ∀ h p, (hk.hook h p).Uses fun a => a.winds = false := fun h p =>
    (hok.hook h p).calm.mono fun _ => Calm.unwound
  have abort : ∀ {b : Bool} {e : Exn}, (Prog.when b ((shutdown hk).bind fun _ => .throw e) : P Unit).Uses
      fun a => a.winds = false := Prog.uses_when ((unwound_shutdown hok).bind fun _ => trivial)
  refine .bind (skip _) fun b => .bind (skip _) fun _ => .bind (skip _) fun _ => ?_
  refine .bind (T := fun _ => Unstarted) (.perform fun _ _ _ _ => ⟨trivial, rfl⟩) fun _ => ?_
  -- from here on only hooks, device states and failed attempts, none of which sets the start
  refine keep (.bind (Uses.forDevices rfl (fun _ => rfl) fun _ id => ?_) fun _ =>
    .bind (Uses.forDevices rfl (fun _ => rfl) fun _ id => ?_) fun _ => .bind (uses_act rfl) fun _ =>
      uses_callbacks rfl (fun _ => rfl) (fun _ => rfl) (calm _))
  · exact ((plain_setDeviceTargetState id _).mono fun _ ha => ha.calm.unwound).bind fun _ => abort
  · exact ((plain_waitForDeviceTargetState id _).mono fun _ ha => ha.calm.unwound).bind fun _ => abort

/-- An `activate` that succeeds leaves no activation start behind. -/
theorem timed_activateCall (hok : hk.Ok ps) : (single ok free).Triple (fun _ => True)
    (Op.activate.invoke ps hk) (fun _ w => Unstarted w ∧ activationStart w.hist = none) fun _ _ => True := by
  refine .bind (T := fun _ _ => True) (.perform fun _ _ _ _ => ⟨trivial, trivial⟩) fun _ => ?_
  refine .bind (T := fun r => Outcome.Meets (fun _ => Unstarted) (fun _ _ => True) (.ofExcept r))
    (.attempt (timed_activate hok)) fun r => ?_
  cases r with
  | ok x => exact .perform fun i w _ hw => ⟨trivial, hw, rfl⟩
  | error e =>
    exact .bind (T := fun _ _ => True) (.perform fun _ _ _ _ => ⟨trivial, trivial⟩)
      fun _ => .throw fun _ _ => trivial

section Call

variable {o : Op} {out : Outcome Exn Unit} (hclock : KeepsTime ok) (hok : hk.Ok ps) (hq : hk.Quiet)
  (he : Exec exec ok 0 (o.invoke ps hk) w out w') (hc : out ≠ .crash)
include hclock hok hq he hc

/-- An operation that leaves the bus in `Activated` leaves the activation start that the history has. -/
theorem held_activated (hw : Held w) (hs : w'.st.state = .activated) : Held w' := by
  have hh : Hooks ps False hk := ⟨hok, fun _ => hq⟩
  obtain ⟨r, hm, -⟩ := invoke_moved False hh he hc
  have ends : ∀ {Q : Unit → W → Prop} {E : Exn → W → Prop},
      (single ok free).Triple Held (o.invoke ps hk) Q E → (Q () w' → Held w') →
        (∀ e, E e w' → Held w') → Held w' := fun ht hQ hE => by
    have h := ht.sound he hw
    -- in `Activated` a tick may leave the bus there; the others shut it down or are refused
    cases out with
    | ret u => exact hQ h
    | exn e => exact hE e h
    | crash => exact absurd rfl hc
  by_cases hl : o.lifecycle = false
  · have huses : (o.invoke ps hk).Uses Calm := Uses.invoke hl (fun _ => hl)
      (calm_body o hl (fun r => (hok.sdoReadCallback r).calm) fun r => (hok.sdoWriteCallback r).calm)
    exact ends (.of_keeps (fun a ha i w _ hw => ⟨trivial, hw.after ha.unwound ha.stored⟩) huses) id
      fun _ => id
  cases o
  case updateService =>
    refine ends (timed_tick hh hclock) (fun h => h.2.resolve_right fun ho => ?_) fun e h => ?_
    · cases hs.symm.trans ho
    · cases hs.symm.trans h.2.2
  case shutdown => exact absurd hs (hm.closed (.inl rfl))
  case destroyBus => exact absurd hs (hm.closed (.inr rfl))
  case initializeBus => exact ends (timed_refused rfl) False.elim fun _ => id
  case startup => exact ends (timed_refused rfl) False.elim fun _ => id
  case activate => exact ends (timed_refused rfl) False.elim fun _ => id
  all_goals exact absurd rfl hl

/-- **The activation start is the one of the history**, whenever the bus is in `Activated`. -/
theorem held_call (hw : w.st.state = .activated → Held w) (hs : w'.st.state = .activated) : Held w' := by
  by_cases hb : w.st.state = .activated
  · exact held_activated hclock hok hq he hc (hw hb) hs
  · obtain ⟨r, hm, hr⟩ := invoke_moved False ⟨hok, fun _ => hq⟩ he hc
    rcases hm.advanced.activated hs with h | ⟨rfl, hret⟩
    · exact absurd h hb
    · obtain rfl := hr.1 hret
      have h : Unstarted w' ∧ activationStart w'.hist = none := (timed_activateCall hok).sound he trivial
      exact ⟨hs, h.1.trans h.2.symm, fun t₀ ht₀ => (by cases h.2.symm.trans ht₀)⟩

end Call

/-! ## Runs -/

/-- A run that has come by `w` can come to the other world later. -/
inductive Later (ps : Parameters) (ok : Guard Act Ans Env St) (good : UserCode → Prop) (w : W) : W → Prop
  | now : Later ps ok good w w
  | call {w₁ w₂ : W} {o : Op} {hk : UserCode} {out : Outcome Exn Unit} : Later ps ok good w w₁ →
      o.Allowed w₁.st → hk.Ok ps → good hk → Exec exec ok 0 (o.invoke ps hk) w₁ out w₂ →
      out ≠ .crash → Later ps ok good w w₂

theorem run_held (hclock : KeepsTime ok) (hr : Run ps ok UserCode.Quiet w) :
    w.st.state = .activated → Held w := by
  induction hr with
  | start => exact fun h => (by cases h)
  | call _ _ hok hq he hc ih => exact held_call hclock hok hq he hc ih

/-- **The bus never goes back.** -/
theorem Later.forward {v : W} (h : Later ps ok UserCode.Quiet v w) : v.st.state ≤ w.st.state := by
  induction h with
  | now => exact BusState.le_refl _
  | call _ _ hok hq he hc ih =>
    obtain ⟨r, hm, -⟩ := invoke_moved False ⟨hok, fun _ => hq⟩ he hc
    exact BusState.le_trans ih hm.advanced.forward

theorem spares_otherTick {out : Outcome Exn Unit} (hs : w.st.state ≠ .activated)
    (he : Exec exec ok 0 (Op.updateService.invoke ps hk) w out w') (hc : out ≠ .crash) : Spares w out w' := by
  have h := (timed_otherTick hs).sound he rfl
  cases out with
  | ret u => exact ⟨by simp, .inl h⟩
  | exn e => exact ⟨fun he => h.1 (by injection he), .inl h.2⟩
  | crash => exact absurd rfl hc

/-- A tick in `Activated` compares the two times, and does what comes of it. -/
theorem judged_tick {out : Outcome Exn Unit} (hclock : KeepsTime ok) (hh : Hooks ps False hk) (hw : Held w)
    (he : Exec exec ok 0 (Op.updateService.invoke ps hk) w out w') (hc : out ≠ .crash) :
    (Judged ps true w' ∧ Fires out w') ∨ (Judged ps false w' ∧ Spares w out w') := by
  have h := (timed_tick hh hclock).sound he hw
  cases out with
  | ret u =>
    obtain ⟨hj, hs | hs⟩ := h
    · exact .inr ⟨hj, by simp, .inl (hs.state.trans hw.state.symm)⟩
    · exact .inr ⟨hj, by simp, .inr ⟨hw.state, hs⟩⟩
  | exn e =>
    obtain ⟨hj, rfl, hs⟩ := h
    exact .inl ⟨hj, rfl, hs⟩
  | crash => exact absurd rfl hc

/-- **What the timeout of the transition promises.** A tick in `Activated` shuts the bus down, and
throws, exactly if its reading is more than the timeout after the activation start; without a timeout,
and once the bus has been in `Operational`, no tick does. -/
def TimesOut (ps : Parameters) : Prop :=
  ∀ (ok : Guard Act Ans Env St) (hk : UserCode) (w w' : W) (out : Outcome Exn Unit), KeepsTime ok →
    Run ps ok UserCode.Quiet w → hk.Ok ps → hk.Quiet →
    Exec exec ok 0 (Op.updateService.invoke ps hk) w out w' → out ≠ .crash →
    (0 < ps.timeoutTransitionOperational → w.st.state = .activated → ∃ t₀ now,
      activationStart w'.hist = some t₀ ∧ tickReading w'.hist = some now ∧
      (now - t₀ > ps.timeoutTransitionOperational * 1000000 → Fires out w') ∧
      (now - t₀ ≤ ps.timeoutTransitionOperational * 1000000 → Spares w out w')) ∧
    (ps.timeoutTransitionOperational ≤ 0 → Spares w out w') ∧
    (∀ v, Run ps ok UserCode.Quiet v → v.st.state = .operational → Later ps ok UserCode.Quiet v w →
      w.st.state ≠ .activated ∧ Spares w out w')

/-- The longest timeout whose nanoseconds 64 bits hold, in milliseconds. -/
def longestTimeout : ℤ := 9223372036854

/-- Up to there the comparison of the code is that of the times. -/
theorem late_iff {T t₀ now : ℤ} (hT : 0 < T) (hT' : T ≤ longestTimeout) (ht₀ : ClockReading t₀)
    (hnow : ClockReading now) :
    toInt64 (now - t₀) > toInt64 (T * 1000000) ↔ now - t₀ > T * 1000000 := by
  obtain ⟨ht₀, ht₀'⟩ := ht₀
  obtain ⟨hnow, hnow'⟩ := hnow
  rw [longestTimeout] at hT'
  rw [Fits64.toInt64 ⟨by omega, by omega⟩, Fits64.toInt64 ⟨by omega, by omega⟩]

theorem timesOut_of_le (hT' : ps.timeoutTransitionOperational ≤ longestTimeout) : TimesOut ps := by
  intro ok hk w w' out hclock hr hok hq he hc
  have hh : Hooks ps False hk := ⟨hok, fun _ => hq⟩
  refine ⟨fun hT hs => ?_, fun hT => ?_, fun v _ hv hl => ?_⟩
  · -- the tick has read one time point, and went one way or the other by the comparison
    rcases judged_tick hclock hh (run_held hclock hr hs) he hc with
      ⟨⟨t₀, hstart, ht₀, -, hread⟩, hf⟩ | ⟨⟨t₀, hstart, ht₀, -, hread⟩, hs⟩
    · obtain ⟨now, hnow, hreading, hlate⟩ := hread hT
      have hlate := (late_iff hT hT' ht₀ hreading).1 (of_decide_eq_true hlate.symm)
      exact ⟨t₀, now, hstart, hnow, fun _ => hf, fun h => absurd hlate (Int.not_lt.2 h)⟩
    · obtain ⟨now, hnow, hreading, hlate⟩ := hread hT
      have hlate := mt (late_iff hT hT' ht₀ hreading).2 (of_decide_eq_false hlate.symm)
      exact ⟨t₀, now, hstart, hnow, fun h => absurd h hlate, fun _ => hs⟩
  · -- without a time-out the comparison is not made
    by_cases hs : w.st.state = .activated
    · rcases judged_tick hclock hh (run_held hclock hr hs) he hc with ⟨⟨t₀, -, -, hpos, -⟩, -⟩ | ⟨-, hspares⟩
      · exact absurd (hpos rfl) (Int.not_lt.2 hT)
      · exact hspares
    · exact spares_otherTick hs he hc
  · -- the bus does not go back, and `Activated` is before `Operational`
    have hne : w.st.state ≠ .activated := fun hs => by
      have hle := hl.forward
      rw [hv, hs] at hle
      exact absurd hle (by decide)
    exact ⟨hne, spares_otherTick hne he hc⟩

/-! ## Longer timeouts -/

/-- A clock that keeps to 64 bits. -/
def soundClock : Guard Act Ans Env St := fun _ _ i _ => ClockReading i.clock

theorem keepsTime_soundClock : KeepsTime soundClock := fun _ _ _ h => h

/-- Some run of the program throws. -/
def MayThrow {α : Type} (p : P α) (w : W) (e : Exn) : Prop := ∃ w', Exec exec soundClock 0 p w (.exn e) w'

section MayThrow

variable {α β : Type} {p : P β} {f : β → P α} {b : β} {e : Exn}

theorem MayThrow.after {w₁ : W} (hp : Exec exec soundClock 0 p w (.ret b) w₁) (h : MayThrow (f b) w₁ e) :
    MayThrow (p.bind f) w e := by
  obtain ⟨w', h⟩ := h
  exact ⟨w', hp.bind h⟩

theorem MayThrow.bind (h : MayThrow p w e) : MayThrow (p.bind f) w e := by
  obtain ⟨w', h⟩ := h
  exact ⟨w', h.bind_exn⟩

/-- A step that returns if the environment decides nothing of its own. -/
theorem MayThrow.step (hr : (run exec 0 p [] w).1 = .ret b) (h : MayThrow (f b) (run exec 0 p [] w).2.1 e) :
    MayThrow (p.bind f) w e := by
  refine .after ?_ h
  rw [← hr]
  exact (run_exec_of exec (G := fun i => ClockReading i.clock) (by decide) (fun _ _ _ h => h) p [] w (by simp)).1

theorem MayThrow.invoke {o : Op} (h : MayThrow (o.body ps hk) (w.after exec 0 (.call o) {}) e) :
    MayThrow (o.invoke ps hk) w e := by
  obtain ⟨w', h⟩ := h
  have h0 : ClockReading 0 := by decide
  have hcall : Exec exec soundClock 0 (act (.call o)) w (.ret ()) (w.after exec 0 (.call o) {}) :=
    .act {} h0 (.pure _ _)
  have hr : Exec exec soundClock 0 (o.body ps hk).attempt (w.after exec 0 (.call o) {}) (.ret (.error e)) w' :=
    Exec.attempt h
  exact .after hcall (.after hr ⟨_, .act {} h0 (.throw _ _)⟩)

end MayThrow

/-- The default parameters, with another timeout. -/
def patient (T : ℤ) : Parameters := { timeoutTransitionOperational := T }

/-- A new bus with one device is brought into `Activated`. -/
def activateCalls : List Call := [initializeOne, { op := .startup }, activateOne]

theorem run_patient (T : ℤ) : Run (patient T) soundClock UserCode.Quiet (world activateCalls) := by
  -- the timeout makes no difference to these calls
  have hsame : ∀ c ∈ activateCalls, c.op.invoke (patient T) c.code = c.op.invoke {} c.code := fun c hc => by
    simp only [activateCalls, List.mem_cons, List.not_mem_nil, or_false] at hc
    rcases hc with rfl | rfl | rfl <;> rfl
  have hsome : (runCalls {} ⟨{}, []⟩ activateCalls).isSome = true := by decide +kernel
  obtain ⟨w, hw⟩ := Option.isSome_iff_exists.1 hsome
  refine Run.of_calls (G := fun i => ClockReading i.clock) (by decide) (fun _ _ _ h => h) (fun c hc => ?_) .start
    ((runCalls_congr hsame _).trans (hw.trans ?_))
  · simp only [activateCalls, List.mem_cons, List.not_mem_nil, or_false] at hc
    rcases hc with rfl | rfl | rfl
    all_goals exact ⟨UserCode.none_ok _, UserCode.none_quiet, by decide⟩
  · rw [world, hw]
    rfl

/-- The last moment that 64 bits hold. -/
def lastMoment : Env := { clock := 2 ^ 63 - 1 }

/-- A limit that 64 bits wrap around is over at the last moment, if not before. -/
theorem exec_overdue {T : ℤ} (hT : 0 < T) (hL : toInt64 (T * 1000000) < 2 ^ 63 - 1)
    (hs : w.st.activationStartTp = some 0) : Exec exec soundClock 0 (operationalTimeout (patient T)) w (.ret true)
      ((w.after exec 0 .now lastMoment).after exec 0 .activationStartTp {}) := by
  unfold operationalTimeout
  rw [if_pos (show 0 < (patient T).timeoutTransitionOperational from hT)]
  have h0 : ClockReading 0 := by decide
  have hlast : ClockReading (2 ^ 63 - 1) := by decide
  refine .act lastMoment hlast (.act {} h0 ?_)
  have hstart : (exec .activationStartTp {} (w.after exec 0 .now lastMoment).st).1 = some 0 := hs
  have hlate : decide (toInt64 (2 ^ 63 - 1 - 0) > toInt64 (T * 1000000)) = true := by
    rw [Fits64.toInt64 (by decide)]
    simpa using hL
  rw [hstart]
  change Exec exec soundClock 0 (Prog.pure (decide (toInt64 (2 ^ 63 - 1 - 0) > toInt64 (T * 1000000)))) _ _ _
  rw [hlate]
  exact .pure _ _

/-- The state in which a first tick expires. -/
def overdueOne : St := (exec (.setActivationStartTp (some 0)) {} (exec (.setLinkUp false) {} activatedOne).2).2

theorem mayThrow_expire (hw : w.st = overdueOne) :
    MayThrow ((shutdown .none).bind fun _ => .throw notOperationalInTime : P Unit) w notOperationalInTime := by
  obtain ⟨s, h⟩ := w
  obtain rfl : s = overdueOne := hw
  exact .step (b := ()) rfl ⟨_, .throw _ _⟩

theorem mayThrow_updateService {T : ℤ} (hT : 0 < T) (hL : toInt64 (T * 1000000) < 2 ^ 63 - 1) (h : List Ev) :
    MayThrow (updateService (patient T) .none) ⟨activatedOne, h⟩ notOperationalInTime := by
  unfold updateService internalServiceUpdate
  -- the test of the state, the link, and the mailboxes, which somebody else is busy with
  refine .step (b := false) rfl (.step (b := ()) rfl ?_)
  refine .step (b := false) rfl (.step (b := ()) rfl (.step (b := false) rfl (.step (b := ()) rfl ?_)))
  refine .step (b := true) rfl (.bind ?_)
  unfold bringOperational
  refine .step (b := none) rfl (.step (b := ()) rfl ?_)
  exact .after (exec_overdue hT hL rfl) (.bind (mayThrow_expire rfl))

/-- Nanoseconds that 64 bits wrap around are even. -/
theorem toInt64_millis_lt (T : ℤ) : toInt64 (T * 1000000) < 2 ^ 63 - 1 := by
  have hlt : toInt64 (T * 1000000) < 2 ^ 63 := (fits64_toInt64 _).2
  obtain ⟨k, hk⟩ : (18446744073709551616 : ℤ) ∣ toInt64 (T * 1000000) - T * 1000000 := by
    rw [toInt64, Int64.toInt_ofInt]
    exact Int.dvd_bmod_sub_self
  omega

/-- **Any longer timeout** shuts a bus down too early. -/
theorem not_timesOut {T : ℤ} (hT : longestTimeout < T) : ¬TimesOut (patient T) := by
  have hpos : 0 < T := Int.lt_trans (by decide) hT
  obtain ⟨w', he⟩ : MayThrow (Op.updateService.invoke (patient T) .none) (world activateCalls)
      notOperationalInTime := .invoke (.bind (mayThrow_updateService hpos (toInt64_millis_lt T) _))
  intro htimes
  have hr := run_patient T
  have hs : (world activateCalls).st.state = .activated := by decide +kernel
  have hok := UserCode.none_ok (patient T)
  obtain ⟨t₀, now, hstart, hnow, -, hspares⟩ := (htimes soundClock .none _ w' _ keepsTime_soundClock hr hok
    UserCode.none_quiet he (by simp)).1 hpos hs
  -- the times of the tick are less than the timeout apart, as any that 64 bits hold
  obtain ⟨hj, -⟩ | ⟨-, hs⟩ := judged_tick keepsTime_soundClock ⟨hok, fun _ => UserCode.none_quiet⟩
    (run_held keepsTime_soundClock hr hs) he (by simp)
  · obtain ⟨t₁, hstart₁, ht₁, -, hread⟩ := hj
    obtain ⟨now₁, hnow₁, hreading, -⟩ := hread hpos
    obtain rfl := Option.some.inj (hstart.symm.trans hstart₁)
    obtain rfl := Option.some.inj (hnow.symm.trans hnow₁)
    refine (hspares ?_).1 rfl
    have hlt : now < 2 ^ 63 := hreading.2
    have hge : 0 ≤ t₀ := ht₁.1
    change now - t₀ ≤ T * 1000000
    rw [longestTimeout] at hT
    omega
  · exact hs.1 rfl

/-- **The timeout of the transition** is kept by every bus exactly if 64 bits hold its nanoseconds. -/
theorem operational_in_time_iff (T : ℤ) :
    (∀ ps : Parameters, ps.timeoutTransitionOperational = T → TimesOut ps) ↔ T ≤ longestTimeout := by
  refine ⟨fun h => ?_, fun hT ps hps => timesOut_of_le (hps ▸ hT)⟩
  by_contra hT
  exact not_timesOut (Int.not_le.1 hT) (h (patient T) rfl)

/-- A tick that looks at the clock when it says `t`. -/
def tickAt (t : ℤ) : Call := { op := .updateService, env := List.replicate 40 { clock := t } }

/-- A bus in `Activated`, with a first tick at the time `5`. -/
def waiting : List Call := activateCalls ++ [tickAt 5]

/-- The tick after that comes a second later, and one nanosecond. -/
def lateTick : Outcome Exn Unit × W × List Env :=
  run exec 0 (Op.updateService.invoke {} .none) (tickAt 1000000006).env (world waiting)

theorem operational_in_time_late : Fires lateTick.1 lateTick.2.1 := by
  have hclock : ∀ c ∈ waiting, ∀ i ∈ c.env, ClockReading i.clock := by decide
  have hcode : ∀ c ∈ waiting, c.code.Ok {} ∧ c.code.Quiet := by
    simp [waiting, activateCalls, initializeOne, activateOne, tickAt, UserCode.none_ok, UserCode.none_quiet]
  have hr : Run {} soundClock UserCode.Quiet (world waiting) :=
    run_world_of (G := fun i => ClockReading i.clock) (by decide) (fun _ _ _ h => h) _ fun c hc =>
      ⟨(hcode c hc).1, (hcode c hc).2, hclock c hc⟩
  have he : Exec exec soundClock 0 (Op.updateService.invoke {} .none) (world waiting) lateTick.1 lateTick.2.1 :=
    (run_exec_of exec (G := fun i => ClockReading i.clock) (by decide) (fun _ _ _ h => h) _ _ _ (by decide)).1
  have hc : lateTick.1 ≠ .crash := by
    have hret : lateTick.1 = .exn notOperationalInTime := rfl
    simp [hret]
  have htimes : TimesOut {} := (operational_in_time_iff 1000).2 (by decide) {} rfl
  obtain ⟨t₀, now, hstart, hnow, hfires, -⟩ := (htimes soundClock .none _ _ _ keepsTime_soundClock hr
    (UserCode.none_ok _) UserCode.none_quiet he hc).1 (by decide) (by decide +kernel)
  have h₀ : activationStart lateTick.2.1.hist = some 5 := by decide +kernel
  have h₁ : tickReading lateTick.2.1.hist = some 1000000006 := by decide +kernel
  obtain rfl := Option.some.inj (h₀.symm.trans hstart)
  obtain rfl := Option.some.inj (h₁.symm.trans hnow)
  exact hfires (by decide)

/-- `std::chrono::milliseconds::max()`. -/
def millisecondsMax : ℤ := 9223372036854775807

/-- With that timeout, the first tick of a bus in `Activated`. -/
def hastyTick : Outcome Exn Unit × W × List Env :=
  run exec 0 (Op.updateService.invoke (patient millisecondsMax) .none) (tickAt 5).env (world activateCalls)

/-- It shuts the bus down, no time after the activation start. -/
theorem operational_in_time_max :
    activationStart hastyTick.2.1.hist = some 5 ∧ tickReading hastyTick.2.1.hist = some 5 ∧
      Fires hastyTick.1 hastyTick.2.1 ∧ ¬TimesOut (patient millisecondsMax) := by
  have hstart : activationStart hastyTick.2.1.hist = some 5 := by decide +kernel
  have hnow : tickReading hastyTick.2.1.hist = some 5 := by decide +kernel
  have hthrows : hastyTick.1 = .exn notOperationalInTime := rfl
  have he : Exec exec soundClock 0 (Op.updateService.invoke (patient millisecondsMax) .none) (world activateCalls)
      hastyTick.1 hastyTick.2.1 :=
    (run_exec_of exec (G := fun i => ClockReading i.clock) (by decide) (fun _ _ _ h => h) _ _ _ (by decide)).1
  refine ⟨hstart, hnow, ⟨hthrows, by decide +kernel⟩, fun htimes => ?_⟩
  obtain ⟨t₀, now, hstart', hnow', -, hspares⟩ := (htimes soundClock .none _ _ _ keepsTime_soundClock
    (run_patient millisecondsMax) (UserCode.none_ok _) UserCode.none_quiet he (by simp [hthrows])).1 (by decide)
    (by decide +kernel)
  obtain rfl := Option.some.inj (hstart.symm.trans hstart')
  obtain rfl := Option.some.inj (hnow.symm.trans hnow')
  exact (hspares (by decide)).1 hthrows

end EthercatInterface
