import EthercatInterface.Executor.RtView
import EthercatInterface.Executor.Stop
import EthercatInterface.Executor.Uses

/-!
# What `is_spinning` tells

`is_spinning` and the status of `full_diagnostics` tell the flag that `spin` sets and `stop`
clears; the RT loop does not touch it on its way out. `spinning_iff` says when they are right
that the RT loop has not ended: as long as no exception has come out of one of its rounds and
it has not obeyed a stop request, and again once `stop` has cleared the flag.

`heeds_rtThread`, `heeds_spin` and `heeds_stop` are the parts of the two threads that have to do
with the flag; for all others, the service thread included, `heeds_beside` is enough.
-/

namespace EthercatInterface

open Interleave

variable {t : ℕ} {w : SystemW} {i : Env × Option Exn} {ps : Parameters} {hk : UserCode} {α : Type}

/-! ## Programs under the pact -/

/-- Thread `t` runs `p` among the threads of the executor and ends in `Q` of the view. -/
abbrev Heeds (t : ℕ) (p : X α) (Q : Outcome Exn α → RtView → Prop) (w : SystemW) : Prop :=
  Secures systemExec systemGuard rtPact t p (fun o w => Q o (rtView w)) w

namespace RtView

/-- What thread `t` may go on knowing of the view. -/
def Kept (t : ℕ) (J : RtView → Prop) : Prop := ∀ v v', rtRelies t v v' → J v → J v'

/-- What thread `t` may do to the view. -/
def Admits (t : ℕ) (v v' : RtView) : Prop := rtGuarantees t v v' ∧ v'.Sound

theorem Kept.stable {J : RtView → Prop} (hJ : Kept t J) : rtPact.Stable t fun w => J (rtView w) :=
  fun w w' _ hr h => hJ (rtView w) (rtView w') hr h

end RtView

/-- **One action**, and what comes after it. -/
theorem heeds_act {a : ExecutorAct} {f : ExecutorAns a → X α} {Q : Outcome Exn α → RtView → Prop}
    {J : RtView → Prop} (hJ : RtView.Kept t J) (hw : J (rtView w))
    (ha : ∀ v r, v.Fits a r → v.Sound → J v → RtView.Admits t v (v.next a r) ∧
      ∀ w, rtView w = v.next a r → Heeds t (f r) Q w) : Heeds t ((xact a).bind f) Q w := by
  refine Secures.step hJ.stable hw fun i w hok hi hw => ?_
  obtain ⟨hadm, hf⟩ := ha (rtView w) _ (rtView_fits hok) hi hw
  refine ⟨?_, hf _ rtView_inr⟩
  rw [← rtView_inr] at hadm
  exact hadm

/-- Actions that leave the view as it is: all those of the bus, and some of the executor. -/
def Beside : SystemAct → Prop := Sum.elim (fun _ => True) fun a => ∀ v r, RtView.next v a r = v

theorem heeds_beside {p : X α} {J : RtView → Prop} (hp : p.Uses Beside) (hJ : RtView.Kept t J)
    (hw : J (rtView w)) : Heeds t p (fun _ => J) w := by
  refine Secures.uses (P := fun w => J (rtView w)) hJ.stable (fun b hb i w _ hi hw => ?_) hp hw
  have hview : rtView (w.after systemExec t b i) = rtView w := by
    cases b with
    | inl a => exact rtView_inl
    | inr a => exact rtView_inr.trans (hb _ _)
  have hadm : RtView.Admits t (rtView w) (rtView (w.after systemExec t b i)) := by
    rw [hview]
    exact ⟨rtGuarantees_refl t _, hi⟩
  refine ⟨?_, hadm⟩
  rw [hview]
  exact hw

theorem beside_bus (a : Act) : Beside (.inl a) := trivial

theorem kept_true : RtView.Kept t fun _ => True := fun _ _ _ _ => trivial

/-! ## The RT thread -/

variable {v : RtView}

theorem running_kept : RtView.Kept 1 fun v => v.phase = .running :=
  fun _ _ hr hp => (hr hp).1

/-- The RT thread is running, and has left its loop. -/
def RtView.Leaving (v : RtView) : Prop := v.phase = .running ∧ v.loop.Exited

theorem leaving_kept : RtView.Kept 1 RtView.Leaving := by
  intro v v' hr ⟨hp, hl⟩
  obtain ⟨hp', hl'⟩ := hr hp
  exact ⟨hp', hl' hl⟩

/-- What the RT thread does to the view besides its rounds: it marks its loop. -/
theorem ExecutorAct.own.next {a : ExecutorAct} (ha : a.own .rt) (v : RtView) (r : ExecutorAns a) :
    v.next a r = { v with loop := v.loop.next a r } := by
  obtain ⟨hphase, hhandle, hflag⟩ := ha.still .rt v.phase v.joinable v.spinning
  have htoken : a.token .rt v.stopRequested = v.stopRequested := by
    cases a <;> first | rfl | exact ha.elim
  rw [RtView.next, hphase, hhandle, hflag, htoken]

/-- It leaves what `stop` marks alone, and is told what its token tells. -/
theorem ExecutorAct.own.marks {a : ExecutorAct} (ha : a.own .rt) {r : ExecutorAns a} (hf : v.Fits a r) :
    (v.loop.next a r).requested = v.loop.requested ∧ (v.loop.next a r).stopped = v.loop.stopped ∧
      ((v.loop.next a r).told = true → v.loop.told = true ∨ v.stopRequested = true) := by
  cases a with
  | stopRequested u =>
    cases ha
    obtain rfl : r = v.stopRequested := hf
    exact ⟨rfl, rfl, fun h => by simpa [RtLoop.next] using h⟩
  | setRunning u b => cases ha; cases b <;> exact ⟨rfl, rfl, .inl⟩
  | setError u e => cases ha; exact ⟨rfl, rfl, .inl⟩
  | outside => exact ⟨rfl, rfl, .inl⟩
  | _ => exact ha.elim

/-- While it runs the flag is set, so that it may mark its loop as it goes on. -/
theorem own_admitted {a : ExecutorAct} (ha : a.own .rt) (hs : v.Sound) (hp : v.phase = .running)
    {r : ExecutorAns a} (hf : v.Fits a r)
    (hpast : (v.loop.next a r).past = true → (v.loop.next a r).Exited) :
    RtView.Admits 1 v (v.next a r) := by
  obtain ⟨hrequested, hstopped, htold⟩ := ha.marks hf
  have hlive : v.Live := .inr hp
  have hspin : v.spinning = true := hs.flagged hlive
  rw [ha.next]
  refine ⟨⟨rfl, id⟩, ?_⟩
  exact {
    past := hpast
    told := fun h => hrequested.trans ((htold h).elim hs.told (hs.token hlive))
    token := fun _ h => hrequested.trans (hs.token hlive h)
    stopped := fun h => hs.stopped (hstopped.symm.trans h)
    cleared := fun h _ => (by cases hspin.symm.trans h)
    flagged := fun _ => hspin
    held := hs.held }

/-- Its function begins. -/
theorem enter_admitted (hs : v.Sound) (hp : v.phase = .started) :
    RtView.Admits 1 v (v.next (.enter .rt) ()) := by
  have hlive : v.Live := .inl hp
  refine ⟨⟨rfl, fun _ => hlive⟩, ?_⟩
  exact { hs with
    token := fun _ => hs.token hlive
    flagged := fun _ => hs.flagged hlive
    held := fun _ => hs.held hlive }

/-- Its function ends. -/
theorem leave_admitted (hs : v.Sound) (hv : v.Leaving) : RtView.Admits 1 v (v.next (.leave .rt) ()) := by
  have hdead : ¬(v.next (.leave .rt) ()).Live := by rintro (h | h) <;> cases h
  refine ⟨⟨rfl, fun h => absurd h hdead⟩, ?_⟩
  exact { hs with
    past := fun _ => hv.2
    token := fun h => absurd h hdead
    flagged := fun h => absurd h hdead
    held := fun h => absurd h hdead }

/-- Where a part of the RT thread's function is to end: in `Q` if it returns, running if it throws. -/
abbrev RtEnds (Q : α → RtView → Prop) : Outcome Exn α → RtView → Prop :=
  Outcome.Meets Q fun _ v => v.phase = .running

/-- Going on after such a part. -/
theorem RtEnds.seq {β : Type} {p : X β} {f : β → X α} {Q : β → RtView → Prop} {Q' : α → RtView → Prop}
    (hp : Heeds 1 p (RtEnds Q) w) (hf : ∀ x w, Q x (rtView w) → Heeds 1 (f x) (RtEnds Q') w) :
    Heeds 1 (p.bind f) (RtEnds Q') w :=
  Secures.seq hp (fun x w _ hw => hf x w hw) (fun _ _ _ hw => hw) fun _ _ _ => trivial

/-- One of its own steps, once it is running. -/
theorem heeds_own {a : ExecutorAct} {f : ExecutorAns a → X α} {Q : Outcome Exn α → RtView → Prop}
    {J : RtView → Prop} (ha : a.own .rt) (hJ : RtView.Kept 1 J) (hrun : ∀ v, J v → v.phase = .running)
    (hw : J (rtView w))
    (hpast : ∀ v r, v.Sound → J v → (v.loop.next a r).past = true → (v.loop.next a r).Exited)
    (hf : ∀ v r w, J v → rtView w = { v with loop := v.loop.next a r } → Heeds 1 (f r) Q w) :
    Heeds 1 ((xact a).bind f) Q w := by
  refine heeds_act hJ hw fun v r hfits hs hv => ⟨own_admitted ha hs (hrun v hv) hfits (hpast v r hs hv), ?_⟩
  intro w hw
  rw [ha.next] at hw
  exact hf v r w hv hw

/-- **The loop**, by induction on its rounds: it returns when it has been told to stop. -/
theorem heeds_loop {round : X Bool}
    (hr : ∀ w, (rtView w).phase = .running →
      Heeds 1 round (RtEnds fun more v => more = true ∧ v.phase = .running) w) (n : ℕ) :
    ∀ w, (rtView w).phase = .running →
      Heeds 1 (loop .rt round n) (RtEnds fun _ => RtView.Leaving) w := by
  -- the request is looked at before every round
  induction n with
  | zero => exact fun _ _ _ _ _ => trivial
  | succ n ih =>
    intro w hw
    refine heeds_own (a := .stopRequested .rt) rfl running_kept (fun _ hv => hv) hw (fun v b hs _ h => ?_)
      fun v b w hv hw => ?_
    · exact (hs.past h).imp (fun ht => by simp [RtLoop.next, ht]) id
    have hp : (rtView w).phase = .running := by rw [hw]; exact hv
    cases b with
    | true =>
      have htold : (rtView w).loop.told = true := by simp [hw, RtLoop.next]
      exact Secures.pure leaving_kept.stable ⟨hp, .inl htold⟩
    | false =>
      refine RtEnds.seq (hr w hp) fun more w hw => ?_
      obtain ⟨rfl, hp⟩ := hw
      exact ih w hp

/-- Once the loop has been left, `is_running` may be cleared. -/
theorem heeds_past (hw : (rtView w).Leaving) :
    Heeds 1 (xact (.setRunning .rt false)) (RtEnds fun _ => RtView.Leaving) w := by
  refine heeds_own (a := .setRunning .rt false) (f := .pure) rfl leaving_kept (fun _ hv => hv.1) hw
    (fun _ _ _ hv _ => hv.2) fun v _ w hv hw => ?_
  refine Secures.pure leaving_kept.stable ?_
  rw [hw]
  exact hv

/-- `update_rt` and what is done beside it do not end the loop by returning. -/
theorem heeds_rtRound (hw : (rtView w).phase = .running) :
    Heeds 1 (rtRound ps) (RtEnds fun more v => more = true ∧ v.phase = .running) w := by
  have beside : ∀ {β : Type} {p : X β} {w : SystemW}, p.Uses Beside → (rtView w).phase = .running →
      Heeds 1 p (RtEnds fun _ v => v.phase = .running) w := fun hp hw =>
    (heeds_beside hp running_kept hw).mono fun o _ _ ho => by cases o <;> first | exact ho | trivial
  refine RtEnds.seq (beside (uses_bus beside_bus (updateRt ps)) hw) fun _ w hw => ?_
  refine RtEnds.seq (beside (uses_outside fun _ _ => rfl) hw) fun _ w hw => ?_
  exact Secures.pure (fun w w' hi hr h => ⟨rfl, running_kept.stable w w' hi hr h.2⟩) ⟨rfl, hw⟩

/-- The loop between its two flags, with its `catch` clause: it has been left through one of the
two exits. -/
theorem heeds_guarded (n : ℕ) (hw : (rtView w).phase = .running) :
    Heeds 1 (Prog.tryCatch (do
      xact (.setRunning .rt true)
      loop .rt (rtRound ps) n
      xact (.setRunning .rt false)) fun e => do
        xact (.setError .rt e)
        xact (.setRunning .rt false)) (RtEnds fun _ => RtView.Leaving) w := by
  -- the loop ends with the phase behind it; only an exception leaves before that
  have body : Heeds 1 (do
      xact (.setRunning .rt true)
      loop .rt (rtRound ps) n
      xact (.setRunning .rt false)) (RtEnds fun _ => RtView.Leaving) w := by
    refine heeds_own (a := .setRunning .rt true) rfl running_kept (fun _ hv => hv) hw
      (fun _ _ hs _ h => hs.past h) fun v _ w hv hw => ?_
    have hp : (rtView w).phase = .running := by rw [hw]; exact hv
    refine RtEnds.seq (heeds_loop (fun _ => heeds_rtRound) n w hp) fun _ w hw => ?_
    exact heeds_past hw
  have caught : Heeds 1 (Prog.attempt (do
      xact (.setRunning .rt true)
      loop .rt (rtRound ps) n
      xact (.setRunning .rt false)))
      (RtEnds fun r v => v.phase = .running ∧ ∀ u, r = .ok u → v.Leaving) w := by
    refine Secures.attempt (body.mono fun o w _ ho => ?_)
    cases o with
    | ret u => exact ⟨ho.1, fun _ _ => ho⟩
    | exn e => exact ⟨ho, fun _ he => by cases he⟩
    | crash => trivial
  refine RtEnds.seq caught fun r w hw => ?_
  cases r with
  | ok u => exact Secures.pure leaving_kept.stable (hw.2 u rfl)
  | error e =>
    refine heeds_own (a := .setError .rt e) rfl running_kept (fun _ hv => hv) hw.1
      (fun _ _ _ _ _ => .inr rfl) fun v _ w hv hw => ?_
    refine heeds_past ?_
    rw [hw]
    exact ⟨hv, .inr rfl⟩

/-- **The RT thread**, from wherever the others are. -/
theorem heeds_rtThread (n : ℕ) (w : SystemW) : Heeds 1 (rtThread ps n) (fun _ _ => True) w := by
  refine heeds_act (a := .enter .rt) kept_true trivial fun v _ hp hs _ =>
    ⟨enter_admitted hs hp, fun w hw => ?_⟩
  have hrun : (rtView w).phase = .running := by rw [hw]; rfl
  refine Secures.seq (heeds_guarded n hrun) (fun _ w _ hw => ?_) (fun _ _ _ _ => trivial) fun _ _ _ => trivial
  have hleave : Heeds 1 (xact (.leave .rt)) (fun _ _ => True) w :=
    heeds_act (f := .pure) leaving_kept hw fun v _ _ hs hv =>
      ⟨leave_admitted hs hv, fun _ _ _ _ _ => trivial⟩
  exact hleave

/-! ## The other threads -/

/-- The service thread, however its loop ends. -/
theorem uses_serviceThread (n : ℕ) : (serviceThread ps hk n).Uses Beside := by
  refine uses_threadFunction (fun a ha v r => ?_) (fun _ _ => rfl) (fun _ _ => rfl) ?_ n
  · cases a with
    | stopRequested u => cases ha; rfl
    | setRunning u b => cases ha; rfl
    | setError u e => cases ha; rfl
    | outside => rfl
    | _ => exact ha.elim
  · exact uses_serviceRound beside_bus fun _ _ => rfl

/-- What a call is to end in is nobody's business here. -/
theorem heeds_any {p : X Unit} (hp : p.Uses Beside) : Heeds t p (fun _ _ => True) w :=
  heeds_beside hp kept_true trivial

/-! ## The controlling thread -/

theorem dead_kept : RtView.Kept 0 fun v => ¬v.Live := fun _ _ hr hv h => hv (hr.2 h)

/-- The RT thread is neither started nor running, and the flag is as `b` says. -/
def RtView.AtRest (b : Bool) (v : RtView) : Prop := v.spinning = b ∧ ¬v.Live

theorem atRest_kept (b : Bool) : RtView.Kept 0 (RtView.AtRest b) :=
  fun _ _ hr hv => ⟨hr.1.trans hv.1, fun h => hv.2 (hr.2 h)⟩

/-- What it does while the RT thread is not alive, that thread does not notice. -/
theorem unnoticed {v' : RtView} (hv : ¬v.Live) : rtGuarantees 0 v v' := fun hp => absurd (.inr hp) hv

/-- Where the RT thread is not alive, the invariant is about its loop and the flag. -/
theorem RtView.Sound.of_dead {v' : RtView} (hv : ¬v'.Live) (hpast : v'.loop.past = true → v'.loop.Exited)
    (htold : v'.loop.told = true → v'.loop.requested = true)
    (hstopped : v'.loop.stopped = true → v'.spinning = false)
    (hcleared : v'.spinning = false → v'.loop.Exited → v'.loop.stopped = true) : v'.Sound where
  past := hpast
  told := htold
  token h := absurd h hv
  stopped := hstopped
  cleared := hcleared
  flagged h := absurd h hv
  held h := absurd h hv

/-- A new loop, while the flag is set and nothing runs. -/
theorem set_admitted (hv : v.AtRest false) : RtView.Admits 0 v (v.next (.setSpinning true) ()) := by
  refine ⟨unnoticed hv.2, .of_dead hv.2 (fun h => ?_) (fun h => ?_) (fun h => ?_) fun h => ?_⟩
  · cases h
  · cases h
  · cases h
  · cases h

theorem start_admitted (hs : v.Sound) (hv : v.AtRest true) : RtView.Admits 0 v (v.next (.start .rt) ()) := by
  refine ⟨unnoticed hv.2, ?_⟩
  exact { hs with
    token := fun _ h => by cases h
    flagged := fun _ => hv.1
    held := fun _ => rfl }

theorem requestStop_admitted (hs : v.Sound) : RtView.Admits 0 v (v.next (.requestStop .rt) ()) := by
  refine ⟨fun hp => ⟨hp, id⟩, ?_⟩
  exact { hs with
    told := fun _ => rfl
    token := fun _ _ => rfl }

/-- `join` returns when the thread has ended. -/
theorem join_dead (hv : v.phase = .ended) : ¬(v.next (.join .rt) ()).Live := by
  rintro (h | h) <;> cases hv.symm.trans h

theorem join_admitted (hs : v.Sound) (hv : v.phase = .ended) :
    RtView.Admits 0 v (v.next (.join .rt) ()) :=
  ⟨unnoticed (join_dead hv), .of_dead (join_dead hv) hs.past hs.told hs.stopped hs.cleared⟩

theorem clear_admitted (hs : v.Sound) (hv : ¬v.Live) : RtView.Admits 0 v (v.next (.setSpinning false) ()) :=
  ⟨unnoticed hv, .of_dead hv hs.past hs.told (fun _ => rfl) fun _ _ => rfl⟩

theorem heeds_spin : Heeds 0 spin (fun _ _ => True) w := by
  refine heeds_act (a := .spinning) kept_true trivial fun v b hb hs _ =>
    ⟨⟨rtGuarantees_refl 0 v, hs⟩, fun w hw => ?_⟩
  obtain rfl : b = v.spinning := hb
  cases hspin : v.spinning with
  | true => exact fun _ _ _ => trivial
  | false =>
    -- the flag is false, so the thread of the last spin has ended
    have hrest : (rtView w).AtRest false := by
      rw [hw]
      refine ⟨hspin, fun hl => ?_⟩
      cases hspin.symm.trans (hs.flagged hl)
    refine heeds_act (a := .setSpinning true) (atRest_kept false) hrest fun v _ _ _ hv =>
      ⟨set_admitted hv, fun w hw => ?_⟩
    have hrest : (rtView w).AtRest true := by
      rw [hw]
      exact ⟨rfl, hv.2⟩
    refine heeds_act (a := .start .rt) (atRest_kept true) hrest fun v _ _ hs hv =>
      ⟨start_admitted hs hv, fun w hw => ?_⟩
    exact heeds_any (Prog.uses_perform fun _ _ => rfl)

/-- The RT thread is joined, if it has a handle. -/
theorem heeds_stopThread :
    Heeds 0 (stopThread .rt) (Outcome.Settles (fun _ v => ¬v.Live) fun _ => True) w := by
  refine heeds_act (a := .joinable .rt) kept_true trivial fun v b hb hs _ =>
    ⟨⟨rtGuarantees_refl 0 v, hs⟩, fun w hw => ?_⟩
  obtain rfl : b = v.joinable := hb
  cases hj : v.joinable with
  | false =>
    -- nothing to join means that the thread is over
    have hdead : ¬(rtView w).Live := by
      rw [hw]
      intro hl
      cases hj.symm.trans (hs.held hl)
    exact Secures.pure dead_kept.stable hdead
  | true =>
    refine heeds_act (a := .requestStop .rt) kept_true trivial fun v _ _ hs _ =>
      ⟨requestStop_admitted hs, fun w hw => ?_⟩
    refine heeds_act (a := .join .rt) (f := .pure) kept_true trivial fun v _ hended hs _ =>
      ⟨join_admitted hs hended, fun w hw => ?_⟩
    have hdead : ¬(rtView w).Live := by
      rw [hw]
      exact join_dead hended
    exact Secures.pure dead_kept.stable hdead

/-- It clears the flag when both threads are joined. -/
theorem heeds_stop : Heeds 0 (stop hk) (fun _ _ => True) w := by
  refine heeds_act (a := .spinning) kept_true trivial fun v b hb hs _ =>
    ⟨⟨rtGuarantees_refl 0 v, hs⟩, fun w hw => ?_⟩
  cases b with
  | false => exact fun _ _ _ => trivial
  | true =>
    have hservice : (stopThread .service).Uses Beside :=
      uses_stopThread (fun _ _ => rfl) (fun _ _ => rfl) fun _ _ => rfl
    -- the flag is cleared only after the thread has been joined
    have hclear : ∀ w, ¬(rtView w).Live →
        Heeds 0 ((xact (.setSpinning false)).bind fun _ => bus (shutdown hk)) (fun _ _ => True) w := by
      intro w hw
      refine heeds_act dead_kept hw fun v _ _ hs hv => ⟨clear_admitted hs hv, fun w hw => ?_⟩
      exact heeds_any (uses_bus beside_bus _)
    refine Secures.seq heeds_stopThread (fun _ w _ hw => ?_) (fun _ _ _ _ => trivial) fun _ _ _ => trivial
    refine Secures.seq (heeds_beside hservice dead_kept hw) (fun _ w _ hw => hclear w hw)
      (fun _ _ _ _ => trivial) fun _ _ _ => trivial

/-! ## Every run -/

theorem ExecutorCall.heeds {p : X Unit} (hp : ExecutorCall ps t p) (w : SystemW) :
    Heeds t p (fun _ _ => True) w := by
  cases hp with
  | spin => exact heeds_spin
  | stop hk => exact heeds_stop
  | rtThread n => exact heeds_rtThread n w
  | serviceThread hk n => exact heeds_any (uses_serviceThread n)
  | isSpinning _ _ => exact heeds_any ((uses_isSpinning fun _ _ => rfl).bind fun _ => trivial)
  | fullDiagnostics force _ _ =>
    refine heeds_any (Prog.Uses.bind ?_ fun _ => trivial)
    exact uses_fullDiagnostics beside_bus (fun _ _ => rfl) (fun _ _ _ => rfl) force
  | bus p _ _ => exact heeds_any (uses_bus beside_bus p)

/-- What the bus has been through is no part of an executor's history. -/
theorem rtLoop_lift (h : List (Event Act Ans)) : rtLoop (h.map (Event.lift ExecutorAns)) = {} := by
  induction h with
  | nil => rfl
  | cons e h ih => exact ih

/-- **The invariant**, in every state an executor comes to. -/
theorem reaches_sound {w : W} {c : Conf SystemAct SystemAns (List Mutex) Exn System}
    (hc : Reaches systemExec systemGuard (ExecutorCall ps) (Conf.idle (w.lift ExecutorAns {})) c) :
    (rtView c.world).Sound := by
  have hinit : rtView (w.lift ExecutorAns {}) = ⟨false, .idle, false, false, {}⟩ := by
    rw [rtView, World.lift, rtLoop_lift]
    rfl
  have hsecured : Secured systemExec systemGuard rtPact (fun _ _ _ => True)
      (Conf.idle (w.lift ExecutorAns {}) : Conf SystemAct SystemAns (List Mutex) Exn System) := by
    refine ⟨?_, fun _ _ hp => by cases hp⟩
    change (rtView (w.lift ExecutorAns {})).Sound
    rw [hinit]
    -- before the first spin no flag is set and no thread is live
    refine .of_dead (fun h => ?_) (fun h => ?_) (fun h => ?_) (fun h => ?_) fun _ h => ?_
    · rcases h with h | h <;> cases h
    · cases h
    · cases h
    · cases h
    · rcases h with h | h <;> cases h
  exact (reaches_secured (fun t p hp w _ => hp.heeds w) hc hsecured).inv

/-! ## What the flag tells -/

/-- Asked in `w`, by whatever thread, `is_spinning()` or `ExecutionStatus::is_spinning` of
`full_diagnostics()` is true. -/
def TellsSpinning (ps : Parameters) (w : SystemW) : Prop :=
  (∃ t w', Exec systemExec systemGuard t isSpinning w (.ret true) w') ∨
    ∃ t force snapshot status w', Exec systemExec systemGuard t (fullDiagnostics ps force) w
      (.ret (snapshot, status)) w' ∧ status.isSpinning = true

theorem exec_fullDiagnostics {force : Bool} {d : DiagnosticsSnapshot} {s : ExecutionStatus} {w' : SystemW}
    (he : Exec systemExec systemGuard t (fullDiagnostics ps force) w (.ret (d, s)) w') :
    s.isSpinning = w.st.2.spinning := by
  have hwp : wp systemExec systemGuard free t (fullDiagnostics ps force)
      (fun o _ => ∀ d s, o = .ret (d, s) → s.isSpinning = w.st.2.spinning) w := by
    -- what the bus does for its own snapshot does not touch the executor
    refine wp_bind (wp_mono (wp_uses (J := fun w' => w'.st.2 = w.st.2) (fun a ha i w' _ hw' => ?_)
      (Uses.lift (diagnostics ps force).uses_true) rfl) fun o w₁ hw₁ => ?_)
    · cases a with
      | inl a => exact ⟨trivial, hw'⟩
      | inr a => exact ha.elim
    cases o with
    | ret d =>
      refine wp_bind (wp_perform fun i _ => ⟨trivial, ?_⟩)
      refine wp_bind (wp_perform fun _ _ => ⟨trivial, ?_⟩)
      refine wp_bind (wp_perform fun _ _ => ⟨trivial, ?_⟩)
      intro d' s h
      cases h
      exact congrArg SingleBusExecutor.spinning hw₁
    | exn e => exact fun _ _ h => by cases h
    | crash => exact fun _ _ h => by cases h
  exact wp_sound he hwp d s rfl

/-- Both tell the flag. -/
theorem tellsSpinning_iff : TellsSpinning ps w ↔ w.st.2.spinning = true := by
  constructor
  · rintro (⟨t, w', he⟩ | ⟨t, force, d, s, w', he, hs⟩)
    · cases he with
      | act i _ he =>
        generalize hb : (systemExec (.inr .spinning) i w.st).1 = b at he
        cases he
        exact hb
    · exact (exec_fullDiagnostics he).symm.trans hs
  · intro hs
    have he : Exec systemExec systemGuard 0 isSpinning w (.ret w.st.2.spinning)
        (w.after systemExec 0 (.inr .spinning) default) := .act default trivial (.pure _ _)
    rw [hs] at he
    exact .inl ⟨0, _, he⟩

/-- **`is_spinning` is right** exactly if, since the last `spin`, no exception has come out of a
round of the RT loop and the loop has not obeyed a stop request, or `stop` has gone on to clear
the flag; outside `stop`, exactly if no such exception has. -/
theorem spinning_iff {w : W} {c : Conf SystemAct SystemAns (List Mutex) Exn System}
    (hc : Reaches systemExec systemGuard (ExecutorCall ps) (Conf.idle (w.lift ExecutorAns {})) c) :
    let l := rtLoop c.world.hist
    ((TellsSpinning ps c.world → ¬l.Ended) ↔ (l.faulted = true ∨ l.told = true → l.stopped = true)) ∧
      ((l.requested = true → l.stopped = true) →
        ((TellsSpinning ps c.world → ¬l.Ended) ↔ (l.faulted = true → l.stopped = true))) := by
  intro l
  have hs := reaches_sound hc
  have hright : (TellsSpinning ps c.world → ¬l.Ended) ↔
      (l.faulted = true ∨ l.told = true → l.stopped = true) := by
    rw [tellsSpinning_iff, or_comm]
    exact hs.right_iff
  refine ⟨hright, fun houtside => hright.trans ⟨fun h hf => h (.inl hf), fun h he => ?_⟩⟩
  exact he.elim h fun ht => houtside (hs.told ht)

/-- The executor spins an activated bus, and the RT thread is about to begin its first round. -/
def spunUp : List (Choice SystemAct SystemAns (List Mutex) Exn (Env × Option Exn)) :=
  .call 0 spin :: Choice.steps 0 5 ++ .call 1 (rtThread {} 1) :: Choice.steps 1 3

theorem spinning_iff_atWork :
    let c := (Conf.idle (activatedBus.lift ExecutorAns {})).follow systemExec spunUp
    TellsSpinning {} c.world ∧ ¬(rtLoop c.world.hist).Ended := by
  have hcalls : ∀ t p, Choice.call t p ∈ spunUp → ExecutorCall {} t p := by
    intro t p hp
    simp only [spunUp, List.cons_append, List.mem_append, Choice.call_mem_call, Choice.call_mem_steps,
      false_or, or_false] at hp
    rcases hp with ⟨rfl, rfl⟩ | ⟨rfl, rfl⟩
    · exact .spin
    · exact .rtThread 1
  have htells : TellsSpinning {} ((Conf.idle (activatedBus.lift ExecutorAns {})).follow systemExec spunUp).world :=
    tellsSpinning_iff.2 (by decide +kernel)
  have hiff := spinning_iff (w := activatedBus) (reaches_admitted hcalls (by decide +kernel))
  exact ⟨htells, hiff.1.2 (by decide +kernel) htells⟩

/-- Meanwhile another thread shuts the bus down, and `update_rt` throws. -/
def shutMeanwhile : List (Choice SystemAct SystemAns (List Mutex) Exn (Env × Option Exn)) :=
  spunUp ++ .call 3 (bus (shutdown .none)) :: Choice.steps 3 17 ++ Choice.steps 1 6

/-- The RT thread has ended, nobody has called `stop`, and `is_spinning` is true. -/
theorem spinning_faulted :
    let c := (Conf.idle (activatedBus.lift ExecutorAns {})).follow systemExec shutMeanwhile
    Reaches systemExec systemGuard (ExecutorCall {}) (Conf.idle (activatedBus.lift ExecutorAns {})) c ∧
      c.pool 0 = none ∧ (jthread c.world .rt).phase = .ended ∧
      ¬(TellsSpinning {} c.world → ¬(rtLoop c.world.hist).Ended) := by
  have hcalls : ∀ t p, Choice.call t p ∈ shutMeanwhile → ExecutorCall {} t p := by
    intro t p hp
    simp only [shutMeanwhile, spunUp, List.append_assoc, List.cons_append, List.mem_append,
      Choice.call_mem_call, Choice.call_mem_steps, false_or, or_false] at hp
    rcases hp with ⟨rfl, rfl⟩ | ⟨rfl, rfl⟩ | ⟨rfl, rfl⟩
    · exact .spin
    · exact .rtThread 1
    · exact .bus _ (by decide) (by decide)
  refine ⟨reaches_admitted hcalls (by decide +kernel), Option.isNone_iff_eq_none.1 (by decide +kernel),
    by decide +kernel, fun h => ?_⟩
  exact h (tellsSpinning_iff.2 (by decide +kernel)) (by decide +kernel)

end EthercatInterface
