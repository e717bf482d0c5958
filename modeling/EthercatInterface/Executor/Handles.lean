import EthercatInterface.Executor.Spinning

/-!
# No thread of an executor is lost

`spin` moves two new threads into `rt_thread_` and `service_thread_`, and may do so again
after a `stop`. `WorkerView` is what this has to do with one of the two handles, with a tally
of how often a thread was started, begun, ended and joined. Its invariant (`WorkerView.Sound`)
is kept in every interleaving: every thread but the one in the handle has been joined, every
thread has run its function once or is about to, and `is_running` is true only meanwhile.
-/

namespace EthercatInterface

open Interleave

/-- How often, of the threads moved into a handle, one was started, joined, begun and ended. -/
structure Tally where
  starts : ℕ := 0
  joins : ℕ := 0
  enters : ℕ := 0
  leaves : ℕ := 0

def Tally.next (u : Worker) (n : Tally) : ExecutorAct → Tally
  | .start v => if u = v then { n with starts := n.starts + 1 } else n
  | .join v => if u = v then { n with joins := n.joins + 1 } else n
  | .enter v => if u = v then { n with enters := n.enters + 1 } else n
  | .leave v => if u = v then { n with leaves := n.leaves + 1 } else n
  | _ => n

/-- The tally of worker `u` after a past. -/
def threadTally (u : Worker) : List (Event SystemAct SystemAns) → Tally
  | [] => {}
  | ⟨_, .inl _, _⟩ :: h => threadTally u h
  | ⟨_, .inr a, _⟩ :: h => (threadTally u h).next u a

namespace ExecutorAct

/-- Whether thread `u` claims to be running after an action, if `b` told so before. -/
def mark (u : Worker) (b : Bool) : ExecutorAct → Bool
  | .setRunning v b' => if u = v then b' else b
  | _ => b

theorem isRunning_exec (a : ExecutorAct) (i : Option Exn) (x : SingleBusExecutor) (u : Worker) :
    ((executorExec a i x).2.thread u).isRunning = a.mark u (x.thread u).isRunning := by
  cases a <;> simp only [executorExec, mark, SingleBusExecutor.modify, SingleBusExecutor.setSpinning,
    Function.update_apply] <;> split <;> simp_all

end ExecutorAct

/-- The flag, a handle and its thread. -/
structure WorkerView where
  spinning : Bool
  phase : ThreadPhase
  joinable : Bool
  isRunning : Bool
  tally : Tally

def workerView (u : Worker) (w : SystemW) : WorkerView where
  spinning := w.st.2.spinning
  phase := (jthread w u).phase
  joinable := (jthread w u).joinable
  isRunning := (jthread w u).isRunning
  tally := threadTally u w.hist

/-- A thread that has not begun yet, counted. -/
def ThreadPhase.waits : ThreadPhase → ℕ
  | .started => 1
  | .idle | .running | .ended => 0

/-- A thread at work, counted. -/
def ThreadPhase.works : ThreadPhase → ℕ
  | .running => 1
  | .idle | .started | .ended => 0

namespace WorkerView

def next (u : Worker) (v : WorkerView) (a : ExecutorAct) : WorkerView where
  spinning := a.flag v.spinning
  phase := a.phase u v.phase
  joinable := a.handle u v.joinable
  isRunning := a.mark u v.isRunning
  tally := v.tally.next u a

/-- What an action waits for, and what it answers. -/
def Fits (u : Worker) (v : WorkerView) : (a : ExecutorAct) → ExecutorAns a → Prop
  | .spinning, b => b = v.spinning
  | .joinable v', b => v' = u → b = v.joinable
  | .enter v', _ => v' = u → v.phase = .started
  | .join v', _ => v' = u → v.phase = .ended
  | _, _ => True

/-- **The invariant**: the handle owns the one thread that was started and not joined, each thread
has begun and ended once or is about to, and it claims to be running only meanwhile. -/
structure Sound (v : WorkerView) : Prop where
  joined : v.tally.starts = v.tally.joins + v.joinable.toNat
  begun : v.tally.starts = v.tally.enters + v.phase.waits
  ended : v.tally.enters = v.tally.leaves + v.phase.works
  held : v.phase = .started ∨ v.phase = .running → v.joinable = true
  flagged : v.joinable = true → v.spinning = true
  shown : v.isRunning = true → v.phase = .running

end WorkerView

variable {t : ℕ} {u : Worker} {w : SystemW} {i : Env × Option Exn} {ps : Parameters} {hk : UserCode} {α : Type}

theorem workerView_inl {a : Act} : workerView u (w.after systemExec t (.inl a) i) = workerView u w := rfl

theorem workerView_inr {a : ExecutorAct} :
    workerView u (w.after systemExec t (.inr a) i) = (workerView u w).next u a := by
  have hspin : (w.after systemExec t (.inr a) i).st.2.spinning = a.flag w.st.2.spinning :=
    a.spinning_exec i.2 w.st.2
  have hphase : (jthread (w.after systemExec t (.inr a) i) u).phase = a.phase u (jthread w u).phase :=
    a.phase_exec i.2 w.st.2 u
  have hjoin : (jthread (w.after systemExec t (.inr a) i) u).joinable = a.handle u (jthread w u).joinable :=
    a.joinable_exec i.2 w.st.2 u
  have hmark : (jthread (w.after systemExec t (.inr a) i) u).isRunning = a.mark u (jthread w u).isRunning :=
    a.isRunning_exec i.2 w.st.2 u
  rw [workerView, hspin, hphase, hjoin, hmark]
  rfl

/-- The guard and the answers are those of the view. -/
theorem workerView_fits {a : ExecutorAct} (h : systemGuard t (.inr a) i w) :
    (workerView u w).Fits u a (executorExec a i.2 w.st.2).1 := by
  cases a with
  | spinning => rfl
  | joinable v => rintro rfl; rfl
  | enter v => rintro rfl; exact h
  | join v => rintro rfl; exact h
  | _ => trivial

/-! ## The pact over the view -/

/-- What a thread relies on: the one in control on the flag and the handle, the worker itself on
its phase and its claim. -/
def workerRelies (u : Worker) (t : ℕ) (v v' : WorkerView) : Prop :=
  (t = 0 → v'.spinning = v.spinning ∧ v'.joinable = v.joinable) ∧
    (t = u.tid → v.phase = .running → v'.phase = .running ∧ v'.isRunning = v.isRunning)

/-- What a thread guarantees. -/
def workerGuarantees (u : Worker) (t : ℕ) (v v' : WorkerView) : Prop :=
  (t ≠ 0 → v'.spinning = v.spinning ∧ v'.joinable = v.joinable) ∧
    (t ≠ u.tid → v.phase = .running → v'.phase = .running ∧ v'.isRunning = v.isRunning)

theorem workerGuarantees_refl (u : Worker) (t : ℕ) (v : WorkerView) : workerGuarantees u t v v :=
  ⟨fun _ => ⟨rfl, rfl⟩, fun _ h => ⟨h, rfl⟩⟩

/-- **Who writes what**: the controlling thread the flag and the handle, a worker its phase and its
claim while it runs. -/
def workerPact (u : Worker) : Pact SystemAct SystemAns System where
  inv w := (workerView u w).Sound
  rely t w w' := workerRelies u t (workerView u w) (workerView u w')
  guar t w w' := workerGuarantees u t (workerView u w) (workerView u w')
  rely_refl t w := ⟨fun _ => ⟨rfl, rfl⟩, fun _ h => ⟨h, rfl⟩⟩
  rely_trans h₁ h₂ := by
    refine ⟨fun ht => ⟨(h₂.1 ht).1.trans (h₁.1 ht).1, (h₂.1 ht).2.trans (h₁.1 ht).2⟩, fun ht hp => ?_⟩
    obtain ⟨hp₁, hr₁⟩ := h₁.2 ht hp
    obtain ⟨hp₂, hr₂⟩ := h₂.2 ht hp₁
    exact ⟨hp₂, hr₂.trans hr₁⟩
  guar_refl t w := workerGuarantees_refl u t _
  guar_trans h₁ h₂ := by
    refine ⟨fun ht => ⟨(h₂.1 ht).1.trans (h₁.1 ht).1, (h₂.1 ht).2.trans (h₁.1 ht).2⟩, fun ht hp => ?_⟩
    obtain ⟨hp₁, hr₁⟩ := h₁.2 ht hp
    obtain ⟨hp₂, hr₂⟩ := h₂.2 ht hp₁
    exact ⟨hp₂, hr₂.trans hr₁⟩
  kept htu _ _ h := ⟨fun hu => h.1 fun ht => htu (ht.trans hu.symm),
    fun hu => h.2 fun ht => htu (ht.trans hu.symm)⟩

/-- Thread `t` runs `p` among the threads of the executor and ends in `Q` of the view. -/
abbrev Minds (u : Worker) (t : ℕ) (p : X α) (Q : Outcome Exn α → WorkerView → Prop) (w : SystemW) : Prop :=
  Secures systemExec systemGuard (workerPact u) t p (fun o w => Q o (workerView u w)) w

namespace WorkerView

/-- What thread `t` may go on knowing of the view. -/
def Kept (u : Worker) (t : ℕ) (J : WorkerView → Prop) : Prop := ∀ v v', workerRelies u t v v' → J v → J v'

/-- What thread `t` may do to the view. -/
def Admits (u : Worker) (t : ℕ) (v v' : WorkerView) : Prop := workerGuarantees u t v v' ∧ v'.Sound

theorem Kept.stable {J : WorkerView → Prop} (hJ : Kept u t J) :
    (workerPact u).Stable t fun w => J (workerView u w) :=
  fun w w' _ hr h => hJ (workerView u w) (workerView u w') hr h

theorem kept_true : Kept u t fun _ => True := fun _ _ _ _ => trivial

/-- The flag and the handle are as the controlling thread has left them. -/
def Set (b c : Bool) (v : WorkerView) : Prop := v.spinning = b ∧ v.joinable = c

theorem set_kept (b c : Bool) : Kept u 0 (Set b c) := fun _ _ hr hv =>
  ⟨(hr.1 rfl).1.trans hv.1, (hr.1 rfl).2.trans hv.2⟩

/-- The worker runs, and claims so as `p` says. -/
def Runs (p : Bool → Prop) (v : WorkerView) : Prop := v.phase = .running ∧ p v.isRunning

theorem runs_kept (p : Bool → Prop) : Kept u u.tid (Runs p) := by
  intro v v' hr ⟨hp, hb⟩
  obtain ⟨hp', hb'⟩ := hr.2 rfl hp
  exact ⟨hp', hb' ▸ hb⟩

end WorkerView

/-- **One action**, and what comes after it. -/
theorem minds_act {a : ExecutorAct} {f : ExecutorAns a → X α} {Q : Outcome Exn α → WorkerView → Prop}
    {J : WorkerView → Prop} (hJ : WorkerView.Kept u t J) (hw : J (workerView u w))
    (ha : ∀ v r, v.Fits u a r → v.Sound → J v → WorkerView.Admits u t v (v.next u a) ∧
      ∀ w, workerView u w = v.next u a → Minds u t (f r) Q w) : Minds u t ((xact a).bind f) Q w := by
  refine Secures.step hJ.stable hw fun i w hok hi hw => ?_
  obtain ⟨hadm, hf⟩ := ha (workerView u w) _ (workerView_fits hok) hi hw
  refine ⟨?_, hf _ workerView_inr⟩
  rw [← workerView_inr] at hadm
  exact hadm

/-- Actions that leave the view as it is. -/
def Elsewhere (u : Worker) : SystemAct → Prop :=
  Sum.elim (fun _ => True) fun a => ∀ v, WorkerView.next u v a = v

theorem minds_elsewhere {p : X α} {J : WorkerView → Prop} (hp : p.Uses (Elsewhere u))
    (hJ : WorkerView.Kept u t J)
    (hw : J (workerView u w)) : Minds u t p (fun _ => J) w := by
  refine Secures.uses (P := fun w => J (workerView u w)) hJ.stable (fun b hb i w _ hi hw => ?_) hp hw
  have hview : workerView u (w.after systemExec t b i) = workerView u w := by
    cases b with
    | inl a => exact workerView_inl
    | inr a => exact workerView_inr.trans (hb _)
  have hadm : WorkerView.Admits u t (workerView u w) (workerView u (w.after systemExec t b i)) := by
    rw [hview]
    exact ⟨workerGuarantees_refl u t _, hi⟩
  refine ⟨?_, hadm⟩
  rw [hview]
  exact hw

/-- What a call is to end in is nobody's business here. -/
theorem minds_any {p : X Unit} (hp : p.Uses (Elsewhere u)) : Minds u t p (fun _ _ => True) w :=
  minds_elsewhere hp WorkerView.kept_true trivial

theorem elsewhere_bus (a : Act) : Elsewhere u (.inl a) := trivial

/-! ## The worker -/

variable {v : WorkerView}

namespace WorkerView

theorem Sound.admits (hv : v.Sound) : Admits u t v v := ⟨workerGuarantees_refl u t v, hv⟩

/-- What the worker does leaves the flag and the handle alone. -/
theorem admits_worker {v' : WorkerView} (hspin : v'.spinning = v.spinning) (hjoin : v'.joinable = v.joinable)
    (hs : v'.Sound) : Admits u u.tid v v' :=
  ⟨⟨fun _ => ⟨hspin, hjoin⟩, fun ht => absurd rfl ht⟩, hs⟩

/-- Its function begins. -/
theorem enter_admitted (hs : v.Sound) (hp : v.phase = .started) :
    Admits u u.tid v (v.next u (.enter u)) := by
  have hbegun := hs.begun
  have hended := hs.ended
  rw [hp, ThreadPhase.waits] at hbegun
  rw [hp, ThreadPhase.works] at hended
  refine admits_worker rfl rfl ?_
  refine ⟨?_, ?_, ?_, fun _ => hs.held (.inl hp), hs.flagged, fun _ => ?_⟩
  · simpa [next, Tally.next, ExecutorAct.handle] using hs.joined
  · simpa [next, Tally.next, ExecutorAct.phase, ThreadPhase.waits] using hbegun
  · simpa [next, Tally.next, ExecutorAct.phase, ThreadPhase.works] using hended
  · simp [next, ExecutorAct.phase]

/-- It ends, and no longer claims to be running. -/
theorem leave_admitted (hs : v.Sound) (hv : Runs (· = false) v) :
    Admits u u.tid v (v.next u (.leave u)) := by
  have hbegun := hs.begun
  have hended := hs.ended
  rw [hv.1, ThreadPhase.waits] at hbegun
  rw [hv.1, ThreadPhase.works] at hended
  refine admits_worker rfl rfl ?_
  refine ⟨?_, ?_, ?_, fun h => ?_, hs.flagged, fun h => ?_⟩
  · simpa [next, Tally.next, ExecutorAct.handle] using hs.joined
  · simpa [next, Tally.next, ExecutorAct.phase, ThreadPhase.waits] using hbegun
  · simpa [next, Tally.next, ExecutorAct.phase, ThreadPhase.works] using hended
  · simp [next, ExecutorAct.phase] at h
  · cases hv.2.symm.trans h

/-- While it runs, it may claim so or not. -/
theorem setRunning_admitted (b : Bool) (hs : v.Sound) (hp : v.phase = .running) :
    Admits u u.tid v (v.next u (.setRunning u b)) :=
  admits_worker rfl rfl { hs with shown := fun _ => hp }

end WorkerView

/-- Where a part of its function is to end: in `J`, and running if it throws. -/
abbrev WorkerEnds (J : WorkerView → Prop) : Outcome Exn α → WorkerView → Prop :=
  Outcome.Meets (fun _ => J) fun _ => WorkerView.Runs fun _ => True

/-- Going on after such a part. -/
theorem WorkerEnds.seq {β : Type} {p : X β} {f : β → X α} {J J' : WorkerView → Prop}
    (hp : Minds u u.tid p (WorkerEnds J) w)
    (hf : ∀ x w, J (workerView u w) → Minds u u.tid (f x) (WorkerEnds J') w) :
    Minds u u.tid (p.bind f) (WorkerEnds J') w :=
  Secures.seq hp (fun x w _ hw => hf x w hw) (fun _ _ _ hw => hw) fun _ _ _ => trivial

/-- Steps of the worker that leave the view as it is. -/
theorem minds_working {p : X α} (hp : p.Uses (Elsewhere u)) (hw : (workerView u w).Runs fun _ => True) :
    Minds u u.tid p (WorkerEnds (WorkerView.Runs fun _ => True)) w :=
  (minds_elsewhere hp (WorkerView.runs_kept _) hw).mono fun o _ _ ho => by
    cases o <;> first | exact ho | trivial

theorem minds_setRunning (b : Bool) (hw : (workerView u w).Runs fun _ => True) :
    Minds u u.tid (xact (.setRunning u b)) (WorkerEnds (WorkerView.Runs (· = b))) w := by
  refine minds_act (a := .setRunning u b) (f := .pure) (WorkerView.runs_kept _) hw fun v _ _ hs hv =>
    ⟨WorkerView.setRunning_admitted b hs hv.1, fun w hw => ?_⟩
  refine Secures.pure (WorkerView.runs_kept (· = b)).stable ?_
  rw [hw]
  exact ⟨hv.1, by simp [WorkerView.next, ExecutorAct.mark]⟩

theorem elsewhere_loop {round : X Bool} (hr : round.Uses (Elsewhere u)) (n : ℕ) :
    (loop u round n).Uses (Elsewhere u) := uses_loop (fun _ => rfl) hr n

/-- The loop and its `catch` clause: whatever happens, `is_running` is cleared in the end. -/
theorem minds_guarded {round : X Bool} (hr : round.Uses (Elsewhere u)) (n : ℕ)
    (hw : (workerView u w).Runs fun _ => True) :
    Minds u u.tid (Prog.tryCatch (do
      xact (.setRunning u true)
      loop u round n
      xact (.setRunning u false)) fun e => do
        xact (.setError u e)
        xact (.setRunning u false)) (WorkerEnds (WorkerView.Runs (· = false))) w := by
  have forget : ∀ {b : Bool} {w : SystemW}, (workerView u w).Runs (· = b) →
      (workerView u w).Runs fun _ => True := fun hw => ⟨hw.1, trivial⟩
  have body : Minds u u.tid (do
      xact (.setRunning u true)
      loop u round n
      xact (.setRunning u false)) (WorkerEnds (WorkerView.Runs (· = false))) w := by
    refine WorkerEnds.seq (minds_setRunning true hw) fun _ w hw => ?_
    refine WorkerEnds.seq (minds_working (elsewhere_loop hr n) (forget hw)) fun _ w hw => ?_
    exact minds_setRunning false hw
  have caught : Minds u u.tid (Prog.attempt (do
      xact (.setRunning u true)
      loop u round n
      xact (.setRunning u false)))
      (Outcome.Meets (fun r v => v.Runs fun b => ∀ x, r = .ok x → b = false) fun _ v =>
        v.Runs fun _ => True) w := by
    refine Secures.attempt (body.mono fun o w _ ho => ?_)
    cases o with
    | ret x => exact ⟨ho.1, fun _ _ => ho.2⟩
    | exn e => exact ⟨ho.1, fun _ he => by cases he⟩
    | crash => trivial
  refine Secures.seq caught (fun r w _ hw => ?_) (fun _ _ _ hw => hw) fun _ _ _ => trivial
  cases r with
  | ok x => exact Secures.pure (WorkerView.runs_kept (· = false)).stable ⟨hw.1, hw.2 x rfl⟩
  | error e =>
    refine WorkerEnds.seq (minds_working (Prog.uses_perform fun _ => rfl) ⟨hw.1, trivial⟩) fun _ w hw => ?_
    exact minds_setRunning false hw

/-- **The function of the worker.** -/
theorem minds_threadFunction {round : X Bool} (hr : round.Uses (Elsewhere u)) (n : ℕ) :
    Minds u u.tid (threadFunction u round n) (fun _ _ => True) w := by
  refine minds_act (a := .enter u) WorkerView.kept_true trivial fun v _ hp hs _ =>
    ⟨WorkerView.enter_admitted hs (hp rfl), fun w hw => ?_⟩
  have hrun : (workerView u w).Runs fun _ => True := by
    rw [hw]
    exact ⟨by simp [WorkerView.next, ExecutorAct.phase], trivial⟩
  refine Secures.seq (minds_guarded hr n hrun) (fun _ w _ hw => ?_) (fun _ _ _ _ => trivial)
    fun _ _ _ => trivial
  exact minds_act (a := .leave u) (f := .pure) (Q := fun _ _ => True) (WorkerView.runs_kept (· = false)) hw
    fun v _ _ hs hv => ⟨WorkerView.leave_admitted hs hv, fun w _ _ _ _ => trivial⟩

/-- The function of the other worker. -/
theorem elsewhere_threadFunction {u' : Worker} (hu : u ≠ u') {round : X Bool} (hr : round.Uses (Elsewhere u))
    (n : ℕ) :
    (threadFunction u' round n).Uses (Elsewhere u) := by
  refine uses_threadFunction (fun a ha v => ?_) (fun v => ?_) (fun v => ?_) hr n
  · cases a with
    | setRunning u'' b =>
      cases ha
      simp [WorkerView.next, Tally.next, ExecutorAct.phase, ExecutorAct.handle, ExecutorAct.mark,
        ExecutorAct.flag, hu]
    | stopRequested u'' => rfl
    | setError u'' e => rfl
    | outside => rfl
    | _ => exact ha.elim
  · simp [WorkerView.next, Tally.next, ExecutorAct.phase, ExecutorAct.handle, ExecutorAct.mark,
      ExecutorAct.flag, hu]
  · simp [WorkerView.next, Tally.next, ExecutorAct.phase, ExecutorAct.handle, ExecutorAct.mark,
      ExecutorAct.flag, hu]

/-! ## The controlling thread -/

namespace WorkerView

theorem Sound.dead (hv : v.Sound) (hj : v.joinable = false) : v.phase ≠ .started ∧ v.phase ≠ .running := by
  refine ⟨fun hp => ?_, fun hp => ?_⟩
  · cases hj.symm.trans (hv.held (.inl hp))
  · cases hj.symm.trans (hv.held (.inr hp))

/-- The handle alone. -/
def Owns (c : Bool) (v : WorkerView) : Prop := v.joinable = c

theorem owns_kept (c : Bool) : Kept u 0 (Owns c) := fun _ _ hr hv => (hr.1 rfl).2.trans hv

/-- A thread that is not running does not notice what the controlling thread does. -/
theorem admits_control {v' : WorkerView} (hrun : v.phase = .running → v'.phase = .running ∧
    v'.isRunning = v.isRunning) (hs : v'.Sound) : Admits u 0 v v' :=
  ⟨⟨fun h => absurd rfl h, fun _ => hrun⟩, hs⟩

theorem set_admitted (hs : v.Sound) : Admits u 0 v (v.next u (.setSpinning true)) :=
  admits_control (fun h => ⟨h, rfl⟩) { hs with flagged := fun _ => rfl }

/-- A new thread, while the handle owns none. -/
theorem start_admitted (hs : v.Sound) (hv : Set true false v) :
    Admits u 0 v (v.next u (.start u)) := by
  obtain ⟨hstarted, hrunning⟩ := hs.dead hv.2
  have hwaits : v.phase.waits = 0 := by cases hp : v.phase <;> first | rfl | exact absurd hp hstarted
  have hworks : v.phase.works = 0 := by cases hp : v.phase <;> first | rfl | exact absurd hp hrunning
  have hjoined := hs.joined
  have hbegun := hs.begun
  have hended := hs.ended
  rw [hv.2] at hjoined
  rw [hwaits] at hbegun
  rw [hworks] at hended
  refine admits_control (fun h => absurd h hrunning) ⟨?_, ?_, ?_, ?_, fun _ => hv.1, fun h => ?_⟩
  · simpa [next, Tally.next, ExecutorAct.handle] using hjoined
  · simpa [next, Tally.next, ExecutorAct.phase, ThreadPhase.waits] using hbegun
  · simpa [next, Tally.next, ExecutorAct.phase, ThreadPhase.works] using hended
  · simp [next, ExecutorAct.handle]
  · exact absurd (hs.shown h) hrunning

/-- The thread in the handle has ended and is joined. -/
theorem join_admitted (hs : v.Sound) (hv : Owns true v) (hp : v.phase = .ended) :
    Admits u 0 v (v.next u (.join u)) := by
  have hjoined := hs.joined
  rw [hv] at hjoined
  refine admits_control (fun h => by cases hp.symm.trans h) ⟨?_, ?_, ?_, fun h => ?_, fun h => ?_, hs.shown⟩
  · simpa [next, Tally.next, ExecutorAct.handle] using hjoined
  · simpa [next, Tally.next, ExecutorAct.phase] using hs.begun
  · simpa [next, Tally.next, ExecutorAct.phase] using hs.ended
  · rcases h with h | h <;> cases hp.symm.trans h
  · simp [next, ExecutorAct.handle] at h

theorem clear_admitted (hs : v.Sound) (hv : Owns false v) :
    Admits u 0 v (v.next u (.setSpinning false)) :=
  admits_control (fun h => ⟨h, rfl⟩) { hs with flagged := fun h => by cases hv.symm.trans h }

end WorkerView

/-! ## Spinning up and stopping -/

/-- The threads are started while the handles own none. -/
theorem minds_spin : Minds u 0 spin (fun _ _ => True) w := by
  refine minds_act (a := .spinning) WorkerView.kept_true trivial fun v b hb hs _ =>
    ⟨hs.admits, fun w hw => ?_⟩
  obtain rfl : b = v.spinning := hb
  cases hspin : v.spinning with
  | true => exact fun _ _ _ => trivial
  | false =>
    -- a handle that owned a thread would have left the flag set
    have hjoin : v.joinable = false := by
      cases hj : v.joinable with
      | false => rfl
      | true => cases hspin.symm.trans (hs.flagged hj)
    have hfree : (workerView u w).Owns false := by
      rw [hw]
      exact hjoin
    refine minds_act (a := .setSpinning true) (WorkerView.owns_kept false) hfree fun v _ _ hs hv =>
      ⟨WorkerView.set_admitted hs, fun w hw => ?_⟩
    have hset : (workerView u w).Set true false := by
      rw [hw]
      exact ⟨rfl, hv⟩
    cases u with
    | rt =>
      refine minds_act (a := .start .rt) (WorkerView.set_kept true false) hset fun v _ _ hs hv =>
        ⟨WorkerView.start_admitted hs hv, fun w _ => ?_⟩
      exact minds_any (Prog.uses_perform fun _ => rfl)
    | service =>
      refine minds_act (a := .start .rt) (WorkerView.set_kept true false) hset fun v _ _ hs hv =>
        ⟨hs.admits, fun w hw => ?_⟩
      have hset : (workerView .service w).Set true false := by
        rw [hw]
        exact hv
      refine minds_act (a := .start .service) (f := .pure) (WorkerView.set_kept true false) hset
        fun v _ _ hs hv => ⟨WorkerView.start_admitted hs hv, fun w _ => ?_⟩
      exact fun _ _ _ => trivial

/-- Afterwards the handle owns no thread. -/
theorem minds_stopThread :
    Minds u 0 (stopThread u) (Outcome.Settles (fun _ => WorkerView.Owns false) fun _ => True) w := by
  refine minds_act (a := .joinable u) WorkerView.kept_true trivial fun v b hb hs _ =>
    ⟨hs.admits, fun w hw => ?_⟩
  obtain rfl : b = v.joinable := hb rfl
  cases hj : v.joinable with
  | false =>
    refine Secures.pure (WorkerView.owns_kept false).stable ?_
    rw [hw]
    exact hj
  | true =>
    have howns : (workerView u w).Owns true := by
      rw [hw]
      exact hj
    refine minds_act (a := .requestStop u) (WorkerView.owns_kept true) howns fun v _ _ hs hv =>
      ⟨hs.admits, fun w hw => ?_⟩
    have howns : (workerView u w).Owns true := by
      rw [hw]
      exact hv
    refine minds_act (a := .join u) (f := .pure) (WorkerView.owns_kept true) howns fun v _ hended hs hv =>
      ⟨WorkerView.join_admitted hs hv (hended rfl), fun w hw => ?_⟩
    refine Secures.pure (WorkerView.owns_kept false).stable ?_
    rw [hw]
    exact if_pos rfl

/-- The thread of the other worker. -/
theorem elsewhere_stopThread {u' : Worker} (hu : u ≠ u') : (stopThread u').Uses (Elsewhere u) := by
  have hjoin : Elsewhere u (.inr (.join u')) := by
    intro v
    simp [WorkerView.next, Tally.next, ExecutorAct.phase, ExecutorAct.handle, ExecutorAct.mark,
      ExecutorAct.flag, hu]
  exact uses_stopThread (fun _ => rfl) (fun _ => rfl) hjoin

/-- Both threads are joined before the flag is cleared. -/
theorem minds_stop : Minds u 0 (stop hk) (fun _ _ => True) w := by
  refine minds_act (a := .spinning) WorkerView.kept_true trivial fun v b _ hs _ =>
    ⟨hs.admits, fun w _ => ?_⟩
  cases b with
  | false => exact fun _ _ _ => trivial
  | true =>
    have hclear : ∀ w, (workerView u w).Owns false →
        Minds u 0 ((xact (.setSpinning false)).bind fun _ => bus (shutdown hk)) (fun _ _ => True) w := by
      intro w hw
      refine minds_act (WorkerView.owns_kept false) hw fun v _ _ hs hv =>
        ⟨WorkerView.clear_admitted hs hv, fun w _ => ?_⟩
      exact minds_any (uses_bus elsewhere_bus _)
    cases u with
    | rt =>
      refine Secures.seq minds_stopThread (fun _ w _ hw => ?_) (fun _ _ _ _ => trivial) fun _ _ _ => trivial
      refine Secures.seq (minds_elsewhere (elsewhere_stopThread (by decide)) (WorkerView.owns_kept false) hw)
        (fun _ w _ hw => hclear w hw) (fun _ _ _ _ => trivial) fun _ _ _ => trivial
    | service =>
      refine Secures.seq (minds_any (elsewhere_stopThread (by decide))) (fun _ w _ _ => ?_)
        (fun _ _ _ _ => trivial) fun _ _ _ => trivial
      refine Secures.seq minds_stopThread (fun _ w _ hw => hclear w hw) (fun _ _ _ _ => trivial)
        fun _ _ _ => trivial

/-! ## Every run -/

theorem ExecutorCall.minds {p : X Unit} (hp : ExecutorCall ps t p) (w : SystemW) :
    Minds u t p (fun _ _ => True) w := by
  have hrt : (rtRound ps).Uses (Elsewhere u) := uses_rtRound elsewhere_bus fun _ => rfl
  have hservice : ∀ hk, (serviceRound ps hk).Uses (Elsewhere u) :=
    fun _ => uses_serviceRound elsewhere_bus fun _ => rfl
  cases hp with
  | spin => exact minds_spin
  | stop hk => exact minds_stop
  | rtThread n =>
    cases u with
    | rt => exact minds_threadFunction hrt n
    | service => exact minds_any (elsewhere_threadFunction (by decide) hrt n)
  | serviceThread hk n =>
    cases u with
    | rt => exact minds_any (elsewhere_threadFunction (by decide) (hservice hk) n)
    | service => exact minds_threadFunction (hservice hk) n
  | isSpinning _ _ => exact minds_any ((uses_isSpinning fun _ => rfl).bind fun _ => trivial)
  | fullDiagnostics force _ _ =>
    refine minds_any (Prog.Uses.bind ?_ fun _ => trivial)
    exact uses_fullDiagnostics elsewhere_bus (fun _ => rfl) (fun _ _ => rfl) force
  | bus p _ _ => exact minds_any (uses_bus elsewhere_bus p)

theorem threadTally_lift (h : List (Event Act Ans)) : threadTally u (h.map (Event.lift ExecutorAns)) = {} := by
  induction h with
  | nil => rfl
  | cons e h ih => exact ih

theorem workerView_sound {w : W} {c : Conf SystemAct SystemAns (List Mutex) Exn System}
    (hc : Reaches systemExec systemGuard (ExecutorCall ps) (Conf.idle (w.lift ExecutorAns {})) c) :
    (workerView u c.world).Sound := by
  have hinit : workerView u (w.lift ExecutorAns {}) = ⟨false, .idle, false, false, {}⟩ := by
    rw [workerView, World.lift, threadTally_lift]
    rfl
  have hsecured : Secured systemExec systemGuard (workerPact u) (fun _ _ _ => True)
      (Conf.idle (w.lift ExecutorAns {}) : Conf SystemAct SystemAns (List Mutex) Exn System) := by
    refine ⟨?_, fun _ _ hp => by cases hp⟩
    change (workerView u (w.lift ExecutorAns {})).Sound
    rw [hinit]
    refine ⟨rfl, rfl, rfl, fun h => ?_, fun h => ?_, fun h => ?_⟩
    · rcases h with h | h <;> cases h
    · cases h
    · cases h
  exact (reaches_secured (fun t p hp w _ => hp.minds w) hc hsecured).inv

/-- **No thread is lost**: however often an executor is spun up and stopped, whatever its rounds
throw and whoever else uses it, every thread but the one in the handle has been joined, and each has
run its function at most once. A thread that has been started and not ended has its handle, and
the flag is set; it is running where it tells so. -/
theorem threads_accounted {w : W} {c : Conf SystemAct SystemAns (List Mutex) Exn System}
    (hc : Reaches systemExec systemGuard (ExecutorCall ps) (Conf.idle (w.lift ExecutorAns {})) c)
    (u : Worker) :
    let n := threadTally u c.world.hist
    let j := c.world.st.2.thread u
    n.starts = n.joins + j.joinable.toNat ∧
      n.starts = n.enters + (if j.phase = .started then 1 else 0) ∧
      n.enters = n.leaves + (if j.phase = .running then 1 else 0) ∧
      (j.phase = .started ∨ j.phase = .running → j.joinable = true ∧ c.world.st.2.spinning = true) ∧
      (j.isRunning = true → j.phase = .running) := by
  have hs : (workerView u c.world).Sound := workerView_sound hc
  refine ⟨hs.joined, hs.begun.trans ?_, hs.ended.trans ?_, fun hp => ?_, hs.shown⟩
  · change _ + ThreadPhase.waits (c.world.st.2.thread u).phase = _
    cases (c.world.st.2.thread u).phase <;> rfl
  · change _ + ThreadPhase.works (c.world.st.2.thread u).phase = _
    cases (c.world.st.2.thread u).phase <;> rfl
  · exact ⟨hs.held hp, hs.flagged (hs.held hp)⟩

/-- One thread is at work, and its handle is the only one not joined. -/
theorem threads_accounted_atWork :
    let c := (Conf.idle (activatedBus.lift ExecutorAns {})).follow systemExec spunUp
    let n := threadTally .rt c.world.hist
    n.starts = n.joins + 1 ∧ n.enters = n.leaves + 1 := by
  have hcalls : ∀ t p, Choice.call t p ∈ spunUp → ExecutorCall {} t p := by
    intro t p hp
    simp only [spunUp, List.cons_append, List.mem_append, Choice.call_mem_call, Choice.call_mem_steps,
      false_or, or_false] at hp
    rcases hp with ⟨rfl, rfl⟩ | ⟨rfl, rfl⟩
    · exact .spin
    · exact .rtThread 1
  obtain ⟨hjoins, _, hleaves, _, _⟩ :=
    threads_accounted (w := activatedBus) (reaches_admitted hcalls (by decide +kernel)) .rt
  exact ⟨hjoins.trans (by decide +kernel), hleaves.trans (by decide +kernel)⟩

end EthercatInterface
