import EthercatInterface.Executor.Pact

/-!
# The RT thread and the service thread

Both keep the pact, however their loop ends. `AtWork` is what they go on knowing between
their steps: they are running, and the service thread knows the bus is in use or shut
down whenever it is between two ticks. The rounds of the RT thread and the operations of
users do not touch the view of the bus; for a tick it is `Serviced` that tells.
-/

namespace EthercatInterface

open Interleave

/-- The thread that executes the function of `v`. -/
def Worker.tid : Worker → ℕ
  | .rt => 1
  | .service => 2

/-- What a worker does besides its rounds. -/
def ExecutorAct.own (v : Worker) : ExecutorAct → Prop
  | .stopRequested u => u = v
  | .setRunning u _ => u = v
  | .setError u _ => u = v
  | .outside => True
  | _ => False

/-- What a worker knows between its steps. -/
def AtWork (k₀ : Core) (v : Worker) (w : SystemW) : Prop :=
  (jthread w v).phase = .running ∧ (v = .service → InUse k₀ (view w))

/-- A part of a worker's function that did not crash leaves the worker at work. -/
abbrev Working {α : Type} (k₀ : Core) (v : Worker) : Outcome Exn α → SystemW → Prop :=
  Outcome.Leaves (AtWork k₀ v) fun _ => True

variable {k₀ : Core} {v : Worker} {t : ℕ} {w w' : SystemW} {i : Env × Option Exn} {ps : Parameters}
  {hk : UserCode} {α β : Type}

/-! ## What actions leave alone -/

theorem inv_congr (hw : (pact k₀).inv w) (hp : (jthread w' .service).phase = (jthread w .service).phase)
    (hj : (jthread w' .service).joinable = (jthread w .service).joinable) (hv : view w' = view w) :
    (pact k₀).inv w' := by
  intro hr
  rw [JThread.Rested, hp, hj] at hr
  rw [hv]
  exact hw hr

theorem view_neutral {a : Act} (ha : Neutral a) :
    view (w.after systemExec t (.inl a) i) = view w :=
  (core_after w.left t a i.1).trans (ha _ _)

theorem ExecutorAct.own.still {a : ExecutorAct} (ha : a.own v) (u : Worker) (p : ThreadPhase) (b c : Bool) :
    a.phase u p = p ∧ a.handle u b = b ∧ a.flag c = c := by
  cases a <;> first | exact ⟨rfl, rfl, rfl⟩ | exact ha.elim

/-! ## The worker's part of the pact -/

theorem atWork_stable : (pact k₀).Stable v.tid (AtWork k₀ v) := by
  intro w w' _ hr ⟨hp, hv⟩
  cases v with
  | rt => exact ⟨hr hp, fun h => by cases h⟩
  | service =>
    obtain ⟨hp', hview⟩ := hr hp
    refine ⟨hp', fun h => ?_⟩
    rw [hview]
    exact hv h

/-- A worker may do its work, as long as it leaves the view of the bus alone. -/
theorem admits_worked (hw : Worked v w w') (hv : view w' = view w) (hi : (pact k₀).inv w') :
    (pact k₀).Admits v.tid w w' := by
  cases v with
  | rt => exact ⟨⟨hw, hv⟩, hi⟩
  | service => exact ⟨⟨hw, fun _ => hv⟩, hi⟩

/-- The loop's test, the flags and the end of a round. -/
theorem admits_own {a : ExecutorAct} (ha : a.own v) (hi : (pact k₀).inv w) (hw : AtWork k₀ v w) :
    AtWork k₀ v (w.after systemExec t (.inr a) i) ∧
      (pact k₀).Admits v.tid w (w.after systemExec t (.inr a) i) := by
  have hstill := fun u => ha.still u (jthread w u).phase (jthread w u).joinable w.st.2.spinning
  have hphase : ∀ u, (jthread (w.after systemExec t (.inr a) i) u).phase = (jthread w u).phase :=
    fun u => (a.phase_exec i.2 w.st.2 u).trans (hstill u).1
  have hjoin : ∀ u, (jthread (w.after systemExec t (.inr a) i) u).joinable = (jthread w u).joinable :=
    fun u => (a.joinable_exec i.2 w.st.2 u).trans (hstill u).2.1
  have hspin : (w.after systemExec t (.inr a) i).st.2.spinning = w.st.2.spinning :=
    (a.spinning_exec i.2 w.st.2).trans (hstill v).2.2
  refine ⟨⟨(hphase v).trans hw.1, hw.2⟩, admits_worked ⟨hspin, hjoin, fun u _ => hphase u⟩ rfl ?_⟩
  exact inv_congr hi (hphase _) (hjoin _) rfl

/-- Actions of the bus that the view does not see. -/
theorem admits_neutral {a : Act} (ha : Neutral a) (hi : (pact k₀).inv w) (hw : AtWork k₀ v w) :
    AtWork k₀ v (w.after systemExec t (.inl a) i) ∧
      (pact k₀).Admits v.tid w (w.after systemExec t (.inl a) i) := by
  have hview : view (w.after systemExec t (.inl a) i) = view w := view_neutral ha
  refine ⟨⟨hw.1, fun h => ?_⟩, admits_worked ⟨rfl, fun _ => rfl, fun _ _ => rfl⟩ hview
    (inv_congr hi rfl rfl hview)⟩
  rw [hview]
  exact hw.2 h

/-- The function of a thread begins. -/
theorem admits_enter (hi : (pact k₀).inv w) (hw : (jthread w v).phase = .started) :
    AtWork k₀ v (w.after systemExec t (.inr (.enter v)) i) ∧
      (pact k₀).Admits v.tid w (w.after systemExec t (.inr (.enter v)) i) := by
  have hphase : ∀ u, (jthread (w.after systemExec t (.inr (.enter v)) i) u).phase =
      if u = v then .running else (jthread w u).phase := fun u => ExecutorAct.phase_exec (.enter v) i.2 w.st.2 u
  have hjoin : ∀ u, (jthread (w.after systemExec t (.inr (.enter v)) i) u).joinable =
      (jthread w u).joinable := fun u => ExecutorAct.joinable_exec (.enter v) i.2 w.st.2 u
  have hat : AtWork k₀ v (w.after systemExec t (.inr (.enter v)) i) := by
    refine ⟨(hphase v).trans (if_pos rfl), fun h => ?_⟩
    subst h
    exact hi ⟨by rw [hw]; decide, fun he => by rw [hw] at he; cases he⟩
  refine ⟨hat, admits_worked ⟨rfl, hjoin, fun u hu => ?_⟩ rfl ?_⟩
  · rw [hphase u]
    rcases hu with hu | hu
    · exact if_neg hu
    · have hne : u ≠ v := fun h => hu (.inl (h ▸ hw))
      exact if_neg hne
  · cases v with
    | rt => exact inv_congr hi ((hphase .service).trans (if_neg (by decide))) (hjoin _) rfl
    | service => exact fun hr => absurd hat.1 hr.1

/-- The function of a thread ends. -/
theorem admits_leave (hi : (pact k₀).inv w) (hw : AtWork k₀ v w) :
    (pact k₀).Admits v.tid w (w.after systemExec t (.inr (.leave v)) i) := by
  have hphase : ∀ u, (jthread (w.after systemExec t (.inr (.leave v)) i) u).phase =
      if u = v then .ended else (jthread w u).phase := fun u => ExecutorAct.phase_exec (.leave v) i.2 w.st.2 u
  have hjoin : ∀ u, (jthread (w.after systemExec t (.inr (.leave v)) i) u).joinable =
      (jthread w u).joinable := fun u => ExecutorAct.joinable_exec (.leave v) i.2 w.st.2 u
  refine admits_worked ⟨rfl, hjoin, fun u hu => ?_⟩ rfl ?_
  · rw [hphase u]
    rcases hu with hu | hu
    · exact if_neg hu
    · have hne : u ≠ v := fun h => hu (.inr (h ▸ hw.1))
      exact if_neg hne
  · cases v with
    | rt => exact inv_congr hi ((hphase .service).trans (if_neg (by decide))) (hjoin _) rfl
    | service => exact fun _ => hw.2 rfl

/-! ## The functions of the workers -/

/-- Thread `t` runs `p` among the threads of the executor. -/
abbrev Abides (k₀ : Core) (t : ℕ) (p : X α) (Q : Outcome Exn α → SystemW → Prop) (w : SystemW) : Prop :=
  Secures systemExec systemGuard (pact k₀) t p Q w

theorem abides_own {a : ExecutorAct} (ha : a.own v) (hw : AtWork k₀ v w) :
    Abides k₀ v.tid (xact a) (Working k₀ v) w := by
  have huses : (xact a).Uses fun b => b = .inr a := Prog.uses_perform rfl
  refine (Secures.uses (P := AtWork k₀ v) atWork_stable (fun b hb i w _ hi hw => ?_) huses hw).mono
    fun o w' _ ho => by cases o <;> first | exact ho | trivial
  subst hb
  exact admits_own ha hi hw

/-- Going on after a part that leaves the worker at work. -/
theorem Working.bind {p : X β} {f : β → X α} {Q : Outcome Exn α → SystemW → Prop}
    (hp : Abides k₀ v.tid p (Working k₀ v) w)
    (hf : ∀ x w, (pact k₀).inv w → AtWork k₀ v w → Abides k₀ v.tid (f x) Q w)
    (hexn : ∀ e w, AtWork k₀ v w → Q (.exn e) w) (hcrash : ∀ w, Q .crash w) :
    Abides k₀ v.tid (p.bind f) Q w :=
  Secures.seq hp hf (fun e w _ hw => hexn e w hw) fun w _ _ => hcrash w

/-- The same, to stay at work. -/
theorem Working.seq {p : X β} {f : β → X α} (hp : Abides k₀ v.tid p (Working k₀ v) w)
    (hf : ∀ x w, AtWork k₀ v w → Abides k₀ v.tid (f x) (Working k₀ v) w) :
    Abides k₀ v.tid (p.bind f) (Working k₀ v) w :=
  Working.bind hp (fun x w _ hw => hf x w hw) (fun _ _ hw => hw) fun _ => trivial

theorem Working.pure {x : α} (hw : AtWork k₀ v w) :
    Abides k₀ v.tid (.pure x : X α) (Working k₀ v) w :=
  Secures.pure atWork_stable hw

theorem Working.throw {e : Exn} (hw : AtWork k₀ v w) :
    Abides k₀ v.tid (.throw e : X α) (Working k₀ v) w :=
  Secures.throw atWork_stable hw

theorem abides_outside (hw : AtWork k₀ v w) : Abides k₀ v.tid outside (Working k₀ v) w := by
  refine Working.seq (abides_own (v := v) trivial hw) fun r w hw => ?_
  cases r with
  | none => exact Working.pure hw
  | some e => exact Working.throw hw

/-- `update_rt` is none of the lifecycle's business. -/
theorem abides_rtRound (hw : AtWork k₀ .rt w) : Abides k₀ 1 (rtRound ps) (Working k₀ .rt) w := by
  refine Working.seq (v := .rt) ?_ fun _ w hw => Working.seq (v := .rt) (abides_outside hw) fun _ w hw =>
    Working.pure hw
  have huses : (updateRt ps).Uses Neutral := uses_updateRt (fun _ h => h.plain.calm.neutral) fun a ha => by
    cases a <;> first | cases ha; done | exact fun _ _ => rfl
  refine (Secures.uses (P := AtWork k₀ .rt) atWork_stable (fun b hb i w _ hi hw => ?_) (Uses.lift huses) hw).mono
    fun o w' _ ho => by cases o <;> first | exact ho | trivial
  cases b with
  | inl a => exact admits_neutral (v := .rt) hb hi hw
  | inr a => exact hb.elim

/-- What the bus does in a tick, `Serviced` tells. -/
theorem abides_updateService (hok : hk.Ok ps) (hq : hk.Quiet) (hw : AtWork k₀ .service w) :
    Abides k₀ 2 (bus (updateService ps hk)) (Working k₀ .service) w := by
  have huse : InUse k₀ (core w.left) := hw.2 rfl
  have hhooks : Hooks ps False hk := ⟨hok, fun _ => hq⟩
  have hleads : lifecycle.Leads (updateService ps hk) (core w.left) fun _ c' => InUse k₀ c' :=
    (leads_updateService hhooks).mono fun r c' h => h.inUse huse
  have hconf : Confined exec executorExec systemGuard (pact k₀) 2
      fun w => (jthread w .service).phase = .running := by
    intro a i w _ _ hp
    refine ⟨hp, ⟨⟨rfl, fun _ => rfl, fun _ _ => rfl⟩, fun hl => absurd (.inr hp) hl⟩, fun hr => ?_⟩
    exact absurd hp hr.1
  refine (Secures.lift (core_simulates free 2) hconf (fun w w' _ hr hp => hr hp) hleads hw.1).mono
    fun o w' _ ho => ?_
  cases o with
  | ret b => exact ⟨ho.1, fun _ => ho.2⟩
  | exn e => exact ⟨ho.1, fun _ => ho.2⟩
  | crash => trivial

theorem abides_serviceRound (hok : hk.Ok ps) (hq : hk.Quiet) (hw : AtWork k₀ .service w) :
    Abides k₀ 2 (serviceRound ps hk) (Working k₀ .service) w := by
  refine Working.seq (v := .service) (abides_updateService hok hq hw) fun b w hw => ?_
  cases b with
  | false => exact Working.pure (v := .service) hw
  | true =>
    refine Working.seq (v := .service) (abides_outside hw) fun _ w hw => ?_
    exact Working.pure (v := .service) hw

/-- **The loop**, by induction on the rounds, however it ends. -/
theorem abides_loop {round : X Bool} (hr : ∀ w, AtWork k₀ v w → Abides k₀ v.tid round (Working k₀ v) w)
    (n : ℕ) : ∀ w, AtWork k₀ v w → Abides k₀ v.tid (loop v round n) (Working k₀ v) w := by
  induction n with
  | zero => exact fun w _ _ _ _ => trivial
  | succ n ih =>
    intro w hw
    refine Working.seq (abides_own (a := .stopRequested v) rfl hw) fun stop w hw => ?_
    cases stop with
    | true => exact Working.pure hw
    | false =>
      refine Working.seq (hr w hw) fun more w hw => ?_
      cases more with
      | true => exact ih w hw
      | false => exact Working.pure hw

/-- The loop between its two flags, with its `catch` clause. -/
theorem abides_guarded {round : X Bool} (hr : ∀ w, AtWork k₀ v w → Abides k₀ v.tid round (Working k₀ v) w)
    (n : ℕ) (hw : AtWork k₀ v w) :
    Abides k₀ v.tid (Prog.tryCatch (do
      xact (.setRunning v true)
      loop v round n
      xact (.setRunning v false)) fun e => do
        xact (.setError v e)
        xact (.setRunning v false)) (Working k₀ v) w := by
  -- the worker stays at work through the loop, however that ends
  have body : Abides k₀ v.tid (do
      xact (.setRunning v true)
      loop v round n
      xact (.setRunning v false)) (Working k₀ v) w := by
    refine Working.seq (abides_own (a := .setRunning v true) rfl hw) fun _ w hw => ?_
    refine Working.seq (abides_loop hr n w hw) fun _ w hw => ?_
    exact abides_own (a := .setRunning v false) rfl hw
  have caught : Abides k₀ v.tid (Prog.attempt (do
      xact (.setRunning v true)
      loop v round n
      xact (.setRunning v false))) (Working k₀ v) w :=
    Secures.attempt (body.mono fun o w _ ho => by cases o <;> exact ho)
  refine Working.seq caught fun r w hw => ?_
  cases r with
  | ok u => exact Working.pure hw
  | error e =>
    refine Working.seq (abides_own (a := .setError v e) rfl hw) fun _ w hw => ?_
    exact abides_own (a := .setRunning v false) rfl hw

/-- **The function of a thread**, from wherever the others are. -/
theorem abides_threadFunction {round : X Bool}
    (hr : ∀ w, AtWork k₀ v w → Abides k₀ v.tid round (Working k₀ v) w) (n : ℕ) (w : SystemW) :
    Abides k₀ v.tid (threadFunction v round n) (fun _ _ => True) w := by
  refine Secures.step (P := fun _ => True) (fun _ _ _ _ _ => trivial) trivial fun i w hok hi _ => ?_
  obtain ⟨hw, hadm⟩ := admits_enter (v := v) (t := v.tid) (i := i) hi hok
  refine ⟨hadm, ?_⟩
  refine Working.bind (abides_guarded hr n hw) (fun _ w _ hw => ?_) (fun _ _ _ => trivial) fun _ => trivial
  exact Secures.perform atWork_stable hw fun i w _ hi hw => ⟨admits_leave hi hw, fun _ _ _ => trivial⟩

theorem abides_rtThread (n : ℕ) (w : SystemW) : Abides k₀ 1 (rtThread ps n) (fun _ _ => True) w :=
  abides_threadFunction (v := .rt) (fun _ => abides_rtRound) n w

theorem abides_serviceThread (hok : hk.Ok ps) (hq : hk.Quiet) (n : ℕ) (w : SystemW) :
    Abides k₀ 2 (serviceThread ps hk n) (fun _ _ => True) w :=
  abides_threadFunction (v := .service) (fun _ => abides_serviceRound hok hq) n w

/-- Operations outside the lifecycle. -/
theorem abides_user {o : Op} (ho : o.lifecycle = false) (hok : hk.Ok ps) (t : ℕ) (w : SystemW) :
    Abides k₀ (t + 3) (bus (o.invoke ps hk)) (fun _ _ => True) w := by
  have huses : (o.invoke ps hk).Uses Calm := Uses.invoke ho (fun _ => ho)
    (calm_body o ho (fun r => (hok.sdoReadCallback r).calm) fun r => (hok.sdoWriteCallback r).calm)
  refine Secures.uses (P := fun _ => True) (fun _ _ _ _ _ => trivial) (fun b hb i w _ hi _ => ?_)
    (Uses.lift huses) trivial
  cases b with
  | inl a =>
    have hview : view (w.after systemExec (t + 3) (.inl a) i) = view w := view_neutral (Calm.neutral hb)
    exact ⟨trivial, ⟨rfl, hview⟩, inv_congr hi rfl rfl hview⟩
  | inr a => exact hb.elim

end EthercatInterface
