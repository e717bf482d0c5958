import EthercatInterface.Executor.Spinning

/-!
# The rounds of the service thread

The service thread of an executor makes one round after another, until `update_service` tells it
that the bus needs it no more. `KeepsServing` is what those who rely on it expect: before every
look at its stop token but the first it has run `update_service` to its end, with the link
refreshed and the mailbox seen to, and it does not end before it is told to stop or a round has
thrown.

What `update_service` tells depends on the diagnostics options alone. `keepsServing_iff`: the bus
stays served **exactly for the options with which it always asks for more**.
-/

namespace EthercatInterface

open Interleave

variable {ps : Parameters} {hk : UserCode} {t : ℕ} {w : W}

/-- The options that keep the service going. -/
def DiagnosticsOptions.serves (d : DiagnosticsOptions) : Bool :=
  isDiagnosticsEnabled d.mailboxDiagnostics || isDiagnosticsEnabled d.escDiagnostics ||
    isDiagnosticsEnabled d.escPortDiagnostics

/-! ## What is expected of the thread -/

/-- The link has been refreshed, and the mailbox has been seen to. -/
def Refreshed (l : List (Event Act Ans)) : Prop :=
  (∃ up, Saw (.setLinkUp up) () l) ∧ ∃ owns, Saw (.tryLock .mailbox) owns l

/-- The service thread has looked at its stop token, and may go on. -/
def mayGoOn : Event SystemAct SystemAns := ⟨2, .inr (.stopRequested .service), false⟩

/-- A round is the last thing it has done: since it looked at its stop token it has run
`update_service` to its end. -/
def Round (ps : Parameters) (past : List (Event SystemAct SystemAns)) : Prop :=
  ∃ (hk : UserCode) (l : List (Event Act Ans)) (h : List (Event SystemAct SystemAns)),
    past = ⟨2, .inr .outside, none⟩ :: (l.map (Event.lift ExecutorAns) ++ mayGoOn :: h) ∧
      (updateService ps hk).Yields 2 [] true l ∧ Refreshed l

/-- It has just begun. -/
def Began (past : List (Event SystemAct SystemAns)) : Prop :=
  ∃ h, past = ⟨2, .inr (.setRunning .service true), ()⟩ :: h

/-- It has obeyed a stop request, or an exception has come out of a round. -/
def Discharged (past : List (Event SystemAct SystemAns)) : Prop :=
  ∃ h, past = ⟨2, .inr (.setRunning .service false), ()⟩ :: h ∧
    ((∃ h', h = ⟨2, .inr (.stopRequested .service), true⟩ :: h') ∨
      ∃ e h', h = ⟨2, .inr (.setError .service e), ()⟩ :: h')

/-- What has to come before a look at its stop token, and before its end. -/
def serving (ps : Parameters) : SystemAct → List (Event SystemAct SystemAns) → Prop
  | .inr (.stopRequested .service), past => Began past ∨ Round ps past
  | .inr (.leave .service), past => Discharged past
  | _, _ => True

/-- **The bus stays served** while the service thread is not discharged, whatever the other threads
of an executor do, and whoever else uses the bus. -/
def KeepsServing (ps : Parameters) : Prop :=
  ∀ (w : W) (c : Conf SystemAct SystemAns (List Mutex) Exn System),
    Reaches systemExec systemGuard (ExecutorCall ps) (Conf.idle (w.lift ExecutorAns {})) c →
      Always (fun e h => serving ps e.act (own e.tid h)) c.world.hist

/-! ## Options that keep it going -/

/-- A tick that returns has refreshed everything, and asks for more. -/
theorem obeys_updateService (hd : ps.diagnostics.serves = true) {l : List (Event Act Ans)} :
    Obeys (fun _ _ => True) t (updateService ps hk)
      (Outcome.Settles (fun more l => more = true ∧ Refreshed l) fun _ => True) l := by
  have any : ∀ {α : Type} {l : List (Event Act Ans)} (p : P α), Obeys (fun _ _ => True) t p
      (Outcome.Settles (fun _ _ => True) fun _ => True) l :=
    fun p => Obeys.grow (fun _ _ h => h) p trivial
  have rest : ∀ {α : Type} {l : List (Event Act Ans)} (p : P α), Refreshed l → Obeys (fun _ _ => True) t p
      (Outcome.Settles (fun _ => Refreshed) fun _ => True) l :=
    fun p hl => Obeys.grow (fun e _ h => ⟨h.1.imp fun _ hs => hs.cons e, h.2.imp fun _ hs => hs.cons e⟩) p hl
  refine (any _).next fun _ _ _ => (any _).next fun _ _ _ => (any _).next fun up l _ => ?_
  refine Obeys.next (K := fun _ l => ∃ up, Saw (.setLinkUp up) () l)
    (.perform trivial fun _ => ⟨up, saw_cons t _ _ l⟩) fun _ l hl => ?_
  refine Obeys.next (K := fun _ => Refreshed)
    (.perform trivial fun owns => ⟨hl.imp fun _ hs => hs.cons _, owns, saw_cons t _ _ l⟩) fun _ l hl => ?_
  refine (rest _ hl).next fun _ l hl => (rest _ hl).next fun b l hl => ?_
  cases b with
  | true => exact (rest _ hl).next fun _ l hl => ⟨rfl, hl⟩
  | false => exact (rest _ hl).next fun _ l hl => ⟨hd, hl⟩

/-- A round goes on. -/
theorem obeys_serviceRound (hd : ps.diagnostics.serves = true) {h : List (Event SystemAct SystemAns)} :
    Obeys (serving ps) 2 (serviceRound ps hk)
      (Outcome.Settles (fun more past => more = true ∧ Round ps past) fun _ => True) (mayGoOn :: h) := by
  have htick : Obeys (fun _ _ => True) 2 (updateService ps hk) _ [] := (obeys_updateService hd).yields
  refine Obeys.next (K := fun more past => more = true ∧ ∃ l : List (Event Act Ans),
    past = l.map (Event.lift ExecutorAns) ++ mayGoOn :: h ∧
      (updateService ps hk).Yields 2 [] true l ∧ Refreshed l) ?_ fun more past hpast => ?_
  · refine (Obeys.lift (P := serving ps) htick).mono fun o past ho => ?_
    obtain ⟨l, rfl, ho, hyields⟩ := ho
    cases o with
    | ret more =>
      obtain ⟨rfl, hl⟩ := ho
      exact ⟨rfl, l, rfl, hyields _ rfl, hl⟩
    | exn e => trivial
    | crash => trivial
  · obtain ⟨rfl, l, rfl, hyields, hl⟩ := hpast
    refine Obeys.next (K := fun _ => Round ps) ?_ fun _ past hpast => ⟨rfl, hpast⟩
    refine Obeys.bind (.perform trivial fun r => ?_)
    cases r with
    | some e => trivial
    | none => exact ⟨hk, l, h, rfl, hyields, hl⟩

/-- **The loop** ends only when it is told to. -/
theorem obeys_loop (hd : ps.diagnostics.serves = true) (n : ℕ) {past : List (Event SystemAct SystemAns)}
    (hp : Began past ∨ Round ps past) :
    Obeys (serving ps) 2 (loop .service (serviceRound ps hk) n)
      (Outcome.Settles (fun _ past => ∃ h, past = ⟨2, .inr (.stopRequested .service), true⟩ :: h)
        fun _ => True) past := by
  induction n generalizing past with
  | zero => trivial
  | succ n ih =>
    refine Obeys.bind (.perform hp fun b => ?_)
    cases b with
    | true => exact ⟨past, rfl⟩
    | false =>
      refine (obeys_serviceRound hd).next fun more past hpast => ?_
      obtain ⟨rfl, hround⟩ := hpast
      exact ih (.inr hround)

theorem serving_serviceThread (hd : ps.diagnostics.serves = true) (n : ℕ) :
    Honours (serving ps) 2 (serviceThread ps hk n) := by
  intro h
  refine Obeys.bind (.perform trivial fun _ => ?_)
  refine Obeys.seq (K := Outcome.Settles (fun _ => Discharged) fun _ => True) ?_
    fun _ past hpast => .perform hpast fun _ => trivial
  refine Obeys.bind (.attempt (.bind (.perform trivial fun _ => .bind ?_)))
  refine (obeys_loop hd n (.inl ⟨_, rfl⟩)).mono fun o past ho => ?_
  cases o with
  | ret x =>
    obtain ⟨h, rfl⟩ := ho
    exact .perform trivial fun _ => ⟨_, rfl, .inl ⟨h, rfl⟩⟩
  | exn e =>
    exact .bind (.perform trivial fun _ => .perform trivial fun _ => ⟨_, rfl, .inr ⟨e, past, rfl⟩⟩)
  | crash => trivial

/-- What is no business of any other thread. -/
def Unserving : SystemAct → Prop
  | .inr (.stopRequested .service) => False
  | .inr (.leave .service) => False
  | _ => True

theorem Unserving.serving {a : SystemAct} (ha : Unserving a) (h : List (Event SystemAct SystemAns)) :
    serving ps a h := by
  unfold EthercatInterface.serving
  split
  · exact ha.elim
  · exact ha.elim
  · trivial

theorem ExecutorCall.serving {p : X Unit} (hd : ps.diagnostics.serves = true) (hp : ExecutorCall ps t p) :
    Honours (serving ps) t p := by
  have other : ∀ {p : X Unit}, p.Uses Unserving → Honours (EthercatInterface.serving ps) t p :=
    fun hp => .uses (fun _ ha h => ha.serving h) hp
  have act : ∀ {a : ExecutorAct}, Unserving (.inr a) → (xact a).Uses Unserving := Prog.uses_perform
  have hbus : ∀ a : Act, Unserving (.inl a) := fun _ => trivial
  have hstop : ∀ v, (stopThread v).Uses Unserving := fun _ => uses_stopThread trivial trivial trivial
  cases hp with
  | spin =>
    refine other ((act (a := .spinning) trivial).bind fun _ => Prog.uses_raiseIf.bind fun _ => ?_)
    exact (act (a := .setSpinning true) trivial).bind fun _ =>
      (act (a := .start .rt) trivial).bind fun _ => act (a := .start .service) trivial
  | stop hk =>
    refine other ((act (a := .spinning) trivial).bind fun b => ?_)
    cases b with
    | false => trivial
    | true =>
      exact (hstop .rt).bind fun _ => (hstop .service).bind fun _ =>
        (act (a := .setSpinning false) trivial).bind fun _ => uses_bus hbus _
  | rtThread n =>
    refine other (uses_threadFunction (fun a ha => ?_) trivial trivial (uses_rtRound hbus trivial) n)
    cases a with
    | stopRequested u => cases ha; trivial
    | leave u => exact ha.elim
    | _ => trivial
  | serviceThread hk n => exact serving_serviceThread hd n
  | isSpinning _ _ => exact other ((uses_isSpinning trivial).bind fun _ => trivial)
  | fullDiagnostics force _ _ =>
    refine other (Prog.Uses.bind ?_ fun _ => trivial)
    exact uses_fullDiagnostics hbus trivial (fun _ => trivial) force
  | bus p _ _ => exact other (uses_bus hbus p)

theorem keepsServing_of (hd : ps.diagnostics.serves = true) : KeepsServing ps := by
  intro w c hc
  refine (reaches_inv (P := fun _ => serving ps)
    (J := fun w => Always (fun e h => serving ps e.act (own e.tid h)) w.hist)
    (fun t p hp => hp.serving hd) (fun t a i w _ ha hw => ⟨ha, hw⟩) hc (keeps_idle _ _) ?_).2
  -- the executor is new, so that its thread is not part of the past yet
  change Always _ (w.hist.map (Event.lift ExecutorAns))
  induction w.hist with
  | nil => trivial
  | cons e h ih => exact ⟨trivial, ih⟩

/-! ## Options that end it -/

section Ends

attribute [local simp] run exec act Prog.bind Prog.perform Prog.when Prog.raiseIf Prog.withLock stateIn

/-- A tick of the service, on a bus that is not started yet: the link is `up`. -/
theorem run_tick (hd : ps.diagnostics.serves = false) (h : w.st.state = .initialized) (up : Bool) : ∃ w₁,
    run exec t (updateService ps .none) [{}, {}, {}, { flag := up }, {}, {}, {}] w = (.ret false, w₁, []) ∧
      w₁.st.state = .initialized ∧ w₁.st.latestDiagnostics.bus.linkUp = up := by
  obtain ⟨⟨hm, he⟩, hp⟩ := by simpa [DiagnosticsOptions.serves] using hd
  simp [updateService, internalServiceUpdate, backgroundDiagnostics, h, hm, he, hp, St.modifyBus]

end Ends

/-- **The thread ends after one tick**: it has not been told to, and nothing was thrown. -/
theorem exec_serviceThread (hd : ps.diagnostics.serves = false) {w : SystemW}
    (hs : w.left.st.state = .initialized) (hphase : (jthread w .service).phase = .started)
    (htoken : (jthread w .service).stopRequested = false) :
    ∃ (l : List (Event Act Ans)) (h : List (Event SystemAct SystemAns)) (w' : SystemW),
      Exec systemExec systemGuard 2 (serviceThread ps .none 1) w (.ret ()) w' ∧
        w'.hist = ⟨2, .inr (.leave .service), ()⟩ :: ⟨2, .inr (.setRunning .service false), ()⟩ ::
          (l.map (Event.lift ExecutorAns) ++ mayGoOn :: h) := by
  have one : ∀ (a : ExecutorAct) (w : SystemW), a.Enabled w.st.2 → Exec systemExec systemGuard 2 (xact a) w
      (.ret (systemExec (.inr a) default w.st).1) (w.after systemExec 2 (.inr a) default) :=
    fun a w ha => .act default ha (.pure _ _)
  let w₁ := w.after systemExec 2 (.inr (.enter .service)) default
  let w₂ := w₁.after systemExec 2 (.inr (.setRunning .service true)) default
  let w₃ := w₂.after systemExec 2 (.inr (.stopRequested .service)) default
  have hans : (systemExec (.inr (.stopRequested .service)) default w₂.st).1 = false := by
    rw [← htoken]
    rfl
  have hlook : Exec systemExec systemGuard 2 (xact (.stopRequested .service)) w₂ (.ret false) w₃ := by
    rw [← hans]
    exact one (.stopRequested .service) w₂ trivial
  -- what the bus does it does next to the executor
  obtain ⟨v, htick, -, -⟩ := run_tick (t := 2) (w := w₃.left) hd hs true
  have hrun := run_exec exec 2 (updateService ps .none) [{}, {}, {}, { flag := true }, {}, {}, {}] w₃.left
  rw [htick] at hrun
  have hfree : ∀ a i w, systemGuard 2 (.inl a) i w := fun _ _ _ => trivial
  obtain ⟨l, w₄, hbus, hist, -⟩ := hrun.lift (f := executorExec) hfree w₃ rfl
  have hround : Exec systemExec systemGuard 2 (serviceRound ps .none) w₃ (.ret false) w₄ :=
    Exec.bind hbus (.pure false _)
  have hloop : Exec systemExec systemGuard 2 (loop .service (serviceRound ps .none) 1) w₂ (.ret ()) w₄ :=
    hlook.bind (Exec.bind hround (.pure () _))
  let w₅ := w₄.after systemExec 2 (.inr (.setRunning .service false)) default
  refine ⟨l, w₂.hist, w₅.after systemExec 2 (.inr (.leave .service)) default, ?_, ?_⟩
  · refine (one (.enter .service) w hphase).bind ?_
    refine Exec.bind (b := ()) ?_ (one (.leave .service) w₅ trivial)
    refine Exec.bind (b := .ok ()) (Exec.attempt ?_) (.pure () _)
    exact (one (.setRunning .service true) w₁ trivial).bind
      (hloop.bind (one (.setRunning .service false) w₄ trivial))
  · rw [World.after_hist, World.after_hist, hist, World.after_hist, hans]
    rfl

/-- What the thread did last, if it has only used the bus since it looked at its token. -/
theorem own_mayGoOn {l : List (Event Act Ans)} {past h : List (Event SystemAct SystemAns)}
    {e : Event SystemAct SystemAns}
    (ho : own 2 (l.map (Event.lift ExecutorAns) ++ mayGoOn :: past) = e :: h) :
    (∃ a, e.act = .inl a) ∨ e = mayGoOn := by
  induction l with
  | nil =>
    obtain ⟨rfl, -⟩ := List.cons.inj ((own_cons_self 2 mayGoOn.act mayGoOn.ans past).symm.trans ho)
    exact .inr rfl
  | cons e' l ih =>
    obtain ⟨u, a, r⟩ := e'
    by_cases hu : u = 2
    · subst hu
      obtain ⟨rfl, -⟩ := List.cons.inj ((own_cons_self (R := SystemAns) 2 (.inl a) r _).symm.trans ho)
      exact .inl ⟨a, rfl⟩
    · exact ih ((own_cons_ne (R := SystemAns) hu (.inl a) r _).symm.trans ho)

theorem not_discharged (l : List (Event Act Ans)) (past : List (Event SystemAct SystemAns)) :
    ¬Discharged (⟨2, .inr (.setRunning .service false), ()⟩ ::
      own 2 (l.map (Event.lift ExecutorAns) ++ mayGoOn :: past)) := by
  rintro ⟨h, hh, hlast⟩
  obtain ⟨-, rfl⟩ := List.cons.inj hh
  rcases hlast with ⟨h, hlast⟩ | ⟨e, h, hlast⟩
  all_goals
    rcases own_mayGoOn hlast with ⟨a, ha⟩ | he
    · cases ha
    · cases he

/-- The executor spins a bus in `Initialized`, and neither of its threads has begun. -/
def spunEarly : Conf SystemAct SystemAns (List Mutex) Exn System :=
  (Conf.idle ((world [initializeOne]).lift ExecutorAns {})).follow systemExec
    (.call 0 spin :: Choice.steps 0 5)

theorem reaches_spunEarly : Reaches systemExec systemGuard (ExecutorCall ps)
    (Conf.idle ((world [initializeOne]).lift ExecutorAns {})) spunEarly := by
  refine reaches_admitted (fun t p hp => ?_) (by decide +kernel)
  simp only [Choice.call_mem_call, Choice.call_mem_steps, or_false] at hp
  obtain ⟨rfl, rfl⟩ := hp
  exact .spin

theorem not_keepsServing (hd : ps.diagnostics.serves = false) : ¬KeepsServing ps := by
  intro h
  obtain ⟨l, past, w', he, hist⟩ := exec_serviceThread (w := spunEarly.world) hd (by decide +kernel)
    (by decide +kernel) (by decide +kernel)
  have hrun : Reaches systemExec systemGuard (ExecutorCall ps) spunEarly
      (spunEarly.put w' 2 (some (.pure ()))) := by
    have hrests : spunEarly.pool 2 = none := Option.isNone_iff_eq_none.1 (by decide +kernel)
    refine .head (.call hrests (.serviceThread .none 1)) ?_
    have hr : Reaches systemExec systemGuard (ExecutorCall ps) _ _ := he.reaches .pure spunEarly
    rwa [Prog.bind_pure] at hr
  have hlast := h _ _ (reaches_spunEarly.trans hrun)
  rw [show (spunEarly.put w' 2 (some (.pure ()))).world = w' from rfl, hist] at hlast
  exact not_discharged l past hlast.1

/-- **The bus stays served** exactly for the options with which `update_service` asks for more. -/
theorem keepsServing_iff (ps : Parameters) : KeepsServing ps ↔ ps.diagnostics.serves = true := by
  refine ⟨fun h => ?_, keepsServing_of⟩
  by_contra hn
  exact not_keepsServing (by simpa using hn) h

end EthercatInterface
