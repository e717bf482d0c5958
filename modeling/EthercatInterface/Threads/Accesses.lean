import EthercatInterface.Threads.Gate
import EthercatInterface.Threads.Order

/-!
# Mailbox accesses and the lifecycle

Any number of threads read and write SDOs and files while one thread runs the lifecycle.
Sections are open here, so everything interleaves, and a transfer takes its time.

The two loads of an access may see different states. But `PreInit` is never entered again, and
the interface is closed only under the mutex of the mailbox. So an access that has passed both
comparisons finds the interface open until it is over, and one that has not throws, and touches
nothing (`accesses_gated`).
-/

namespace EthercatInterface

open Interleave

/-- Threads and the world, between two steps of any threads. -/
structure GateInv (w : World (Fine Act Mutex) (Fine.Ans Ans) St) : Prop where
  exclusive : Exclusive w.hist
  state : w.st.state = known (own 0 w.hist)
  port : port (finished w.hist) = port (finished (own 0 w.hist))
  consistent : Consistent (own 0 w.hist)
  departed : ∀ t, Departed (own t w.hist)
  /-- `PreInit` is not entered again. -/
  left : ∀ t s, lastLoad (finished (own t w.hist)) = some s → s ≠ .preInit → w.st.state ≠ .preInit
  /-- A bus that says so is open, but while thread `0` closes it. -/
  sound : w.st.state.open → Opened w.hist ∨ Holds .mailbox (own 0 w.hist)
  /-- What an access has seen is so until it is over. -/
  seen : ∀ t s, t ≠ 0 → looked (own t w.hist) = some s → s.open → w.st.state.open ∧ Opened w.hist
  moving : ∀ t a, t ≠ 0 → a.moves = true → Running t a w.hist → ∃ s, looked (own t w.hist) = some s ∧ s.open
  closing : ∀ t, Running t .ecxClose w.hist → t = 0 ∧ Holds .mailbox (own 0 w.hist)

theorem GateInv.fresh : GateInv ⟨{}, []⟩ where
  exclusive _ _ _ h := h.elim
  state := rfl
  port := rfl
  consistent := trivial
  departed _ := trivial
  left _ _ h := by cases h
  sound h := absurd rfl h.1
  seen _ _ _ h := by cases h
  moving _ _ _ _ h := by obtain ⟨u, r, past, h⟩ := h; cases h
  closing _ h := by obtain ⟨u, r, past, h⟩ := h; cases h

section Step

variable {w : World (Fine Act Mutex) (Fine.Ans Ans) St} {t : ℕ} {f : Fine Act Mutex} {i : Env}

theorem state_after_opened (a : Act) :
    (w.after exec.opened t (.finish a : Fine Act Mutex) i).st.state = (stored a).getD w.st.state :=
  state_exec a i w.st

theorem state_unsteered (hf : Unsteered f) : (w.after exec.opened t f i).st.state = w.st.state := by
  cases f with
  | finish a =>
    refine (state_after_opened a).trans ?_
    cases a <;> first | rfl | cases hf
  | start a => rfl
  | acquire m => rfl
  | release m => rfl

/-- No load goes back to `PreInit`. -/
theorem GateInv.departed_after (hw : GateInv w) : ∀ u, Departed (own u (w.after exec.opened t f i).hist) := by
  refine own_after (J := fun _ => Departed) hw.departed ?_
  have hs := hw.departed t
  cases f with
  | finish a =>
    refine ⟨fun hl s hpast => ?_, hs⟩
    have hst := loaded_exec hl
    by_contra hne
    exact hw.left t s hpast hne hst.symm
  | start a => exact hs
  | acquire m => exact hs
  | release m => exact hs

theorem GateInv.consistent_after (hw : GateInv w) :
    Consistent (own 0 (w.after exec.opened t f i).hist) := by
  by_cases ht : t = 0
  · subst ht
    rw [World.after_hist, own_cons_self]
    have hc := hw.consistent
    cases f with
    | finish a => exact ⟨fun s hl => (loaded_exec hl).trans hw.state, hc⟩
    | start a => exact hc
    | acquire m => exact hc
    | release m => exact hc
  · rw [World.after_hist, own_cons_ne ht]
    exact hw.consistent

/-- Once a state other than `PreInit` has been seen, the bus is not in `PreInit`. -/
theorem GateInv.left_after (hw : GateInv w)
    (hst : (w.after exec.opened t f i).st.state = .preInit → w.st.state = .preInit) (u : ℕ) :
    ∀ s, lastLoad (finished (own u (w.after exec.opened t f i).hist)) = some s → s ≠ .preInit →
      (w.after exec.opened t f i).st.state ≠ .preInit := by
  refine own_after (J := fun _ h => ∀ s, lastLoad (finished h) = some s → s ≠ .preInit →
    (w.after exec.opened t f i).st.state ≠ .preInit) (fun u s hl hs h0 => hw.left u s hl hs (hst h0)) ?_ u
  intro s hl hs h0
  have old := fun hl => hw.left t s hl hs (hst h0)
  cases f with
  | finish a =>
    rw [show finished (⟨t, .finish a, (exec.opened (L := Mutex) (.finish a) i w.st).1⟩ :: own t w.hist) =
      ⟨t, a, (exec a i w.st).1⟩ :: finished (own t w.hist) from rfl, lastLoad_cons] at hl
    cases hload : loaded a (exec a i w.st).1 with
    | none =>
      rw [hload] at hl
      exact old hl
    | some s' =>
      rw [hload] at hl
      cases hl
      exact hs ((loaded_exec hload).trans (hst h0))
  | start a => exact old hl
  | acquire m => exact old hl
  | release m => exact old hl

/-- The mutex of the mailbox has one owner. -/
theorem GateInv.alone (hw : GateInv w) {u : ℕ} {s : BusState} (hu : u ≠ 0)
    (hl : looked (own u w.hist) = some s) : ¬Holds .mailbox (own 0 w.hist) := fun h0 =>
  hu (hw.exclusive .mailbox u 0 (looked_holds hl) h0)

theorem GateInv.knows (hw : GateInv w) {l : List BusState} (hl : Knows l (own 0 w.hist)) :
    w.st.state ∈ l := hw.state ▸ hl hw.consistent

theorem GateInv.opened (hw : GateInv w) (ho : Opn (own 0 w.hist)) : Opened w.hist := by
  have h := ho hw.consistent
  unfold Opened at h ⊢
  rw [hw.port]
  exact h

/-- The transfers that are running have been admitted. -/
theorem GateInv.moving_after (hw : GateInv w) (hg : gate t f (own t w.hist)) (u : ℕ) (a : Act) (hu : u ≠ 0)
    (ha : a.moves = true) (hr : Running u a (w.after exec.opened t f i).hist) :
    ∃ s, looked (own u (w.after exec.opened t f i).hist) = some s ∧ s.open := by
  rcases running_after hr with ⟨rfl, rfl⟩ | ⟨hut, hr⟩
  · rw [World.after_hist, own_cons_self]
    have hcleared : Cleared (own u w.hist) := by
      cases a
      case ecxSDOread => exact hg hu rfl
      case ecxSDOwrite => exact hg hu rfl
      case ecxFOEread => exact hg hu rfl
      case ecxFOEwrite => exact hg hu rfl
      all_goals cases ha
    exact hcleared (hw.departed u)
  · rw [World.after_hist, own_cons_ne (Ne.symm hut)]
    exact hw.moving u a hu ha hr

/-- Only thread `0` closes, under the mutex of the mailbox. -/
theorem GateInv.closing_after (hw : GateInv w) (hg : gate t f (own t w.hist)) (u : ℕ)
    (hr : Running u .ecxClose (w.after exec.opened t f i).hist) :
    u = 0 ∧ Holds .mailbox (own 0 (w.after exec.opened t f i).hist) := by
  rcases running_after hr with ⟨rfl, rfl⟩ | ⟨hut, hr⟩
  · obtain ⟨h0, hh⟩ : u = 0 ∧ Holds Mutex.mailbox (own u w.hist) := hg
    subst h0
    rw [World.after_hist, own_cons_self]
    exact ⟨rfl, hh⟩
  · obtain ⟨h0, hh⟩ := hw.closing u hr
    subst h0
    rw [World.after_hist, own_cons_ne (Ne.symm hut)]
    exact ⟨rfl, hh⟩

/-- What leaves state and interface alone keeps the bus sound; the mutex of the mailbox is
released only then. -/
theorem GateInv.sound_unsteered (hw : GateInv w) (hf : Unsteered f) (hg : gate t f (own t w.hist)) :
    (w.after exec.opened t f i).st.state.open →
      Opened (w.after exec.opened t f i).hist ∨ Holds .mailbox (own 0 (w.after exec.opened t f i).hist) := by
  intro ho
  rw [state_unsteered hf] at ho
  rw [World.after_hist, opened_unsteered hf]
  rcases hw.sound ho with h | h
  · exact .inl h
  by_cases ht : t = 0
  · subst ht
    rw [own_cons_self]
    cases f with
    | start a => exact .inr h
    | finish a => exact .inr h
    | acquire m => exact .inr (.inr h)
    | release m =>
      by_cases hm : .mailbox ∈ m
      · refine .inl (hw.opened fun hc => hg rfl hm hc ?_)
        rw [← hw.state]
        exact ho
      · exact .inr ⟨hm, h⟩
  · rw [own_cons_ne ht]
    exact .inr h

/-- An access that looks at an open bus has the interface open. -/
theorem GateInv.seen_unsteered (hw : GateInv w) (hf : Unsteered f) (u : ℕ) (s : BusState) (hu : u ≠ 0)
    (hl : looked (own u (w.after exec.opened t f i).hist) = some s) (ho : s.open) :
    (w.after exec.opened t f i).st.state.open ∧ Opened (w.after exec.opened t f i).hist := by
  rw [state_unsteered hf, World.after_hist, opened_unsteered hf]
  by_cases hut : t = u
  · subst hut
    rw [World.after_hist, own_cons_self] at hl
    cases f with
    | start a => exact hw.seen t s hu hl ho
    | acquire m =>
      simp only [looked] at hl
      split at hl
      · cases hl
      · exact hw.seen t s hu hl ho
    | release m =>
      simp only [looked] at hl
      split at hl
      · cases hl
      · exact hw.seen t s hu hl ho
    | finish a =>
      simp only [looked] at hl
      split at hl
      · next hh =>
        change (loaded a (exec a i w.st).1).or _ = _ at hl
        cases hload : loaded a (exec a i w.st).1 with
        | none =>
          rw [hload] at hl
          exact hw.seen t s hu hl ho
        | some s' =>
          rw [hload] at hl
          cases hl
          have hst := loaded_exec hload
          subst hst
          -- the state is read under the mailbox lock, so thread `0` does not hold it
          refine ⟨ho, (hw.sound ho).resolve_right fun h0 => hu ?_⟩
          exact hw.exclusive .mailbox t 0 hh h0
      · cases hl
  · rw [World.after_hist, own_cons_ne hut] at hl
    exact hw.seen u s hu hl ho

theorem GateInv.unsteered (hw : GateInv w) (hf : Unsteered f) (ok : Granted t f i w)
    (hg : gate t f (own t w.hist)) : GateInv (w.after exec.opened t f i) where
  exclusive := exclusive_after ok hw.exclusive
  state := by
    rw [state_unsteered hf, hw.state]
    by_cases ht : t = 0
    · subst ht
      rw [World.after_hist, own_cons_self, known_unsteered hf]
    · rw [World.after_hist, own_cons_ne ht]
  port := by
    rw [World.after_hist, port_unsteered hf, hw.port]
    by_cases ht : t = 0
    · subst ht
      rw [own_cons_self, port_unsteered hf]
    · rw [own_cons_ne ht]
  consistent := hw.consistent_after
  departed := hw.departed_after
  left := hw.left_after fun h => (state_unsteered hf).symm.trans h
  sound := hw.sound_unsteered hf hg
  seen := hw.seen_unsteered hf
  moving := hw.moving_after hg
  closing := hw.closing_after hg

/-- **Steering**, by thread `0`. -/
theorem GateInv.steer (hw : GateInv w) {a : Act} (hg : gate 0 (.finish a) (own 0 w.hist))
    (hst : (w.after exec.opened 0 (.finish a : Fine Act Mutex) i).st.state = .preInit → w.st.state = .preInit)
    (hs : (w.after exec.opened 0 (.finish a : Fine Act Mutex) i).st.state.open →
      Opened (w.after exec.opened 0 (.finish a : Fine Act Mutex) i).hist ∨ Holds .mailbox (own 0 w.hist))
    (hl : ∀ u s, u ≠ 0 → looked (own u w.hist) = some s → s.open →
      (w.after exec.opened 0 (.finish a : Fine Act Mutex) i).st.state.open ∧
        Opened (w.after exec.opened 0 (.finish a : Fine Act Mutex) i).hist) :
    GateInv (w.after exec.opened 0 (.finish a) i) where
  exclusive := exclusive_after trivial hw.exclusive
  state := by
    rw [state_after_opened, hw.state, World.after_hist, own_cons_self]
    exact (known_finish a _).symm
  port := by
    rw [World.after_hist, own_cons_self]
    change List.filterMap _ (_ :: finished w.hist) = List.filterMap _ (_ :: finished (own 0 w.hist))
    rw [List.filterMap_cons, List.filterMap_cons]
    have h := hw.port
    unfold EthercatInterface.port at h
    rw [h]
  consistent := hw.consistent_after
  departed := hw.departed_after
  left := hw.left_after hst
  sound := fun ho => (hs ho).imp (fun h => h) fun h => by
    rw [World.after_hist, own_cons_self]
    exact h
  seen := fun u s hu hlook ho => by
    rw [World.after_hist, own_cons_ne hu.symm] at hlook
    exact hl u s hu hlook ho
  moving := hw.moving_after hg
  closing := hw.closing_after hg

/-- **One step of any thread** keeps the world in order. -/
theorem GateInv.after (hw : GateInv w) (ok : Granted t f i w) (hg : gate t f (own t w.hist)) :
    GateInv (w.after exec.opened t f i) := by
  cases f with
  | start a => exact hw.unsteered trivial ok hg
  | acquire m => exact hw.unsteered trivial ok hg
  | release m => exact hw.unsteered trivial ok hg
  | finish a =>
    cases a
    case ecxClose =>
      obtain ⟨h0, hh⟩ : t = 0 ∧ Holds Mutex.mailbox (own t w.hist) := hg
      subst h0
      exact hw.steer ⟨rfl, hh⟩ (fun h => h) (fun _ => .inr hh) fun u s hu hl _ =>
        absurd hh (hw.alone hu hl)
    case ecxInit =>
      obtain rfl : t = 0 := hg
      -- a successful `ecx_init` opens, another changes nothing
      have opens : Opened w.hist → Opened (w.after exec.opened 0 (.finish .ecxInit : Fine Act Mutex) i).hist := by
        intro h
        rw [World.after_hist]
        change ((List.filterMap _ (_ :: finished w.hist)).head? = some _)
        rw [List.filterMap_cons]
        simp only [portEvent]
        split
        · next hn => exact h
        · next e he =>
          split at he
          · cases he
            rfl
          · cases he
      exact hw.steer rfl (fun h => h) (fun ho => (hw.sound ho).imp opens fun h => h) fun u s hu hl ho =>
        (hw.seen u s hu hl ho).imp (fun h => h) opens
    case updateBusState s' =>
      obtain ⟨h0, hm⟩ : t = 0 ∧ MayStore (own t w.hist) s' := hg
      subst h0
      have stored : (w.after exec.opened 0 (.finish (.updateBusState s') : Fine Act Mutex) i).st.state = s' := rfl
      refine hw.steer ⟨rfl, hm⟩ (fun h => ?_) (fun ho => ?_) fun u s hu hl ho => ?_
      · rw [stored] at h
        subst h
        exact hm.elim
      · rw [stored] at ho
        exact .inl (hw.opened (hm.opn ho))
      · rw [stored]
        cases s'
        case preInit => exact hm.elim
        case shutdown =>
          rcases hm with hh | hk
          · exact absurd hh (hw.alone hu hl)
          · exact absurd (List.mem_singleton.1 (hw.knows hk)) (hw.seen u s hu hl ho).1.1
        all_goals exact ⟨by decide, hw.opened hm⟩
    all_goals exact hw.unsteered rfl ok hg

end Step

/-! ## Calls -/

/-- The operations of the thread that runs the lifecycle. -/
def Op.controls : Op → Bool
  | .initializeBus | .startup | .activate | .updateService | .shutdown => true
  | _ => false

/-- The accesses to the mailbox. -/
def Op.accesses : Op → Bool
  | .readSdoUntyped .. | .writeSdoUntyped .. | .foeWrite .. | .foeRead .. => true
  | _ => false

/-- The calls: the lifecycle on thread `0`, with any hooks, accesses on all others. -/
def gatedCalls (ps : Parameters) (t : ℕ) (p : P Unit) : Prop :=
  ∃ (o : Op) (hk : UserCode), hk.Ok ps ∧ p = o.invoke ps hk ∧
    ((t = 0 ∧ o.controls = true) ∨ (t ≠ 0 ∧ o.accesses = true))

variable {ps : Parameters} {hk : UserCode} {t : ℕ} {p : P Unit}

/-- How the calls end. -/
def Ended (t : ℕ) (o : Outcome Exn Unit) (h : List FineEv) : Prop :=
  if t = 0 then o.Meets (fun _ => Sound) (fun _ => Sound) h
  else o.Meets (fun _ h => Departed h → ¬TurnedAway h)
    (fun e h => Departed h → TurnedAway h → (∃ msg, e = soemError msg) ∧ Untouched h) h

theorem carries_control (hok : hk.Ok ps) {o : Op} (ho : o.controls = true) :
    Carries (gate 0) 0 Sound (o.invoke ps hk) (fun _ => Sound) fun _ => Sound := by
  have body : Carries (gate 0) 0 Sound (o.body ps hk) (fun _ => Sound) fun _ => Sound := by
    cases o
    case initializeBus => exact .bind carries_initializeBus fun _ => .pure fun _ hs => hs
    case startup => exact carries_startup hok
    case activate => exact carries_activate hok
    case updateService => exact .bind (carries_updateService hok) fun _ => .pure fun _ hs => hs
    case shutdown => exact carries_shutdown hok
    all_goals cases ho
  refine .bind (carries_sound (mild_act rfl)) fun _ => .bind (T := fun _ => Sound) (.attempt body)
    fun r => ?_
  cases r with
  | ok x => exact carries_sound (mild_act rfl)
  | error e => exact .bind (carries_sound (mild_act rfl)) fun _ => .throw fun _ hs => hs

theorem carries_accesses (ht : t ≠ 0) {o : Op} (ho : o.accesses = true) :
    Carries (gate t) t (fun _ => True) (o.invoke ps hk) (fun _ h => Departed h → ¬TurnedAway h)
      fun e h => Departed h → TurnedAway h → (∃ msg, e = soemError msg) ∧ Untouched h := by
  cases o
  case readSdoUntyped n id i s c => exact carries_call ht (post_readSdoUntyped n id i s c) rfl
  case writeSdoUntyped data id i s => exact carries_call ht (post_writeSdoUntyped data id i s) rfl
  case foeWrite id f data => exact carries_call ht (post_foeWrite id f data) rfl
  case foeRead id f n => exact carries_call ht (post_foeRead id f n) rfl
  all_goals cases ho

/-- **Every call keeps to the gate.** -/
theorem obeys_gated (hp : gatedCalls ps t p) {h : List FineEv} (hs : t = 0 → Sound h) :
    Obeys (gate t) t p.opened (Ended t) h := by
  obtain ⟨o, hk, hok, rfl, ⟨rfl, ho⟩ | ⟨ht, ho⟩⟩ := hp
  · refine (carries_control hok ho h (hs rfl)).mono fun o h' he => ?_
    rw [Ended, if_pos rfl]
    exact he
  · refine (carries_accesses ht ho h trivial).mono fun o h' he => ?_
    rw [Ended, if_neg ht]
    exact he

/-- **No transfer on a closed interface.** Any number of threads access the mailbox while thread
`0` runs the lifecycle, in any interleaving. While a transfer runs, the interface is open and
nobody closes it. An access that found the bus not open throws, and has transferred, popped and
counted nothing. -/
theorem accesses_gated {c : FineConf}
    (hr : Reaches exec.opened Granted (openedCalls (gatedCalls ps)) (Conf.idle ⟨{}, []⟩) c) :
    (∀ t a, t ≠ 0 → a.moves = true → Running t a c.world.hist →
      Opened c.world.hist ∧ ∀ u, ¬Running u .ecxClose c.world.hist) ∧
    ∀ t, t ≠ 0 → TurnedAway (own t c.world.hist) → c.pool t ≠ some (.pure ()) ∧
      ∀ e, c.pool t = some (.throw e) → (∃ msg, e = soemError msg) ∧ Untouched (own t c.world.hist) := by
  -- what every thread keeps to by itself, and what that gives of the world they share
  have key : Orderly gate Ended (fun t h => t = 0 → Sound h) c ∧ GateInv c.world := by
    refine Orderly.reaches ?_ ?_ ?_ (fun _ _ _ _ ok hg hw => hw.after ok hg) hr
      (orderly_idle fun _ _ _ ho => absurd rfl ho.1) .fresh
    · rintro t q ⟨p, hp, rfl⟩ h hs
      exact obeys_gated hp hs
    · rintro t h he rfl
      rw [Ended, if_pos rfl] at he
      exact he
    · rintro t e h he rfl
      rw [Ended, if_pos rfl] at he
      exact he
  obtain ⟨hc, hw⟩ := key
  refine ⟨fun t a ht ha hrun => ?_, fun t ht hturn => ⟨fun hp => ?_, fun e hp => ?_⟩⟩
  · obtain ⟨s, hl, ho⟩ := hw.moving t a ht ha hrun
    exact ⟨(hw.seen t s ht hl ho).2, fun u hu => hw.alone ht hl (hw.closing u hu).2⟩
  · have he : Ended t (.ret ()) (own t c.world.hist) := hc.running t _ hp
    rw [Ended, if_neg ht] at he
    exact he (hw.departed t) hturn
  · have he : Ended t (.exn e) (own t c.world.hist) := hc.running t _ hp
    rw [Ended, if_neg ht] at he
    exact he (hw.departed t) hturn

/-- A call of `initialize`. -/
def openBus : Prog (Fine Act Mutex) (Fine.Ans Ans) Empty Exn Unit :=
  (Op.initializeBus.invoke {} .none).opened

/-- Thread `2` reads a file too early; thread `0` initializes the bus with one device; thread `1`
is in the transfer of a read. -/
def earlyAccess : List (Choice (Fine Act Mutex) (Fine.Ans Ans) Empty Exn Env) :=
  .call 2 fileRead :: Choice.steps 2 8 ++ .call 0 openBus :: Choice.steps 0 5 ++
    [.step 0 [{ ret := 1 }], .step 0 [], .step 0 [{ ret := 1, slavecount := 1 }]] ++ Choice.steps 0 12 ++
    .call 1 fileRead :: Choice.steps 1 14

/-- One access in its transfer, another turned away. -/
theorem accesses_gated_early : ∃ c : FineConf,
    (Running 1 (.ecxFOEread 1 "" 8) c.world.hist ∧ Opened c.world.hist) ∧
      ∃ msg, c.pool 2 = some (.throw (soemError msg)) ∧ Untouched (own 2 c.world.hist) := by
  have h : Reaches exec.opened Granted (openedCalls (gatedCalls {})) (Conf.idle ⟨{}, []⟩ : FineConf)
      ((Conf.idle ⟨{}, []⟩).follow exec.opened earlyAccess) := by
    refine reaches_admitted (fun t p hp => ?_) (by decide +kernel)
    have hcall : (t = 2 ∨ t = 1) ∧ p = fileRead ∨ t = 0 ∧ p = openBus := by
      simp [earlyAccess, Choice.steps] at hp
      tauto
    rcases hcall with ⟨ht, rfl⟩ | ⟨rfl, rfl⟩
    · exact ⟨_, ⟨.foeRead 1 "" 8, .none, UserCode.none_ok _, rfl, .inr ⟨by omega, rfl⟩⟩, rfl⟩
    · exact ⟨_, ⟨.initializeBus, .none, UserCode.none_ok _, rfl, .inl ⟨rfl, rfl⟩⟩, rfl⟩
  have running : Running 1 (.ecxFOEread 1 "" 8)
      ((Conf.idle ⟨{}, []⟩ : FineConf).follow exec.opened earlyAccess).world.hist := ⟨1, (), _, rfl⟩
  obtain ⟨hmove, hturn⟩ := accesses_gated h
  refine ⟨_, ⟨running, (hmove 1 _ (by decide) rfl running).1⟩, _, rfl, ?_⟩
  exact ((hturn 2 (by decide) ⟨.preInit, rfl, by decide⟩).2 _ rfl).2

end EthercatInterface
