import EthercatInterface.Lib.Locks
import EthercatInterface.Lifecycle.Transmission
import EthercatInterface.Threads.State

/-!
# At the gate of the mailbox

An access compares the state of the bus with `PreInit` and then with `Shutdown`, holding the
mutex of the mailbox, and the thread of the lifecycle closes the interface, and stores
`Shutdown` over an open state, under that mutex. Here each thread is alone, its sections open:
what it promises (`gate`), from what it has seen itself.

An access transfers only if it has passed both comparisons, else it throws and has touched
nothing (`carries_call`). The loads of the lifecycle answer what it stored last, since nobody
else stores (`Consistent`); it leaves the mutex only with an interface as open as the state says
(`Sound`).
-/

namespace EthercatInterface

open Interleave

/-- Something a thread did, sections open. -/
abbrev FineEv := FineEvent Act Ans Mutex

/-- The transfers of the four accesses. -/
def Act.moves : Act → Bool
  | .ecxSDOread _ _ _ _ | .ecxSDOwrite _ _ _ _ | .ecxFOEread _ _ _ | .ecxFOEwrite _ _ _ => true
  | _ => false

/-! ## What a thread has seen -/

/-- The state last loaded under the mutex of the mailbox. -/
def looked : List FineEv → Option BusState
  | [] => none
  | ⟨_, .acquire m, _⟩ :: h => if .mailbox ∈ m then none else looked h
  | ⟨_, .release m, _⟩ :: h => if .mailbox ∈ m then none else looked h
  | ⟨_, .start _, _⟩ :: h => looked h
  | ⟨_, .finish a, r⟩ :: h => if Holds .mailbox h then (loaded a r).or (looked h) else none

theorem looked_holds : ∀ {h : List FineEv} {s : BusState}, looked h = some s → Holds .mailbox h
  | ⟨_, .acquire m, _⟩ :: h, s, hs => by
    simp only [looked] at hs
    split at hs
    · cases hs
    · exact .inr (looked_holds hs)
  | ⟨_, .release m, _⟩ :: h, s, hs => by
    simp only [looked] at hs
    split at hs
    · cases hs
    · next hm => exact ⟨hm, looked_holds hs⟩
  | ⟨_, .start _, _⟩ :: h, s, hs => looked_holds (h := h) hs
  | ⟨_, .finish a, r⟩ :: h, s, hs => by
    simp only [looked] at hs
    split at hs
    · next hh => exact hh
    · cases hs

/-- What the thread that runs the lifecycle knows of the state: what it stored last. -/
def known (h : List FineEv) : BusState := stateAfter .preInit (finished h)

/-- Its loads answer that. -/
def Consistent (h : List FineEv) : Prop :=
  Always (fun e past => ∀ s, loaded e.act e.ans = some s → s = stateAfter .preInit past) (finished h)

/-- `PreInit` is not seen after another state. -/
def Departed (h : List FineEv) : Prop :=
  Always (fun e past => loaded e.act e.ans = some .preInit →
    ∀ s, lastLoad past = some s → s = .preInit) (finished h)

/-- The interface is open. -/
def Opened (h : List FineEv) : Prop := LeftOpen (port (finished h))

/-- The interface is open, as far as the thread of the lifecycle knows. -/
def Opn (h : List FineEv) : Prop := Consistent h → Opened h

/-- It is if the state says so. -/
def Sound (h : List FineEv) : Prop := Consistent h → (known h).open → Opened h

theorem Opn.sound {h : List FineEv} (ho : Opn h) : Sound h := fun hc _ => ho hc

/-- The state is one of these, as far as the thread of the lifecycle knows. -/
def Knows (l : List BusState) (h : List FineEv) : Prop := Consistent h → known h ∈ l

/-- Both comparisons have been passed. -/
def Cleared (h : List FineEv) : Prop := Departed h → ∃ s, looked h = some s ∧ s.open

/-! ## The gate -/

/-- When the state `s` may be stored. -/
def MayStore (h : List FineEv) : BusState → Prop
  | .preInit => False
  | .shutdown => Holds .mailbox h ∨ Knows [.preInit] h
  | _ => Opn h

theorem MayStore.opn {h : List FineEv} {s : BusState} (hm : MayStore h s) (hs : s.open) : Opn h := by
  cases s with
  | preInit => exact absurd rfl hs.1
  | shutdown => exact absurd rfl hs.2
  | _ => exact hm

/-- When thread `t` may perform an action; thread `0` runs the lifecycle. -/
def admits (t : ℕ) : Act → List FineEv → Prop
  | .ecxClose, h => t = 0 ∧ Holds .mailbox h
  | .ecxInit, _ => t = 0
  | .updateBusState s, h => t = 0 ∧ MayStore h s
  | a, h => t ≠ 0 → a.moves = true → Cleared h

/-- When thread `t` may do something. -/
def gate (t : ℕ) : Fine Act Mutex → List FineEv → Prop
  | .start a, h => admits t a h
  | .finish a, h => admits t a h
  | .acquire _, _ => True
  | .release m, h => t = 0 → .mailbox ∈ m → Sound h

theorem admits_mild {t : ℕ} {a : Act} {h : List FineEv} (ha : Mild a)
    (hr : t ≠ 0 → a.moves = true → Cleared h) : admits t a h := by
  cases a <;> first | exact hr | cases ha

theorem admits_quiet {t : ℕ} {a : Act} (ha : (a.steers || a.moves) = false) (h : List FineEv) :
    admits t a h := by
  obtain ⟨hs, hm⟩ := Bool.or_eq_false_iff.1 ha
  exact admits_mild hs fun _ hm' => absurd (hm.symm.trans hm') Bool.false_ne_true

/-! ## The accesses -/

/-- What the thread has performed since its call began. -/
def thisCall (h : List FineEv) : List Ev :=
  (finished h).takeWhile fun e => match e.act with
    | .call _ => false
    | _ => true

/-- The access came too early or too late: the bus was not open when it looked last. -/
def TurnedAway (h : List FineEv) : Prop :=
  ∃ s, lastLoad (thisCall h) = some s ∧ ¬s.open

/-- No transfer has been made, and no error popped or counted. -/
def Untouched (h : List FineEv) : Prop := ∀ e ∈ thisCall h, e.act.boxes = false

/-- Both comparisons of this call have been passed. -/
def Passed (h : List FineEv) : Prop :=
  Departed h → ∃ s, s.open ∧ looked h = some s ∧ lastLoad (thisCall h) = some s

/-- The bus was open when the call looked last. -/
def Welcome (h : List FineEv) : Prop := Departed h → ∃ s, s.open ∧ lastLoad (thisCall h) = some s

/-- How an access may throw. -/
def Thrown (e : Exn) (h : List FineEv) : Prop :=
  ((∃ msg, e = soemError msg) ∧ Untouched h) ∨ Welcome h

theorem Passed.welcome {h : List FineEv} (hp : Passed h) : Welcome h := fun hs =>
  (hp hs).imp fun _ h => ⟨h.1, h.2.2⟩

theorem Passed.cleared {h : List FineEv} (hp : Passed h) : Cleared h := fun hs =>
  (hp hs).imp fun _ h => ⟨h.2.1, h.1⟩

theorem Welcome.not_turnedAway {h : List FineEv} (hw : Welcome h) (hs : Departed h) : ¬TurnedAway h := by
  rintro ⟨s, hl, ho⟩
  obtain ⟨s', ho', hl'⟩ := hw hs
  rw [hl] at hl'
  cases hl'
  exact ho ho'

section Access

variable {t : ℕ} {h : List FineEv}

/-- Looks at the state of the bus, or begins a call. -/
def Act.turns : Act → Bool
  | .call _ | .getBusState => true
  | _ => false

theorem thisCall_finish {a : Act} (ha : a.turns = false) (r : Ans a) :
    thisCall (⟨t, .finish a, r⟩ :: h) = ⟨t, a, r⟩ :: thisCall h := by
  cases a <;> first | rfl | cases ha

theorem lastLoad_finish {a : Act} (ha : a.turns = false) (r : Ans a) :
    lastLoad (thisCall (⟨t, .finish a, r⟩ :: h)) = lastLoad (thisCall h) := by
  rw [thisCall_finish ha, lastLoad_cons]
  cases a <;> first | rfl | cases ha

theorem Departed.of_cons {e : FineEv} (hs : Departed (e :: h)) : Departed h := by
  obtain ⟨u, f, r⟩ := e
  cases f with
  | finish a => exact hs.2
  | start a => exact hs
  | acquire m => exact hs
  | release m => exact hs

theorem Welcome.finish {a : Act} (ha : a.turns = false) (hw : Welcome h) (r : Ans a) :
    Welcome (⟨t, .finish a, r⟩ :: h) := fun hs =>
  (hw hs.of_cons).imp fun _ h => ⟨h.1, (lastLoad_finish ha r).trans h.2⟩

theorem Untouched.finish {a : Act} (ha : (a.turns || a.boxes) = false) (hu : Untouched h) (r : Ans a) :
    Untouched (⟨t, .finish a, r⟩ :: h) := by
  obtain ⟨ht, hb⟩ := Bool.or_eq_false_iff.1 ha
  intro e he
  rw [thisCall_finish ht] at he
  rcases List.mem_cons.1 he with rfl | he
  · exact hb
  · exact hu e he

theorem Passed.finish {a : Act} (ha : a.turns = false) (hp : Passed h) (r : Ans a) :
    Passed (⟨t, .finish a, r⟩ :: h) := by
  intro hs
  obtain ⟨s, ho, hl, hc⟩ := hp hs.of_cons
  refine ⟨s, ho, ?_, (lastLoad_finish ha r).trans hc⟩
  have hn : loaded a r = none := by cases a <;> first | rfl | cases ha
  simp only [looked, if_pos (looked_holds hl), hn]
  exact hl

/-- After the comparisons an access performs only what the gate admits. -/
theorem passed_step {f : Fine Act Mutex} (hf : f.Within Posting StatusLock) (ht : t ≠ 0)
    (r : f.Ans Ans) (hp : Passed h) : gate t f h ∧ Passed (⟨t, f, r⟩ :: h) := by
  have mild : ∀ {a : Act}, Posting a → Mild a := fun ha => ha.mailing.plain.calm.mild
  cases f with
  | start a => exact ⟨admits_mild (mild hf) fun _ _ => hp.cleared, hp⟩
  | finish a =>
    refine ⟨admits_mild (mild hf) fun _ _ => hp.cleared, hp.finish ?_ r⟩
    cases a <;> first | rfl | cases hf
  | acquire m =>
    obtain rfl := hf
    exact ⟨trivial, hp⟩
  | release m =>
    obtain rfl := hf
    exact ⟨fun h0 => absurd h0 ht, hp⟩

theorem carries_posting (ht : t ≠ 0) {α : Type} {p : P α} (hp : p.Fits Posting StatusLock) :
    Carries (gate t) t Passed p (fun _ => Passed) fun _ => Passed :=
  .fits (fun _ hf r _ => passed_step hf ht r) hp

/-- **The two comparisons**, under the mutex of the mailbox. -/
theorem carries_comparisons {E : Exn → List FineEv → Prop} :
    Carries (gate t) t (fun h => thisCall h = [] ∧ Holds .mailbox h)
      (stateIn [.preInit, .shutdown]) (fun b h => if b = true then Untouched h else Passed h) E := by
  have free : ∀ h, admits t .getBusState h := admits_quiet rfl
  -- what the first load leaves behind
  refine .bind (T := fun s h => Holds .mailbox h ∧
    ∃ past, finished h = ⟨t, .getBusState, s⟩ :: past ∧ thisCall h = [⟨t, .getBusState, s⟩])
    (.perform (fun h _ => ⟨free h, free _⟩) fun s h hJ => ?_) fun s => ?_
  · refine ⟨hJ.2, finished h, rfl, ?_⟩
    rw [← hJ.1]
    rfl
  by_cases hs : s = .preInit
  · rw [if_pos hs]
    refine .pure fun h hJ => ?_
    obtain ⟨-, past, -, hc⟩ := hJ
    simp only [if_pos, Untouched, hc]
    intro e he
    obtain rfl := List.mem_singleton.1 he
    rfl
  rw [if_neg hs]
  refine .bind (T := fun s' h => (Departed h → s' ≠ .preInit) ∧ looked h = some s' ∧
    thisCall h = [⟨t, .getBusState, s'⟩, ⟨t, .getBusState, s⟩])
    (.perform (fun h _ => ⟨free h, free _⟩) fun s' h hJ => ?_) fun s' => ?_
  · obtain ⟨hh, past, hf, hc⟩ := hJ
    refine ⟨?_, ?_, ?_⟩
    · -- `PreInit` is not seen after another state
      rintro hset rfl
      have h1 := hset.1 rfl s
      change lastLoad (finished h) = some s → _ at h1
      rw [hf] at h1
      exact hs (h1 rfl)
    · have hh' : Holds .mailbox (⟨t, .start .getBusState, ()⟩ :: h : List FineEv) := hh
      simp only [looked, if_pos hh']
      rfl
    · rw [← hc]
      rfl
  by_cases hs' : s' = .shutdown
  · rw [if_pos hs']
    refine .pure fun h hJ => ?_
    simp only [if_pos, Untouched, hJ.2.2]
    intro e he
    rcases List.mem_cons.1 he with rfl | he
    · rfl
    · obtain rfl := List.mem_singleton.1 he
      rfl
  · rw [if_neg hs']
    refine .pure fun h hJ => ?_
    rw [if_neg Bool.false_ne_true]
    intro hset
    refine ⟨s', ⟨hJ.1 hset, hs'⟩, hJ.2.1, ?_⟩
    rw [hJ.2.2]
    rfl

/-- The section of an access. -/
theorem carries_access (ht : t ≠ 0) {α : Type} {p : P α} (hp : PostSection p) :
    Carries (gate t) t (fun h => thisCall h = []) p (fun _ => Welcome) Thrown := by
  obtain ⟨what, id, rest, rfl, hr⟩ := hp
  refine .withLock (N := fun h => thisCall h = [] ∧ Holds .mailbox h) (T := fun _ => Passed)
    (X := fun e h => ((∃ msg, e = soemError msg) ∧ Untouched h) ∨ Passed h)
    (fun h hc => ⟨trivial, hc, .inl List.mem_cons_self⟩) ?_
    (fun _ h hp => ⟨fun h0 => absurd h0 ht, hp.welcome⟩)
    fun e h he => ⟨fun h0 => absurd h0 ht, (he.imp (fun hu => hu) Passed.welcome : Thrown e h)⟩
  refine .bind (T := fun _ => Passed) ?_ fun _ =>
    (carries_posting ht hr).mono (fun _ h => h) (fun _ _ h => h) fun _ _ => .inr
  refine .bind carries_comparisons fun b => ?_
  refine .bind (T := fun _ => Passed) (.raiseIf (fun hb h hJ => ?_) fun hb h hJ => ?_) fun _ => ?_
  · rw [if_pos hb] at hJ
    exact .inl ⟨⟨_, rfl⟩, hJ⟩
  · rw [if_neg (by rw [hb]; exact Bool.false_ne_true)] at hJ
    exact hJ
  have onBus : (hasDeviceOnBus id).Fits Posting StatusLock := fits_hasDeviceOnBus (S := Posting) rfl id
  refine .bind ((carries_posting ht onBus).mono (fun _ h => h) (fun _ _ h => h) fun _ _ => .inr)
    fun _ => .raiseIf (fun _ _ => .inr) fun _ _ h => h

/-- **An access keeps to the gate**, and if it comes too early or too late, it throws and has
touched nothing. -/
theorem carries_call (ht : t ≠ 0) {ps : Parameters} {hk : UserCode} {α : Type} {p : P α}
    (hp : PostSection p) {o : Op} (hb : o.body ps hk = void p) :
    Carries (gate t) t (fun _ => True) (o.invoke ps hk) (fun _ h => Departed h → ¬TurnedAway h)
      fun e h => Departed h → TurnedAway h → (∃ msg, e = soemError msg) ∧ Untouched h := by
  refine .bind (T := fun _ h => thisCall h = [])
    (.perform (fun h _ => ⟨admits_quiet (a := .call o) rfl h, admits_quiet (a := .call o) rfl _⟩)
      fun _ _ _ => rfl) fun _ => ?_
  have body : Carries (gate t) t (fun h => thisCall h = []) (o.body ps hk) (fun _ => Welcome) Thrown := by
    rw [hb]
    exact .bind (carries_access ht hp) fun _ => .pure fun _ h => h
  refine .bind (T := fun r => Outcome.Meets (fun _ => Welcome) Thrown (.ofExcept r)) (.attempt body)
    fun r => ?_
  cases r with
  | ok x =>
    refine .perform (fun h _ => ⟨admits_quiet (a := .done o true) rfl h,
      admits_quiet (a := .done o true) rfl _⟩) fun _ h hw => ?_
    exact Welcome.not_turnedAway (hw.finish (a := .done o true) rfl ())
  | error e =>
    refine .bind (T := fun _ => Thrown e) (.perform (fun h _ => ⟨admits_quiet (a := .done o false) rfl h,
      admits_quiet (a := .done o false) rfl _⟩) fun _ h he => ?_) fun _ => .throw fun h he hs ha => ?_
    · rcases he with ⟨hm, hu⟩ | hw
      · exact .inl ⟨hm, hu.finish (a := .done o false) rfl ()⟩
      · exact .inr (hw.finish (a := .done o false) rfl ())
    · exact he.resolve_right fun hw => hw.not_turnedAway hs ha

end Access

/-! ## The lifecycle -/

section Lifecycle

variable {α β : Type} {ps : Parameters} {hk : UserCode} {h : List FineEv} {l : List BusState}
  {J : List FineEv → Prop}

theorem Consistent.of_cons {e : FineEv} (hc : Consistent (e :: h)) : Consistent h := by
  obtain ⟨u, f, r⟩ := e
  cases f with
  | finish a => exact hc.2
  | start a => exact hc
  | acquire m => exact hc
  | release m => exact hc

theorem known_finish (a : Act) (r : Ans a) :
    known (⟨0, .finish a, r⟩ :: h) = (stored a).getD (known h) :=
  stateAfter_cons _ ⟨0, a, r⟩ (finished h)

/-- Leaves the state of the bus and its interface alone. -/
def Unsteered : Fine Act Mutex → Prop
  | .finish a => Mild a
  | _ => True

theorem known_unsteered {f : Fine Act Mutex} (hf : Unsteered f) (r : f.Ans Ans) :
    known (⟨0, f, r⟩ :: h) = known h := by
  cases f with
  | finish a =>
    refine (known_finish a r).trans ?_
    cases a <;> first | rfl | cases hf
  | start a => rfl
  | acquire m => rfl
  | release m => rfl

theorem port_unsteered {t : ℕ} {f : Fine Act Mutex} (hf : Unsteered f) (r : f.Ans Ans) :
    port (finished (⟨t, f, r⟩ :: h)) = port (finished h) := by
  cases f with
  | finish a => cases a <;> first | rfl | cases hf
  | start a => rfl
  | acquire m => rfl
  | release m => rfl

theorem opened_unsteered {t : ℕ} {f : Fine Act Mutex} (hf : Unsteered f) (r : f.Ans Ans) :
    Opened (⟨t, f, r⟩ :: h) ↔ Opened h := by
  unfold Opened
  rw [port_unsteered hf]

theorem Opn.unsteered {f : Fine Act Mutex} (hf : Unsteered f) (r : f.Ans Ans) (ho : Opn h) :
    Opn (⟨0, f, r⟩ :: h) := fun hc => (opened_unsteered hf r).2 (ho hc.of_cons)

theorem Sound.unsteered {f : Fine Act Mutex} (hf : Unsteered f) (r : f.Ans Ans) (hs : Sound h) :
    Sound (⟨0, f, r⟩ :: h) := fun hc ho =>
  (opened_unsteered hf r).2 (hs hc.of_cons (known_unsteered hf r ▸ ho))

/-- What mild actions keep, is kept by a program of these. -/
theorem carries_mild (hJ : ∀ {f : Fine Act Mutex} {h}, Unsteered f →
      ∀ r : f.Ans Ans, J h → J (⟨0, f, r⟩ :: h))
    (hs : ∀ h, J h → Sound h) {p : P α} (hp : p.Uses Mild) :
    Carries (gate 0) 0 J p (fun _ => J) fun _ => J := by
  refine .uses (fun f hf r h hj => ?_) hp
  cases f with
  | start a => exact ⟨admits_mild hf fun h0 => absurd rfl h0, hJ (f := .start a) trivial r hj⟩
  | finish a => exact ⟨admits_mild hf fun h0 => absurd rfl h0, hJ (f := .finish a) hf r hj⟩
  | acquire m => exact ⟨trivial, hJ (f := .acquire m) trivial r hj⟩
  | release m => exact ⟨fun _ _ => hs h hj, hJ (f := .release m) trivial r hj⟩

theorem carries_sound {p : P α} (hp : p.Uses Mild) :
    Carries (gate 0) 0 Sound p (fun _ => Sound) fun _ => Sound :=
  carries_mild (fun hf r => Sound.unsteered hf r) (fun _ h => h) hp

theorem carries_opn {p : P α} (hp : p.Uses Mild) :
    Carries (gate 0) 0 Opn p (fun _ => Opn) fun _ => Sound :=
  (carries_mild (fun hf r => Opn.unsteered hf r) (fun _ => Opn.sound) hp).mono (fun _ h => h)
    (fun _ _ h => h) fun _ _ => Opn.sound

/-- A successful comparison tells the state. -/
theorem carries_stateIn : ∀ l : List BusState, Carries (gate 0) 0 Sound (stateIn l)
    (fun b h => Sound h ∧ (b = true → Knows l h)) fun _ => Sound
  | [] => .pure fun _ hs => ⟨hs, nofun⟩
  | s :: l => by
    refine .bind (T := fun s' h => Sound h ∧ Knows [s'] h)
      (.perform (fun h _ => ⟨admits_quiet (a := .getBusState) rfl h,
        admits_quiet (a := .getBusState) rfl _⟩) fun s' h hs => ⟨?_, ?_⟩) fun s' => ?_
    · exact (hs.unsteered (f := .start .getBusState) trivial ()).unsteered (f := .finish .getBusState) rfl s'
    · exact fun hc => List.mem_singleton.2 (hc.1 s' rfl).symm
    by_cases hss : s' = s
    · rw [if_pos hss]
      refine .pure fun h hj => ⟨hj.1, fun _ hc => ?_⟩
      rw [List.mem_singleton.1 (hj.2 hc), hss]
      exact List.mem_cons_self
    · rw [if_neg hss]
      exact (carries_stateIn l).mono (fun _ hj => hj.1)
        (fun b _ hb => ⟨hb.1, fun ht hc => List.mem_cons_of_mem _ (hb.2 ht hc)⟩) fun _ _ hs => hs

theorem Sound.opn (hs : Sound h) (hl : ∀ s ∈ l, s.open) (hk : Knows l h) : Opn h := fun hc =>
  hs hc (hl _ (hk hc))

/-- `if (state_ is in l) p else q`. -/
theorem carries_ifState {p q : P α} {K : α → List FineEv → Prop}
    (hp : Carries (gate 0) 0 (fun h => Sound h ∧ Knows l h) p K fun _ => Sound)
    (hq : Carries (gate 0) 0 Sound q K fun _ => Sound) :
    Carries (gate 0) 0 Sound ((stateIn l).bind fun b => if b = true then p else q) K fun _ => Sound := by
  refine .bind (carries_stateIn l) fun b => ?_
  cases b with
  | true => exact hp.mono (fun _ hj => ⟨hj.1, hj.2 rfl⟩) (fun _ _ h => h) fun _ _ h => h
  | false => exact hq.mono (fun _ hj => hj.1) (fun _ _ h => h) fun _ _ h => h

/-- `if (state_ is not in l) throw e`. -/
theorem carries_require {e : Exn} {f : Unit → P α} {K : α → List FineEv → Prop}
    (hf : Carries (gate 0) 0 (fun h => Sound h ∧ Knows l h) (f ()) K fun _ => Sound) :
    Carries (gate 0) 0 Sound ((stateIn l).bind fun b => (Prog.raiseIf (!b) e).bind f) K
      fun _ => Sound := by
  refine .bind (carries_stateIn l) fun b => ?_
  cases b with
  | true => exact hf.mono (fun _ hj => ⟨hj.1, hj.2 rfl⟩) (fun _ _ h => h) fun _ _ h => h
  | false => exact .throw fun _ hj => hj.1

theorem carries_forDevices {l : Loop} {body : Addr → DeviceId → P Unit}
    (hb : ∀ p id, Carries (gate 0) 0 Opn (body p id) (fun _ => Opn) fun _ => Sound) :
    Carries (gate 0) 0 Opn (forDevices l body) (fun _ => Opn) fun _ => Sound := by
  refine .bind (carries_opn (mild_act rfl)) fun devices => .forEach (fun p => ?_) devices
  refine .bind (carries_opn (mild_act rfl)) fun r => ?_
  cases r with
  | none => exact carries_crash
  | some id => exact hb p id

/-- A store. -/
theorem carries_store {s : BusState} {K : List FineEv → Prop} (hm : ∀ h, J h → MayStore h s)
    (hK : ∀ h, J h → K (⟨0, .finish (.updateBusState s), ()⟩ ::
      ⟨0, .start (.updateBusState s), ()⟩ :: h)) :
    Carries (gate 0) 0 J (act (.updateBusState s)) (fun _ => K) fun _ => Sound :=
  .perform (fun h hj => ⟨⟨rfl, hm h hj⟩, rfl, by
    have := hm h hj
    cases s <;> exact this⟩) fun _ h hj => hK h hj

theorem sound_shutdown (hs : known h = .shutdown) : Sound h := fun _ ho =>
  absurd (hs ▸ ho : BusState.open .shutdown) (by decide)

theorem Opn.store {s : BusState} (ho : Opn h) :
    Opn (⟨0, .finish (.updateBusState s), ()⟩ :: ⟨0, .start (.updateBusState s), ()⟩ :: h) :=
  fun hc => ho hc.of_cons.of_cons

theorem mild_plain {p : P α} (hp : p.Uses Plain) : p.Uses Mild := hp.mono fun _ ha => ha.calm.mild

theorem carries_closeInitialized :
    Carries (gate 0) 0 Sound closeInitialized (fun _ => Sound) fun _ => Sound := by
  refine .withLock (N := Holds .mailbox) (T := fun _ => Sound) (X := fun _ => Sound)
    (fun h _ => ⟨trivial, .inl (by simp)⟩) ?_ (fun _ _ hs => ⟨fun _ _ => hs, hs⟩)
    fun _ _ hs => ⟨fun _ _ => hs, hs⟩
  refine .bind (T := fun _ => Holds .mailbox) (.perform (fun h _ => ⟨admits_quiet (a := .clearDevices) rfl h,
    admits_quiet (a := .clearDevices) rfl _⟩) fun _ _ hh => hh) fun _ => ?_
  refine .bind (T := fun _ h => Holds .mailbox h ∧ known h = .shutdown)
    (carries_store (s := .shutdown) (fun _ hh => .inl hh) fun _ hh => ⟨hh, rfl⟩) fun _ => ?_
  exact .perform (fun h hj => ⟨⟨rfl, hj.1⟩, rfl, hj.1⟩) fun _ _ hj => sound_shutdown hj.2

theorem carries_closeRunning :
    Carries (gate 0) 0 Opn closeRunning (fun _ => Sound) fun _ => Sound := by
  refine .withLock (N := Holds .mailbox) (T := fun _ => Sound) (X := fun _ => Sound)
    (fun h _ => ⟨trivial, .inl (by simp)⟩) ?_ (fun _ _ hs => ⟨fun _ _ => hs, hs⟩)
    fun _ _ hs => ⟨fun _ _ => hs, hs⟩
  refine .bind (T := fun _ => Holds .mailbox)
    (.perform (fun h hh => ⟨⟨rfl, hh⟩, rfl, hh⟩) fun _ _ hh => hh) fun _ => ?_
  exact carries_store (s := .shutdown) (fun _ hh => .inl hh) fun _ _ => sound_shutdown rfl

section Hooks

variable (hok : hk.Ok ps)
include hok

theorem mild_callbacks (h : Hook) :
    (forDevices (.callback h) fun p _ => onCallback hk h p).Uses Mild :=
  uses_callbacks rfl (fun _ => rfl) (fun _ => rfl) fun p => (hok.hook h p).calm.mono fun _ => Calm.mild

theorem carries_teardown : Carries (gate 0) 0 Opn (teardown hk) (fun _ => Sound) fun _ => Sound := by
  refine .bind (carries_store (fun _ ho => ho) fun _ ho => ho.store) fun _ => ?_
  refine .bind (carries_opn (mild_callbacks hok .onPreShutdown)) fun _ => ?_
  refine .bind (carries_opn (mild_plain (plain_setDeviceTargetState 0 _))) fun _ => ?_
  refine .bind (carries_opn (mild_plain (plain_waitForDeviceTargetState 0 _))) fun _ => ?_
  refine .bind carries_closeRunning fun _ => ?_
  exact .bind (carries_sound (mild_callbacks hok .onPostShutdown)) fun _ => carries_sound (mild_act rfl)

/-- **`shutdown` keeps to the gate.** -/
theorem carries_shutdown : Carries (gate 0) 0 Sound (shutdown hk) (fun _ => Sound) fun _ => Sound := by
  refine carries_ifState (.pure fun _ hj => hj.1) (carries_ifState ?_ (carries_ifState ?_
    (carries_ifState ?_ (.throw fun _ hs => hs))))
  · exact carries_store (fun _ hj => .inr hj.2) fun _ _ => sound_shutdown rfl
  · exact carries_closeInitialized.mono (fun _ hj => hj.1) (fun _ _ h => h) fun _ _ h => h
  · exact (carries_teardown hok).mono (fun _ hj => hj.1.opn (by decide) hj.2) (fun _ _ h => h)
      fun _ _ h => h

/-- `shutdown(); throw`. -/
theorem carries_abort {b : Bool} {e : Exn} :
    Carries (gate 0) 0 Opn (Prog.when b ((shutdown hk).bind fun _ => .throw e)) (fun _ => Opn)
      fun _ => Sound :=
  .when (fun _ => .bind ((carries_shutdown hok).mono (fun _ => Opn.sound) (fun _ _ h => h)
    fun _ _ h => h) fun _ => .throw fun _ hs => hs) fun _ _ ho => ho

end Hooks

/-- `initialize` opens the interface before it stores `Initialized`. -/
theorem carries_initializeBus :
    Carries (gate 0) 0 Sound (initializeBus ps) (fun _ => Sound) fun _ => Sound := by
  refine carries_require (.bind (T := fun ec h => Sound h ∧ ((0 : ℤ) < ec → Opn h))
    (.perform (fun _ _ => ⟨rfl, rfl⟩) fun ec h hj => ?_) fun ec => ?_)
  · have hp : (0 : ℤ) < ec → Opened (⟨0, .finish .ecxInit, ec⟩ :: ⟨0, .start .ecxInit, ()⟩ :: h) := by
      intro hec
      simp only [Opened, LeftOpen, port, finished, List.filterMap_cons, portEvent, if_pos hec]
      rfl
    refine ⟨fun hc ho => ?_, fun hec _ => hp hec⟩
    -- `ecx_init` has opened the interface, or left it as it was
    by_cases hec : (0 : ℤ) < ec
    · exact hp hec
    · have h1 : Opened h := hj.1 hc.of_cons.of_cons ho
      simpa only [Opened, LeftOpen, port, finished, List.filterMap_cons, portEvent, if_neg hec] using h1
  refine .bind (T := fun _ => Opn) (.raiseIf (fun _ _ hj => hj.1) fun hb _ hj =>
    hj.2 (Int.not_le.1 (of_decide_eq_false hb))) fun _ => ?_
  refine .bind (carries_opn (mild_act rfl)) fun n => .bind (carries_opn Prog.uses_raiseIf) fun _ => ?_
  refine .bind (carries_opn (mild_act rfl)) fun _ => .bind (carries_opn (mild_plain plain_slaveIds))
    fun ids => .bind (carries_opn (Prog.Uses.forEach (fun id => ?_) ids)) fun _ => ?_
  · exact (mild_act rfl).bind fun _ => (fits_crashUnless (V := AnyLock) _).uses
  refine .bind (carries_opn (mild_act rfl)) fun up => .bind (carries_opn (mild_act rfl)) fun _ => ?_
  refine .bind (carries_store (s := .initialized) (fun _ ho => ho) fun _ ho => ho.store) fun _ => ?_
  refine .bind (carries_opn (Prog.Uses.forEach (fun id => ?_) _)) fun _ => .pure fun _ ho => ho.sound
  exact (mild_plain (plain_scanDevice id)).bind fun _ => mild_act rfl

section Hooks

variable (hok : hk.Ok ps)
include hok

theorem carries_startup : Carries (gate 0) 0 Sound (startup ps hk) (fun _ => Sound) fun _ => Sound := by
  have map : (mapPdos ps hk).Uses Mild :=
    (mild_callbacks hok .onStartup).bind fun _ => (mild_act rfl).bind fun _ => (mild_act rfl).bind
      fun _ => mild_act rfl
  have dc : (setupDc ps).Uses Mild :=
    uses_setupDc (fun _ ha => ha.plain.calm.mild) (fun _ => rfl) fun _ _ _ => rfl
  refine carries_require (.mono (.bind (carries_opn map) fun size => .bind (carries_abort hok) fun _ => ?_)
    (fun _ hj => hj.1.opn (by decide) hj.2) (fun _ _ h => h) fun _ _ h => h)
  refine .bind (carries_opn (mild_act rfl)) fun _ => .bind (carries_abort hok) fun _ =>
    .bind (carries_opn dc) fun _ => ?_
  refine .bind (carries_store (s := .configured) (fun _ ho => ho) fun _ ho => ho.store) fun _ => ?_
  refine (carries_opn (Uses.forDevices rfl (fun _ => rfl) fun p id => ?_)).mono (fun _ h => h)
    (fun _ _ => Opn.sound) fun _ _ h => h
  refine (mild_act rfl).bind fun _ => (mild_act rfl).bind fun _ => (mild_act rfl).bind fun _ => ?_
  refine (mild_act rfl).bind fun _ => (mild_act rfl).bind fun _ => (mild_act rfl).bind fun _ => ?_
  refine (mild_act rfl).bind fun _ => (mild_act rfl).bind fun _ => (mild_act rfl).bind fun _ => ?_
  exact (mild_act rfl).bind fun _ => (hok.hook .onPdoConfigured p).calm.mono fun _ => Calm.mild

theorem carries_activate : Carries (gate 0) 0 Sound (activate hk) (fun _ => Sound) fun _ => Sound := by
  refine carries_require (.mono (.bind (carries_opn (mild_callbacks hok .onPreActivate)) fun _ => ?_)
    (fun _ hj => hj.1.opn (by decide) hj.2) (fun _ _ h => h) fun _ _ h => h)
  refine .bind (carries_opn (mild_act rfl)) fun _ => ?_
  refine .bind (carries_forDevices fun _ id => .bind (carries_opn (mild_plain
    (plain_setDeviceTargetState id _))) fun _ => carries_abort hok) fun _ => ?_
  refine .bind (carries_forDevices fun _ id => .bind (carries_opn (mild_plain
    (plain_waitForDeviceTargetState id _))) fun _ => carries_abort hok) fun _ => ?_
  refine .bind (carries_store (s := .activated) (fun _ ho => ho) fun _ ho => ho.store) fun _ => ?_
  exact (carries_opn (mild_callbacks hok .onPostActivate)).mono (fun _ h => h)
    (fun _ _ => Opn.sound) fun _ _ h => h

theorem carries_bringOperational :
    Carries (gate 0) 0 Opn (bringOperational ps hk) (fun _ => Opn) fun _ => Sound := by
  refine .bind (carries_opn (mild_act rfl)) fun start => .bind (carries_opn (Prog.uses_when
    ((mild_act rfl).bind fun _ => mild_act rfl))) fun _ => ?_
  refine .bind (carries_opn (mild_plain plain_operationalTimeout)) fun late =>
    .bind (carries_abort hok) fun _ => ?_
  refine .bind (carries_opn (Uses.forDevices rfl (fun _ => rfl) fun _ id =>
    (mild_plain (plain_setDeviceTargetState id _)).bind fun _ => trivial)) fun _ => ?_
  refine .bind (carries_opn (uses_updateDeviceStates rfl)) fun _ => .bind (carries_opn
    (uses_allInOperational rfl (fun _ => rfl) fun _ => rfl)) fun all => ?_
  exact .when (fun _ => carries_store (s := .operational) (fun _ ho => ho) fun _ ho => ho.store)
    fun _ _ ho => ho

theorem carries_updateService :
    Carries (gate 0) 0 Sound (updateService ps hk) (fun _ => Sound) fun _ => Sound := by
  refine .bind (carries_sound (mild_plain (plain_stateIn _))) fun _ => .bind
    (carries_sound Prog.uses_raiseIf) fun _ => .bind (carries_sound (mild_act rfl)) fun up => ?_
  refine .bind (carries_sound (mild_act rfl)) fun _ => .bind (carries_sound (mild_act rfl)) fun owns => ?_
  refine .bind (carries_sound (Prog.uses_when (Prog.uses_withLock (mild_plain plain_drainMailboxEvents))))
    fun _ => carries_ifState ?_ (.bind (carries_sound ?_) fun _ => .pure fun _ hs => hs)
  · exact (Carries.bind (carries_bringOperational hok) fun _ => .pure fun _ => Opn.sound).mono
      (fun _ hj => hj.1.opn (by decide) hj.2) (fun _ _ h => h) fun _ _ h => h
  · exact Prog.uses_when ((uses_updateDeviceStates (S := Mild) rfl).bind fun _ =>
      Prog.uses_when (mild_plain plain_updateDiagnosticsSlow))

end Hooks

end Lifecycle

end EthercatInterface
