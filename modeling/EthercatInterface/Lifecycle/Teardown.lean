import EthercatInterface.Lifecycle.Destruction
import EthercatInterface.Lifecycle.Detached

/-!
# Destruction in place of `shutdown`

`~EthercatBus` takes the bus away from its devices first and then runs `shutdown`, inside a
destructor that swallows what is thrown. A hook that talks to its device gets an exception
there which an explicit `shutdown` does not give it. `teardown_same_iff`: the destructor tears
a bus down as `shutdown` does **exactly when no hook lets that exception escape** (but for the
`on_post_shutdown` of the last device, after which nothing is left to do).

`Tearing` says where a teardown is, `Does` what a part of it adds to the log. The `wp_` lemmas
go through `shutdown` and the destructor forwards, the `of_wp_` lemmas backwards: from what is
known of the whole teardown to what that says of its hooks.
-/

namespace EthercatInterface

open Interleave

variable {ps : Parameters} {hk : UserCode}

/-! ## The course of a teardown -/

/-- Where a teardown is; `K` is what its own actions keep. -/
structure Tearing (K : W → Prop) (D : List Addr) (b : BusState) (l : List TeardownStep) (w : W) :
    Prop where
  kept : K w
  state : w.st.state = b
  devices : w.st.devices = D
  log : teardownLog w.hist = l

/-- Actions that leave the devices alone keep `K`. -/
def Lasting (K : W → Prop) : Prop :=
  ∀ a i w, a.reshapes = false → K w → K (w.after exec 0 a i)

section Tearing

variable {K : W → Prop} (hK : Lasting K) {D : List Addr} {b : BusState} {l : List TeardownStep} {w : W}
  {α : Type} {Q : Outcome Exn α → W → Prop}

/-- What is hushed is not seen in the log. -/
theorem Tearing.hushed {a : Act} (ha : Hushed a) (h : Tearing K D b l w) (i : Env)
    (hk : K (w.after exec 0 a i)) : Tearing K D b l (w.after exec 0 a i) := by
  obtain ⟨⟨⟨hs, hst⟩, he⟩, hc⟩ :
      (((teardownStep a = none ∧ stored a = none) ∧ a.emplaces = false) ∧ a.clears = false) := by
    simpa [Hushed] using ha
  refine ⟨hk, ?_, ?_, ?_⟩
  · rw [World.after_st, state_exec, hst]
    exact h.state
  · rw [World.after_st, devices_exec he hc]
    exact h.devices
  · rw [teardownLog_after, hs, h.log]
    simp

include hK

/-- A step of the teardown. -/
theorem Tearing.after {a : Act} (ha : a.reshapes = false) (hst : stored a = none)
    (hc : a.clears = false) (h : Tearing K D b l w) (i : Env) :
    Tearing K D b (l ++ (teardownStep a).toList) (w.after exec 0 a i) := by
  have he := emplaces_of_reshapes ha
  refine ⟨hK a i w ha h.kept, ?_, ?_, ?_⟩
  · rw [World.after_st, state_exec, hst]
    exact h.state
  · rw [World.after_st, devices_exec he hc]
    exact h.devices
  · rw [teardownLog_after, h.log]

theorem Tearing.store (h : Tearing K D b l w) (s : BusState) (i : Env) :
    Tearing K D s l (w.after exec 0 (.updateBusState s) i) :=
  ⟨hK _ i w rfl h.kept, rfl, h.devices, h.log⟩

/-- The program returns, having moved the bus and logged the steps. -/
def Does (K : W → Prop) (D : List Addr) (b s : BusState) (new : List TeardownStep) (p : P α) : Prop :=
  ∀ l w, Tearing K D b l w →
    wp exec free free 0 p (fun o w' => ∃ x, o = .ret x ∧ Tearing K D s (l ++ new) w') w

omit hK in
theorem Does.bind {β : Type} {p : P β} {f : β → P α} {b s s' : BusState}
    {new new' : List TeardownStep} (hp : Does K D b s new p) (hf : ∀ x, Does K D s s' new' (f x)) :
    Does K D b s' (new ++ new') (p.bind f) := fun l w hw =>
  wp_bind (wp_mono (hp l w hw) fun o w' ho => by
    obtain ⟨x, rfl, hx⟩ := ho
    rw [← List.append_assoc]
    exact hf x _ _ hx)

omit hK in
theorem does_pure {x : α} : Does K D b b [] (.pure x : P α) := fun l w hw =>
  ⟨x, rfl, by rwa [List.append_nil]⟩

theorem does_act {a : Act} (ha : a.reshapes = false) (hst : stored a = none) (hc : a.clears = false) :
    Does K D b b (teardownStep a).toList (act a) := fun _ _ hw =>
  wp_perform fun i _ => ⟨trivial, _, rfl, hw.after hK ha hst hc i⟩

theorem does_store (s : BusState) : Does K D b s [] (act (.updateBusState s)) := fun l w hw =>
  wp_perform fun i _ => ⟨trivial, _, rfl, by
    rw [List.append_nil]
    exact hw.store hK s i⟩

omit hK in
theorem does_withLock {m : List Mutex} {p : P α} {s : BusState} {new : List TeardownStep}
    (hp : Does K D b s new p) : Does K D b s new (Prog.withLock m p) := fun l w hw =>
  wp_withLock (hp l w hw)

/-- What `shutdown` does between the two rounds of callbacks. -/
def closeDown : P Unit := do
  let _ ← setDeviceTargetState 0 EC_STATE_PRE_OP
  let _ ← waitForDeviceTargetState 0 EC_STATE_PRE_OP
  closeRunning

omit hK in
theorem teardown_eq (hk : UserCode) : teardown hk = (do
    act (.updateBusState .shuttingDown)
    forDevices (.callback .onPreShutdown) fun p _ => onCallback hk .onPreShutdown p
    closeDown
    forDevices (.callback .onPostShutdown) fun p _ => onCallback hk .onPostShutdown p
    act .clearDevices) :=
  rfl

theorem does_closeDown : Does K D .shuttingDown .shutdown
    [.request EC_STATE_PRE_OP, .send, .wait EC_STATE_PRE_OP, .close] closeDown := by
  have request : Does K D .shuttingDown .shuttingDown [.request EC_STATE_PRE_OP, .send]
      (setDeviceTargetState 0 EC_STATE_PRE_OP) := by
    refine does_withLock ((((does_act hK (a := .slavecount) rfl rfl rfl).bind fun _ => does_pure).bind
      fun onBus => ?_ : Does K D _ _ ([] ++ [] ++ [_, _]) _))
    rw [if_neg (by simp)]
    exact (does_act hK (a := .setSlaveState 0 EC_STATE_PRE_OP) rfl rfl rfl).bind fun _ =>
      (does_act hK (a := .ecxWritestate 0) rfl rfl rfl).bind fun _ => does_pure
  have wait : Does K D .shuttingDown .shuttingDown [.wait EC_STATE_PRE_OP]
      (waitForDeviceTargetState 0 EC_STATE_PRE_OP) :=
    does_withLock ((does_act hK (a := .ecxStatecheck 0 EC_STATE_PRE_OP) rfl rfl rfl).bind fun _ => does_pure)
  exact request.bind fun _ => wait.bind fun _ => does_withLock
    ((does_act hK (a := .ecxClose) rfl rfl rfl).bind fun _ => does_store hK .shutdown)

end Tearing

/-! ### The callbacks -/

section Callbacks

variable {K : W → Prop} (hK : Lasting K) {D : List Addr} {b : BusState} {l : List TeardownStep} {w : W}
  {h : Hook} {mark : Addr → TeardownStep} (hm : ∀ p, teardownStep (.callback h p) = some (mark p))

/-- One round of a loop of callbacks. -/
def round (hk : UserCode) (h : Hook) (p : Addr) : P Unit := do
  match ← act (.deref p) with
  | some _ => onCallback hk h p
  | none => Prog.crash

theorem callbacks_eq (hk : UserCode) (h : Hook) :
    (forDevices (.callback h) fun p _ => onCallback hk h p) =
      (act (.devices (.callback h))).bind fun devices => Prog.forEach devices (round hk h) :=
  rfl

include hK

/-- The list that a loop runs over. -/
theorem wp_devices {L : Loop} (hw : Tearing K D b l w) : wp exec free free 0 (act (.devices L))
    (fun o w' => ∃ x, o = .ret x ∧ x = D ∧ Tearing K D b l w') w :=
  wp_perform fun i _ => ⟨trivial, _, rfl, hw.devices, by
    simpa [teardownStep] using hw.after hK (a := .devices L) rfl rfl rfl i⟩

theorem wp_deref {p : Addr} (hp : p ∈ D) (hw : Tearing K D b l w) : wp exec free free 0 (act (.deref p))
    (fun o w' => ∃ x, o = .ret x ∧ x.isSome = true ∧ Tearing K D b l w') w := by
  refine wp_perform fun i _ => ⟨trivial, _, rfl, ?_, ?_⟩
  · have hr : (exec (.deref p) i w.st).1 = some (w.st.dev p).deviceInfo.id := if_pos (hw.devices ▸ hp)
    rw [hr]
    rfl
  · simpa [teardownStep] using hw.after hK (a := .deref p) rfl rfl rfl i

include hm

/-- A device of the list is called. -/
theorem wp_round {p : Addr} (hp : p ∈ D) (hw : Tearing K D b l w) {Q : Outcome Exn Unit → W → Prop}
    (hf : ∀ w', Tearing K D b (l ++ [mark p]) w' → wp exec free free 0 (hk.hook h p) Q w') :
    wp exec free free 0 (round hk h p) Q w := by
  refine wp_bind (wp_mono (wp_deref hK hp hw) ?_)
  rintro _ w₁ ⟨r, rfl, hr, hw₁⟩
  cases r with
  | none => cases hr
  | some id =>
    refine wp_bind (wp_mono (does_act hK (a := .callback h p) rfl rfl rfl l w₁ hw₁) ?_)
    rintro _ w₂ ⟨x, rfl, hw₂⟩
    rw [hm p] at hw₂
    exact hf w₂ hw₂

theorem of_wp_round {p : Addr} (hp : p ∈ D) (hw : Tearing K D b l w) {Q : Outcome Exn Unit → W → Prop}
    (hq : wp exec free free 0 (round hk h p) Q w) :
    ∃ w', Tearing K D b (l ++ [mark p]) w' ∧ wp exec free free 0 (hk.hook h p) Q w' := by
  obtain ⟨r, w₁, ⟨hr, hw₁⟩, h₁⟩ := wp_next hq (wp_deref hK hp hw)
  cases r with
  | none => cases hr
  | some id =>
    obtain ⟨x, w₂, hw₂, h₂⟩ := wp_next h₁ (does_act hK (a := .callback h p) rfl rfl rfl l w₁ hw₁)
    rw [hm p] at hw₂
    exact ⟨w₂, hw₂, h₂⟩

/-- All devices are called, unless a hook ends the loop. -/
theorem wp_callAll {Q : Outcome Exn Unit → W → Prop}
    (hook : ∀ done p rest, D = done ++ p :: rest → ∀ w',
      Tearing K D b (l ++ (done ++ [p]).map mark) w' →
      wp exec free free 0 (hk.hook h p) (fun o w'' =>
        o.andThen (fun _ => Tearing K D b (l ++ (done ++ [p]).map mark)) Q w'') w')
    (hend : ∀ w', Tearing K D b (l ++ D.map mark) w' → Q (.ret ()) w') (hw : Tearing K D b l w) :
    wp exec free free 0 (forDevices (.callback h) fun p _ => onCallback hk h p) Q w := by
  rw [callbacks_eq]
  refine wp_bind (wp_mono (wp_devices hK hw) ?_)
  rintro _ w₁ ⟨_, rfl, rfl, hw₁⟩
  refine wp_forEach (fun done => Tearing K _ b (l ++ done.map mark)) (fun done p rest hD w' hw' => ?_)
    hend (by simpa using hw₁)
  refine wp_round hK hm (by simp [hD]) hw' fun w'' hw'' => hook done p rest hD w'' ?_
  simpa using hw''

/-- Read backwards: a hook that `Q` forbids to throw does not, and the loop goes on. -/
theorem of_wp_callAll {Q : Outcome Exn Unit → W → Prop} (c : List Addr → Prop)
    (hc : ∀ x r, c r → c (x :: r))
    (hook : ∀ done p rest, D = done ++ p :: rest → ∀ w',
      Tearing K D b (l ++ (done ++ [p]).map mark) w' →
      wp exec free free 0 (hk.hook h p) (Outcome.Sure
        (fun _ => Tearing K D b (l ++ (done ++ [p]).map mark)) fun e w'' => c rest → ¬Q (.exn e) w'') w')
    (hq : wp exec free free 0 (forDevices (.callback h) fun p _ => onCallback hk h p) Q w)
    (hw : Tearing K D b l w) :
    (∀ done p rest, D = done ++ p :: rest → c rest → ∃ w',
      Tearing K D b (l ++ (done ++ [p]).map mark) w' ∧
        wp exec free free 0 (hk.hook h p) (fun o _ => ∀ e, o ≠ .exn e) w') ∧
    (c [] → ∃ w', Tearing K D b (l ++ D.map mark) w' ∧ Q (.ret ()) w') := by
  rw [callbacks_eq] at hq
  obtain ⟨_, w₁, ⟨rfl, hw₁⟩, h₁⟩ := wp_next hq (wp_devices hK hw)
  have loop := of_wp_forEach (fun done => Tearing K _ b (l ++ done.map mark)) c hc
    (fun done p rest hD w' hw' => wp_round hK hm (by simp [hD]) hw' fun w'' hw'' =>
      hook done p rest hD w'' (by simpa using hw'')) h₁ (by simpa only [List.map_nil, List.append_nil] using hw₁)
  refine ⟨fun done p rest hD hr => ?_, loop.2⟩
  obtain ⟨w', hw', hp⟩ := loop.1 done p rest hD hr
  obtain ⟨w'', hw'', hp'⟩ := of_wp_round hK hm (by simp [hD]) hw' hp
  exact ⟨w'', by simpa using hw'', hp'⟩

end Callbacks

/-! ### `shutdown` -/

section Shutdown

variable {K : W → Prop} {D : List Addr} {b : BusState} {l : List TeardownStep} {w : W}

/-- The program never throws where no device has a bus. -/
def CompletesDetached (s : St) (p : P Unit) : Prop :=
  ∀ u e u', CutFrom s u.st → ¬Exec exec free 0 p u (.exn e) u'

theorem completes_iff {s : St} {p : P Unit} : CompletesDetached s p ↔
    ∀ u, CutFrom s u.st → wp exec free free 0 p (fun o _ => ∀ e, o ≠ .exn e) u := by
  refine ⟨fun h u hu => wp_iff_exec.2 fun o w he e ho => ?_, fun h u e u' hu he => ?_⟩
  · subst ho
    exact h u e w hu he
  · exact wp_sound he (h u hu) e rfl

/-- The devices have lost their bus, if there are any. -/
def CutAll (s : St) (D : List Addr) (w : W) : Prop := D ≠ [] → CutFrom s w.st

theorem lasting_cutAll (s : St) (D : List Addr) : Lasting (CutAll s D) :=
  fun _ i _ ha h hD => (h hD).exec ha i

theorem lasting_true : Lasting fun _ => True := fun _ _ _ _ _ => trivial

/-- A hook leaves the teardown where it is. -/
theorem DeviceCode.tearing {p : P Unit} (h : DeviceCode ps p) (hw : Tearing (fun _ => True) D b l w) :
    wp exec free free 0 p (fun _ w' => Tearing (fun _ => True) D b l w') w :=
  wp_uses (fun _ ha i _ _ hw => ⟨trivial, hw.hushed ha i trivial⟩) h.hushed hw

theorem DeviceCode.tearingCut {s : St} {p : P Unit} (h : DeviceCode ps p) (hD : D ≠ [])
    (hw : Tearing (CutAll s D) D b l w) :
    wp exec free free 0 p (fun o w' => o ≠ .crash ∧ Tearing (CutAll s D) D b l w') w := by
  refine wp_mono (wp_and (h.cut (hw.kept hD)) (h.tearing ⟨trivial, hw.state, hw.devices, hw.log⟩)) ?_
  exact fun o w' ho => ⟨ho.1.1, fun _ => ho.1.2, ho.2.state, ho.2.devices, ho.2.log⟩

/-- The log of a teardown up to the callbacks `onPostShutdown`. -/
def closedLog (l : List TeardownStep) (D : List Addr) : List TeardownStep :=
  l ++ D.map .preShutdown ++ [.request EC_STATE_PRE_OP, .send, .wait EC_STATE_PRE_OP, .close]

theorem closedLog_post (l : List TeardownStep) (D : List Addr) :
    closedLog l D ++ D.map .postShutdown = l ++ teardownOf D := by
  simp [closedLog, teardownOf]

/-- The course of a teardown, whatever `Q` says of hooks that throw. -/
theorem wp_teardownLogged (hK : Lasting K) {Q : Outcome Exn Unit → W → Prop}
    (hpre : ∀ done p rest, D = done ++ p :: rest → ∀ w',
      Tearing K D .shuttingDown (l ++ (done ++ [p]).map .preShutdown) w' →
      wp exec free free 0 (hk.hook .onPreShutdown p) (fun o w'' => o.andThen (fun _ =>
        Tearing K D .shuttingDown (l ++ (done ++ [p]).map .preShutdown)) Q w'') w')
    (hpost : ∀ done p rest, D = done ++ p :: rest → ∀ w',
      Tearing K D .shutdown (closedLog l D ++ (done ++ [p]).map .postShutdown) w' →
      wp exec free free 0 (hk.hook .onPostShutdown p) (fun o w'' => o.andThen (fun _ =>
        Tearing K D .shutdown (closedLog l D ++ (done ++ [p]).map .postShutdown)) Q w'') w')
    (hend : ∀ w', teardownLog w'.hist = l ++ teardownOf D → w'.st.state = .shutdown → Q (.ret ()) w')
    (hw : Tearing K D b l w) : wp exec free free 0 (teardown hk) Q w := by
  rw [teardown_eq]
  refine wp_bind (wp_perform fun i _ => ⟨trivial, ?_⟩)
  refine wp_bind (wp_callAll hK (fun _ => rfl) (fun done p rest hD w' hw' => ?_) (fun w₁ hw₁ => ?_)
    (hw.store hK .shuttingDown i))
  · refine wp_mono (hpre done p rest hD w' hw') fun o w'' ho => ?_
    cases o <;> exact ho
  -- between the two rounds of hooks the port is closed
  refine wp_bind (wp_mono (does_closeDown hK _ w₁ hw₁) ?_)
  rintro _ w₂ ⟨x, rfl, hw₂⟩
  refine wp_bind (wp_callAll hK (fun _ => rfl) (fun done p rest hD w' hw' => ?_) (fun w₃ hw₃ => ?_) hw₂)
  · refine wp_mono (hpost done p rest hD w' hw') fun o w'' ho => ?_
    cases o <;> exact ho
  refine wp_perform fun i _ => ⟨trivial, hend _ ?_ hw₃.state⟩
  rw [teardownLog_after, hw₃.log]
  exact (List.append_nil _).trans (closedLog_post l D)

variable (hd : ∀ h p, DeviceCode ps (hk.hook h p))
include hd

/-- With the devices bound to the bus: what is logged if `shutdown` returns. -/
theorem wp_teardown_bound (hw : Tearing (fun _ => True) D b l w) :
    wp exec free free 0 (teardown hk) (fun o w' => o = .ret () →
      teardownLog w'.hist = l ++ teardownOf D ∧ w'.st.state = .shutdown) w := by
  have hook : ∀ {s : BusState} {m : List TeardownStep} {h : Hook} {p : Addr} {w' : W},
      Tearing (fun _ => True) D s m w' → wp exec free free 0 (hk.hook h p) (fun o w'' =>
        o.andThen (fun _ => Tearing (fun _ => True) D s m) (fun o w' => o = .ret () →
          teardownLog w'.hist = l ++ teardownOf D ∧ w'.st.state = .shutdown) w'') w' := by
    intro s m h p w' hw'
    refine wp_mono ((hd h p).tearing hw') fun o w'' ho => ?_
    cases o with
    | ret x => exact ho
    | exn e => exact fun he => by cases he
    | crash => exact fun he => by cases he
  exact wp_teardownLogged lasting_true (fun _ _ _ _ _ hw' => hook hw') (fun _ _ _ _ _ hw' => hook hw')
    (fun _ hl hs _ => ⟨hl, hs⟩) hw

/-- With the devices cut off: nothing is missing, if no hook throws before it is complete. -/
theorem wp_teardown_cut {s : St} (hpre : ∀ p ∈ D, CompletesDetached s (hk.hook .onPreShutdown p))
    (hpost : ∀ p ∈ D.dropLast, CompletesDetached s (hk.hook .onPostShutdown p))
    (hw : Tearing (CutAll s D) D b l w) :
    wp exec free free 0 (teardown hk) (fun _ w' => teardownLog w'.hist = l ++ teardownOf D) w := by
  refine wp_teardownLogged (lasting_cutAll s D) (fun done p rest hD w' hw' => ?_)
    (fun done p rest hD w' hw' => ?_) (fun _ hl _ => hl) hw
  all_goals have hne : D ≠ [] := by simp [hD]
  · refine wp_mono (wp_and ((hd _ p).tearingCut hne hw')
      (completes_iff.1 (hpre p (by simp [hD])) w' (hw'.kept hne))) fun o w'' ho => ?_
    cases o with
    | ret x => exact ho.1.2
    | exn e => exact absurd rfl (ho.2 e)
    | crash => exact absurd rfl ho.1.1
  · -- the log is complete before the last hook, which may therefore throw
    by_cases hr : rest = []
    · refine wp_mono ((hd _ p).tearingCut hne hw') fun o w'' ho => ?_
      have hl : teardownLog w''.hist = l ++ teardownOf D := by
        rw [ho.2.log, ← closedLog_post, hD, hr]
      cases o with
      | ret x => exact ho.2
      | exn e => exact hl
      | crash => exact hl
    · have hp : p ∈ D.dropLast := by
        rw [hD, List.dropLast_append_of_ne_nil (by simp), List.dropLast_cons_of_ne_nil hr]
        simp
      refine wp_mono (wp_and ((hd _ p).tearingCut hne hw')
        (completes_iff.1 (hpost p hp) w' (hw'.kept hne))) fun o w'' ho => ?_
      cases o with
      | ret x => exact ho.1.2
      | exn e => exact absurd rfl (ho.2 e)
      | crash => exact absurd rfl ho.1.1

/-- Read backwards: if nothing is missing, no hook has thrown before it was complete. -/
theorem of_wp_teardown_cut {s : St} (hw : Tearing (CutAll s D) D b l w)
    (hq : wp exec free free 0 (teardown hk) (fun _ w' => teardownLog w'.hist = l ++ teardownOf D) w) :
    (∀ p ∈ D, CompletesDetached s (hk.hook .onPreShutdown p)) ∧
      ∀ p ∈ D.dropLast, CompletesDetached s (hk.hook .onPostShutdown p) := by
  have hK := lasting_cutAll s D
  -- a hook that does not throw where the teardown has come to does not throw at all
  have all : ∀ {h : Hook} {p : Addr} {b' : BusState} {m : List TeardownStep} {u : W}, D ≠ [] →
      Tearing (CutAll s D) D b' m u → wp exec free free 0 (hk.hook h p) (fun o _ => ∀ e, o ≠ .exn e) u →
      CompletesDetached s (hk.hook h p) := fun hne hu hp =>
    completes_iff.2 fun v hv => (hd _ _).transfer hv (hu.kept hne) hp
  have hook : ∀ {h : Hook} {p : Addr} {b' : BusState} {m : List TeardownStep} {u : W}
      {g : Exn → W → Prop}, D ≠ [] → Tearing (CutAll s D) D b' m u →
      (∀ e v, Tearing (CutAll s D) D b' m v → g e v) → wp exec free free 0 (hk.hook h p)
        (Outcome.Sure (fun _ => Tearing (CutAll s D) D b' m) g) u := by
    intro h p b' m u g hne hu hg
    refine wp_mono ((hd h p).tearingCut hne hu) fun o v ho => ?_
    cases o with
    | ret x => exact ho.2
    | exn e => exact hg e v ho.2
    | crash => exact absurd rfl ho.1
  rw [teardown_eq] at hq
  obtain ⟨_, w₁, hw₁, h₁⟩ := wp_next hq (does_store hK .shuttingDown l w hw)
  rw [List.append_nil] at hw₁
  have pre := of_wp_callAll hK (fun _ => rfl) (fun _ => True) (fun _ _ _ => trivial)
    (fun done p rest hD w' hw' => hook (by simp [hD]) hw' fun e v hv _ hl => ?_) (of_wp_bind h₁) hw₁
  · obtain ⟨w₂, hw₂, h₂⟩ := pre.2 trivial
    obtain ⟨_, w₃, hw₃, h₃⟩ := wp_next h₂ (does_closeDown hK _ w₂ hw₂)
    have post := of_wp_callAll hK (fun _ => rfl) (fun r => r ≠ []) (fun _ _ _ => by simp)
      (fun done p rest hD w' hw' => hook (by simp [hD]) hw' fun e v hv hr hl => ?_) (of_wp_bind h₃) hw₃
    · refine ⟨fun p hp => ?_, fun p hp => ?_⟩
      · obtain ⟨done, rest, hD⟩ := List.append_of_mem hp
        obtain ⟨u, hu, hn⟩ := pre.1 done p rest hD trivial
        exact all (by simp [hD]) hu hn
      · obtain ⟨done, rest, hD⟩ := List.append_of_mem hp
        have hne : D ≠ [] := fun h0 => by simp [h0] at hp
        have hD' : D = done ++ p :: (rest ++ [D.getLast hne]) := by
          have hcat := List.dropLast_concat_getLast hne
          rw [hD, List.append_assoc] at hcat
          exact hcat.symm
        obtain ⟨u, hu, hn⟩ := post.1 done p _ hD' (by simp)
        exact all hne hu hn
    · have hlen := congrArg List.length (hv.log.symm.trans hl)
      exact hr (by simpa [teardownOf, hD] using hlen)
  · have hlen := congrArg List.length (hv.log.symm.trans hl)
    simp [teardownOf, hD] at hlen

end Shutdown

section States

variable {K : W → Prop} (hK : Lasting K) {D : List Addr} {b : BusState} {l : List TeardownStep} {w : W}
include hK

theorem wp_stateIs (hw : Tearing K D b l w) : ∀ L : List BusState, wp exec free free 0 (stateIn L)
    (fun o w' => ∃ x, o = .ret x ∧ x = decide (b ∈ L) ∧ Tearing K D b l w') w := by
  intro L
  induction L generalizing w with
  | nil => exact ⟨false, rfl, by simp, hw⟩
  | cons c L ih =>
    refine wp_bind (wp_perform fun i _ => ⟨trivial, ?_⟩)
    have hw' : Tearing K D b l (w.after exec 0 .getBusState i) := by
      simpa [teardownStep] using hw.after hK (a := .getBusState) rfl rfl rfl i
    have hs : (exec .getBusState i w.st).1 = b := hw.state
    simp only [Outcome.andThen]
    rw [hs]
    by_cases hc : b = c
    · rw [if_pos hc]
      exact ⟨true, rfl, by simp [hc], hw'⟩
    · rw [if_neg hc]
      exact wp_mono (ih hw') fun o w'' ⟨x, ho, hx, hw''⟩ => ⟨x, ho, by simp [hx, hc], hw''⟩

/-- A bus that has been started up is torn down. -/
theorem wp_shutdown_running (hb : b.running) {Q : Outcome Exn Unit → W → Prop}
    (hq : ∀ w', Tearing K D b l w' → wp exec free free 0 (teardown hk) Q w')
    (hw : Tearing K D b l w) : wp exec free free 0 (shutdown hk) Q w := by
  have test : ∀ {L : List BusState} {w₁ : W} {f : Bool → P Unit}, Tearing K D b l w₁ →
      (∀ w₂, Tearing K D b l w₂ → wp exec free free 0 (f (decide (b ∈ L))) Q w₂) →
      wp exec free free 0 ((stateIn L).bind f) Q w₁ := by
    intro L w₁ f h₁ hf
    refine wp_bind (wp_mono (wp_stateIs hK h₁ L) ?_)
    rintro _ w₂ ⟨x, rfl, rfl, h₂⟩
    exact hf w₂ h₂
  refine test hw fun w₁ h₁ => ?_
  rw [decide_eq_false (by rcases hb with rfl | rfl | rfl <;> decide)]
  refine test h₁ fun w₂ h₂ => ?_
  rw [decide_eq_false (by rcases hb with rfl | rfl | rfl <;> decide)]
  refine test h₂ fun w₃ h₃ => ?_
  rw [decide_eq_false (by rcases hb with rfl | rfl | rfl <;> decide)]
  refine test h₃ fun w₄ h₄ => ?_
  rw [decide_eq_true (by rcases hb with rfl | rfl | rfl <;> decide)]
  exact hq w₄ h₄

theorem of_wp_shutdown_running (hb : b.running) {Q : Outcome Exn Unit → W → Prop}
    (hw : Tearing K D b l w) (hq : wp exec free free 0 (shutdown hk) Q w) :
    ∃ w', Tearing K D b l w' ∧ wp exec free free 0 (teardown hk) Q w' := by
  obtain ⟨_, w₁, ⟨rfl, h₁⟩, q₁⟩ := wp_next hq (wp_stateIs hK hw _)
  rw [decide_eq_false (by rcases hb with rfl | rfl | rfl <;> decide)] at q₁
  obtain ⟨_, w₂, ⟨rfl, h₂⟩, q₂⟩ := wp_next q₁ (wp_stateIs hK h₁ _)
  rw [decide_eq_false (by rcases hb with rfl | rfl | rfl <;> decide)] at q₂
  obtain ⟨_, w₃, ⟨rfl, h₃⟩, q₃⟩ := wp_next q₂ (wp_stateIs hK h₂ _)
  rw [decide_eq_false (by rcases hb with rfl | rfl | rfl <;> decide)] at q₃
  obtain ⟨_, w₄, ⟨rfl, h₄⟩, q₄⟩ := wp_next q₃ (wp_stateIs hK h₃ _)
  rw [decide_eq_true (by rcases hb with rfl | rfl | rfl <;> decide)] at q₄
  exact ⟨w₄, h₄, q₄⟩

/-- What `shutdown` logs of a bus that has not been started up, or is no longer running. -/
def idleLog (b : BusState) : List TeardownStep := if b = .initialized then [.close] else []

theorem wp_shutdown_idle (hb : ¬b.running) (hw : Tearing K D b l w) :
    wp exec free free 0 (shutdown hk) (fun _ w' => teardownLog w'.hist = l ++ idleLog b ∧
      w'.st.state = if b = .shuttingDown then .shuttingDown else .shutdown) w := by
  refine wp_bind (wp_mono (wp_stateIs hK hw _) ?_)
  rintro _ w₁ ⟨x, rfl, rfl, h₁⟩
  by_cases hb₁ : b = .shutdown
  · subst hb₁
    exact ⟨h₁.log.trans (List.append_nil l).symm, h₁.state⟩
  rw [decide_eq_false (by simpa using hb₁)]
  refine wp_bind (wp_mono (wp_stateIs hK h₁ _) ?_)
  rintro _ w₂ ⟨x, rfl, rfl, h₂⟩
  by_cases hb₂ : b = .preInit
  · subst hb₂
    exact wp_perform fun i _ => ⟨trivial, h₂.log.trans (List.append_nil l).symm, rfl⟩
  rw [decide_eq_false (by simpa using hb₂)]
  refine wp_bind (wp_mono (wp_stateIs hK h₂ _) ?_)
  rintro _ w₃ ⟨x, rfl, rfl, h₃⟩
  by_cases hb₃ : b = .initialized
  · subst hb₃
    refine wp_withLock (wp_bind (wp_perform fun i _ => ⟨trivial, wp_bind (wp_perform fun j _ =>
      ⟨trivial, wp_perform fun k _ => ⟨trivial, ?_, rfl⟩⟩)⟩))
    have hl := h₃.log
    rw [teardownLog_after, teardownLog_after, teardownLog_after, hl]
    simp [teardownStep, idleLog]
  rw [decide_eq_false (by simpa using hb₃)]
  refine wp_bind (wp_mono (wp_stateIs hK h₃ _) ?_)
  rintro _ w₄ ⟨x, rfl, rfl, h₄⟩
  rw [decide_eq_false (by simpa [BusState.running] using hb)]
  -- no branch is left but that of a bus somebody is shutting down
  have hb₄ : b = .shuttingDown := by
    unfold BusState.running at hb
    cases b <;> simp_all
  subst hb₄
  exact ⟨h₄.log.trans (List.append_nil l).symm, h₄.state⟩

end States

/-! ### The destructor -/

/-- The devices in `done` have lost their bus, those outside `D` have none. -/
structure Clearing (s : St) (D done : List Addr) (u : St) : Prop extends SameBuffers s u where
  bus : ∀ p, p ∈ done ∨ p ∉ D → (u.dev p).bus = false

section Destructor

variable {s u : St} {D done : List Addr} {b : BusState} {l : List TeardownStep} {w : W}

theorem Clearing.exec (h : Clearing s D done u) {a : Act} (ha : a.reshapes = false) (i : Env) :
    Clearing s D done (exec a i u).2 :=
  ⟨h.toSameBuffers.exec ha i, fun p hp => unbound_exec (emplaces_of_reshapes ha) i (h.bus p hp)⟩

theorem Clearing.clear (h : Clearing s D done u) (p : Addr) (i : Env) :
    Clearing s D (done ++ [p]) (EthercatInterface.exec (.clearBus p) i u).2 := by
  refine ⟨h.toSameBuffers.exec rfl i, fun q hq => ?_⟩
  have hdev := dev_modifyDev u p q fun d => { d with bus := false }
  change ((u.modifyDev p fun d => { d with bus := false }).dev q).bus = false
  rw [hdev]
  by_cases hqp : q = p
  · rw [if_pos hqp]
  · rw [if_neg hqp]
    exact h.bus q (by simpa [hqp] using hq)

theorem Clearing.cut (h : Clearing s D D u) : CutFrom s u :=
  ⟨h.toSameBuffers, fun p => h.bus p (em _)⟩

theorem lasting_clearing (s : St) (D done : List Addr) :
    Lasting fun w => D ≠ [] → Clearing s D done w.st :=
  fun _ i _ ha h hD => (h hD).exec ha i

/-- The destructor cuts the devices off. -/
theorem wp_clearBusAll (hw : Tearing (fun w => D ≠ [] → Clearing s D [] w.st) D b l w) :
    wp exec free free 0 (forDevices .clearBus fun p _ => act (.clearBus p))
      (fun o w' => ∃ x, o = .ret x ∧ Tearing (CutAll s D) D b l w') w := by
  refine wp_bind (wp_mono (wp_devices (lasting_clearing s D []) hw) ?_)
  rintro _ w₁ ⟨_, rfl, rfl, hw₁⟩
  refine wp_forEach (fun done => Tearing (fun w => _ ≠ [] → Clearing s _ done w.st) _ b l)
    (fun done p rest hD w₂ hw₂ => ?_) (fun w₂ hw₂ => ?_) hw₁
  · refine wp_bind (wp_mono (wp_deref (lasting_clearing s _ done) (by simp [hD]) hw₂) ?_)
    rintro _ w₃ ⟨r, rfl, hr, hw₃⟩
    cases r with
    | none => cases hr
    | some id =>
      refine wp_perform fun i _ => ⟨trivial, ?_⟩
      have h := hw₃.after (lasting_clearing s _ done) (a := .clearBus p) rfl rfl rfl i
      exact ⟨fun hne => (hw₃.kept hne).clear p i, h.state, h.devices, by simpa [teardownStep] using h.log⟩
  · exact ⟨(), rfl, fun hne => (hw₂.kept hne).cut, hw₂.state, hw₂.devices, hw₂.log⟩

variable {X : List TeardownStep}

theorem log_destroyBackend (w : W) (i : Env) :
    teardownLog (w.after exec 0 .destroyBackend i).hist = teardownLog w.hist := by
  rw [teardownLog_after]
  exact List.append_nil _

/-- Whatever `shutdown` throws, the destructor adds nothing to what it has logged. -/
theorem wp_destroyBackend_iff : wp exec free free 0 (destroyBackend hk) (fun _ w' => teardownLog w'.hist = X) w ↔
    wp exec free free 0 (shutdown hk) (fun _ w' => teardownLog w'.hist = X) w := by
  have last : ∀ {w' : W}, wp exec free free 0 (act .destroyBackend) (fun _ w' => teardownLog w'.hist = X) w' ↔
      teardownLog w'.hist = X := fun {w'} => by
    refine ⟨fun h => ?_, fun h => wp_perform fun i _ => ⟨trivial, (log_destroyBackend w' i).trans h⟩⟩
    exact (log_destroyBackend w' {}).symm.trans (h {} trivial).2
  constructor
  · intro h
    refine wp_mono (of_wp_attempt (of_wp_bind (of_wp_bind h))) fun o w' ho => ?_
    cases o with
    | ret x => exact last.1 ho
    | exn e =>
      cases he : e.isStd
      · simp only [Outcome.andThen, he] at ho
        exact ho
      · simp only [Outcome.andThen, he] at ho
        exact last.1 ho
    | crash => exact ho
  · intro h
    refine wp_bind (wp_bind (wp_attempt (wp_mono h fun o w' ho => ?_)))
    cases o with
    | ret x => exact last.2 ho
    | exn e =>
      cases he : e.isStd
      · simp only [Outcome.andThen, he]
        exact ho
      · simp only [Outcome.andThen, he]
        exact last.2 ho
    | crash => exact ho

theorem wp_destroyBus (hw : Tearing (fun w => D ≠ [] → Clearing s D [] w.st) D b l w)
    (h : ∀ w', Tearing (CutAll s D) D b l w' →
      wp exec free free 0 (shutdown hk) (fun _ w'' => teardownLog w''.hist = X) w') :
    wp exec free free 0 (destroyBus hk) (fun _ w' => teardownLog w'.hist = X) w := by
  refine wp_bind (wp_mono (wp_clearBusAll hw) ?_)
  rintro _ w' ⟨_, rfl, hw'⟩
  exact wp_destroyBackend_iff.2 (h w' hw')

theorem of_wp_destroyBus (hw : Tearing (fun w => D ≠ [] → Clearing s D [] w.st) D b l w)
    (h : wp exec free free 0 (destroyBus hk) (fun _ w' => teardownLog w'.hist = X) w) :
    ∃ w', Tearing (CutAll s D) D b l w' ∧
      wp exec free free 0 (shutdown hk) (fun _ w'' => teardownLog w''.hist = X) w' := by
  obtain ⟨_, w', hw', h'⟩ := wp_next h (wp_clearBusAll hw)
  exact ⟨w', hw', wp_destroyBackend_iff.1 h'⟩

/-- After a `shutdown` the destructor has nothing left to do. -/
theorem wp_destroyBus_idle (hs : w.st.state = .shutdown ∨ w.st.state = .shuttingDown) :
    wp exec free free 0 (destroyBus hk) (fun _ w' => teardownLog w'.hist = teardownLog w.hist) w := by
  -- cutting the devices off is not logged, and leaves the state
  have cleared : (forDevices .clearBus fun p _ => act (.clearBus p)).Uses fun a =>
      teardownStep a = none ∧ stored a = none :=
    Uses.forDevices ⟨rfl, rfl⟩ (fun _ => ⟨rfl, rfl⟩) fun _ _ => uses_act ⟨rfl, rfl⟩
  have quiet : ∀ a, teardownStep a = none ∧ stored a = none → ∀ i w', free 0 a i w' →
      (w'.st.state = w.st.state ∧ teardownLog w'.hist = teardownLog w.hist) → free 0 a i w' ∧
        (w'.after exec 0 a i).st.state = w.st.state ∧
        teardownLog (w'.after exec 0 a i).hist = teardownLog w.hist := by
    rintro a ⟨ha, hst⟩ i w' _ ⟨hs', hl⟩
    refine ⟨trivial, ?_, ?_⟩
    · rw [World.after_st, state_exec, hst]
      exact hs'
    · rw [teardownLog_after, ha, hl]
      exact List.append_nil _
  refine wp_bind (wp_mono (wp_uses quiet cleared ⟨rfl, rfl⟩) fun o w' ho => ?_)
  cases o with
  | ret x =>
    have hidle : ¬w.st.state.running ∧ idleLog w.st.state = [] := by
      rcases hs with hs | hs <;> rw [hs] <;> exact ⟨by decide, rfl⟩
    refine wp_destroyBackend_iff.2 (wp_mono (wp_shutdown_idle (K := fun _ => True) lasting_true hidle.1
      ⟨trivial, ho.1, rfl, ho.2⟩) fun _ w'' h => ?_)
    rw [h.1, hidle.2, List.append_nil]
  | exn e => exact ho.2
  | crash => exact ho.2

end Destructor

/-! ## Runs -/

section Runs

variable {good : UserCode → Prop} {w : W}

/-- Device objects that do not exist yet have no bus. -/
theorem run_unborn {ok : Guard Act Ans Env St} (hr : Run ps ok good w) :
    ∀ p, w.st.devCount ≤ p → (w.st.dev p).bus = false := by
  refine hr.keeps (J := fun w => ∀ p, w.st.devCount ≤ p → (w.st.dev p).bus = false) (fun _ _ => rfl)
    fun a i w _hi h p hp => ?_
  by_cases ha : a.emplaces = true
  · cases a
    case emplaceDevice info =>
      have hp' : w.st.devCount + 1 ≤ p := hp
      have hdev := dev_modifyDev w.st w.st.devCount p fun _ => { bus := true, deviceInfo := info }
      rw [if_neg (Nat.ne_of_gt hp')] at hdev
      exact (congrArg EthercatDevice.bus hdev).trans (h p (Nat.le_of_succ_le hp'))
    all_goals cases ha
  · have ha' : a.emplaces = false := by simpa using ha
    have hcount : (exec a i w.st).2.devCount = w.st.devCount := by
      cases a
      case ecxStatecheck id state =>
        simp only [exec]
        split <;> rfl
      all_goals first | rfl | exact absurd rfl ha
    rw [World.after_st, hcount] at hp
    exact unbound_exec ha' i (h p hp)

/-- Before the destructor all devices of the list are bound, and no others. -/
theorem run_clearing (hr : Run ps free good w) :
    Tearing (fun v => w.st.devices ≠ [] → Clearing w.st w.st.devices [] v.st) w.st.devices w.st.state
      (teardownLog w.hist) w := by
  refine ⟨fun hne => ⟨⟨fun _ => rfl, fun _ => rfl, fun _ => rfl⟩, fun p hp => ?_⟩, rfl, rfl, rfl⟩
  have hp' : p ∉ w.st.devices := hp.resolve_left List.not_mem_nil
  have hl : w.st.devices = List.range w.st.devCount := (run_bindInv hr).list.resolve_right hne
  rw [hl, List.mem_range, Nat.not_lt] at hp'
  exact run_unborn hr p hp'

/-- Destroying the bus at once leaves the same log as shutting it down first, whatever SOEM and
the users decide, if that `shutdown` completes. -/
def SameTeardown (hk : UserCode) (w : W) : Prop :=
  ∀ o₁ w₁ o₂ w₂ o w', Exec exec free 0 (shutdown hk) w o₁ w₁ →
    o₁ = .ret () ∨ w.st.state = .shuttingDown → Exec exec free 0 (destroyBus hk) w₁ o₂ w₂ →
    Exec exec free 0 (destroyBus hk) w o w' → teardownLog w'.hist = teardownLog w₂.hist

/-- No hook of a teardown is cut short by the loss of the bus. -/
def HooksComplete (hk : UserCode) (s : St) : Prop :=
  (∀ p ∈ s.devices, CompletesDetached s (hk.hook .onPreShutdown p)) ∧
    ∀ p ∈ s.devices.dropLast, CompletesDetached s (hk.hook .onPostShutdown p)

/-- What an explicit `shutdown` that completes logs, and the destructor after it. -/
theorem log_explicit (hd : ∀ h p, DeviceCode ps (hk.hook h p)) {o₁ o₂ : Outcome Exn Unit} {w₁ w₂ : W}
    (h₁ : Exec exec free 0 (shutdown hk) w o₁ w₁) (hc : o₁ = .ret () ∨ w.st.state = .shuttingDown)
    (h₂ : Exec exec free 0 (destroyBus hk) w₁ o₂ w₂) :
    teardownLog w₂.hist = teardownLog w.hist ++
      if w.st.state.running then teardownOf w.st.devices else idleLog w.st.state := by
  have here : Tearing (fun _ => True) w.st.devices w.st.state (teardownLog w.hist) w :=
    ⟨trivial, rfl, rfl, rfl⟩
  by_cases hb : w.st.state.running
  · have ho : o₁ = .ret () := hc.resolve_right fun hs => by
      rw [hs] at hb
      exact absurd hb (by decide)
    obtain ⟨hl, hs⟩ := wp_sound h₁ (wp_shutdown_running lasting_true hb
      (fun _ hw => wp_teardown_bound hd hw) here) ho
    rw [if_pos hb, ← hl]
    exact wp_sound h₂ (wp_destroyBus_idle (.inl hs))
  · obtain ⟨hl, hs⟩ := wp_sound h₁ (wp_shutdown_idle lasting_true hb here)
    rw [if_neg hb, ← hl]
    refine wp_sound h₂ (wp_destroyBus_idle ?_)
    rw [hs]
    split
    · exact .inr rfl
    · exact .inl rfl

/-- **The destructor tears a bus down as `shutdown` does**, for hooks that only use devices and
complete in an explicit `shutdown`, exactly when the bus has not been started up, or these hooks
complete without the bus as well. -/
theorem teardown_same_iff (hr : Run ps free good w) (hd : ∀ h p, DeviceCode ps (hk.hook h p))
    (hc : w.st.state ≠ .shuttingDown → ∃ w₁, Exec exec free 0 (shutdown hk) w (.ret ()) w₁) :
    SameTeardown hk w ↔ (w.st.state.running → HooksComplete hk w.st) := by
  have here := run_clearing hr
  constructor
  · intro h hb
    have hne : w.st.state ≠ .shuttingDown := fun hs => by
      rw [hs] at hb
      exact absurd hb (by decide)
    obtain ⟨w₁, h₁⟩ := hc hne
    have h₂ := run_exec exec 0 (destroyBus hk) [] w₁
    have hlog := log_explicit hd h₁ (.inl rfl) h₂
    rw [if_pos hb] at hlog
    -- the destructor logs what `shutdown` logs, so its hooks get through the whole teardown
    have hq : wp exec free free 0 (destroyBus hk) (fun _ w' =>
        teardownLog w'.hist = teardownLog w.hist ++ teardownOf w.st.devices) w :=
      wp_iff_exec.2 fun o w' he => (h _ _ _ _ _ _ h₁ (.inl rfl) h₂ he).trans hlog
    obtain ⟨w', hw', hsd⟩ := of_wp_destroyBus here hq
    obtain ⟨w'', hw'', htd⟩ := of_wp_shutdown_running (lasting_cutAll _ _) hb hw' hsd
    exact of_wp_teardown_cut hd hw'' htd
  · intro h o₁ w₁ o₂ w₂ o w' h₁ hc₁ h₂ he
    rw [log_explicit hd h₁ hc₁ h₂]
    refine wp_sound he (wp_destroyBus here fun u hu => ?_)
    by_cases hb : w.st.state.running
    · rw [if_pos hb]
      exact wp_shutdown_running (lasting_cutAll _ _) hb (fun v hv =>
        wp_teardown_cut hd (h hb).1 (h hb).2 hv) hu
    · rw [if_neg hb]
      exact wp_mono (wp_shutdown_idle (lasting_cutAll _ _) hb hu) fun _ _ ho => ho.1

/-- Without hooks it always does. -/
theorem teardown_same_unhooked :
    SameTeardown .none (world [initializeOne, { op := .startup }, activateOne]) := by
  have hr : Run {} free (fun _ => True) (world [initializeOne, { op := .startup }, activateOne]) :=
    run_world _ (by simp [initializeOne, activateOne, UserCode.none_ok])
  have hsd : Exec exec free 0 (shutdown .none)
      (world [initializeOne, { op := .startup }, activateOne]) (.ret ()) _ :=
    run_exec exec 0 (shutdown .none) [] _
  have returns : ∀ s, CompletesDetached s (.pure ()) := fun _ _ _ _ _ he => by cases he
  exact (teardown_same_iff hr (fun _ _ => .ret) fun _ => ⟨_, hsd⟩).2 fun _ =>
    ⟨fun _ _ => returns _, fun _ _ => returns _⟩

/-- A hook that writes to its device before the shutdown, and lets exceptions escape. -/
def writesLast : UserCode := { UserCode.none with
  hook := fun h p =>
    if h = .onPreShutdown then
      ((Op.deviceSdoWrite p [0] 0x6040 0).invoke {} .none).attempt.bind fun r =>
        match r with
        | .ok _ => .pure ()
        | .error e => .throw e
    else .pure () }

/-- It completes in an explicit `shutdown`. In the destructor it throws, and the interface is
never closed. -/
theorem teardown_cutShort : ¬∀ (hk : UserCode) (w : W), Run {} free (fun _ => True) w →
    (∀ h p, DeviceCode {} (hk.hook h p)) →
    (w.st.state ≠ .shuttingDown → ∃ w₁, Exec exec free 0 (shutdown hk) w (.ret ()) w₁) →
    SameTeardown hk w := by
  intro h
  have hr : Run {} free (fun _ => True) (world [initializeOne, { op := .startup }, activateOne]) :=
    run_world _ (by simp [initializeOne, activateOne, UserCode.none_ok])
  have hd : ∀ h p, DeviceCode {} (writesLast.hook h p) := fun h p => by
    simp only [writesLast]
    split
    · refine .call rfl fun r => ?_
      cases r
      · exact .throw _
      · exact .ret
    · exact .ret
  have hsd : Exec exec free 0 (shutdown writesLast)
      (world [initializeOne, { op := .startup }, activateOne]) (.ret ()) _ :=
    run_exec exec 0 (shutdown writesLast) [] _
  have hlog := h writesLast _ hr hd (fun _ => ⟨_, hsd⟩) _ _ _ _ _ _ hsd (.inl rfl)
    (run_exec exec 0 (destroyBus writesLast) [] _) (run_exec exec 0 (destroyBus writesLast) [] _)
  exact absurd hlog (by decide)

end Runs

end EthercatInterface
