import EthercatInterface.Lifecycle.Run
import EthercatInterface.Proof.Members
import EthercatInterface.Proof.Sections

/-!
# Reported states of slaves

`set_device_target_state` puts the state it requests into SOEM's slave list, where
`ecx_readstate` and `ecx_statecheck` put what they read, and `update_diagnostics_fast`
reports whatever is there.

* `lastState`, `request`: what was last read of a slave since the discovery, and what has been
  requested of it since then.
* `reported_iff`: in every run, the snapshots report what was last read, **exactly when no
  update of the diagnostics finds a request, for another state, that no reading has followed**.
-/

namespace EthercatInterface

open Interleave

variable {ps : Parameters} {hk : UserCode} {w : W}

/-! ## Readings and requests -/

/-- What an action reads of slave `i`; the discovery leaves it unread. -/
def reading (i : DeviceId) : (a : Act) → Ans a → Option (Option ℕ)
  | .ecxConfigInit, _ => some none
  | .ecxReadstate, states => some (some (states i))
  | .ecxStatecheck id _, state => if id = i then some (some state) else none
  | _, _ => none

/-- The state of slave `i` that was last read, if any was since the discovery. -/
def lastState (i : DeviceId) : List Ev → Option ℕ
  | [] => none
  | e :: h => (reading i e.act e.ans).getD (lastState i h)

/-- What an action requests of slave `i`; a reading ends a request. -/
def asking (i : DeviceId) : (a : Act) → Ans a → Option (Option ℕ)
  | .setSlaveState id state, _ => if id = i then some (some state) else none
  | a, r => (reading i a r).map fun _ => none

/-- The state that has been requested of slave `i` since its last reading. -/
def request (i : DeviceId) : List Ev → Option ℕ
  | [] => none
  | e :: h => (asking i e.act e.ans).getD (request i h)

/-- The entry of the diagnostics that an action updates. -/
def updates (n : ℕ) : (a : Act) → Ans a → Bool
  | .publishSlave m, ok => ok && m = n
  | _, _ => false

/-- Makes the table of the diagnostics. -/
def Act.tables : Act → Bool
  | .resizeSlaves => true
  | _ => false

/-- What had happened when entry `n` of the diagnostics was last updated. -/
def beforeUpdate (n : ℕ) : List Ev → Option (List Ev)
  | [] => none
  | e :: h => if updates n e.act e.ans then some h else if e.act.tables then none else beforeUpdate n h

/-! ## Reports -/

def snapshotOf : (a : Act) → Ans a → Option DiagnosticsSnapshot
  | .latestDiagnostics, s => some s
  | _, _ => none

/-- `state` is what was last read of slave `i`, and not a state that was only requested. -/
def ReadAs (i : DeviceId) (past : List Ev) (state : EthercatDeviceState) : Prop :=
  (∀ s ∈ lastState i past, state = mapFromSoemDeviceState (lowNibble s)) ∧
    (lastState i past = none → request i past = none)

/-- What has been requested of slave `i` since its last reading is what was read. -/
def Settled (i : DeviceId) (past : List Ev) : Prop :=
  (∀ s ∈ lastState i past, ∀ r ∈ request i past,
      mapFromSoemDeviceState (lowNibble r) = mapFromSoemDeviceState (lowNibble s)) ∧
    (lastState i past = none → request i past = none)

/-- Of every slave that has been updated, a snapshot reports what had been read by then. -/
def Reported (e : Ev) (h : List Ev) : Prop :=
  ∀ snapshot ∈ snapshotOf e.act e.ans, ∀ n < snapshot.slaves.length, ∀ past ∈ beforeUpdate n h,
    ReadAs (n + 1) past (snapshot.slaves.getD n {}).state

instance (e : Ev) (h : List Ev) : Decidable (Reported e h) :=
  inferInstanceAs (Decidable (∀ snapshot ∈ snapshotOf e.act e.ans, ∀ n < snapshot.slaves.length,
    ∀ past ∈ beforeUpdate n h, _ ∧ _))

/-- Every slave had settled when it was last updated. -/
def ReportsSettled (e : Ev) (h : List Ev) : Prop :=
  ∀ snapshot ∈ snapshotOf e.act e.ans, ∀ n, ∀ past ∈ beforeUpdate n h, Settled (n + 1) past

/-! ## The table -/

/-- The states in the table of the diagnostics. -/
def St.states (s : St) : List EthercatDeviceState := s.latestDiagnostics.slaves.map ESCStatus.state

theorem states_modifyStatus {s : St} {n : ℕ} {f : ESCStatus → ESCStatus} (hf : ∀ e, (f e).state = e.state) :
    (s.modifyStatus n f).states = s.states := by
  refine List.ext_getElem? fun m => ?_
  simp only [St.states, St.modifyStatus, List.getElem?_map, List.getElem?_modify]
  split
  · cases s.latestDiagnostics.slaves[m]? with
    | none => rfl
    | some e => exact congrArg some (hf e)
  · cases s.latestDiagnostics.slaves[m]? <;> rfl

/-- Updates an entry of the table. -/
def Act.publishes : Act → Bool
  | .publishSlave _ => true
  | _ => false

theorem states_exec {a : Act} (ha : a.publishes = false) (ht : a.tables = false) (i : Env) (s : St) :
    (exec a i s).2.states = s.states := by
  cases a
  case ecxStatecheck id state =>
    simp only [exec]
    split <;> rfl
  case captureTopology id => exact states_modifyStatus fun _ => rfl
  case captureDc id => exact states_modifyStatus fun _ => rfl
  case publishPorts n ports => exact states_modifyStatus fun _ => rfl
  case stampPorts n tp => exact states_modifyStatus fun _ => rfl
  all_goals first | rfl | (cases ha; done) | cases ht

theorem states_publishSlave (n m : ℕ) (i : Env) (s : St) :
    (exec (.publishSlave n) i s).2.states[m]? =
      if n = m then s.states[m]?.map fun _ => mapFromSoemDeviceState (lowNibble (s.slave (n + 1)).state)
      else s.states[m]? := by
  simp only [exec, St.states, St.modifyStatus, List.getElem?_map, List.getElem?_modify]
  split
  · cases s.latestDiagnostics.slaves[m]? <;> rfl
  · cases s.latestDiagnostics.slaves[m]? <;> rfl

/-! ## The invariant -/

/-- What the slave list says of slave `i`, as far as it is known. -/
def cached (i : DeviceId) (h : List Ev) : Option ℕ := (request i h).or (lastState i h)

/-- The slave list holds what was read or requested last, and the table what the slave list held
at the last update. -/
structure Tracked (w : W) : Prop where
  cached : ∀ i s, i ≤ w.st.context.ecatSlavecount → cached i w.hist = some s →
    lowNibble (w.st.slave i).state = lowNibble s
  updated : ∀ n past, beforeUpdate n w.hist = some past → ∃ state, w.st.states[n]? = some state ∧
    ∀ s, EthercatInterface.cached (n + 1) past = some s → state = mapFromSoemDeviceState (lowNibble s)
  reported : Always (fun e h => Reported e h ↔ ReportsSettled e h) w.hist

theorem lowNibble_lowNibble (n : ℕ) : lowNibble (lowNibble n) = lowNibble n := Nat.mod_mod n 16

theorem slave_modifySlave (s : St) (id j : DeviceId) (f : Slave → Slave) :
    (s.modifySlave id f).slave j = if j = id then f (s.slave id) else s.slave j := by
  simp only [St.modifySlave, St.setSlavelist, St.slave, Function.update_apply]

/-- What the slave list holds is known after any action. -/
theorem Tracked.cached_after (h : Tracked w) (a : Act) (e : Env) (i : DeviceId) (s : ℕ)
    (hi : i ≤ (w.after exec 0 a e).st.context.ecatSlavecount)
    (hs : EthercatInterface.cached i (w.after exec 0 a e).hist = some s) :
    lowNibble ((w.after exec 0 a e).st.slave i).state = lowNibble s := by
  -- after a discovery nothing is known; three actions write a state, all others leave the list
  cases a
  case ecxConfigInit => cases hs
  case ecxReadstate =>
    obtain rfl : (e.slaves i).state = s := Option.some.inj hs
    have hi' : i ≤ w.st.context.ecatSlavecount := hi
    simp only [World.after_st, exec, St.setSlavelist, St.slave, if_pos hi']
  case ecxStatecheck id state =>
    simp only [World.after_st, exec] at hi ⊢
    by_cases hc : w.st.context.ecatSlavecount < id
    · rw [if_pos hc] at hi ⊢
      -- a check past the end of the list writes nothing
      have hne : id ≠ i := fun he => absurd hc (Nat.not_lt.2 (he ▸ hi))
      refine h.cached i s hi ?_
      simpa [EthercatInterface.cached, request, lastState, asking, reading, hne] using hs
    · rw [if_neg hc] at hi ⊢
      rw [slave_modifySlave]
      by_cases he : id = i
      · subst he
        have hs' : lowNibble (e.slaves id).state = s := by
          simpa [EthercatInterface.cached, request, lastState, asking, reading, exec, hc] using hs
        rw [if_pos rfl, ← hs', lowNibble_lowNibble]
      · rw [if_neg (Ne.symm he)]
        refine h.cached i s hi ?_
        simpa [EthercatInterface.cached, request, lastState, asking, reading, he] using hs
  case setSlaveState id state =>
    simp only [World.after_st, exec] at hi ⊢
    rw [slave_modifySlave]
    by_cases he : id = i
    · subst he
      have hs' : state = s := by
        simpa [EthercatInterface.cached, request, asking] using hs
      rw [if_pos rfl, hs']
    · rw [if_neg (Ne.symm he)]
      refine h.cached i s hi ?_
      simpa [EthercatInterface.cached, request, lastState, asking, reading, he] using hs
  all_goals exact h.cached i s hi hs

/-- A report of what the slave list held is true exactly if the slave had settled. -/
theorem readAs_iff {i : DeviceId} {past : List Ev} {state : EthercatDeviceState}
    (hc : ∀ s, cached i past = some s → state = mapFromSoemDeviceState (lowNibble s)) :
    ReadAs i past state ↔ Settled i past := by
  refine and_congr_left' (forall₂_congr fun s hs => ?_)
  rw [Option.mem_def] at hs
  rcases hr : request i past with _ | r
  · have hstate := hc s (by rw [cached, hr, hs]; rfl)
    simp [hstate]
  · have hstate := hc r (by rw [cached, hr]; rfl)
    simp [hstate]

/-- A snapshot of a table that is known. -/
theorem Tracked.snapshot (h : Tracked w) (e : Env) :
    Reported ⟨0, .latestDiagnostics, (exec .latestDiagnostics e w.st).1⟩ w.hist ↔
      ReportsSettled ⟨0, .latestDiagnostics, (exec .latestDiagnostics e w.st).1⟩ w.hist := by
  have entry : ∀ n past, beforeUpdate n w.hist = some past → n < w.st.latestDiagnostics.slaves.length ∧
      (ReadAs (n + 1) past (w.st.latestDiagnostics.slaves.getD n {}).state ↔ Settled (n + 1) past) := by
    intro n past hp
    obtain ⟨state, hs, hc⟩ := h.updated n past hp
    rw [St.states, List.getElem?_map, Option.map_eq_some_iff] at hs
    obtain ⟨entry, he, rfl⟩ := hs
    rw [List.getD_eq_getElem?_getD, he]
    exact ⟨(List.getElem?_eq_some_iff.1 he).1, readAs_iff hc⟩
  constructor
  · intro hr snapshot hs n past hp
    obtain rfl := Option.mem_some.1 hs
    obtain ⟨hn, ht⟩ := entry n past hp
    exact ht.1 (hr _ rfl n hn past hp)
  · intro hr snapshot hs n _ past hp
    obtain rfl := Option.mem_some.1 hs
    exact (entry n past hp).2.2 (hr _ rfl n past hp)

/-- Where no snapshot is taken there is nothing to report. -/
theorem reported_silent {e : Ev} {h : List Ev} (he : snapshotOf e.act e.ans = none) :
    Reported e h ↔ ReportsSettled e h := by
  simp [Reported, ReportsSettled, he]

/-- Every action keeps the invariant, unless it updates the table. -/
theorem Tracked.after (h : Tracked w) {a : Act} (ha : a.publishes = false) (e : Env) :
    Tracked (w.after exec 0 a e) := by
  refine ⟨h.cached_after a e, fun n past hp => ?_, ?_, h.reported⟩
  · have hu : updates n a (exec a e w.st).1 = false := by cases a <;> first | rfl | cases ha
    by_cases ht : a.tables = false
    · rw [World.after_st, states_exec ha ht]
      refine h.updated n past ?_
      simpa [beforeUpdate, hu, ht] using hp
    · simp [beforeUpdate, hu, ht] at hp
  · cases a
    case latestDiagnostics => exact h.snapshot e
    all_goals exact reported_silent rfl

/-- The update of a slave that is on the bus. -/
theorem Tracked.publish (h : Tracked w) {m : ℕ} (hm : m < w.st.context.ecatSlavecount) (e : Env) :
    Tracked (w.after exec 0 (.publishSlave m) e) := by
  refine ⟨h.cached_after _ e, fun n past hp => ?_, reported_silent rfl, h.reported⟩
  rw [World.after_st, states_publishSlave]
  -- the entry published is the one updated last, or another one
  by_cases hu : updates n (.publishSlave m) (exec (.publishSlave m) e w.st).1 = true
  · have hpast : w.hist = past := by simpa [beforeUpdate, hu] using hp
    obtain ⟨hl, hn⟩ : m < w.st.latestDiagnostics.slaves.length ∧ m = n := by
      simpa [updates, exec] using hu
    subst hpast hn
    refine ⟨mapFromSoemDeviceState (lowNibble (w.st.slave (m + 1)).state), ?_, fun s hs => ?_⟩
    · rw [if_pos rfl, St.states, List.getElem?_map, List.getElem?_eq_getElem hl]
      rfl
    · rw [h.cached (m + 1) s hm hs]
  · have hp' : beforeUpdate n w.hist = some past := by
      simpa [beforeUpdate, hu, Act.tables] using hp
    obtain ⟨state, hs, hc⟩ := h.updated n past hp'
    have hl : n < w.st.latestDiagnostics.slaves.length := by
      have := (List.getElem?_eq_some_iff.1 hs).1
      rwa [St.states, List.length_map] at this
    have hne : m ≠ n := by
      rintro rfl
      exact hu (by simpa [updates, exec] using hl)
    rw [if_neg hne]
    exact ⟨state, hs, hc⟩

/-! ## Every operation -/

theorem tracked_uses {α : Type} {p : P α} (hp : p.Uses fun a => a.publishes = false) :
    Maintains free Tracked (fun _ => True) p :=
  maintains_uses (fun _ _ => trivial) (fun _ ha e _ _ hw => hw.after ha e) hp

section Every

variable (ps)

/-- Only slaves on the bus are updated. -/
theorem tracked_updateDiagnosticsFast (wkc e : ℤ) :
    Maintains free Tracked (fun _ => True) (updateDiagnosticsFast ps wkc e) := by
  have idle : ∀ {a : Act}, a.publishes = false → Maintains free Tracked (fun _ => True) (act a) :=
    fun ha => tracked_uses (uses_act ha)
  refine (idle rfl).bind fun now => (idle rfl).bind fun _ => (idle rfl).bind fun _ => .when ?_
  refine (idle rfl).bind fun free => .when (.withLock fun w hw => ?_)
  refine wp_bind (wp_perform fun i _ => ⟨trivial, ?_⟩)
  refine wp_forEach (fun _ w' => Tracked w' ∧ w'.st.context.ecatSlavecount = w.st.context.ecatSlavecount)
    (fun done n rest hl w₁ h₁ => ?_) (fun _ h => h.1) ⟨hw.after rfl i, rfl⟩
  have hn : n < w₁.st.context.ecatSlavecount := by
    rw [h₁.2]
    exact List.mem_range.1 (hl ▸ List.mem_append_right done List.mem_cons_self)
  refine wp_bind (wp_perform fun j _ => ⟨trivial, ?_⟩)
  have h₂ := h₁.1.publish hn j
  exact wp_when (fun _ => trivial) fun _ => ⟨h₂, h₁.2⟩

end Every

/-- The invariant holds throughout. -/
theorem run_tracked (hr : Run ps free (fun _ => True) w) : Tracked w := by
  have silent : ∀ a : Act, a.cycles = false → a.publishes = false := fun a ha => by
    cases a <;> first | rfl | cases ha
  have swaps : (exchange ps).Uses fun a => a.publishes = false :=
    (fits_exchange (V := AnyLock) (fun _ ha => silent _ ha.spare.acyclic) trivial fun a ha => by
      cases a <;> first | rfl | cases ha).uses
  have slow : updateDiagnosticsSlow.Uses fun a => a.publishes = false :=
    (fits_updateDiagnosticsSlow (fun _ ha => silent _ ha.spare.acyclic) (fun _ => rfl) (fun _ _ => rfl)
      fun _ _ => rfl).uses
  refine hr.maintained (C := fun _ => True) ?_ fun o hk hok _ => maintains_invoke (fun _ _ => trivial)
    (fun a ha e w _ hw => hw.after (silent a ha) e) (tracked_uses swaps) (tracked_updateDiagnosticsFast ps)
    (tracked_uses slow) hok o
  exact ⟨fun _ _ _ h => (by cases h), fun _ _ h => (by cases h), trivial⟩

section Example

/-- The states of the slaves are reported. -/
def watching : Parameters := { diagnostics := { escDiagnostics := .basic } }

/-- The slave is brought into PRE_OP and read there. -/
def preOpOne : Call :=
  { op := .changeDeviceState 1 .preOp true
    env := [{}, {}, {}, { ret := 1 }, { slaves := fun _ => { state := EC_STATE_PRE_OP } }] }

/-- All slaves are reported. -/
def forced : Call := { op := .diagnostics true, env := List.replicate 9 {} ++ [{ flag := true }] }

/-- The calls, on a bus whose slaves are reported. -/
def watched (calls : List Call) : W := (runCalls watching ⟨{}, []⟩ (initializeOne :: calls)).getD ⟨{}, []⟩

end Example

end EthercatInterface
