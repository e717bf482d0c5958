import EthercatInterface.Lib.RoundRobin
import EthercatInterface.Lifecycle.Tables
import EthercatInterface.Proof.Sections

/-!
# The ports, in turn

`update_diagnostics_slow` visits one slave: it reads the port registers through the configured
address of that slave, and publishes what it makes of them, with a time stamp, in the entry
of that slave. `current_selected_diagnostics_slave_` is left past the slave that was visited, also past
the last, and is wrapped by the next call.

* `Visit`: what one call does, from any world.
* `InTurn`: what calls, one after the other, have left behind, whatever operations came between.
* `ports_in_turn`: any `n` calls in succession visit each of the `n` slaves once.
-/

namespace EthercatInterface

open Interleave RoundRobin

/-! ## One visit -/

/-- What is made of the port registers. -/
def portHealth (dlStatus rxErr lostLink : List UInt8) : List ESCPortHealth :=
  (List.range 4).map fun p => {
    linkUp := (dlStatus.getD 0 0).toNat.testBit (4 + p)
    invalidFrames := (rxErr.getD (p * 2) 0).toNat
    rxErrors := (rxErr.getD (p * 2 + 1) 0).toNat
    lostLinks := (lostLink.getD p 0).toNat }

/-- The entry of slave `i + 1` gets new ports, and the next slave is selected. -/
def St.refresh (s : St) (i : ℕ) (ports : List ESCPortHealth) (now : ℤ) : St :=
  { s.modifyStatus i fun e => { e with ports := ports, portsUpdateTimestamp := now } with
    currentSelectedDiagnosticsSlave := i + 1 }

/-- The registers of the slave at `adr` that are read, newest first. -/
def portReads (i adr : ℕ) (dl rx ll : ℤ × List UInt8) : List Ev :=
  [⟨0, .ecxFPRD adr 0x0310 4, ll⟩, ⟨0, .ecxFPRD adr 0x0300 8, rx⟩, ⟨0, .ecxFPRD adr 0x0110 2, dl⟩,
    ⟨0, .configadr (i + 1), adr⟩]

/-- What is published of them. -/
def portReport (i : ℕ) (ports : List ESCPortHealth) (now : ℤ) : List Ev :=
  [⟨0, .setCurrentSlave (i + 1), ()⟩, ⟨0, .stampPorts i now, true⟩, ⟨0, .now, now⟩,
    ⟨0, .publishPorts i ports, true⟩]

/-- Looks for the slave that is to be visited. -/
def Act.seeks : Act → Bool
  | .currentSlave | .slavecount | .setCurrentSlave _ => true
  | _ => false

/-- **One call**, which visits slave `i + 1` through its own configured address, and changes
nothing but the ports in its entry. -/
def Visit (w : W) (i : ℕ) (w' : W) : Prop :=
  ∃ (dl rx ll : ℤ × List UInt8) (now : ℤ) (seek : List Ev), (∀ e ∈ seek, e.act.seeks = true) ∧
    w'.hist = portReport i (portHealth dl.2 rx.2 ll.2) now ++
      (portReads i (w.st.slave (i + 1)).configadr dl rx ll ++ (seek ++ w.hist)) ∧
    w'.st = w.st.refresh i (portHealth dl.2 rx.2 ll.2) now

/-- The entry that the next call is about. -/
def St.nextPorts (s : St) : ℕ :=
  if s.context.ecatSlavecount ≤ s.currentSelectedDiagnosticsSlave then 0
  else s.currentSelectedDiagnosticsSlave

variable {ok : Guard Act Ans Env St} {w w' : W} {i : ℕ}

theorem modify_modify {α : Type} (f g : α → α) (i : ℕ) (l : List α) :
    (l.modify i f).modify i g = l.modify i (g ∘ f) := by
  refine List.ext_getElem? fun j => ?_
  simp only [List.getElem?_modify]
  by_cases h : i = j <;> cases l[j]? <;> simp [h]

theorem wp_crashUnless {must : Guard Act Ans Env St} {t : ℕ} {c : Bool} {Q : Outcome Exn Unit → W → Prop}
    (ht : c = true → Q (.ret ()) w) (hf : c = false → Q .crash w) :
    wp exec ok must t (crashUnless c) Q w :=
  wp_when (fun h => hf (by simpa using h)) fun h => ht (by simpa using h)

/-- The reads leave the state alone. -/
theorem wp_readSlavePortDiagnostics {Q : Outcome Exn (List ESCPortHealth) → W → Prop} (adr : ℕ)
    (h : ∀ (dl rx ll : ℤ × List UInt8), Q (.ret (portHealth dl.2 rx.2 ll.2))
      ⟨w.st, ⟨0, .ecxFPRD adr 0x0310 4, ll⟩ :: ⟨0, .ecxFPRD adr 0x0300 8, rx⟩ ::
        ⟨0, .ecxFPRD adr 0x0110 2, dl⟩ :: w.hist⟩) :
    wp exec ok free 0 (readSlavePortDiagnostics adr) Q w := by
  refine wp_bind (wp_perform fun dl _ => ⟨trivial, wp_bind (wp_perform fun rx _ => ⟨trivial, ?_⟩)⟩)
  refine wp_bind (wp_perform fun ll _ => ⟨trivial, ?_⟩)
  exact h (dl.ret, dl.data) (rx.ret, rx.data) (ll.ret, ll.data)

/-- Ports and time stamp are published, unless there is no entry for them. -/
theorem wp_publish {Q : Outcome Exn Unit → W → Prop} (i : ℕ) (ports : List ESCPortHealth)
    (hret : ∀ now, Q (.ret ()) ⟨w.st.refresh i ports now, portReport i ports now ++ w.hist⟩)
    (hcrash : w.st.latestDiagnostics.slaves.length ≤ i → ∀ w', Q .crash w') :
    wp exec ok free 0 (do
      Prog.withLock [.diagnostics] do
        crashUnless (← act (.publishPorts i ports))
        let now ← act .now
        crashUnless (← act (.stampPorts i now))
      act (.setCurrentSlave (i + 1))) Q w := by
  refine wp_bind (wp_withLock (wp_bind (wp_perform fun e _ => ⟨trivial, wp_bind ?_⟩)))
  refine wp_crashUnless (fun hb => ?_) fun hb => hcrash (Nat.le_of_not_lt (of_decide_eq_false hb)) _
  have hi : i < w.st.latestDiagnostics.slaves.length := of_decide_eq_true hb
  refine wp_bind (wp_perform fun now _ => ⟨trivial, wp_bind (wp_perform fun e' _ => ⟨trivial, ?_⟩)⟩)
  -- the entry is still there when the time stamp is written
  have hl : (exec (.stampPorts i now.clock) e' (exec (.publishPorts i ports) e w.st).2).1 = true :=
    decide_eq_true (by simpa [exec, St.modifyStatus] using hi)
  refine wp_crashUnless (fun _ => wp_perform fun e'' _ => ⟨trivial, ?_⟩) fun hb' => ?_
  · have hst : (exec (.setCurrentSlave (i + 1)) e'' (exec (.stampPorts i now.clock) e'
        (exec (.publishPorts i ports) e w.st).2).2).2 = w.st.refresh i ports now.clock := by
      simp only [exec, St.refresh, St.modifyStatus, modify_modify]
      rfl
    have hworld := hret now.clock
    rw [← hst] at hworld
    have hev : portReport i ports now.clock ++ w.hist = ⟨0, .setCurrentSlave (i + 1), ()⟩ ::
        ⟨0, .stampPorts i now.clock, (exec (.stampPorts i now.clock) e' (exec (.publishPorts i ports) e w.st).2).1⟩ ::
        ⟨0, .now, now.clock⟩ :: ⟨0, .publishPorts i ports, (exec (.publishPorts i ports) e w.st).1⟩ :: w.hist := by
      rw [hl, hb]
      rfl
    rw [hev] at hworld
    exact hworld
  · cases hl.symm.trans hb'

/-- The rest of the call, once the slave has been selected. -/
theorem wp_visit {Q : Outcome Exn Unit → W → Prop} {i c : ℕ} {w : W} (seek : List Ev)
    (hseek : ∀ e ∈ seek, e.act.seeks = true) (hret : ∀ w', Visit w i w' → Q (.ret ()) w')
    (hcrash : w.st.latestDiagnostics.slaves.length ≤ i → ∀ w', Q .crash w') :
    wp exec ok free 0 (do
      let configAdr ← act (.configadr (i + 1))
      let ports ← readSlavePortDiagnostics configAdr
      Prog.withLock [.diagnostics] do
        crashUnless (← act (.publishPorts i ports))
        let now ← act .now
        crashUnless (← act (.stampPorts i now))
      act (.setCurrentSlave (i + 1))) Q
      ⟨{ w.st with currentSelectedDiagnosticsSlave := c }, seek ++ w.hist⟩ := by
  refine wp_bind (wp_perform fun e _ => ⟨trivial, wp_bind (wp_readSlavePortDiagnostics _ fun dl rx ll => ?_)⟩)
  exact wp_publish i _ (fun now => hret _ ⟨dl, rx, ll, now, seek, hseek, rfl, rfl⟩) hcrash

/-- **The effect of a call**: it returns, having visited the slave, if that has an entry. -/
theorem wp_updateDiagnosticsSlow {Q : Outcome Exn Unit → W → Prop} (w : W)
    (hret : ∀ w', Visit w w.st.nextPorts w' → Q (.ret ()) w')
    (hcrash : w.st.latestDiagnostics.slaves.length ≤ w.st.nextPorts → ∀ w', Q .crash w') :
    wp exec ok free 0 updateDiagnosticsSlow Q w := by
  refine wp_bind (wp_perform fun i₀ _ => ⟨trivial, wp_bind (wp_perform fun i₁ _ => ⟨trivial, ?_⟩)⟩)
  by_cases hn : w.st.context.ecatSlavecount ≤ w.st.currentSelectedDiagnosticsSlave
  · have hnext : w.st.nextPorts = 0 := if_pos hn
    rw [hnext] at hret hcrash
    refine wp_bind (wp_when (fun _ => wp_perform fun i₂ _ => ⟨trivial, ?_⟩) fun hb => ?_)
    · refine wp_bind (wp_perform fun i₃ _ => ⟨trivial, ?_⟩)
      exact wp_visit (w := w) [⟨0, .currentSlave, 0⟩, ⟨0, .setCurrentSlave 0, ()⟩,
        ⟨0, .slavecount, _⟩, ⟨0, .currentSlave, _⟩] (by simp [Act.seeks]) hret hcrash
    · exact absurd hn (of_decide_eq_false hb)
  · have hnext : w.st.nextPorts = w.st.currentSelectedDiagnosticsSlave := if_neg hn
    rw [hnext] at hret hcrash
    refine wp_bind (wp_when (fun hb => absurd (of_decide_eq_true hb) hn) fun _ => ?_)
    refine wp_bind (wp_perform fun i₃ _ => ⟨trivial, ?_⟩)
    exact wp_visit (w := w) [⟨0, .currentSlave, _⟩, ⟨0, .slavecount, _⟩, ⟨0, .currentSlave, _⟩]
      (by simp [Act.seeks]) hret hcrash

/-! ## Runs -/

/-- The entries that got new ports since the slaves were counted, newest first. -/
def refreshed : List Ev → List ℕ
  | [] => []
  | e :: h => match e.act with
    | .ecxConfigInit => []
    | .publishPorts i _ => i :: refreshed h
    | _ => refreshed h

/-- The entries that got a new time stamp since. -/
def stamped : List Ev → List ℕ
  | [] => []
  | e :: h => match e.act with
    | .ecxConfigInit => []
    | .stampPorts i _ => i :: stamped h
    | _ => stamped h

/-- **Through its own address**: what is published of a slave was read just before, at the
address that the slave list has for it. -/
def OwnPorts (e : Ev) (h : List Ev) : Prop :=
  match e.act with
  | .publishPorts i ports => ∃ dl rx ll adr past, h = portReads i adr dl rx ll ++ past ∧
    ports = portHealth dl.2 rx.2 ll.2
  | _ => True

/-- Belongs to the round of the ports. -/
def Act.refreshes : Act → Bool
  | .setCurrentSlave _ | .publishPorts _ _ | .stampPorts _ _ => true
  | _ => false

/-- **The calls so far were in turn.** -/
structure InTurn (w : W) : Prop where
  turns : 0 < w.st.context.ecatSlavecount → Turns w.st.context.ecatSlavecount (refreshed w.hist)
  selected : ∀ i ∈ (refreshed w.hist).head?, w.st.currentSelectedDiagnosticsSlave = i + 1
  stamped : stamped w.hist = refreshed w.hist
  own : Always OwnPorts w.hist

section Skipped

variable {a : Act} (ha : a.refreshes = false) (hc : a ≠ .ecxConfigInit)
include ha

theorem selected_exec (e : Env) (s : St) :
    (exec a e s).2.currentSelectedDiagnosticsSlave = s.currentSelectedDiagnosticsSlave := by
  cases a
  case ecxStatecheck id state =>
    simp only [exec]
    split <;> rfl
  all_goals first | rfl | cases ha

include hc

theorem count_exec (e : Env) (s : St) :
    (exec a e s).2.context.ecatSlavecount = s.context.ecatSlavecount := by
  by_cases hr : a.remaps = true
  · cases a <;> first | exact absurd rfl hc | rfl | cases hr
  · exact slavecount_exec (by simpa using hr) e s

theorem round_skip {t : ℕ} {r : Ans a} {h : List Ev} : refreshed (⟨t, a, r⟩ :: h) = refreshed h ∧
    stamped (⟨t, a, r⟩ :: h) = stamped h ∧ OwnPorts ⟨t, a, r⟩ h := by
  cases a <;> first | exact ⟨rfl, rfl, trivial⟩ | exact absurd rfl hc | cases ha

end Skipped

/-- Counting the slaves begins a new round. -/
theorem InTurn.counted (h : InTurn w) (t : ℕ) (e : Env) : InTurn (w.after exec t .ecxConfigInit e) :=
  ⟨fun _ => .nil, fun _ hi => (by cases hi), rfl, trivial, h.own⟩

theorem InTurn.after (h : InTurn w) {a : Act} (ha : a.refreshes = false) (t : ℕ) (e : Env) :
    InTurn (w.after exec t a e) := by
  by_cases hc : a = .ecxConfigInit
  · subst hc
    exact h.counted t e
  · obtain ⟨hrefreshed, hstamped, hown⟩ := round_skip ha hc (t := t) (r := (exec a e w.st).1) (h := w.hist)
    refine ⟨?_, ?_, ?_, hown, h.own⟩
    · rw [World.after_st, World.after_hist, count_exec ha hc, hrefreshed]
      exact h.turns
    · rw [World.after_st, World.after_hist, selected_exec ha, hrefreshed]
      exact h.selected
    · rw [World.after_hist, hrefreshed, hstamped]
      exact h.stamped

/-- Looking for the slave is no visit. -/
theorem seek_skip {seek h : List Ev} (hs : ∀ e ∈ seek, e.act.seeks = true) :
    refreshed (seek ++ h) = refreshed h ∧ stamped (seek ++ h) = stamped h ∧
      (Always OwnPorts h → Always OwnPorts (seek ++ h)) := by
  induction seek with
  | nil => exact ⟨rfl, rfl, id⟩
  | cons e seek ih =>
    obtain ⟨hr, hst, ho⟩ := ih fun e he => hs e (List.mem_cons_of_mem _ he)
    have he := hs e List.mem_cons_self
    obtain ⟨t, a, r⟩ := e
    cases a <;> first | exact ⟨hr, hst, fun h => ⟨trivial, ho h⟩⟩ | cases he

theorem St.nextPorts_lt {s : St} (h : 0 < s.context.ecatSlavecount) : s.nextPorts < s.context.ecatSlavecount := by
  unfold St.nextPorts
  split <;> omega

/-- The next one, past the last that was visited. -/
theorem St.nextPorts_succ {s : St} {i : ℕ} (hs : s.currentSelectedDiagnosticsSlave = i + 1)
    (hi : i < s.context.ecatSlavecount) : s.nextPorts = (i + 1) % s.context.ecatSlavecount := by
  rw [St.nextPorts, hs]
  split
  · next h =>
    have hn : s.context.ecatSlavecount = i + 1 := by omega
    rw [hn, Nat.mod_self]
  · next h => exact (Nat.mod_eq_of_lt (Nat.lt_of_not_le h)).symm

/-- **A call takes its turn.** -/
theorem InTurn.visit (h : InTurn w) (hv : Visit w w.st.nextPorts w') : InTurn w' := by
  obtain ⟨dl, rx, ll, now, seek, hseek, hhist, hst⟩ := hv
  obtain ⟨hr, hstamp, hown⟩ := seek_skip (h := w.hist) hseek
  have hrefreshed : refreshed w'.hist = w.st.nextPorts :: refreshed w.hist := by
    rw [hhist, ← hr]
    rfl
  have hcount : w'.st.context.ecatSlavecount = w.st.context.ecatSlavecount := by rw [hst]; rfl
  refine ⟨fun h0 => ?_, fun i hi => ?_, ?_, ?_⟩
  · rw [hrefreshed, hcount]
    rw [hcount] at h0
    have hturns := h.turns h0
    -- the first turn may be at any index; from then on it is at the next one
    rcases hl : refreshed w.hist with _ | ⟨i, l⟩
    · exact .single (St.nextPorts_lt h0)
    · rw [hl] at hturns
      have hsel := h.selected i (by rw [hl]; rfl)
      rw [St.nextPorts_succ hsel (hturns.bound i List.mem_cons_self)]
      exact hturns.cons
  · rw [hrefreshed] at hi
    cases hi
    rw [hst]
    rfl
  · rw [hrefreshed, ← h.stamped, hhist, ← hstamp]
    rfl
  · rw [hhist]
    exact ⟨trivial, trivial, trivial, ⟨dl, rx, ll, _, _, rfl, rfl⟩, trivial, trivial, trivial, trivial,
      hown h.own⟩

/-- Every operation leaves the calls in turn. -/
theorem run_inTurn {ps : Parameters} {good : UserCode → Prop} (hr : Run ps ok good w) : InTurn w := by
  have silent : ∀ a : Act, a.cycles = false → a.refreshes = false := fun a ha => by
    cases a <;> first | rfl | cases ha
  have keeps : ∀ {α : Type} {p : P α}, (p.Uses fun a => a.refreshes = false) →
      Maintains ok InTurn (fun _ => True) p := fun hp =>
    maintains_uses (fun _ _ => trivial) (fun _ ha e _ _ hw => hw.after ha 0 e) hp
  have exchange : (exchange ps).Uses fun a => a.refreshes = false :=
    (fits_exchange (V := AnyLock) (fun _ ha => silent _ ha.spare.acyclic) trivial fun a ha => by
      cases a <;> first | rfl | cases ha).uses
  have fast : ∀ wkc e, (updateDiagnosticsFast ps wkc e).Uses fun a => a.refreshes = false := fun wkc e =>
    (fits_updateDiagnosticsFast (fun _ ha => silent _ ha.spare.acyclic) (fun _ _ => rfl) (fun _ => rfl) wkc e).uses
  have slow : Maintains ok InTurn (fun _ => True) updateDiagnosticsSlow := fun w hw =>
    wp_updateDiagnosticsSlow w (fun _ hv => hw.visit hv) fun _ _ => trivial
  refine hr.maintained (C := fun _ => True) ?_ fun o hk hok _ => maintains_invoke (fun _ _ => trivial)
    (fun a ha e w _ hw => hw.after (silent a ha) 0 e) (keeps exchange) (fun wkc e => keeps (fast wkc e)) slow hok o
  exact ⟨fun _ => .nil, fun _ hi => (by cases hi), rfl, trivial⟩

/-- A visit leaves the other entries alone. -/
theorem Visit.others (hv : Visit w i w') {j : ℕ} (hj : j ≠ i) :
    w'.st.latestDiagnostics.slaves[j]? = w.st.latestDiagnostics.slaves[j]? := by
  obtain ⟨dl, rx, ll, now, seek, -, -, hst⟩ := hv
  rw [hst]
  simp only [St.refresh, St.modifyStatus, List.getElem?_modify, if_neg (Ne.symm hj), id_map']

/-- **A call visits the slave whose turn it is**, whichever was selected, where every slave has an
entry. -/
theorem exec_updateDiagnosticsSlow {out : Outcome Exn Unit}
    (h0 : 0 < w.st.context.ecatSlavecount)
    (hlen : w.st.latestDiagnostics.slaves.length = w.st.context.ecatSlavecount)
    (he : Exec exec ok 0 updateDiagnosticsSlow w out w') : out = .ret () ∧ Visit w w.st.nextPorts w' := by
  have hnext : w.st.nextPorts < w.st.context.ecatSlavecount := St.nextPorts_lt h0
  refine wp_sound (Q := fun out w' => out = .ret () ∧ Visit w w.st.nextPorts w') he
    (wp_updateDiagnosticsSlow w (fun _ hv => ⟨rfl, hv⟩) fun hl => ?_)
  rw [hlen] at hl
  exact absurd hnext (Nat.not_lt.2 hl)

/-- Since the slaves were counted, any `n` visits in succession were one to each of the `n`
slaves, both for its ports and for their time stamp. -/
structure RoundsOf (n : ℕ) (h : List Ev) : Prop where
  bound : ∀ i ∈ refreshed h, i < n
  ports : ∀ a, a + n ≤ (refreshed h).length → (((refreshed h).drop a).take n).Perm (List.range n)
  stamps : ∀ a, a + n ≤ (stamped h).length → (((stamped h).drop a).take n).Perm (List.range n)

/-- **The ports are refreshed in turn.** In every run the calls since the slaves were counted were
rounds of these, each read through its own address; and wherever every slave has an entry, as
between any two operations on an open bus, a call visits the slave whose turn it is, and changes no
other entry. -/
theorem ports_in_turn {ps : Parameters} {good : UserCode → Prop} {m : ℕ} (hm : 0 < m)
    (hr : Run ps (soemFinds m) good w) :
    (0 < w.st.context.ecatSlavecount → RoundsOf w.st.context.ecatSlavecount w.hist) ∧
    Always OwnPorts w.hist ∧
    (w.st.state.open → 0 < w.st.context.ecatSlavecount ∧
      w.st.latestDiagnostics.slaves.length = w.st.context.ecatSlavecount) ∧
    ∀ (ok : Guard Act Ans Env St) (v v' : W) out, 0 < v.st.context.ecatSlavecount →
      v.st.latestDiagnostics.slaves.length = v.st.context.ecatSlavecount →
      Exec exec ok 0 updateDiagnosticsSlow v out v' →
        out = .ret () ∧ v.st.nextPorts < v.st.context.ecatSlavecount ∧ Visit v v.st.nextPorts v' ∧
        ∀ j ≠ v.st.nextPorts, v'.st.latestDiagnostics.slaves[j]? = v.st.latestDiagnostics.slaves[j]? := by
  have h := run_inTurn hr
  refine ⟨fun h0 => ?_, h.own, fun ho => ?_, fun ok v v' out h0 hlen he => ?_⟩
  · have hturns := h.turns h0
    exact ⟨hturns.bound, fun a ha => hturns.window ha, fun a ha => by
      rw [h.stamped] at ha ⊢
      exact hturns.window ha⟩
  · obtain ⟨hlen, hpos⟩ := (run_tidy hm hr).2.entries ho
    exact ⟨hpos, hlen⟩
  · obtain ⟨hout, hv⟩ := exec_updateDiagnosticsSlow h0 hlen he
    exact ⟨hout, St.nextPorts_lt h0, hv, fun j hj => hv.others hj⟩

/-- Two slaves are found. -/
def initializeTwo : Call :=
  { op := .initializeBus, env := [{}, {}, { ret := 1 }, { ret := 2, slavecount := 2 }] }

/-- Three updates are forced before `startup`. -/
def forcedThrice : List Call :=
  [initializeTwo, { op := .diagnostics true }, { op := .diagnostics true }, { op := .diagnostics true }]

theorem ports_in_turn_two : RoundsOf 2 (world forcedThrice).hist ∧
    refreshed (world forcedThrice).hist = [0, 1, 0] ∧ Always OwnPorts (world forcedThrice).hist := by
  have hr : Run {} (soemFinds 200) (fun _ => True) (world forcedThrice) :=
    run_admitted {} _ (by simp [forcedThrice, initializeTwo, UserCode.none_ok]) (by decide +kernel)
  obtain ⟨hrounds, hown, -⟩ := ports_in_turn (by decide) hr
  exact ⟨hrounds (by decide +kernel), by decide +kernel, hown⟩

end EthercatInterface
