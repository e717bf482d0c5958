import EthercatInterface.Threads.Order
import EthercatInterface.Threads.Shared

/-!
# Races, and waiting for others

The lock discipline holds of any number of threads, however their actions interleave. Two threads
are in conflicting accesses of a cell that has a mutex only where one of them is among those made
without it (`race_free`), and such races do occur (`race_counters`). A thread that waits for the
bus or runs code of users owns nothing beyond what that action needs (`lengthy_alone`), and so a
thread that runs cycles never waits for another one's mailbox access, state request or hook
(`cycle_unhindered`).
-/

namespace EthercatInterface

open Interleave

/-- Two threads touch a cell at once, and one of them writes it. -/
def Race (c : FineConf) (t u : ℕ) (a b : Act) (x : Cell) : Prop :=
  t ≠ u ∧ Running t a c.world.hist ∧ Running u b c.world.hist ∧ shared.Conflict a b x

/-- **Races are confined** to the accesses made without a mutex. -/
structure RaceFree (c : FineConf) : Prop where
  /-- Whoever touches a cell in any other way owns its mutex. -/
  owns : ∀ t a, Running t a c.world.hist → ∀ x ∈ shared.touches a, ∀ l, x.guard = some l →
    x ∈ a.unlocked ∨ Owns c t l
  /-- A race is over a cell without a mutex, or in an access made without it. -/
  race : ∀ t u a b x, Race c t u a b x → x.guard = none ∨ x ∈ a.unlocked ∨ x ∈ b.unlocked
  /-- What two threads are doing otherwise may take effect in either order. -/
  commute : ∀ t u a b, t ≠ u → Running t a c.world.hist → Running u b c.world.hist →
    (∀ x, shared.Conflict a b x → x.guard ≠ none ∧ x ∉ a.unlocked ∧ x ∉ b.unlocked) → a.Commute b

/-- Threads respect the discipline, whatever they call. -/
theorem reaches_anyCall {ps : Parameters} {s : St} {c : FineConf}
    (hr : Reaches exec.opened Granted (openedCalls (anyCall ps)) (Conf.idle ⟨s, []⟩) c) :
    Disciplined (fun _ => anyDiscipline) c := by
  refine reaches_disciplined ?_ hr
  rintro t p ⟨o, hk, hok, rfl⟩
  exact under_invoke hok o

/-- A thread that touches a cell owns the mutex of the cell, or the access is one of those made
without it. -/
theorem touches_owned {ps : Parameters} {s : St} {c : FineConf}
    (hr : Reaches exec.opened Granted (openedCalls (anyCall ps)) (Conf.idle ⟨s, []⟩) c) {t : ℕ} {a : Act}
    (ha : Running t a c.world.hist) {x : Cell} (hx : x ∈ shared.touches a) {l : Mutex}
    (hl : x.guard = some l) : x ∈ a.unlocked ∨ Owns c t l := by
  refine (guards_of_touches hx hl).imp_right fun hg => ?_
  obtain ⟨held, hh, hsub, -⟩ := (reaches_anyCall hr).running t a ha
  exact (hh l).2 (hsub hg)

/-- A race over a cell that has a mutex involves an access made without it. -/
theorem race_unlocked {ps : Parameters} {s : St} {c : FineConf}
    (hr : Reaches exec.opened Granted (openedCalls (anyCall ps)) (Conf.idle ⟨s, []⟩) c) {t u : ℕ} {a b : Act}
    {x : Cell} (h : Race c t u a b x) {l : Mutex} (hl : x.guard = some l) :
    x ∈ a.unlocked ∨ x ∈ b.unlocked := by
  obtain ⟨hne, ha, hb, hx⟩ := h
  rcases touches_owned hr ha hx.touches_left hl with hta | hta
  · exact .inl hta
  rcases touches_owned hr hb hx.touches_right hl with hub | hub
  · exact .inr hub
  -- a mutex has one owner
  · exact (hne ((reaches_anyCall hr).exclusive l t u hta hub)).elim

/-- A bus in use, with one slave. -/
def inUse : St := { state := .operational, context := { ecatSlavecount := 1 } }

/-- One call of `foe_read` up to its `n`-th step, another at the mutex of the mailbox. -/
def beside (n : ℕ) : List (Choice (Fine Act Mutex) (Fine.Ans Ans) Empty Exn Env) :=
  .call 1 fileRead :: Choice.steps 1 n ++ .call 2 fileRead :: Choice.steps 2 2

theorem reaches_beside (n : ℕ)
    (h : (Conf.idle ⟨inUse, []⟩ : FineConf).admitsAll exec.opened Granted (beside n) = true) :
    Reaches exec.opened Granted (openedCalls (anyCall {})) (Conf.idle ⟨inUse, []⟩ : FineConf)
      ((Conf.idle ⟨inUse, []⟩).follow exec.opened (beside n)) := by
  refine reaches_admitted (fun t p hp => ?_) h
  obtain rfl : p = fileRead := by
    rcases List.mem_append.1 hp with hp | hp
    · exact ((Choice.call_mem_call.1 hp).resolve_right fun hp => Choice.call_mem_steps.1 hp).2
    · exact ((Choice.call_mem_call.1 hp).resolve_right fun hp => Choice.call_mem_steps.1 hp).2
  exact ⟨_, ⟨.foeRead 1 "" 8, .none, UserCode.none_ok _, rfl⟩, rfl⟩

/-- A cycle up to where it counts the frame, and a copy of the diagnostics. -/
def counting : List (Choice (Fine Act Mutex) (Fine.Ans Ans) Empty Exn Env) :=
  .call 1 (Op.updateRt.invoke {} .none).opened :: Choice.steps 1 23 ++
    .call 2 ((Op.diagnostics false).invoke {} .none).opened :: Choice.steps 2 8

/-- **The frame counters are raced for**: a cycle changes them without the mutex under which another
thread copies them. -/
theorem race_counters : ∃ c : FineConf,
    Reaches exec.opened Granted (openedCalls (anyCall {})) (Conf.idle ⟨{ state := .activated }, []⟩) c ∧
      Race c 1 2 (.countFrame 0 0) .latestDiagnostics .publishedBus ∧
        Owns c 2 .diagnostics ∧ ¬Owns c 1 .diagnostics := by
  have h : Reaches exec.opened Granted (openedCalls (anyCall {}))
      (Conf.idle ⟨{ state := .activated }, []⟩ : FineConf)
      ((Conf.idle ⟨{ state := .activated }, []⟩).follow exec.opened counting) := by
    refine reaches_admitted (fun t p hp => ?_) (by decide)
    rcases List.mem_append.1 hp with hp | hp
    · obtain ⟨-, rfl⟩ := (Choice.call_mem_call.1 hp).resolve_right fun hp => Choice.call_mem_steps.1 hp
      exact ⟨_, ⟨.updateRt, .none, UserCode.none_ok _, rfl⟩, rfl⟩
    · obtain ⟨-, rfl⟩ := (Choice.call_mem_call.1 hp).resolve_right fun hp => Choice.call_mem_steps.1 hp
      exact ⟨_, ⟨.diagnostics false, .none, UserCode.none_ok _, rfl⟩, rfl⟩
  have hrace : shared.Conflict (.countFrame 0 0) .latestDiagnostics .publishedBus :=
    .inl ⟨rfl, .inl (.inl rfl)⟩
  exact ⟨_, h, ⟨by decide, ⟨_, _, _, rfl⟩, ⟨_, _, _, rfl⟩, hrace⟩, by decide, by decide⟩

/-- **Lengthy actions are performed under their own mutexes alone**: what waits for an answer
from the bus under those that guard it, a hook or a callback under none. -/
theorem lengthy_alone {ps : Parameters} {s : St} {c : FineConf}
    (hr : Reaches exec.opened Granted (openedCalls (anyCall ps)) (Conf.idle ⟨s, []⟩) c) {t : ℕ} {a : Act}
    (ha : Running t a c.world.hist) (hl : a.lengthy = true) (l : Mutex) : Owns c t l ↔ l ∈ a.guards := by
  obtain ⟨held, hh, -, he⟩ := (reaches_anyCall hr).running t a ha
  rw [← he hl]
  exact hh l

/-- A transfer owns the mutex of the mailbox, and no other. -/
theorem lengthy_alone_transfer : ∃ c : FineConf, Running 1 (.ecxFOEread 1 "" 8) c.world.hist ∧
    ∀ l, Owns c 1 l ↔ l ∈ [Mutex.mailbox] :=
  ⟨_, ⟨_, _, _, rfl⟩, lengthy_alone (a := .ecxFOEread 1 "" 8) (reaches_beside 14 (by decide)) ⟨_, _, _, rfl⟩ rfl⟩

/-! ## Cycles beside other operations -/

/-- The mutexes a cycle acquires. -/
def CycleLock (m : List Mutex) : Prop := m = [.pdoUpdate] ∨ m = [.diagnostics] ∨ ∃ p, m = [.device p]

/-- Thread `0` runs cycles, the others any operations. -/
def besideCycles (ps : Parameters) (t : ℕ) (p : P Unit) : Prop :=
  (t = 0 ∧ p = Op.updateRt.invoke ps .none) ∨ (t ≠ 0 ∧ anyCall ps t p)

theorem reaches_besideCycles {ps : Parameters} {s : St} {c : FineConf}
    (hr : Reaches exec.opened Granted (openedCalls (besideCycles ps)) (Conf.idle ⟨s, []⟩) c) :
    Disciplined (fun t => discipline fun m => t = 0 → CycleLock m) c := by
  refine reaches_disciplined ?_ hr
  rintro t p (⟨rfl, rfl⟩ | ⟨ht, o, hk, hok, rfl⟩)
  · exact under_invokeOf ((under_updateRt (fun _ => .inl rfl) (fun p _ => .inr (.inr ⟨p, rfl⟩))
      fun _ => .inr (.inl rfl)).bind fun _ => trivial)
  · have any : (fun m => t = 0 → CycleLock m) = AnyLock :=
      funext fun m => propext ⟨fun _ => trivial, fun _ h => absurd h ht⟩
    rw [any]
    exact under_invoke hok o

/-- What waits for the bus under a mutex is a mailbox access, a request of a state or the exchange. -/
theorem guard_of_lengthy {a : Act} {l : Mutex} (hn : a.lengthy = true) (hl : l ∈ a.guards) :
    l = .mailbox ∨ l = .state ∨ a = .ecxSendProcessdata ∨ a = .ecxReceiveProcessdata := by
  cases a <;> first
    | exact .inl (List.mem_singleton.1 hl)
    | exact .inr (.inl (List.mem_singleton.1 hl))
    | exact .inr (.inr (.inl rfl))
    | exact .inr (.inr (.inr rfl))
    | exact (List.not_mem_nil hl).elim
    | cases hn

theorem CycleLock.ne {m : List Mutex} (hm : CycleLock m) {l : Mutex} (hl : l ∈ m) :
    l ≠ .mailbox ∧ l ≠ .state := by
  rcases hm with rfl | rfl | ⟨p, rfl⟩ <;> obtain rfl := List.mem_singleton.1 hl <;> simp

/-- **A cycle never waits for a slow access of another thread**: whoever owns the mutex it
waits for is not in a mailbox access, a request or check of device states, an access of a
register, a step of the configuration, a hook or a callback. -/
theorem cycle_unhindered {ps : Parameters} {s : St} {c : FineConf}
    (hr : Reaches exec.opened Granted (openedCalls (besideCycles ps)) (Conf.idle ⟨s, []⟩) c)
    {l : Mutex} {u : ℕ} {a : Act} (hw : Awaits c 0 l) (ho : Owns c u l) (ha : Running u a c.world.hist)
    (hl : a.lengthy = true) : a = .ecxSendProcessdata ∨ a = .ecxReceiveProcessdata := by
  have hc := reaches_besideCycles hr
  obtain ⟨m, _, hlm, -, hm⟩ := hc.waiting (fun a => (exec a default {}).1) hw
  obtain ⟨held, hh, -, he⟩ := hc.running u a ha
  have hg : l ∈ a.guards := he hl ▸ (hh l).1 ho
  have hne := (hm rfl).ne hlm
  exact ((guard_of_lengthy hl hg).resolve_left hne.1).resolve_left hne.2

/-- Two cycles of thread `1` and thread `0`, the second at the mutex of the process image. -/
def meeting : List (Choice (Fine Act Mutex) (Fine.Ans Ans) Empty Exn Env) :=
  .call 1 (Op.updateRt.invoke {} .none).opened :: Choice.steps 1 10 ++
    .call 0 (Op.updateRt.invoke {} .none).opened :: Choice.steps 0 8

/-- A cycle that waits for the exchange of another one. -/
theorem cycle_unhindered_exchange : ∃ c : FineConf, Awaits c 0 .pdoUpdate ∧
    Running 1 .ecxSendProcessdata c.world.hist ∧
      (Act.ecxSendProcessdata = .ecxSendProcessdata ∨ Act.ecxSendProcessdata = .ecxReceiveProcessdata) := by
  have h : Reaches exec.opened Granted (openedCalls (besideCycles {}))
      (Conf.idle ⟨{ state := .activated }, []⟩ : FineConf)
      ((Conf.idle ⟨{ state := .activated }, []⟩).follow exec.opened meeting) := by
    refine reaches_admitted (fun t p hp => ?_) (by decide)
    rcases List.mem_append.1 hp with hp | hp
    · obtain ⟨rfl, rfl⟩ := (Choice.call_mem_call.1 hp).resolve_right fun hp => Choice.call_mem_steps.1 hp
      exact ⟨_, .inr ⟨by decide, .updateRt, .none, UserCode.none_ok _, rfl⟩, rfl⟩
    · obtain ⟨rfl, rfl⟩ := (Choice.call_mem_call.1 hp).resolve_right fun hp => Choice.call_mem_steps.1 hp
      exact ⟨_, .inl ⟨rfl, rfl⟩, rfl⟩
  have hw : Awaits ((Conf.idle ⟨{ state := .activated }, []⟩ : FineConf).follow exec.opened meeting) 0 .pdoUpdate :=
    ⟨_, _, rfl, List.mem_cons_self⟩
  exact ⟨_, hw, ⟨_, _, _, rfl⟩, cycle_unhindered h hw (u := 1) (by decide) ⟨_, _, _, rfl⟩ rfl⟩

end EthercatInterface
