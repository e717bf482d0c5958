import EthercatInterface.Lib.Locks
import EthercatInterface.Proof.Sections

/-!
# The order of the mutexes

The mutex of a device is taken before that of the process image (`update_write`,
`update_read`), and the one of the mailbox before that of its counters. `shutdown` takes the
three of the backend together, holding nothing. So every operation, with any hooks and
callbacks, acquires mutexes in ascending rank (`climbs_sectioned`), and **no threads wait for
each other** (`no_deadlock`), whichever operations they call.
-/

namespace EthercatInterface

open Interleave

/-- The order. -/
def Mutex.rank : Mutex → ℕ
  | .device _ => 0
  | .pdoUpdate => 1
  | .state => 2
  | .mailbox => 3
  | .mailboxStatus => 4
  | .diagnostics => 5

theorem Mutex.rank_lt (l : Mutex) : l.rank < 6 := by
  cases l <;> simp [Mutex.rank]

theorem climbs_flat {S : Act → Prop} {α : Type} {p : P α} (h : p.Fits S AnyLock) :
    p.Climbs Mutex.rank 0 :=
  h.climbs fun _ _ => ⟨6, Nat.zero_le 6, fun l _ => ⟨Nat.zero_le _, l.rank_lt⟩⟩

/-- The counters are counted under the mutex of the mailbox. -/
theorem climbs_mailing {α : Type} {p : P α} (h : p.Fits Mailing StatusLock) :
    p.Climbs Mutex.rank 4 := by
  refine h.climbs ?_
  rintro m rfl
  refine ⟨5, by omega, fun l hl => ?_⟩
  obtain rfl := List.mem_singleton.1 hl
  decide

theorem climbs_mailbox {α : Type} {p : P α} (h : p.Fits Mailing StatusLock) :
    (Prog.withLock [.mailbox] p).Climbs Mutex.rank 0 := by
  refine Prog.climbs_withLock 4 (by omega) (fun l hl => ?_) (climbs_mailing h)
  obtain rfl := List.mem_singleton.1 hl
  decide

theorem MailboxSection.climbs {α : Type} {p : P α} (h : MailboxSection p) :
    p.Climbs Mutex.rank 0 := by
  obtain ⟨body, rfl, hb⟩ := h
  exact climbs_mailbox hb

/-- The process image is reached under the mutex of a device. -/
theorem climbs_device {q : Addr} {p : P Unit} (h : p.Fits (fun _ => True) fun m => m = [.pdoUpdate]) :
    (Prog.withLock [.device q] p).Climbs Mutex.rank 0 := by
  refine Prog.climbs_withLock 1 (by omega) (fun l hl => ?_) (h.climbs ?_)
  · obtain rfl := List.mem_singleton.1 hl
    exact ⟨Nat.zero_le _, Nat.one_pos⟩
  · rintro m rfl
    refine ⟨2, by omega, fun l hl => ?_⟩
    obtain rfl := List.mem_singleton.1 hl
    decide

/-- **Every part of an operation acquires mutexes in ascending rank.** -/
theorem climbs_sectioned : Sectioned fun p => p.Climbs Mutex.rank 0 where
  bind := Prog.Climbs.bind
  attempt := Prog.Climbs.attempt
  flat := climbs_flat
  drainUnlessBusy := by
    refine Prog.Climbs.bind (fun _ => trivial) fun owns => ?_
    cases owns
    · trivial
    · exact climbs_mailbox mailing_drainMailboxEvents
  readSdoUntyped n id i s c := (access_readSdoUntyped n id i s c).mailbox.climbs
  writeSdoUntyped data id i s := (access_writeSdoUntyped data id i s).mailbox.climbs
  foeWrite id f data := (access_foeWrite id f data).mailbox.climbs
  foeRead id f n := (access_foeRead id f n).mailbox.climbs
  updateWrite p tp := by
    obtain ⟨body, hu, hb⟩ := updateWrite_section (S := fun _ => True) (V := fun m => m = [.pdoUpdate])
      (fun _ _ => trivial) rfl p tp fun _ _ => trivial
    rw [hu]
    exact climbs_device hb
  updateRead p tp := by
    obtain ⟨body, hu, hb⟩ := updateRead_section (S := fun _ => True) (V := fun m => m = [.pdoUpdate])
      (fun _ _ => trivial) rfl p tp (fun _ _ => trivial) fun _ => trivial
    rw [hu]
    exact climbs_device hb

/-- The threads of a program and what each is about to do, with sections open. -/
abbrev FineConf := Conf (Fine Act Mutex) (Fine.Ans Ans) Empty Exn St

/-- **No thread waits for a mutex it holds, and no threads wait for each other**, whichever
operations they call, with any hooks and callbacks. -/
theorem no_deadlock {ps : Parameters} {s : St} {c : FineConf}
    (hr : Reaches exec.opened Granted (openedCalls (anyCall ps)) (Conf.idle ⟨s, []⟩) c) :
    (∀ t l, Awaits c t l → ¬Owns c t l) ∧
      ∀ S : Set ℕ, S.Nonempty → ¬∀ t ∈ S, ∃ l, Awaits c t l ∧ ∃ u ∈ S, Owns c u l := by
  have hc : Climbing Mutex.rank c := by
    refine reaches_climbing ?_ hr
    rintro t p ⟨o, hk, hok, rfl⟩
    exact climbs_sectioned.invoke hok o
  have ans : (a : Act) → Ans a := fun a => (exec a default {}).1
  exact ⟨fun t l => hc.not_self ans, fun S => hc.no_circle ans Mutex.rank_lt⟩

/-- A call of `foe_read`. -/
def fileRead : Prog (Fine Act Mutex) (Fine.Ans Ans) Empty Exn Unit :=
  ((Op.foeRead 1 "" 8).invoke {} .none).opened

/-- Two calls: one has taken the mutex of the mailbox, the other is about to. -/
def queued : List (Choice (Fine Act Mutex) (Fine.Ans Ans) Empty Exn Env) :=
  .call 1 fileRead :: Choice.steps 1 3 ++ .call 2 fileRead :: Choice.steps 2 2

/-- One thread in a transfer, another at the mutex of the mailbox. -/
theorem no_deadlock_waiting : ∃ c : FineConf, (Owns c 1 .mailbox ∧ Awaits c 2 .mailbox) ∧
    (∀ t l, Awaits c t l → ¬Owns c t l) ∧
      ∀ S : Set ℕ, S.Nonempty → ¬∀ t ∈ S, ∃ l, Awaits c t l ∧ ∃ u ∈ S, Owns c u l := by
  have h : Reaches exec.opened Granted (openedCalls (anyCall {})) (Conf.idle ⟨{}, []⟩ : FineConf)
      ((Conf.idle ⟨{}, []⟩).follow exec.opened queued) := by
    refine reaches_admitted (fun t p hp => ?_) (by decide)
    obtain rfl : p = fileRead := by
      rw [queued, Choice.steps, Choice.steps] at hp
      simp at hp
      rcases hp with ⟨-, hp⟩ | ⟨-, hp⟩ <;> exact hp
    exact ⟨_, ⟨.foeRead 1 "" 8, .none, UserCode.none_ok _, rfl⟩, rfl⟩
  exact ⟨_, ⟨by decide, _, _, rfl, List.mem_cons_self⟩, no_deadlock h⟩

end EthercatInterface
