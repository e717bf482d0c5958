import EthercatInterface.Lib.Poll
import EthercatInterface.Timing.UpdateRate

/-!
# The pace of the cyclic thread

`PrecisionUpdateRate::step` with its sleep. `high_precision_sleep` lets the kernel wait until
shortly before the deadline, and whatever that does, it reads the clock until the deadline is
there. So a step returns at the first reading from its deadline on (`step_paced`), and a run of
steps with any work in between never gets ahead of the rate (`pace_kept`).
-/

namespace EthercatInterface

/-- `CLOCK_MONOTONIC`, by the number of the reading: it does not go back, and passes every time. -/
structure Clock where
  read : ℕ → Timespec
  normalised : ∀ n, (read n).Normalised
  monotone : ∀ {m n}, m ≤ n → (read m).ns ≤ (read n).ns
  passes : ∀ x : ℤ, ∃ n, x ≤ (read n).ns

namespace Clock

variable {c : Clock} {ts : Timespec} {fuel n m : ℕ}

/-- `high_precision_sleep`, from reading `n` on: the number of the reading that ends it. How far
the kernel has waited before, the readings tell. -/
def highPrecisionSleep (c : Clock) (ts : Timespec) (fuel n : ℕ) : Option ℕ :=
  Poll.poll (fun k => !(c.read k).smallerThan ts) fuel n

theorem sleep_first (ht : ts.Normalised) (h : c.highPrecisionSleep ts fuel n = some m) :
    n ≤ m ∧ ts.ns ≤ (c.read m).ns ∧ ∀ k, n ≤ k → k < m → (c.read k).ns < ts.ns := by
  obtain ⟨hle, hm, hlt⟩ := Poll.poll_first h
  refine ⟨hle, ?_, fun k hk hk' => (Timespec.smallerThan_iff (c.normalised k) ht).1
    (by simpa using hlt k hk hk')⟩
  have hge : ¬(c.read m).ns < ts.ns := fun hs => by
    rw [(Timespec.smallerThan_iff (c.normalised m) ht).2 hs] at hm
    cases hm
  omega

theorem sleep_ends (ht : ts.Normalised) (n : ℕ) : ∃ fuel m, c.highPrecisionSleep ts fuel n = some m := by
  obtain ⟨m, hm⟩ := c.passes ts.ns
  have hend : (!(c.read (max n m)).smallerThan ts) = true := by
    have hle := c.monotone (le_max_right n m)
    rw [Bool.not_eq_true', Bool.eq_false_iff]
    intro hs
    have hlt := (Timespec.smallerThan_iff (c.normalised _) ht).1 hs
    omega
  obtain ⟨k, hk⟩ := Poll.poll_ends (p := fun k => !(c.read k).smallerThan ts) hend (le_max_left n m)
  exact ⟨_, k, hk⟩

end Clock

namespace PrecisionUpdateRate

variable {c : Clock} {r : PrecisionUpdateRate} {fuel n : ℕ}

/-- A step that has returned: the readings it began and ended with, and the rate after it. -/
structure Paced where
  offset : ℤ
  began : ℕ
  ended : ℕ
  overran : Bool
  rate : PrecisionUpdateRate

/-- `step`, with its first reading `n`. -/
def stepAt (r : PrecisionUpdateRate) (c : Clock) (offset : ℤ) (fuel n : ℕ) : Option Paced :=
  let late := r.step offset (c.read n)
  (c.highPrecisionSleep late.2.sleepEnd fuel (n + 1)).map fun m => ⟨offset, n, m, late.1, late.2⟩

/-- A round of the thread: how often its work reads the clock before the step, and the offset. -/
structure Round where
  work : ℕ
  offset : ℤ

/-- The steps of the rounds, the first of which begins with reading `n`. -/
def pace (r : PrecisionUpdateRate) (c : Clock) (fuel : ℕ) : ℕ → List Round → Option (List Paced)
  | _, [] => some []
  | n, k :: l =>
    match r.stepAt c k.offset fuel (n + k.work) with
    | none => none
    | some s => (s.rate.pace c fuel (s.ended + 1) l).map (s :: ·)

/-! ## One step -/

/-- **A step that has returned**: it ended at the first reading from its deadline on. -/
structure StepPaced (c : Clock) (r : PrecisionUpdateRate) (n : ℕ) (s : Paced) : Prop where
  began : s.began = n
  step : StepSpec r ⟨s.offset, c.read n⟩ s.overran s.rate
  due : s.rate.sleepEnd.ns ≤ (c.read s.ended).ns
  first : ∀ k, n < k → k < s.ended → (c.read k).ns < s.rate.sleepEnd.ns
  /-- After an overrun it starts again from the clock. -/
  again : s.overran = true → s.rate.sleepEnd.ns = (c.read n).ns + r.timeStepNs

/-- A step that overran. -/
theorem sleepEnd_overran {offset : ℤ} {now : Timespec} (h : (r.step offset now).1 = true) :
    (r.step offset now).2.sleepEnd = now.addNs r.timeStepNs := by
  simp only [step] at h ⊢
  split
  · rfl
  · next hlate => rw [if_neg hlate] at h; cases h

theorem step_paced (hr : r.sleepEnd.Normalised) {offset : ℤ} {s : Paced}
    (h : r.stepAt c offset fuel n = some s) :
    s.offset = offset ∧ StepPaced c r n s := by
  have hspec := step_spec hr ⟨offset, c.read n⟩ (c.normalised n)
  obtain ⟨m, hm, rfl⟩ := Option.map_eq_some_iff.1 h
  obtain ⟨-, hdue, hfirst⟩ := Clock.sleep_first hspec.normalised hm
  refine ⟨rfl, rfl, hspec, hdue, hfirst, fun hlate => ?_⟩
  rw [sleepEnd_overran hlate, Timespec.addNs_ns]

theorem step_ends (hr : r.sleepEnd.Normalised) (c : Clock) (offset : ℤ) (n : ℕ) :
    ∃ fuel s, r.stepAt c offset fuel n = some s := by
  have hspec := step_spec hr ⟨offset, c.read n⟩ (c.normalised n)
  obtain ⟨fuel, m, hm⟩ := c.sleep_ends hspec.normalised (n + 1)
  exact ⟨fuel, _, Option.map_eq_some_iff.2 ⟨m, hm, rfl⟩⟩

theorem step_more {offset : ℤ} {s : Paced} {more : ℕ} (h : r.stepAt c offset fuel n = some s)
    (hf : fuel ≤ more) :
    r.stepAt c offset more n = some s := by
  obtain ⟨m, hm, rfl⟩ := Option.map_eq_some_iff.1 h
  exact Option.map_eq_some_iff.2 ⟨m, Poll.poll_more hm hf, rfl⟩

/-! ## Any number of steps -/

/-- A step after the steps `done`, the first of which began with rate `r`. -/
structure Kept (c : Clock) (r : PrecisionUpdateRate) (done : List Paced) (s : Paced) : Prop where
  /-- Its deadline is not ahead of the rate. -/
  ahead : r.sleepEnd.ns + ((done ++ [s]).map fun x => r.timeStepNs + x.offset).sum ≤ s.rate.sleepEnd.ns
  due : s.rate.sleepEnd.ns ≤ (c.read s.ended).ns
  first : ∀ k, s.began < k → k < s.ended → (c.read k).ns < s.rate.sleepEnd.ns
  again : s.overran = true → s.rate.sleepEnd.ns = (c.read s.began).ns + r.timeStepNs
  /-- In time, the deadlines do not drift. -/
  exact : (∀ x ∈ done ++ [s], x.overran = false) →
    s.rate.sleepEnd.ns = r.sleepEnd.ns + ((done ++ [s]).map fun x => r.timeStepNs + x.offset).sum

/-- The first step. -/
theorem StepPaced.kept {s : Paced} (h : StepPaced c r n s) (hstep : 0 ≤ r.timeStepNs) : Kept c r [] s := by
  have hdeadline := h.step.deadline
  have hlast := h.step.last
  refine ⟨?_, h.due, by rw [h.began]; exact h.first, by rw [h.began]; exact h.again, fun hx => ?_⟩
  all_goals simp only [List.nil_append, List.map_cons, List.map_nil, List.sum_cons, List.sum_nil, Int.add_zero]
  · cases hlate : s.overran <;> simp only [hlate, if_true, Bool.false_eq_true,
      if_false] at hdeadline hlast <;> omega
  · rw [hx s (by simp)] at hdeadline hlast
    simp only [Bool.false_eq_true, if_false] at hdeadline hlast
    omega

/-- A step after others, from one after all of these but the first. -/
theorem Kept.after {s₀ s : Paced} {done : List Paced} (h₀ : StepPaced c r n s₀) (hstep : 0 ≤ r.timeStepNs)
    (h : Kept c s₀.rate done s) : Kept c r (s₀ :: done) s := by
  have hdeadline := h₀.step.deadline
  have hlast := h₀.step.last
  have htime : s₀.rate.timeStepNs = r.timeStepNs := h₀.step.timeStep
  obtain ⟨hahead, hdue, hfirst, hagain, hexact⟩ := h
  rw [htime] at hahead hagain hexact
  refine ⟨?_, hdue, hfirst, hagain, fun hx => ?_⟩
  all_goals rw [List.cons_append, List.map_cons, List.sum_cons]
  · cases hlate : s₀.overran <;> simp only [hlate, if_true, Bool.false_eq_true,
      if_false] at hdeadline hlast <;> omega
  · rw [hexact fun x hm => hx x (List.mem_cons_of_mem _ hm)]
    rw [hx s₀ List.mem_cons_self] at hdeadline hlast
    simp only [Bool.false_eq_true, if_false] at hdeadline hlast
    omega

theorem pace_spec {l : List Round} (hr : r.sleepEnd.Normalised) (hstep : 0 ≤ r.timeStepNs) {out : List Paced}
    (h : r.pace c fuel n l = some out) :
    out.map (·.offset) = l.map (·.offset) ∧ ∀ done s rest, out = done ++ s :: rest → Kept c r done s := by
  induction l generalizing r n out with
  | nil =>
    obtain rfl := Option.some.inj h
    exact ⟨rfl, fun done s rest hx => by cases done <;> cases hx⟩
  | cons k l ih =>
    rw [pace] at h
    split at h
    · cases h
    · next s₀ hs =>
      obtain ⟨out, hout, rfl⟩ := Option.map_eq_some_iff.1 h
      obtain ⟨hoffset, hpaced⟩ := step_paced hr hs
      obtain ⟨hoffsets, hkept⟩ := ih hpaced.step.normalised (hpaced.step.timeStep.symm ▸ hstep) hout
      refine ⟨by rw [List.map_cons, List.map_cons, hoffset, hoffsets], fun done s rest hx => ?_⟩
      cases done with
      | nil =>
        obtain rfl := (List.cons.inj hx).1
        exact hpaced.kept hstep
      | cons x done =>
        obtain ⟨rfl, hrest⟩ := List.cons.inj hx
        exact (hkept done s rest hrest).after hpaced hstep

theorem pace_more {l : List Round} {out : List Paced} {more : ℕ} (h : r.pace c fuel n l = some out)
    (hf : fuel ≤ more) : r.pace c more n l = some out := by
  induction l generalizing r n out with
  | nil => exact h
  | cons k l ih =>
    rw [pace] at h ⊢
    split at h
    · cases h
    · next s₀ hs =>
      obtain ⟨out, hout, rfl⟩ := Option.map_eq_some_iff.1 h
      rw [step_more hs hf]
      exact Option.map_eq_some_iff.2 ⟨out, ih hout, rfl⟩

theorem pace_ends {l : List Round} (hr : r.sleepEnd.Normalised) (c : Clock) (n : ℕ) :
    ∃ fuel out, r.pace c fuel n l = some out := by
  induction l generalizing r n with
  | nil => exact ⟨0, [], rfl⟩
  | cons k l ih =>
    obtain ⟨fuel₁, s, hs⟩ := step_ends hr c k.offset (n + k.work)
    obtain ⟨fuel₂, out, hout⟩ := ih (step_paced hr hs).2.step.normalised (s.ended + 1)
    refine ⟨max fuel₁ fuel₂, s :: out, ?_⟩
    rw [pace, step_more hs (le_max_left _ _)]
    exact Option.map_eq_some_iff.2 ⟨out, pace_more hout (le_max_right _ _), rfl⟩

/-- **The rate is kept.** From construction or reset on, any number of rounds end, and no step returns
before the rate allows: its deadline is at least where the steps and offsets so far put it, and
exactly there if none of them overran; it returns at the first reading of the clock that has
reached the deadline; and after an overrun the deadline is a full step after the clock. -/
theorem pace_kept {timeStep : ℤ} {t0 : Timespec} (hr : Fresh timeStep t0 r) (h0 : t0.Normalised)
    (hstep : 0 ≤ timeStep) (c : Clock) (n : ℕ) (l : List Round) :
    (∃ fuel out, r.pace c fuel n l = some out) ∧ ∀ fuel out, r.pace c fuel n l = some out →
      out.map (·.offset) = l.map (·.offset) ∧ ∀ done s rest, out = done ++ s :: rest →
        t0.ns + ((done ++ [s]).map fun x => timeStep + x.offset).sum ≤ s.rate.sleepEnd.ns ∧
          s.rate.sleepEnd.ns ≤ (c.read s.ended).ns ∧
          (∀ k, s.began < k → k < s.ended → (c.read k).ns < s.rate.sleepEnd.ns) ∧
          (s.overran = true → s.rate.sleepEnd.ns = (c.read s.began).ns + timeStep) ∧
          ((∀ x ∈ done ++ [s], x.overran = false) →
            s.rate.sleepEnd.ns = t0.ns + ((done ++ [s]).map fun x => timeStep + x.offset).sum) := by
  obtain ⟨htime, hend⟩ : r.timeStepNs = timeStep ∧ r.sleepEnd = t0 := by
    rcases hr with rfl | ⟨r₀, rfl, rfl⟩ <;> exact ⟨rfl, rfl⟩
  subst htime hend
  refine ⟨pace_ends h0 c n, fun fuel out hout => ?_⟩
  obtain ⟨hoffsets, hkept⟩ := pace_spec h0 hstep hout
  refine ⟨hoffsets, fun done s rest hx => ?_⟩
  have hk := hkept done s rest hx
  exact ⟨hk.ahead, hk.due, hk.first, hk.again, hk.exact⟩

/-- A clock that is read every 400 µs. -/
def ticking : Clock where
  read n := Timespec.addNs ⟨0, 0⟩ (400000 * n)
  normalised n := Timespec.addNs_normalised (by decide) _
  monotone h := by
    rw [Timespec.addNs_ns, Timespec.addNs_ns]
    omega
  passes x := ⟨x.toNat, by
    rw [Timespec.addNs_ns, show Timespec.ns ⟨0, 0⟩ = 0 from rfl]
    omega⟩

/-- In time, then with so much work that the deadline is missed. -/
def busyOnce : List Round := [⟨0, 100⟩, ⟨9, 0⟩]

theorem pace_kept_busy : ∃ fuel out, (construct 1000000 ⟨0, 0⟩).pace ticking fuel 0 busyOnce = some out ∧
    out.map (·.offset) = [100, 0] ∧ ∀ done s rest, out = done ++ s :: rest →
      0 + ((done ++ [s]).map fun x => 1000000 + x.offset).sum ≤ (ticking.read s.ended).ns := by
  have hfresh : Fresh 1000000 ⟨0, 0⟩ (construct 1000000 ⟨0, 0⟩) := .inl rfl
  obtain ⟨⟨fuel, out, hout⟩, hkept⟩ := pace_kept hfresh (by decide) (by decide) ticking 0 busyOnce
  obtain ⟨hoffsets, hpaced⟩ := hkept fuel out hout
  refine ⟨fuel, out, hout, hoffsets, fun done s rest hx => ?_⟩
  obtain ⟨hahead, hdue, -⟩ := hpaced done s rest hx
  exact le_trans hahead hdue

end PrecisionUpdateRate

end EthercatInterface
