import EthercatInterface.Spec.Types
import Mathlib.Algebra.BigOperators.Group.List.Basic
import Mathlib.Algebra.Order.Ring.Int
import Mathlib.Tactic.Common
import Mathlib.Tactic.Linarith

/-!
# The update rate of the cyclic thread

`precision_update_rate.hpp`: the arithmetic of `timespec` and `PrecisionUpdateRate::step`. A
step reads the clock once before it sleeps; what `high_precision_sleep` does afterwards is no
part of the state.

The arithmetic comes twice: `Timespec` has integers for seconds and nanoseconds, `Timespec64` the
64 bits of the machine. The two agree as long as nothing overflows (`exact_addNs`, `toInt_diffNs`).

* `Timespec64.addNs_action`: the laws of times and differences hold of the machine's arithmetic for
  sums and differences **that 64 bits hold**, up to 292 years; `addNs_action_overflow` is beyond that.
* `PrecisionUpdateRate.deadline_exact`: after any number of steps, with any offsets and any clock, the
  deadline is where the steps and their offsets put it, moved by the delays counted and by one time
  step for each overrun, in integers.
-/

namespace EthercatInterface

def billion : ℤ := 1000000000

/-- `timespec`, in integers. -/
structure Timespec where
  tvSec : ℤ
  tvNsec : ℤ
  deriving DecidableEq

namespace Timespec

/-- In nanoseconds. -/
def ns (t : Timespec) : ℤ := t.tvSec * billion + t.tvNsec

/-- What `clock_gettime` returns. -/
def Normalised (t : Timespec) : Prop := 0 ≤ t.tvNsec ∧ t.tvNsec < billion

instance (t : Timespec) : Decidable t.Normalised := inferInstanceAs (Decidable (_ ∧ _))

/-- `timespec_smaller_than`. -/
def smallerThan (ts1 ts2 : Timespec) : Bool :=
  ts1.tvSec < ts2.tvSec || (ts1.tvSec = ts2.tvSec && ts1.tvNsec < ts2.tvNsec)

/-- `timespec_diff_ns`. -/
def diffNs (a b : Timespec) : ℤ := (a.tvSec - b.tvSec) * billion + (a.tvNsec - b.tvNsec)

/-- `timespec_add_ns`; division and remainder truncate. -/
def addNs (t : Timespec) (ns : ℤ) : Timespec :=
  let sec := t.tvSec + ns.tdiv billion
  let nsec := t.tvNsec + ns.tmod billion
  if billion ≤ nsec then ⟨sec + 1, nsec - billion⟩
  else if nsec < 0 then ⟨sec - 1, nsec + billion⟩
  else ⟨sec, nsec⟩

theorem addNs_carry {t : Timespec} {x : ℤ} (h : billion ≤ t.tvNsec + x.tmod billion) :
    t.addNs x = ⟨t.tvSec + x.tdiv billion + 1, t.tvNsec + x.tmod billion - billion⟩ := by
  simp only [addNs, if_pos h]

theorem addNs_borrow {t : Timespec} {x : ℤ} (h : t.tvNsec + x.tmod billion < 0) :
    t.addNs x = ⟨t.tvSec + x.tdiv billion - 1, t.tvNsec + x.tmod billion + billion⟩ := by
  have hc : ¬billion ≤ t.tvNsec + x.tmod billion := fun hc => absurd (hc.trans_lt h) (by decide)
  simp only [addNs, if_neg hc, if_pos h]

theorem addNs_within {t : Timespec} {x : ℤ} (hc : ¬billion ≤ t.tvNsec + x.tmod billion)
    (hb : ¬t.tvNsec + x.tmod billion < 0) :
    t.addNs x = ⟨t.tvSec + x.tdiv billion, t.tvNsec + x.tmod billion⟩ := by
  simp only [addNs, if_neg hc, if_neg hb]

/-- A comparison of seconds, then of nanoseconds, is one of the times. -/
theorem smallerThan_iff {a b : Timespec} (ha : a.Normalised) (hb : b.Normalised) :
    a.smallerThan b = true ↔ a.ns < b.ns := by
  obtain ⟨ha₀, ha₁⟩ := ha
  obtain ⟨hb₀, hb₁⟩ := hb
  simp only [smallerThan, Bool.or_eq_true, Bool.and_eq_true, decide_eq_true_eq, ns, billion] at *
  omega

theorem diffNs_eq (a b : Timespec) : a.diffNs b = a.ns - b.ns := by
  simp only [diffNs, ns, billion]
  omega

theorem addNs_ns (t : Timespec) (x : ℤ) : (t.addNs x).ns = t.ns + x := by
  have h := Int.tmod_add_mul_tdiv x billion
  simp only [addNs]
  split
  · simp only [ns, billion] at *
    omega
  · split <;> simp only [ns, billion] at * <;> omega

/-- One carry is enough. -/
theorem addNs_normalised {t : Timespec} (ht : t.Normalised) (x : ℤ) : (t.addNs x).Normalised := by
  have hl := Int.lt_tmod_of_pos x (show (0 : ℤ) < billion by decide)
  have hu := Int.tmod_lt_of_pos x (show (0 : ℤ) < billion by decide)
  obtain ⟨ht₀, ht₁⟩ := ht
  simp only [addNs]
  split
  · exact ⟨by simp only; omega, by simp only; omega⟩
  · split
    · exact ⟨by simp only; omega, by simp only; omega⟩
    · exact ⟨by simp only; omega, by simp only; omega⟩

/-- Normalised, a time is denoted once. -/
theorem eq_of_ns {a b : Timespec} (ha : a.Normalised) (hb : b.Normalised) (h : a.ns = b.ns) : a = b := by
  obtain ⟨ha₀, ha₁⟩ := ha
  obtain ⟨hb₀, hb₁⟩ := hb
  obtain ⟨as, an⟩ := a
  obtain ⟨bs, bn⟩ := b
  simp only [ns, billion] at *
  obtain rfl : as = bs := by omega
  obtain rfl : an = bn := by omega
  rfl

end Timespec

/-! ## In 64 bits -/

def billion64 : Int64 := 1000000000

/-- `timespec` with the integers of the machine: a signed overflow wraps around, as compiled. -/
structure Timespec64 where
  tvSec : Int64
  tvNsec : Int64
  deriving DecidableEq

namespace Timespec64

/-- The same, in integers. -/
def exact (t : Timespec64) : Timespec := ⟨t.tvSec.toInt, t.tvNsec.toInt⟩

def Normalised (t : Timespec64) : Prop := t.exact.Normalised

instance (t : Timespec64) : Decidable t.Normalised := inferInstanceAs (Decidable t.exact.Normalised)

def ns (t : Timespec64) : ℤ := t.exact.ns

/-- `timespec_smaller_than`. -/
def smallerThan (ts1 ts2 : Timespec64) : Bool :=
  ts1.tvSec < ts2.tvSec || (ts1.tvSec = ts2.tvSec && ts1.tvNsec < ts2.tvNsec)

/-- `timespec_diff_ns`. -/
def diffNs (a b : Timespec64) : Int64 := (a.tvSec - b.tvSec) * billion64 + (a.tvNsec - b.tvNsec)

/-- `timespec_add_ns`. -/
def addNs (t : Timespec64) (ns : Int64) : Timespec64 :=
  let sec := t.tvSec + ns / billion64
  let nsec := t.tvNsec + ns % billion64
  if billion64 ≤ nsec then ⟨sec + 1, nsec - billion64⟩
  else if nsec < 0 then ⟨sec - 1, nsec + billion64⟩
  else ⟨sec, nsec⟩

/-- `timespec_add_ns` does not overflow `tv_sec`. -/
def Holds (t : Timespec64) (ns : Int64) : Prop := Fits64 (t.exact.addNs ns.toInt).tvSec

instance (t : Timespec64) (ns : Int64) : Decidable (t.Holds ns) := inferInstanceAs (Decidable (Fits64 _))

theorem exact_inj {t u : Timespec64} : t.exact = u.exact ↔ t = u := by
  obtain ⟨ts, tn⟩ := t
  obtain ⟨us, un⟩ := u
  simp [exact, Int64.toInt_inj]

theorem smallerThan_exact (a b : Timespec64) : a.smallerThan b = a.exact.smallerThan b.exact := by
  have hsec : a.tvSec = b.tvSec ↔ a.exact.tvSec = b.exact.tvSec := Int64.toInt_inj.symm
  simp only [smallerThan, Timespec.smallerThan, Int64.lt_iff_toInt_lt, hsec]
  rfl

theorem toInt_billion64 : billion64.toInt = 1000000000 := by decide

/-- Whatever overflows on the way, the difference is the exact one modulo `2 ^ 64`. -/
theorem toInt_diffNs (a b : Timespec64) :
    (a.diffNs b).toInt = (a.exact.diffNs b.exact).bmod (2 ^ 64) := by
  simp only [diffNs, Timespec.diffNs, exact, Int64.toInt_add, Int64.toInt_mul, Int64.toInt_sub, toInt_billion64,
    Int.bmod_mul_bmod, Int.bmod_add_bmod, Int.add_bmod_bmod, billion]

/-- Without an overflow of `tv_sec`, the sum is exact. -/
theorem exact_addNs {t : Timespec64} (ht : t.Normalised) {x : Int64} (hx : t.Holds x) :
    (t.addNs x).exact = t.exact.addNs x.toInt := by
  have hl := Int.lt_tmod_of_pos x.toInt (show (0 : ℤ) < 1000000000 by decide)
  have hu := Int.tmod_lt_of_pos x.toInt (show (0 : ℤ) < 1000000000 by decide)
  obtain ⟨ht₀, ht₁⟩ : 0 ≤ t.tvNsec.toInt ∧ t.tvNsec.toInt < 1000000000 := ht
  have hq : (x / billion64).toInt = x.toInt.tdiv 1000000000 := by
    rw [Int64.toInt_div_of_ne_right x billion64 (by decide), toInt_billion64]
  have hsec : (t.tvSec + x / billion64).toInt = (t.tvSec.toInt + x.toInt.tdiv 1000000000).bmod (2 ^ 64) := by
    rw [Int64.toInt_add, hq]
  -- the nanoseconds stay below two seconds in size
  have hnsec : (t.tvNsec + x % billion64).toInt = t.tvNsec.toInt + x.toInt.tmod 1000000000 := by
    rw [Int64.toInt_add, Int64.toInt_mod, toInt_billion64]
    exact Fits64.bmod ⟨by omega, by omega⟩
  by_cases hc : 1000000000 ≤ t.tvNsec.toInt + x.toInt.tmod 1000000000
  · have hle : billion64 ≤ t.tvNsec + x % billion64 := by rwa [Int64.le_iff_toInt_le, hnsec, toInt_billion64]
    have hsum := Timespec.addNs_carry (show billion ≤ t.exact.tvNsec + x.toInt.tmod billion from hc)
    rw [Holds, hsum] at hx
    rw [hsum, addNs, if_pos hle]
    have hcarried : (t.tvNsec + x % billion64 - billion64).toInt =
        t.tvNsec.toInt + x.toInt.tmod 1000000000 - 1000000000 := by
      rw [Int64.toInt_sub, hnsec, toInt_billion64]
      exact Fits64.bmod ⟨by omega, by omega⟩
    have hmore : (t.tvSec + x / billion64 + 1).toInt = t.tvSec.toInt + x.toInt.tdiv 1000000000 + 1 := by
      rw [Int64.toInt_add, hsec, Int64.toInt_one, Int.bmod_add_bmod]
      exact hx.bmod
    rw [exact, hmore, hcarried]
    rfl
  have hle : ¬billion64 ≤ t.tvNsec + x % billion64 := by rwa [Int64.le_iff_toInt_le, hnsec, toInt_billion64]
  by_cases hb : t.tvNsec.toInt + x.toInt.tmod 1000000000 < 0
  · have hlt : t.tvNsec + x % billion64 < 0 := by rwa [Int64.lt_iff_toInt_lt, hnsec, Int64.toInt_zero]
    have hsum := Timespec.addNs_borrow (show t.exact.tvNsec + x.toInt.tmod billion < 0 from hb)
    rw [Holds, hsum] at hx
    rw [hsum, addNs, if_neg hle, if_pos hlt]
    have hborrowed : (t.tvNsec + x % billion64 + billion64).toInt =
        t.exact.tvNsec + x.toInt.tmod billion + billion := by
      rw [Int64.toInt_add, hnsec, toInt_billion64, Fits64.bmod ⟨by omega, by omega⟩]
      rfl
    have hless : (t.tvSec + x / billion64 - 1).toInt = t.tvSec.toInt + x.toInt.tdiv 1000000000 - 1 := by
      rw [Int64.toInt_sub, hsec, Int64.toInt_one, Int.bmod_sub_bmod]
      exact hx.bmod
    rw [exact, hless, hborrowed]
    rfl
  · have hlt : ¬t.tvNsec + x % billion64 < 0 := by rwa [Int64.lt_iff_toInt_lt, hnsec, Int64.toInt_zero]
    have hsum := Timespec.addNs_within (show ¬billion ≤ t.exact.tvNsec + x.toInt.tmod billion from hc)
      (show ¬t.exact.tvNsec + x.toInt.tmod billion < 0 from hb)
    rw [Holds, hsum] at hx
    rw [hsum, addNs, if_neg hle, if_neg hlt, exact, hsec.trans hx.bmod, hnsec]
    rfl

/-- **Times and differences**: nanoseconds are added and taken back without loss, and composed if
64 bits hold their sum; a difference leads back, and its sign is the order, if 64 bits hold it. -/
theorem addNs_action {t u : Timespec64} (ht : t.Normalised) (hu : u.Normalised) (x a b : Int64) :
    (t.Holds x → (t.addNs x).Normalised ∧ (t.addNs x).ns = t.ns + x.toInt ∧ (t.addNs x).diffNs t = x) ∧
      (t.Holds a → (t.addNs a).Holds b → Fits64 (a.toInt + b.toInt) →
        (t.addNs a).addNs b = t.addNs (a + b)) ∧
      (Fits64 (t.ns - u.ns) → u.addNs (t.diffNs u) = t ∧ (t.smallerThan u = true ↔ t.diffNs u < 0)) := by
  refine ⟨fun hx => ?_, fun ha hb hab => ?_, fun hd => ?_⟩
  · have hsum := exact_addNs ht hx
    have hns : (t.addNs x).ns = t.ns + x.toInt := by rw [ns, hsum, Timespec.addNs_ns, ns]
    refine ⟨?_, hns, ?_⟩
    · rw [Normalised, hsum]
      exact Timespec.addNs_normalised ht _
    · rw [← Int64.toInt_inj, toInt_diffNs, hsum, Timespec.diffNs_eq, Timespec.addNs_ns, add_sub_cancel_left]
      exact Fits64.bmod ⟨x.le_toInt, x.toInt_lt⟩
  · have hta := exact_addNs ht ha
    have hna : (t.addNs a).Normalised := by
      rw [Normalised, hta]
      exact Timespec.addNs_normalised ht _
    have hsum : (a + b).toInt = a.toInt + b.toInt := by rw [Int64.toInt_add, hab.bmod]
    have hboth : (t.exact.addNs a.toInt).addNs b.toInt = t.exact.addNs (a.toInt + b.toInt) := by
      refine Timespec.eq_of_ns (Timespec.addNs_normalised (Timespec.addNs_normalised ht _) _)
        (Timespec.addNs_normalised ht _) ?_
      rw [Timespec.addNs_ns, Timespec.addNs_ns, Timespec.addNs_ns, add_assoc]
    have hholds : t.Holds (a + b) := by
      rw [Holds, hsum, ← hboth, ← hta]
      exact hb
    rw [← exact_inj, exact_addNs hna hb, exact_addNs ht hholds, hta, hboth, hsum]
  · have hdiff : (t.diffNs u).toInt = t.ns - u.ns := by
      rw [toInt_diffNs, Timespec.diffNs_eq]
      exact hd.bmod
    have hback : u.exact.addNs (t.ns - u.ns) = t.exact := by
      refine Timespec.eq_of_ns (Timespec.addNs_normalised hu _) ht ?_
      rw [Timespec.addNs_ns, ns, ns]
      omega
    have hholds : u.Holds (t.diffNs u) := by
      rw [Holds, hdiff, hback]
      exact ⟨t.tvSec.le_toInt, t.tvSec.toInt_lt⟩
    refine ⟨?_, ?_⟩
    · rw [← exact_inj, exact_addNs hu hholds, hdiff, hback]
    · rw [smallerThan_exact, Timespec.smallerThan_iff ht hu, Int64.lt_iff_toInt_lt, hdiff,
        Int64.toInt_zero, ns, ns]
      omega

/-- Back over the edge of a second, and on again. -/
theorem addNs_action_borrow :
    let t : Timespec64 := ⟨5, 100⟩
    let u : Timespec64 := ⟨4, 999999000⟩
    t.addNs (-1000) = ⟨4, 999999100⟩ ∧ (t.addNs (-1000)).diffNs t = -1000 ∧
      (t.addNs (-1000)).addNs 2000000900 = t.addNs (-1000 + 2000000900) ∧
      u.addNs (t.diffNs u) = t ∧ (t.smallerThan u = true ↔ t.diffNs u < 0) := by
  intro t u
  obtain ⟨hadd, hcomp, hdiff⟩ :=
    addNs_action (t := t) (u := u) (by decide) (by decide) (-1000) (-1000) 2000000900
  exact ⟨by decide, (hadd (by decide)).2.2, hcomp (by decide) (by decide) (by decide), hdiff (by decide)⟩

/-- Two times 317 years apart. -/
theorem addNs_action_overflow :
    let t : Timespec64 := ⟨10000000000, 0⟩
    let u : Timespec64 := ⟨0, 0⟩
    t.Normalised ∧ u.Normalised ∧ u.Holds (t.diffNs u) ∧ t.diffNs u = -8446744073709551616 ∧
      u.addNs (t.diffNs u) ≠ t ∧ ¬(t.smallerThan u = true ↔ t.diffNs u < 0) := by
  decide

end Timespec64

/-- `PrecisionUpdateRate`. -/
structure PrecisionUpdateRate where
  timeStepNs : ℤ
  accumulatedDelayNs : ℤ := 0
  lastDelayNs : ℤ := 0
  overrunCount : ℕ := 0
  sleepEnd : Timespec

namespace PrecisionUpdateRate

/-- `reset`, at clock reading `now`. -/
def reset (r : PrecisionUpdateRate) (now : Timespec) : PrecisionUpdateRate :=
  { r with sleepEnd := now, lastDelayNs := 0, accumulatedDelayNs := 0, overrunCount := 0 }

/-- The constructor, at clock reading `now`. -/
def construct (timeStep : ℤ) (now : Timespec) : PrecisionUpdateRate :=
  reset { timeStepNs := timeStep, sleepEnd := ⟨0, 0⟩ } now

/-- `step`, up to its sleep: whether it overran. -/
def step (r : PrecisionUpdateRate) (syncOffset : ℤ) (now : Timespec) : Bool × PrecisionUpdateRate :=
  let sleepEnd := r.sleepEnd.addNs (r.timeStepNs + syncOffset)
  if sleepEnd.smallerThan now then
    (true, { r with
      overrunCount := r.overrunCount + 1
      lastDelayNs := now.diffNs sleepEnd
      accumulatedDelayNs := r.accumulatedDelayNs + now.diffNs sleepEnd
      sleepEnd := now.addNs r.timeStepNs })
  else (false, { r with lastDelayNs := 0, sleepEnd := sleepEnd })

/-- A call of `step`: its offset, and the clock reading it takes. -/
structure Tick where
  offset : ℤ
  now : Timespec

/-- A step as a caller sees it: the call, what it returned, and the rate after it. -/
structure Taken where
  tick : Tick
  overran : Bool
  rate : PrecisionUpdateRate

/-- The rate after the steps of `l`. -/
def after (r : PrecisionUpdateRate) (l : List Tick) : PrecisionUpdateRate :=
  l.foldl (fun r k => (r.step k.offset k.now).2) r

/-- The steps of `l`, one by one. -/
def steps : PrecisionUpdateRate → List Tick → List Taken
  | _, [] => []
  | r, k :: l => ⟨k, (r.step k.offset k.now).1, (r.step k.offset k.now).2⟩ ::
      (r.step k.offset k.now).2.steps l

/-- A rate that was just constructed or reset, with time step `timeStep`, at `t0`. -/
def Fresh (timeStep : ℤ) (t0 : Timespec) (r : PrecisionUpdateRate) : Prop :=
  r = construct timeStep t0 ∨ ∃ r₀ : PrecisionUpdateRate, r₀.timeStepNs = timeStep ∧ r = r₀.reset t0

variable {r : PrecisionUpdateRate} {timeStep : ℤ} {t0 : Timespec}

/-- **One step**: the delay it adds is what it reports, and moves the deadline, with one more
time step, past the clock. -/
structure StepSpec (r : PrecisionUpdateRate) (k : Tick) (overran : Bool) (r' : PrecisionUpdateRate) :
    Prop where
  timeStep : r'.timeStepNs = r.timeStepNs
  normalised : r'.sleepEnd.Normalised
  count : r'.overrunCount = r.overrunCount + if overran then 1 else 0
  delay : r'.accumulatedDelayNs = r.accumulatedDelayNs + r'.lastDelayNs
  last : if overran then 0 < r'.lastDelayNs else r'.lastDelayNs = 0
  deadline : r'.sleepEnd.ns = r.sleepEnd.ns + (r.timeStepNs + k.offset) + r'.lastDelayNs +
    if overran then r.timeStepNs else 0
  ahead : 0 ≤ r.timeStepNs → k.now.ns ≤ r'.sleepEnd.ns

theorem step_spec (hr : r.sleepEnd.Normalised) (k : Tick) (hk : k.now.Normalised) :
    StepSpec r k (r.step k.offset k.now).1 (r.step k.offset k.now).2 := by
  set due := r.sleepEnd.addNs (r.timeStepNs + k.offset) with hdue
  have hn : due.Normalised := Timespec.addNs_normalised hr _
  have hns : due.ns = r.sleepEnd.ns + (r.timeStepNs + k.offset) := Timespec.addNs_ns _ _
  by_cases hlate : due.smallerThan k.now = true
  · have hlt : due.ns < k.now.ns := (Timespec.smallerThan_iff hn hk).1 hlate
    have hdiff := Timespec.diffNs_eq k.now due
    have hnext := Timespec.addNs_ns k.now r.timeStepNs
    simp only [step, ← hdue, if_pos hlate]
    exact ⟨rfl, Timespec.addNs_normalised hk _, rfl, rfl, by simp only [if_true]; omega,
      by simp only [if_true]; omega, fun h0 => by simp only; omega⟩
  · have hge : ¬due.ns < k.now.ns := fun h => hlate ((Timespec.smallerThan_iff hn hk).2 h)
    simp only [step, ← hdue, if_neg hlate]
    exact ⟨rfl, hn, rfl, by simp, by simp, by simp [hns], fun _ => by simp only; omega⟩

/-- What any number of steps add up to. -/
structure RunSpec (r : PrecisionUpdateRate) (l : List Tick) (r' : PrecisionUpdateRate)
    (taken : List Taken) : Prop where
  timeStep : r'.timeStepNs = r.timeStepNs
  count : r'.overrunCount = r.overrunCount + taken.countP (·.overran)
  delay : r'.accumulatedDelayNs = r.accumulatedDelayNs + (taken.map (·.rate.lastDelayNs)).sum
  last : ∀ s ∈ taken, if s.overran then 0 < s.rate.lastDelayNs else s.rate.lastDelayNs = 0
  deadline : r'.sleepEnd.ns = r.sleepEnd.ns + (l.map fun k => r.timeStepNs + k.offset).sum +
    (r'.accumulatedDelayNs - r.accumulatedDelayNs) +
    ((r'.overrunCount : ℤ) - r.overrunCount) * r.timeStepNs
  ahead : 0 ≤ r.timeStepNs → ∀ s ∈ taken, s.tick.now.ns ≤ s.rate.sleepEnd.ns

/-- **Any number of steps.** -/
theorem run_spec {l : List Tick} (hl : ∀ k ∈ l, k.now.Normalised) :
    ∀ {r : PrecisionUpdateRate}, r.sleepEnd.Normalised → RunSpec r l (r.after l) (r.steps l) := by
  induction l with
  | nil =>
    intro r _
    exact ⟨rfl, rfl, by simp [after, steps], fun s hs => by simp [steps] at hs, by simp [after],
      fun _ s hs => by simp [steps] at hs⟩
  | cons k l ih =>
    intro r hr
    -- the first step moves the deadline by a period and its overrun; the rest follows by induction
    have h₁ := step_spec hr k (hl k List.mem_cons_self)
    obtain ⟨late, r₁, hst⟩ : ∃ late r₁, r.step k.offset k.now = (late, r₁) := ⟨_, _, rfl⟩
    have hafter : r.after (k :: l) = r₁.after l := by simp [after, hst]
    have hsteps : r.steps (k :: l) = ⟨k, late, r₁⟩ :: r₁.steps l := by simp [steps, hst]
    rw [hst] at h₁
    have h₂ := ih (fun k hk => hl k (List.mem_cons_of_mem _ hk)) h₁.normalised
    rw [hafter, hsteps]
    refine ⟨h₂.timeStep.trans h₁.timeStep, ?_, ?_, ?_, ?_, ?_⟩
    · rw [h₂.count, h₁.count, List.countP_cons]
      dsimp only
      omega
    · rw [h₂.delay, h₁.delay, List.map_cons, List.sum_cons]
      dsimp only
      omega
    · intro s hs
      rcases List.mem_cons.1 hs with rfl | hs
      · exact h₁.last
      · exact h₂.last s hs
    · have hd₁ := h₁.deadline
      have hd₂ := h₂.deadline
      have hc := h₁.count
      have ha := h₁.delay
      rw [h₁.timeStep] at hd₂
      rw [List.map_cons, List.sum_cons]
      cases late with
      | true =>
        simp only [if_true] at hd₁ hc
        rw [hc] at hd₂
        push_cast at hd₂
        linarith
      | false =>
        simp only [Bool.false_eq_true, if_false, Nat.add_zero] at hd₁ hc
        rw [hc] at hd₂
        linarith
    · intro h0 s hs
      rcases List.mem_cons.1 hs with rfl | hs
      · exact h₁.ahead h0
      · exact h₂.ahead (h₁.timeStep.symm ▸ h0) s hs

/-- **The deadline, exactly**, after any number of steps with any offsets and any clock. -/
theorem deadline_exact (hr : Fresh timeStep t0 r) (h0 : t0.Normalised) (l : List Tick)
    (hl : ∀ k ∈ l, k.now.Normalised) :
    (r.after l).sleepEnd.ns = t0.ns + (l.map fun k => timeStep + k.offset).sum +
        (r.after l).accumulatedDelayNs + (r.after l).overrunCount * timeStep ∧
      (r.after l).overrunCount = (r.steps l).countP (·.overran) ∧
      (r.after l).accumulatedDelayNs = ((r.steps l).map (·.rate.lastDelayNs)).sum ∧
      (∀ s ∈ r.steps l, if s.overran then 0 < s.rate.lastDelayNs else s.rate.lastDelayNs = 0) ∧
      (0 ≤ timeStep → ∀ s ∈ r.steps l, s.tick.now.ns ≤ s.rate.sleepEnd.ns) := by
  obtain ⟨hts, hend, hc, ha⟩ : r.timeStepNs = timeStep ∧ r.sleepEnd = t0 ∧ r.overrunCount = 0 ∧
      r.accumulatedDelayNs = 0 := by
    rcases hr with rfl | ⟨r₀, rfl, rfl⟩ <;> exact ⟨rfl, rfl, rfl, rfl⟩
  have h := run_spec hl (r := r) (hend ▸ h0)
  have hd := h.deadline
  have hcount := h.count
  have hdelay := h.delay
  rw [hts, hend, hc, ha] at hd
  rw [hc] at hcount
  rw [ha] at hdelay
  refine ⟨?_, by omega, by omega, h.last, fun h0 => h.ahead (hts ▸ h0)⟩
  push_cast at hd
  linarith

/-- In time with an offset, then late by half a step. -/
def lateOnce : List Tick := [⟨200, ⟨10, 999999500⟩⟩, ⟨-100, ⟨11, 2500600⟩⟩]

theorem deadline_exact_late :
    let r := construct 1000000 ⟨10, 999999000⟩
    (r.after lateOnce).overrunCount = 1 ∧
      (r.after lateOnce).sleepEnd.ns = Timespec.ns ⟨10, 999999000⟩ +
        (lateOnce.map fun k => 1000000 + k.offset).sum + (r.after lateOnce).accumulatedDelayNs +
        (r.after lateOnce).overrunCount * 1000000 :=
  ⟨by decide, (deadline_exact (.inl rfl) (by decide) lateOnce (by decide)).1⟩

end PrecisionUpdateRate

end EthercatInterface
