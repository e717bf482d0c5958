import EthercatInterface.Executor.Workers

/-!
# What the programs of an executor perform

Whoever looks at a few members of the executor only has to know which programs leave them alone.
The lemmas are about any set `S` of actions that has those of the bus in it, and say which of the
executor's own it has to have besides.
-/

namespace EthercatInterface

open Interleave

variable {S : SystemAct → Prop} {ps : Parameters} {hk : UserCode} {u : Worker} {α : Type}

theorem uses_bus (hS : ∀ a : Act, S (.inl a)) (p : P α) : (bus p).Uses S :=
  (Uses.lift p.uses_true).mono fun b hb => by
    cases b with
    | inl a => exact hS a
    | inr a => exact hb.elim

theorem uses_outside (ho : S (.inr .outside)) : outside.Uses S := by
  refine (Prog.uses_perform ho).bind fun r => ?_
  cases r with
  | none => trivial
  | some e => trivial

/-! ## The threads -/

theorem uses_rtRound (hS : ∀ a : Act, S (.inl a)) (ho : S (.inr .outside)) : (rtRound ps).Uses S :=
  (uses_bus hS _).bind fun _ => (uses_outside ho).bind fun _ => trivial

theorem uses_serviceRound (hS : ∀ a : Act, S (.inl a)) (ho : S (.inr .outside)) :
    (serviceRound ps hk).Uses S := by
  refine (uses_bus hS _).bind fun more => ?_
  cases more with
  | true => exact (uses_outside ho).bind fun _ => trivial
  | false => trivial

theorem uses_loop {round : X Bool} (hstop : S (.inr (.stopRequested u))) (hr : round.Uses S) (n : ℕ) :
    (loop u round n).Uses S := by
  induction n with
  | zero => trivial
  | succ n ih =>
    refine (Prog.uses_perform hstop).bind fun b => ?_
    cases b with
    | true => trivial
    | false =>
      refine hr.bind fun more => ?_
      cases more with
      | true => exact ih
      | false => trivial

/-- What the function of a thread does besides its rounds. -/
theorem uses_threadFunction {round : X Bool} (hown : ∀ a, a.own u → S (.inr a))
    (henter : S (.inr (.enter u))) (hleave : S (.inr (.leave u))) (hr : round.Uses S) (n : ℕ) :
    (threadFunction u round n).Uses S := by
  have act : ∀ {a : ExecutorAct}, a.own u → (xact a).Uses S := fun ha => Prog.uses_perform (hown _ ha)
  refine (Prog.uses_perform henter).bind fun _ => Prog.Uses.bind ?_ fun _ => Prog.uses_perform hleave
  refine (Prog.Uses.attempt ?_).bind fun r => ?_
  · refine (act (a := .setRunning u true) rfl).bind fun _ => ?_
    exact (uses_loop (hown _ rfl) hr n).bind fun _ => act (a := .setRunning u false) rfl
  · cases r with
    | ok _ => trivial
    | error e =>
      exact (act (a := .setError u e) rfl).bind fun _ => act (a := .setRunning u false) rfl

/-! ## The interface -/

theorem uses_stopThread (hj : S (.inr (.joinable u))) (hr : S (.inr (.requestStop u)))
    (hjoin : S (.inr (.join u))) : (stopThread u).Uses S :=
  (Prog.uses_perform hj).bind fun _ => Prog.uses_when ((Prog.uses_perform hr).bind fun _ =>
    Prog.uses_perform hjoin)

theorem uses_isSpinning (hs : S (.inr .spinning)) : isSpinning.Uses S := Prog.uses_perform hs

theorem uses_fullDiagnostics (hS : ∀ a : Act, S (.inl a)) (hs : S (.inr .spinning))
    (hr : ∀ v, S (.inr (.isRunning v))) (force : Bool) : (fullDiagnostics ps force).Uses S := by
  refine (uses_bus hS _).bind fun _ => (Prog.uses_perform hs).bind fun _ => ?_
  exact (Prog.uses_perform (hr .rt)).bind fun _ => (Prog.uses_perform (hr .service)).bind fun _ => trivial

end EthercatInterface
