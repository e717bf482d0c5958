import EthercatInterface.Executor.Pact

/-!
# The flag and the RT loop

What the RT thread and the controlling thread have to do with `spinning_` is a small machine of
its own: `RtView` is the flag, the handle and the phase of the RT thread, and what has become
of its loop since the last `spin` (`RtLoop`), which is read off the history. `RtView.Sound` is its
invariant. The pact of the threads is stated over the view, and every thread but these two leaves
it as it is, whatever it does to the bus.
-/

namespace EthercatInterface

open Interleave

/-! ## The RT loop -/

/-- What has become of the RT loop since the last `spin` began. -/
structure RtLoop where
  /-- `stop` has requested its end. -/
  requested : Bool := false
  /-- It has seen that request. -/
  told : Bool := false
  /-- An exception has come out of a round. -/
  faulted : Bool := false
  /-- Its thread has gone on past it. -/
  past : Bool := false
  /-- `stop` has joined the threads and cleared the flag. -/
  stopped : Bool := false
  deriving DecidableEq

namespace RtLoop

def next (l : RtLoop) : (a : ExecutorAct) → ExecutorAns a → RtLoop
  | .setSpinning true, _ => {}
  | .setSpinning false, _ => { l with stopped := true }
  | .requestStop .rt, _ => { l with requested := true }
  | .stopRequested .rt, b => { l with told := l.told || b }
  | .setError .rt _, _ => { l with faulted := true }
  | .setRunning .rt false, _ => { l with past := true }
  | .leave .rt, _ => { l with past := true }
  | _, _ => l

/-- One of the loop's two exits has been taken. -/
def Exited (l : RtLoop) : Prop := l.told = true ∨ l.faulted = true

/-- The loop has ended. -/
def Ended (l : RtLoop) : Prop := l.Exited ∨ l.past = true

instance (l : RtLoop) : Decidable l.Exited := inferInstanceAs (Decidable (_ ∨ _))

instance (l : RtLoop) : Decidable l.Ended := inferInstanceAs (Decidable (_ ∨ _))

end RtLoop

def rtLoop : List (Event SystemAct SystemAns) → RtLoop
  | [] => {}
  | ⟨_, .inl _, _⟩ :: h => rtLoop h
  | ⟨_, .inr a, r⟩ :: h => (rtLoop h).next a r

/-- The flag, the RT thread and its loop. -/
structure RtView where
  spinning : Bool
  phase : ThreadPhase
  joinable : Bool
  stopRequested : Bool
  loop : RtLoop

def rtView (w : SystemW) : RtView where
  spinning := w.st.2.spinning
  phase := (jthread w .rt).phase
  joinable := (jthread w .rt).joinable
  stopRequested := (jthread w .rt).stopRequested
  loop := rtLoop w.hist

namespace RtView

def next (v : RtView) (a : ExecutorAct) (r : ExecutorAns a) : RtView where
  spinning := a.flag v.spinning
  phase := a.phase .rt v.phase
  joinable := a.handle .rt v.joinable
  stopRequested := a.token .rt v.stopRequested
  loop := v.loop.next a r

/-- What an action waits for, and what it answers. -/
def Fits (v : RtView) : (a : ExecutorAct) → ExecutorAns a → Prop
  | .spinning, b => b = v.spinning
  | .joinable .rt, b => b = v.joinable
  | .stopRequested .rt, b => b = v.stopRequested
  | .enter .rt, _ => v.phase = .started
  | .join .rt, _ => v.phase = .ended
  | _, _ => True

/-- The function of the thread is being executed, or is about to be. -/
def Live (v : RtView) : Prop := v.phase = .started ∨ v.phase = .running

/-- **The invariant**: the thread gets past its loop through one of the two exits only, it is told
to stop by `stop` only, it is alive only under a joinable handle while the flag is set, and `stop`
is what clears the flag. -/
structure Sound (v : RtView) : Prop where
  past : v.loop.past = true → v.loop.Exited
  told : v.loop.told = true → v.loop.requested = true
  token : v.Live → v.stopRequested = true → v.loop.requested = true
  stopped : v.loop.stopped = true → v.spinning = false
  cleared : v.spinning = false → v.loop.Exited → v.loop.stopped = true
  flagged : v.Live → v.spinning = true
  held : v.Live → v.joinable = true

/-- The flag is right exactly if the loop has taken neither exit or `stop` has cleared it since. -/
theorem Sound.right_iff {v : RtView} (h : v.Sound) :
    (v.spinning = true → ¬v.loop.Ended) ↔ (v.loop.Exited → v.loop.stopped = true) := by
  constructor
  · intro hright hexited
    cases hs : v.spinning with
    | false => exact h.cleared hs hexited
    | true => exact absurd (.inl hexited) (hright hs)
  · intro hcond hs hended
    have hexited : v.loop.Exited := hended.elim id h.past
    rw [h.stopped (hcond hexited)] at hs
    cases hs

end RtView

variable {t : ℕ} {w : SystemW} {i : Env × Option Exn}

theorem rtView_inl {a : Act} : rtView (w.after systemExec t (.inl a) i) = rtView w := rfl

theorem rtView_inr {a : ExecutorAct} : rtView (w.after systemExec t (.inr a) i) =
    (rtView w).next a (executorExec a i.2 w.st.2).1 := by
  have hspin : (w.after systemExec t (.inr a) i).st.2.spinning = a.flag w.st.2.spinning :=
    a.spinning_exec i.2 w.st.2
  have hphase : (jthread (w.after systemExec t (.inr a) i) .rt).phase = a.phase .rt (jthread w .rt).phase :=
    a.phase_exec i.2 w.st.2 .rt
  have hjoin : (jthread (w.after systemExec t (.inr a) i) .rt).joinable =
      a.handle .rt (jthread w .rt).joinable := a.joinable_exec i.2 w.st.2 .rt
  have htoken : (jthread (w.after systemExec t (.inr a) i) .rt).stopRequested =
      a.token .rt (jthread w .rt).stopRequested := a.stopRequested_exec i.2 w.st.2 .rt
  rw [rtView, hspin, hphase, hjoin, htoken]
  rfl

/-- The guard and the answers are those of the view. -/
theorem rtView_fits {a : ExecutorAct} (h : systemGuard t (.inr a) i w) :
    (rtView w).Fits a (executorExec a i.2 w.st.2).1 := by
  cases a with
  | spinning => rfl
  | joinable v => cases v <;> first | rfl | trivial
  | stopRequested v => cases v <;> first | rfl | trivial
  | enter v => cases v <;> first | exact h | trivial
  | join v => cases v <;> first | exact h | trivial
  | _ => trivial

/-! ## The pact over the view -/

/-- What a thread relies on. -/
def rtRelies : ℕ → RtView → RtView → Prop
  | 0, v, v' => v'.spinning = v.spinning ∧ (v'.Live → v.Live)
  | 1, v, v' => v.phase = .running → v'.phase = .running ∧ (v.loop.Exited → v'.loop.Exited)
  | _, _, _ => True

/-- What a thread guarantees. -/
def rtGuarantees : ℕ → RtView → RtView → Prop
  | 0, v, v' => v.phase = .running → v'.phase = .running ∧ (v.loop.Exited → v'.loop.Exited)
  | 1, v, v' => v'.spinning = v.spinning ∧ (v'.Live → v.Live)
  | _, v, v' => v' = v

theorem rtRelies_refl (t : ℕ) (v : RtView) : rtRelies t v v := by
  match t with
  | 0 => exact ⟨rfl, id⟩
  | 1 => exact fun h => ⟨h, id⟩
  | _ + 2 => trivial

theorem rtRelies_trans {v₁ v₂ v₃ : RtView} (h₁ : rtRelies t v₁ v₂) (h₂ : rtRelies t v₂ v₃) :
    rtRelies t v₁ v₃ := by
  match t with
  | 0 => exact ⟨h₂.1.trans h₁.1, fun h => h₁.2 (h₂.2 h)⟩
  | 1 =>
    intro h
    obtain ⟨hp₂, hl₂⟩ := h₁ h
    obtain ⟨hp₃, hl₃⟩ := h₂ hp₂
    exact ⟨hp₃, fun hl => hl₃ (hl₂ hl)⟩
  | _ + 2 => trivial

theorem rtGuarantees_refl (t : ℕ) (v : RtView) : rtGuarantees t v v := by
  match t with
  | 0 => exact fun h => ⟨h, id⟩
  | 1 => exact ⟨rfl, id⟩
  | _ + 2 => rfl

theorem rtGuarantees_trans {v₁ v₂ v₃ : RtView} (h₁ : rtGuarantees t v₁ v₂) (h₂ : rtGuarantees t v₂ v₃) :
    rtGuarantees t v₁ v₃ := by
  match t with
  | 0 => exact rtRelies_trans (t := 1) h₁ h₂
  | 1 => exact rtRelies_trans (t := 0) h₁ h₂
  | _ + 2 => exact Eq.trans h₂ h₁

theorem rtGuarantees_kept {u : ℕ} (htu : t ≠ u) {v v' : RtView} (h : rtGuarantees t v v') :
    rtRelies u v v' := by
  match t, u with
  | 0, 0 => exact absurd rfl htu
  | 1, 1 => exact absurd rfl htu
  | _, _ + 2 => trivial
  | 0, 1 => exact h
  | 1, 0 => exact h
  | _ + 2, 0 =>
    have hv : v' = v := h
    rw [hv]
    exact rtRelies_refl 0 v
  | _ + 2, 1 =>
    have hv : v' = v := h
    rw [hv]
    exact rtRelies_refl 1 v

/-- **Who writes what**: the controlling thread the flag and the handle, the RT thread its phase
while it is alive and the marks of its loop, and nobody else any of them. -/
def rtPact : Pact SystemAct SystemAns System where
  inv w := (rtView w).Sound
  rely t w w' := rtRelies t (rtView w) (rtView w')
  guar t w w' := rtGuarantees t (rtView w) (rtView w')
  rely_refl t w := rtRelies_refl t (rtView w)
  rely_trans := rtRelies_trans
  guar_refl t w := rtGuarantees_refl t (rtView w)
  guar_trans := rtGuarantees_trans
  kept htu _ _ h := rtGuarantees_kept htu h

end EthercatInterface
