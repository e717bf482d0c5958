import EthercatInterface.Lifecycle.Callbacks
import EthercatInterface.Lifecycle.Interface
import EthercatInterface.Spec.Executor

/-!
# What the threads of an executor rely on

A bus is handed over in the view `k₀`. While it is in use it is as it was, up to its state,
or it has been shut down, once (`InUse`); this holds whenever the service thread is not at
work (`Rested`), and only the thread that controls the executor, once it has joined the
service thread, changes it otherwise.

`pact` is this division of labour: the RT thread and the users leave the view of the bus
alone, the service thread changes it only while it runs, the controlling thread only when
the service thread does not. A thread that has ended stays so.
-/

namespace EthercatInterface

open Interleave

/-! ## The view of a bus in use -/

/-- What a whole `shutdown` makes of the view of a bus in use. -/
def Core.shutDown (c : Core) : Core := (c.tornDown.notifyAll .onPostShutdown c.devices).clear

/-- A bus handed over as `k₀` is still in use, or has been shut down. -/
inductive InUse (k₀ : Core) : Core → Prop
  | up {s : BusState} : s = .activated ∨ s = .operational → InUse k₀ (k₀.setState s)
  | down : InUse k₀ k₀.shutDown

variable {k₀ k k' : Core}

theorem Core.shutDown_state (c : Core) : c.shutDown.state = .shutdown := by
  simp [Core.shutDown, Core.clear, Core.tornDown, Core.setState]

theorem InUse.cases (h : InUse k₀ k) :
    k.state = .activated ∨ k.state = .operational ∨ k = k₀.shutDown := by
  rcases h with hs | _
  · rcases hs with rfl | rfl
    · exact .inl rfl
    · exact .inr (.inl rfl)
  · exact .inr (.inr rfl)

/-- **Whoever shuts it down first**, the bus ends the same way, and `shutdown` returns. -/
theorem ShutDown.inUse {r : Except Exn Unit} (h : InUse k₀ k) (hm : ShutDown False k r k') :
    k' = k₀.shutDown := by
  rcases h with @⟨s, hs⟩ | _
  · have hst : (k₀.setState s).state = s := rfl
    cases hm with
    | already h => rcases hs with rfl | rfl <;> cases hst.symm.trans h
    | unopened h => rcases hs with rfl | rfl <;> cases hst.symm.trans h
    | initialized h => rcases hs with rfl | rfl <;> cases hst.symm.trans h
    | stuck h => rcases hs with rfl | rfl <;> cases hst.symm.trans h
    | preThrew ht => exact ht.elim
    | postThrew ht => exact ht.elim
    | torn => rfl
  · have hst := k₀.shutDown_state
    cases hm with
    | already => rfl
    | unopened h => cases hst.symm.trans h
    | initialized h => cases hst.symm.trans h
    | stuck h => cases hst.symm.trans h
    | preThrew ht => exact ht.elim
    | postThrew ht => exact ht.elim
    | torn h => rw [hst] at h; rcases h with h | h | h <;> cases h

/-- A service tick leaves the bus in use, or has shut it down. -/
theorem Serviced.inUse {r : Except Exn Bool} (h : InUse k₀ k) (hm : Serviced False k r k') :
    InUse k₀ k' := by
  cases hm with
  | unchanged => exact h
  | operational hs =>
    rcases h with @⟨s, _⟩ | _
    · exact .up (.inr rfl)
    · rw [k₀.shutDown_state] at hs
      cases hs
  | timeout _ hsd =>
    rw [hsd.inUse h]
    exact .down

/-! ## The pact -/

/-- The function of the thread is being executed, or is about to be. -/
def JThread.Live (j : JThread) : Prop := j.phase = .started ∨ j.phase = .running

/-- The thread is not at work, and if it was, nobody has joined it yet. -/
def JThread.Rested (j : JThread) : Prop :=
  j.phase ≠ .running ∧ (j.phase = .ended → j.joinable = true)

/-- The lifecycle view of the bus. -/
def view (w : SystemW) : Core := core w.left

def jthread (w : SystemW) (v : Worker) : JThread := w.st.2.thread v

/-- What thread `v` does to the executor. -/
structure Worked (v : Worker) (w w' : SystemW) : Prop where
  spinning : w'.st.2.spinning = w.st.2.spinning
  joinable : ∀ u, (jthread w' u).joinable = (jthread w u).joinable
  phase : ∀ u, u ≠ v ∨ ¬(jthread w u).Live → (jthread w' u).phase = (jthread w u).phase

/-- What the controlling thread leaves alone. -/
structure Controlled (w w' : SystemW) : Prop where
  running : ∀ v, (jthread w v).phase = .running → (jthread w' v).phase = .running
  view : (jthread w .service).phase = .running → view w' = view w

/-- What the controlling thread relies on. -/
structure Minded (w w' : SystemW) : Prop where
  spinning : w'.st.2.spinning = w.st.2.spinning
  joinable : ∀ v, (jthread w' v).joinable = (jthread w v).joinable
  phase : ∀ v, ¬(jthread w v).Live → (jthread w' v).phase = (jthread w v).phase
  view : ¬(jthread w .service).Live → view w' = view w

/-- What a thread relies on. -/
def relies : ℕ → SystemW → SystemW → Prop
  | 0, w, w' => Minded w w'
  | 1, w, w' => (jthread w .rt).phase = .running → (jthread w' .rt).phase = .running
  | 2, w, w' => (jthread w .service).phase = .running →
      (jthread w' .service).phase = .running ∧ view w' = view w
  | _, _, _ => True

/-- What a thread guarantees. -/
def guarantees : ℕ → SystemW → SystemW → Prop
  | 0, w, w' => Controlled w w'
  | 1, w, w' => Worked .rt w w' ∧ view w' = view w
  | 2, w, w' => Worked .service w w' ∧ (¬(jthread w .service).Live → view w' = view w)
  | _, w, w' => w'.st.2 = w.st.2 ∧ view w' = view w

variable {v : Worker} {w w₁ w₂ w₃ : SystemW}

theorem Worked.refl (v : Worker) (w : SystemW) : Worked v w w :=
  ⟨rfl, fun _ => rfl, fun _ _ => rfl⟩

theorem JThread.live_congr {j j' : JThread} (h : j'.phase = j.phase) : j'.Live ↔ j.Live := by
  rw [JThread.Live, JThread.Live, h]

theorem Worked.dead (h : Worked v w₁ w₂) (u : Worker) (hu : ¬(jthread w₁ u).Live) :
    ¬(jthread w₂ u).Live := by
  rw [JThread.live_congr (h.phase u (.inr hu))]
  exact hu

theorem Worked.trans (h₁ : Worked v w₁ w₂) (h₂ : Worked v w₂ w₃) : Worked v w₁ w₃ where
  spinning := h₂.spinning.trans h₁.spinning
  joinable u := (h₂.joinable u).trans (h₁.joinable u)
  phase u hu := (h₂.phase u (hu.imp id (h₁.dead u))).trans (h₁.phase u hu)

theorem Minded.trans (h₁ : Minded w₁ w₂) (h₂ : Minded w₂ w₃) : Minded w₁ w₃ := by
  have dead : ∀ u, ¬(jthread w₁ u).Live → ¬(jthread w₂ u).Live := by
    intro u hu
    rw [JThread.live_congr (h₁.phase u hu)]
    exact hu
  exact {
    spinning := h₂.spinning.trans h₁.spinning
    joinable := fun u => (h₂.joinable u).trans (h₁.joinable u)
    phase := fun u hu => (h₂.phase u (dead u hu)).trans (h₁.phase u hu)
    view := fun hu => (h₂.view (dead _ hu)).trans (h₁.view hu) }

/-- What a worker does to the executor, the controlling thread does not mind. -/
theorem Worked.minded (h : Worked v w₁ w₂)
    (hview : ¬(jthread w₁ .service).Live → view w₂ = view w₁) : Minded w₁ w₂ :=
  ⟨h.spinning, h.joinable, fun u hu => h.phase u (.inr hu), hview⟩

theorem relies_refl (t : ℕ) (w : SystemW) : relies t w w := by
  match t with
  | 0 => exact ⟨rfl, fun _ => rfl, fun _ _ => rfl, fun _ => rfl⟩
  | 1 => exact id
  | 2 => exact fun h => ⟨h, rfl⟩
  | _ + 3 => trivial

theorem relies_trans {t : ℕ} (h₁ : relies t w₁ w₂) (h₂ : relies t w₂ w₃) : relies t w₁ w₃ := by
  match t with
  | 0 => exact Minded.trans h₁ h₂
  | 1 => exact fun h => h₂ (h₁ h)
  | 2 =>
    intro h
    obtain ⟨hp₂, hv₂⟩ := h₁ h
    obtain ⟨hp₃, hv₃⟩ := h₂ hp₂
    exact ⟨hp₃, hv₃.trans hv₂⟩
  | _ + 3 => trivial

theorem guarantees_refl (t : ℕ) (w : SystemW) : guarantees t w w := by
  match t with
  | 0 => exact ⟨fun _ h => h, fun _ => rfl⟩
  | 1 => exact ⟨.refl _ w, rfl⟩
  | 2 => exact ⟨.refl _ w, fun _ => rfl⟩
  | _ + 3 => exact ⟨rfl, rfl⟩

theorem guarantees_trans {t : ℕ} (h₁ : guarantees t w₁ w₂) (h₂ : guarantees t w₂ w₃) :
    guarantees t w₁ w₃ := by
  match t with
  | 0 =>
    exact ⟨fun v hv => h₂.running v (h₁.running v hv), fun hv =>
      (h₂.view (h₁.running _ hv)).trans (h₁.view hv)⟩
  | 1 => exact ⟨h₁.1.trans h₂.1, h₂.2.trans h₁.2⟩
  | 2 => exact ⟨h₁.1.trans h₂.1, fun hv => (h₂.2 (h₁.1.dead _ hv)).trans (h₁.2 hv)⟩
  | _ + 3 => exact ⟨h₂.1.trans h₁.1, h₂.2.trans h₁.2⟩

/-- What one thread guarantees, the others may rely on. -/
theorem guarantees_kept {t u : ℕ} (htu : t ≠ u) (h : guarantees t w₁ w₂) : relies u w₁ w₂ := by
  -- thread `0` controls, `1` and `2` are the workers, and the rest change nothing they look at
  match t, u with
  | 0, 0 => exact absurd rfl htu
  | 1, 1 => exact absurd rfl htu
  | 2, 2 => exact absurd rfl htu
  | _, _ + 3 => trivial
  | 0, 1 => exact h.running .rt
  | 0, 2 => exact fun hv => ⟨h.running .service hv, h.view hv⟩
  | 1, 0 => exact h.1.minded fun _ => h.2
  | 2, 0 => exact h.1.minded h.2
  | 1, 2 =>
    intro hv
    rw [h.1.phase .service (.inl (by decide))]
    exact ⟨hv, h.2⟩
  | 2, 1 =>
    intro hv
    rw [h.1.phase .rt (.inl (by decide))]
    exact hv
  | _ + 3, 0 =>
    have hj : ∀ u, jthread w₂ u = jthread w₁ u := fun u => congrArg (fun x => x.thread u) h.1
    exact ⟨congrArg (fun x => x.spinning) h.1, fun u => by rw [hj], fun u _ => by rw [hj], fun _ => h.2⟩
  | _ + 3, 1 =>
    intro hv
    have hj : jthread w₂ .rt = jthread w₁ .rt := congrArg (fun x => x.thread .rt) h.1
    rw [hj]
    exact hv
  | _ + 3, 2 =>
    intro hv
    have hj : jthread w₂ .service = jthread w₁ .service := congrArg (fun x => x.thread .service) h.1
    rw [hj]
    exact ⟨hv, h.2⟩

/-- **The division of labour** on a bus handed over as `k₀`. -/
def pact (k₀ : Core) : Pact SystemAct SystemAns System where
  inv w := (jthread w .service).Rested → InUse k₀ (view w)
  rely := relies
  guar := guarantees
  rely_refl := relies_refl
  rely_trans := relies_trans
  guar_refl := guarantees_refl
  guar_trans := guarantees_trans
  kept htu _ _ h := guarantees_kept htu h

end EthercatInterface
