import EthercatInterface.Lib.Triple
import EthercatInterface.Proof.Footprint

/-!
# Reasoning about the backend's functions

The rules of `Setting.Triple` for what the functions of the backend are written with:
tests of `state_`, loops over the devices, and calls of operations.
-/

namespace EthercatInterface

open Interleave

/-- Runs of a single thread. -/
abbrev single (ok must : Guard Act Ans Env St) : Setting Act Ans Env St := ⟨exec, ok, must, 0⟩

variable {ok must : Guard Act Ans Env St} {α : Type} {J : W → Prop} {Q : α → W → Prop}
  {E : Exn → W → Prop} {s : BusState} {ps : Parameters} {hk : UserCode}

/-! ## Tests of `state_` -/

section State

variable (hr : (single ok must).Keeps J .getBusState) (hs : ∀ w, J w → w.st.state = s)
include hr hs

/-- A test of `state_` tells whether it is one of `l`. -/
theorem triple_stateIn (l : List BusState) :
    (single ok must).Triple J (stateIn l) (fun b w => b = decide (s ∈ l) ∧ J w) E := by
  induction l with
  | nil => exact .pure fun w hw => ⟨by simp, hw⟩
  | cons b l ih =>
    refine .bind (T := fun state w => state = s ∧ J w) (.perform fun i w hi hw => ?_) fun state => ?_
    · exact ⟨(hr i w hi hw).1, hs w hw, (hr i w hi hw).2⟩
    refine .assume (c := state = s) (fun w hw => hw.1) fun h => ?_
    subst h
    by_cases hb : state = b
    · rw [if_pos hb]
      exact .pure fun w hw => ⟨by simp [hb], hw.2⟩
    · rw [if_neg hb]
      exact ih.mono (fun w hw => hw.2) (fun x w hw => ⟨by simp [hw.1, hb], hw.2⟩) fun _ _ h => h

/-- What follows a test of `state_`. -/
theorem triple_ifState {l : List BusState} {f : Bool → P α}
    (hf : (single ok must).Triple J (f (decide (s ∈ l))) Q E) :
    (single ok must).Triple J ((stateIn l).bind f) Q E :=
  .bind (triple_stateIn hr hs l) fun b => .assume (c := b = decide (s ∈ l)) (fun w hw => hw.1)
    fun h => by
      subst h
      exact hf.mono (fun w hw => hw.2) (fun _ _ h => h) fun _ _ h => h

/-- `if (state_ is in l) p else q`. -/
theorem triple_branch {l : List BusState} {p q : P α} (ht : s ∈ l → (single ok must).Triple J p Q E)
    (hf : s ∉ l → (single ok must).Triple J q Q E) :
    (single ok must).Triple J ((stateIn l).bind fun b => if b = true then p else q) Q E := by
  refine triple_ifState hr hs ?_
  by_cases h : s ∈ l
  · rw [decide_eq_true h]
    exact ht h
  · rw [decide_eq_false h]
    exact hf h

/-- `if (state_ is not in l) throw e`. -/
theorem triple_require {l : List BusState} {e : Exn} {f : Unit → P α} (he : ∀ w, J w → E e w)
    (hf : s ∈ l → (single ok must).Triple J (f ()) Q E) :
    (single ok must).Triple J ((stateIn l).bind fun b => (Prog.raiseIf (!b) e).bind f) Q E := by
  refine triple_ifState hr hs ?_
  by_cases h : s ∈ l
  · rw [decide_eq_true h]
    exact hf h
  · rw [decide_eq_false h]
    exact he

/-- `if (state_ is in l) throw e`. -/
theorem triple_refuse {l : List BusState} {e : Exn} {f : Unit → P α} (he : ∀ w, J w → E e w)
    (hf : s ∉ l → (single ok must).Triple J (f ()) Q E) :
    (single ok must).Triple J ((stateIn l).bind fun b => (Prog.raiseIf b e).bind f) Q E := by
  refine triple_ifState hr hs ?_
  by_cases h : s ∈ l
  · rw [decide_eq_true h]
    exact he
  · rw [decide_eq_false h]
    exact hf h

end State

/-! ## Loops and calls -/

/-- **The loop over the devices.** `J done` holds before the round of the device after
`done`, in the list found at the start. -/
theorem triple_loop {l : Loop} {body : Addr → DeviceId → P Unit} {D : List Addr}
    (J' : List Addr → W → Prop)
    (hl : ∀ i w, ok 0 (.devices l) i w → J w →
      must 0 (.devices l) i w ∧ w.st.devices = D ∧ J' [] (w.after exec 0 (.devices l) i))
    (hd : ∀ done p, (single ok must).Keeps (J' done) (.deref p))
    (hb : ∀ done p rest, D = done ++ p :: rest → ∀ id,
      (single ok must).Triple (fun w => id = (w.st.dev p).deviceInfo.id ∧ J' done w) (body p id)
        (fun _ => J' (done ++ [p])) E) :
    (single ok must).Triple J (forDevices l body) (fun _ => J' D) E := by
  refine .bind (T := fun devices w => devices = D ∧ J' [] w) (.perform hl) fun devices => ?_
  refine .assume (c := devices = D) (fun w hw => hw.1) fun h => ?_
  subst h
  refine (Setting.Triple.forEach J' fun done p rest hx => ?_).mono (fun w hw => hw.2)
    (fun _ _ h => h) fun _ _ h => h
  refine .bind (T := fun r w => (∀ id ∈ r, id = (w.st.dev p).deviceInfo.id) ∧ J' done w)
    (.perform fun i w hi hw => ⟨(hd done p i w hi hw).1, ?_, (hd done p i w hi hw).2⟩) fun r => ?_
  · intro id hid
    change id ∈ (if p ∈ w.st.devices then some (w.st.dev p).deviceInfo.id else none) at hid
    split at hid
    · exact (Option.mem_some.1 hid).symm
    · cases hid
  · cases r with
    | none => exact .crash
    | some id =>
      exact (hb done p rest hx id).mono (fun w hw => ⟨hw.1 id rfl, hw.2⟩) (fun _ _ h => h) fun _ _ h => h

/-- A loop over the devices whose rounds keep `J`. -/
theorem triple_forDevices {l : Loop} {body : Addr → DeviceId → P Unit}
    (hl : (single ok must).Keeps J (.devices l)) (hd : ∀ p, (single ok must).Keeps J (.deref p))
    (hb : ∀ p id, (single ok must).Triple J (body p id) (fun _ => J) E) :
    (single ok must).Triple J (forDevices l body) (fun _ => J) E := fun w hw =>
  triple_loop (J := fun w' => w' = w ∧ J w) (D := w.st.devices) (fun _ => J)
    (fun i w' hi hw' => by
      obtain ⟨rfl, hw'⟩ := hw'
      exact ⟨(hl i w' hi hw').1, rfl, (hl i w' hi hw').2⟩)
    (fun _ => hd) (fun _ p _ _ id => (hb p id).mono (fun w hw => hw.2) (fun _ _ h => h) fun _ _ h => h)
    w ⟨rfl, hw⟩

theorem triple_void {p : P α} {Q : Unit → W → Prop}
    (h : (single ok must).Triple J p (fun _ => Q ()) E) :
    (single ok must).Triple J (void p) Q E :=
  h.bind fun _ => .pure fun _ hw => hw

/-- A call marks its start and its end, and ends as its body does. -/
theorem triple_invoke {o : Op} {K : W → Prop} {Q : Unit → W → Prop}
    (hc : ∀ i w, ok 0 (.call o) i w → J w →
      must 0 (.call o) i w ∧ K (w.after exec 0 (.call o) i))
    (hb : (single ok must).Triple K (o.body ps hk) Q E)
    (hd : ∀ x, (single ok must).Keeps (Q x) (.done o true))
    (he : ∀ e, (single ok must).Keeps (E e) (.done o false)) :
    (single ok must).Triple J (o.invoke ps hk) Q E := by
  refine .bind (T := fun _ => K) (.perform hc) fun _ => ?_
  refine .bind (T := fun r => Outcome.Meets Q E (.ofExcept r)) (.attempt hb) fun r => ?_
  cases r with
  | ok x => exact .perform fun i w hi hw => hd x i w hi hw
  | error e => exact .bind (.perform fun i w hi hw => he e i w hi hw) fun _ => .throw fun _ hw => hw

end EthercatInterface
