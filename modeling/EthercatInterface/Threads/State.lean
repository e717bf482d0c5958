import EthercatInterface.Proof.Members
import EthercatInterface.Proof.Promise

/-!
# `state_` among threads

Threads load and store `state_` without a lock. What a thread knows of it is what it
last loaded or stored; what is in it is what was last stored by anyone (`state_eq`).
-/

namespace EthercatInterface

open Interleave

/-- What was last loaded. -/
def lastLoad (h : List Ev) : Option BusState := h.findSome? fun e => loaded e.act e.ans

/-- What was last stored. -/
def lastStore (h : List Ev) : Option BusState := h.findSome? fun e => stored e.act

/-- What was last loaded or stored. -/
def lastSeen (h : List Ev) : Option BusState :=
  h.findSome? fun e => (stored e.act).or (loaded e.act e.ans)

theorem lastLoad_cons (e : Ev) (h : List Ev) :
    lastLoad (e :: h) = (loaded e.act e.ans).or (lastLoad h) := by
  rw [lastLoad, List.findSome?_cons]
  cases loaded e.act e.ans <;> rfl

theorem lastStore_cons (e : Ev) (h : List Ev) :
    lastStore (e :: h) = (stored e.act).or (lastStore h) := by
  rw [lastStore, List.findSome?_cons]
  cases stored e.act <;> rfl

theorem lastSeen_cons (e : Ev) (h : List Ev) :
    lastSeen (e :: h) = ((stored e.act).or (loaded e.act e.ans)).or (lastSeen h) := by
  rw [lastSeen, List.findSome?_cons]
  cases (stored e.act).or (loaded e.act e.ans) <;> rfl

theorem Blind.loaded {a : Act} (h : Blind a) (r : Ans a) : loaded a r = none := by
  cases a <;> first | rfl | cases h

/-- What is in `state_`, if it was `s₀` at first. -/
def stateAfter (s₀ : BusState) (h : List Ev) : BusState := (lastStore h).getD s₀

theorem stateAfter_cons (s₀ : BusState) (e : Ev) (h : List Ev) :
    stateAfter s₀ (e :: h) = (stored e.act).getD (stateAfter s₀ h) := by
  rw [stateAfter, lastStore_cons]
  cases stored e.act <;> rfl

theorem state_after {s₀ : BusState} {w : W} (h : w.st.state = stateAfter s₀ w.hist) (t : ℕ) (a : Act)
    (i : Env) : (w.after exec t a i).st.state = stateAfter s₀ (w.after exec t a i).hist := by
  rw [World.after_hist, stateAfter_cons, World.after_st, state_exec, h]

/-! ## `update_service`, between its loads and its store -/

/-- The actions by which the service brings the devices into OPERATIONAL. -/
def Act.serves : Act → Bool
  | .setActivationStartTp _ | .devices .requestOperational | .devices .allInOperational
  | .ecxReadstate | .slaveState _ => true
  | _ => false

/-- Neither loads nor stores the state of the bus. -/
def Serving (a : Act) : Prop := Blind a ∨ a.serves = true

theorem Serving.stored {a : Act} (h : Serving a) : stored a = none := by
  rcases h with h | h
  · exact h.plain.calm.stored
  · cases a <;> first | rfl | cases h

theorem Serving.loaded {a : Act} (h : Serving a) (r : Ans a) : loaded a r = none := by
  rcases h with h | h
  · exact h.loaded r
  · cases a <;> first | rfl | cases h

variable {K : Act → List Ev → Prop} {t : ℕ} {ps : Parameters} {hk : UserCode}

/-- A successful comparison with a state ends with a load of one of the states. -/
theorem obeys_stateIn (hK : ∀ h, K .getBusState h) : ∀ (l : List BusState) (h : List Ev),
    Obeys K t (stateIn l) (fun o h' => ∀ b, o = .ret b → b = true →
      ∃ s ∈ l, ∃ past, h' = ⟨t, .getBusState, s⟩ :: past) h
  | [], _ => fun b hb hb' => by cases hb; cases hb'
  | s :: l, h => by
    refine .bind (.perform (hK h) fun s' => ?_)
    by_cases hs : s' = s
    · simp only [andObeys, if_pos hs]
      exact fun _ _ _ => ⟨s, List.mem_cons_self, h, by rw [hs]⟩
    · simp only [andObeys, if_neg hs]
      refine (obeys_stateIn hK l _).mono fun o h' ho b hb hb' => ?_
      obtain ⟨s, hs, past, hp⟩ := ho b hb hb'
      exact ⟨s, List.mem_cons_of_mem _ hs, past, hp⟩

/-- `if (state_ is in l) p else q`: `p` begins right after the load of one of the states. -/
theorem honours_ifState (hK : ∀ h, K .getBusState h) {l : List BusState} {p q : P Unit}
    (hp : ∀ s ∈ l, ∀ h, Obeys K t p (fun _ _ => True) (⟨t, .getBusState, s⟩ :: h))
    (hq : Honours K t q) : Honours K t (stateIn l >>= fun b => if b = true then p else q) := by
  refine fun h => .seq (obeys_stateIn hK l h) fun b h' hb => ?_
  cases b with
  | true =>
    obtain ⟨s, hs, past, rfl⟩ := hb true rfl rfl
    exact hp s hs past
  | false => exact hq h'

/-- What serving keeps is there when all devices have been tested. -/
theorem obeys_allInOperational {J : List Ev → Prop}
    (hJ : ∀ a, Serving a → ∀ r h, J h → K a h ∧ J (⟨t, a, r⟩ :: h))
    (hstore : ∀ h, J h → K (.updateBusState .operational) h) (h : List Ev) (h0 : J h) :
    Obeys K t allInOperational (fun o h' => o = .ret true → K (.updateBusState .operational) h') h :=
  (Obeys.uses hJ (uses_allInOperational (.inr rfl) (fun _ => .inl rfl) fun _ => .inr rfl) h0).mono
    fun _ h' h1 _ => hstore h' h1

/-- What serving keeps, up to the test of the devices; a successful test allows the store of
`Operational`. -/
theorem obeys_bringOperational {J : List Ev → Prop}
    (hJ : ∀ a, Serving a → ∀ r h, J h → K a h ∧ J (⟨t, a, r⟩ :: h))
    (hall : ∀ h, J h → Obeys K t allInOperational
      (fun o h' => o = .ret true → K (.updateBusState .operational) h') h)
    (hdown : Honours K t (shutdown hk)) {h : List Ev} (h0 : J h) :
    Obeys K t (bringOperational ps hk) (fun _ _ => True) h := by
  have blind : ∀ {α : Type} {p : P α}, p.Uses Blind → p.Uses Serving := fun hp =>
    hp.mono fun _ => .inl
  have keeps : ∀ {α : Type} {p : P α} {h : List Ev}, p.Uses Serving → J h →
      Obeys K t p (fun _ h' => J h') h := fun hp h0 => Obeys.uses hJ hp h0
  refine .seq (keeps (blind (blind_act rfl)) h0) fun start h₁ h0 => ?_
  refine .seq (keeps (Prog.uses_when ((blind (blind_act rfl)).bind fun _ => uses_act (.inr rfl))) h0)
    fun _ h₂ h0 => ?_
  refine .seq (keeps (blind blind_operationalTimeout) h0) fun late h₃ h0 => ?_
  refine .seq (K := fun o h' => o = .ret () → J h') (.when (fun _ => .bind ?_) fun _ _ => h0)
    fun _ h₃ h0 => ?_
  · -- after the teardown the tick throws, and stores nothing more
    exact (hdown h₃).mono fun o h' _ => by cases o <;> exact fun h => by cases h
  refine .seq (keeps (Uses.forDevices (.inr rfl) (fun _ => .inl rfl) fun _ id => ?_)
    (h0 rfl)) fun _ h₄ h0 => ?_
  · exact (blind (blind_setDeviceTargetState id _)).bind fun _ => trivial
  refine .seq (keeps (uses_updateDeviceStates (.inr rfl)) h0) fun _ h₅ h0 => ?_
  refine .seq (hall h₅ h0) fun all h₆ hstore => ?_
  exact .when (fun hb => .perform (hstore (hb ▸ rfl)) fun _ => trivial) fun _ => trivial

/-- `update_service` looks at the state, and goes on to bring the devices into OPERATIONAL
only if it has just seen `Activated`. -/
theorem honours_updateService (hK : ∀ a, Plain a → ∀ h, K a h) (hread : ∀ h, K .ecxReadstate h)
    (hbring : ∀ h, Obeys K t (bringOperational ps hk) (fun _ _ => True)
      (⟨t, .getBusState, .activated⟩ :: h)) : Honours K t (updateService ps hk) := by
  refine .bind (honours_plain hK (plain_stateIn _)) fun _ => .bind .raiseIf fun _ => ?_
  refine .bind (honours_plain hK (plain_act rfl)) fun up => .bind (honours_plain hK (plain_act rfl))
    fun _ => .bind (honours_plain hK (plain_act rfl)) fun owns => ?_
  refine .bind (honours_plain hK (Prog.uses_when (Prog.uses_withLock plain_drainMailboxEvents)))
    fun _ h => ?_
  refine .seq (obeys_stateIn (hK _ rfl) [.activated] h) fun b h' hb => ?_
  cases b with
  | true =>
    obtain ⟨s, hs, past, rfl⟩ := hb true rfl rfl
    obtain rfl : s = .activated := List.mem_singleton.1 hs
    exact .seq (hbring past) fun _ _ _ => trivial
  | false =>
    refine .seq (Honours.when ?_ h') fun _ _ _ => trivial
    refine .bind (.uses (S := fun a => ∀ h, K a h) (fun _ ha => ha) (uses_updateDeviceStates hread)) fun _ => .when ?_
    exact honours_plain hK plain_updateDiagnosticsSlow

end EthercatInterface
