import EthercatInterface.Lifecycle.Run

/-!
# Opening and closing the interface

`interface_paired` (hooks do not throw): successful `ecx_init` and `ecx_close` calls
alternate, and a bus that is shut down or destroyed has left no interface open, **unless
some discovery failed**: `initialize` opens the interface and leaves through `throw`
without closing it. For a run that ends in the destruction of the bus this is exact.
-/

namespace EthercatInterface

open Interleave

/-! ## Pairs of `ecx_init` and `ecx_close` -/

/-- Opened and closed in turn, beginning with opened (the list is newest first). -/
def Alternates : List PortEvent → Prop
  | [] => True
  | .opened :: l => l.head? ≠ some .opened ∧ Alternates l
  | .closed :: l => l.head? = some .opened ∧ Alternates l

instance : DecidablePred Alternates := fun l => by
  induction l with
  | nil => exact inferInstanceAs (Decidable True)
  | cons e l ih => cases e <;> exact inferInstanceAs (Decidable (_ ∧ _))

theorem Alternates.tail {e : PortEvent} {l : List PortEvent} (h : Alternates (e :: l)) :
    Alternates l := by
  cases e <;> exact h.2

/-- The interface is open. -/
def LeftOpen (l : List PortEvent) : Prop := l.head? = some .opened

instance : DecidablePred LeftOpen := fun l => inferInstanceAs (Decidable (l.head? = some .opened))

/-- What runs without throwing hooks keep of the interface. -/
structure PortInv (c : Core) : Prop where
  state : c.state ≠ .shuttingDown
  dead : c.alive = false → c.state = .shutdown
  sound : c.discoveryFailed = false → Alternates c.port ∧ (LeftOpen c.port ↔ c.state.open)
  leak : c.discoveryFailed = true →
    ¬Alternates c.port ∨ (LeftOpen c.port ∧ (c.state = .preInit ∨ c.state = .shutdown))

theorem PortInv.fresh : PortInv Core.fresh where
  state := by decide
  dead := by decide
  sound := fun _ => ⟨trivial, by simp [LeftOpen, BusState.open, Core.fresh, core, port]⟩
  leak := fun h => by cases h

variable {c c' : Core}

/-- From one open state to another. -/
theorem PortInv.move (h : PortInv c) (ho : c.state.open) (ho' : c'.state.open)
    (hs : c'.state ≠ .shuttingDown) (ha : c'.alive = c.alive) (hp : c'.port = c.port)
    (hd : c'.discoveryFailed = c.discoveryFailed) : PortInv c' where
  state := hs
  dead := fun hdead => absurd (h.dead (ha ▸ hdead)) ho.2
  sound := fun hf => by
    obtain ⟨halt, hopen⟩ := h.sound (hd ▸ hf)
    rw [hp]
    exact ⟨halt, fun _ => ho', fun _ => hopen.2 ho⟩
  leak := fun hf => by
    rcases h.leak (hd ▸ hf) with hn | ⟨-, hst⟩
    · exact .inl (hp ▸ hn)
    · rcases hst with hst | hst
      · exact absurd hst ho.1
      · exact absurd hst ho.2

/-- The interface of an open bus is closed. -/
theorem PortInv.close (h : PortInv c) (ho : c.state.open) (hs : c'.state = .shutdown)
    (hp : c'.port = .closed :: c.port) (hd : c'.discoveryFailed = c.discoveryFailed) :
    PortInv c' where
  state := by rw [hs]; decide
  dead := fun _ => hs
  sound := fun hf => by
    obtain ⟨halt, hopen⟩ := h.sound (hd ▸ hf)
    rw [hp, hs]
    exact ⟨⟨hopen.2 ho, halt⟩, ⟨(fun hl => by cases hl), fun hl => absurd rfl hl.2⟩⟩
  leak := fun hf => by
    rcases h.leak (hd ▸ hf) with hn | ⟨-, hst⟩
    · exact .inl (hp ▸ fun halt => hn halt.tail)
    · rcases hst with hst | hst
      · exact absurd hst ho.1
      · exact absurd hst ho.2

/-- A bus that has never been opened is shut down. -/
theorem PortInv.shutUnopened (h : PortInv c) (hs : c.state = .preInit) :
    PortInv (c.setState .shutdown) where
  state := by simp [Core.setState]
  dead := fun _ => rfl
  sound := fun hf => by
    obtain ⟨halt, hopen⟩ := h.sound hf
    exact ⟨halt, fun hl => absurd hs (hopen.1 hl).1, fun hl => absurd rfl hl.2⟩
  leak := fun hf => (h.leak hf).imp id fun hl => ⟨hl.1, .inr rfl⟩

theorem ShutDown.portInv {r : Except Exn Unit} (h : PortInv c) (hm : ShutDown False c r c') :
    PortInv c' ∧ c'.state = .shutdown := by
  cases hm with
  | already hs => exact ⟨h, hs⟩
  | unopened hs => exact ⟨h.shutUnopened hs, rfl⟩
  | initialized hs =>
    exact ⟨h.close (hs ▸ by decide) rfl rfl rfl, rfl⟩
  | stuck hs => exact absurd hs h.state
  | preThrew ht => exact ht.elim
  | postThrew ht => exact ht.elim
  | torn hs =>
    refine ⟨h.close hs.open ?_ ?_ ?_, ?_⟩ <;>
      simp [Core.clear, Core.tornDown, Core.close, Core.setState]

theorem Initialized.portInv {r : Except Exn ℤ} (h : PortInv c) (hm : Initialized c r c') :
    PortInv c' := by
  cases hm with
  | refused => exact h
  | unopened => exact h
  | noDevices hs =>
    refine ⟨h.state, h.dead, (fun hf => by cases hf), fun _ => ?_⟩
    by_cases ho : LeftOpen c.port
    · exact .inl fun halt => halt.1 ho
    · exact .inr ⟨rfl, .inl hs⟩
  | opened n hs =>
    refine ⟨by simp [Core.setState], fun ha => ?_, fun hf => ?_, fun hf => ?_⟩
    · have := h.dead (by simpa [Core.setState, Core.opened] using ha)
      rw [hs] at this
      cases this
    · obtain ⟨halt, hopen⟩ := h.sound (by simpa [Core.setState, Core.opened] using hf)
      have hn : ¬LeftOpen c.port := fun hl => absurd hs (hopen.1 hl).1
      simp only [Core.emplaceN_port, Core.emplaceN_state]
      exact ⟨⟨hn, halt⟩, fun _ => ⟨by simp [Core.setState], by simp [Core.setState]⟩, fun _ => rfl⟩
    · simp only [Core.emplaceN_port]
      rcases h.leak (by simpa [Core.setState, Core.opened] using hf) with hn | ⟨hl, -⟩
      · exact .inl fun halt => hn halt.tail
      · exact .inl fun halt => halt.1 hl

theorem StartedUp.portInv {r : Except Exn Unit} (h : PortInv c) (hm : StartedUp False c r c') :
    PortInv c' := by
  have ho : c.state = .initialized → c.state.open := fun hs => hs ▸ by decide
  cases hm with
  | refused => exact h
  | hookThrew ht => exact ht.elim
  | aborted hs hsd =>
    refine (ShutDown.portInv (h.move (ho hs) ?_ ?_ ?_ ?_ ?_) hsd).1 <;> simp [hs, BusState.open]
  | pdoThrew ht => exact ht.elim
  | configured hs =>
    refine h.move (ho hs) ?_ ?_ ?_ ?_ ?_ <;> simp [Core.configured, Core.setState, BusState.open]

theorem Activated.portInv {r : Except Exn Unit} (h : PortInv c) (hm : Activated False c r c') :
    PortInv c' := by
  have ho : c.state = .configured → c.state.open := fun hs => hs ▸ by decide
  cases hm with
  | refused => exact h
  | preThrew ht => exact ht.elim
  | aborted hs hsd =>
    refine (ShutDown.portInv (h.move (ho hs) ?_ ?_ ?_ ?_ ?_) hsd).1 <;> simp [hs, BusState.open]
  | postThrew ht => exact ht.elim
  | activated hs =>
    refine h.move (ho hs) ?_ ?_ ?_ ?_ ?_ <;> simp [Core.activated, Core.setState, BusState.open]

theorem Serviced.portInv {r : Except Exn Bool} (h : PortInv c) (hm : Serviced False c r c') :
    PortInv c' := by
  cases hm with
  | unchanged => exact h
  | operational hs =>
    refine h.move (hs ▸ by decide) ?_ ?_ rfl rfl rfl <;>
      simp [Core.setState, BusState.open]
  | timeout _ hsd => exact (hsd.portInv h).1

theorem Destroyed.portInv {r : Except Exn Unit} (h : PortInv c) (hm : Destroyed False c r c') :
    PortInv c' := by
  obtain ⟨hsd⟩ := hm
  have hc : PortInv c.clearBusAll := by
    rw [Core.clearBusAll, Core.clearBus_eq]
    exact ⟨h.state, h.dead, h.sound, h.leak⟩
  obtain ⟨h', hs⟩ := hsd.portInv hc
  exact ⟨h'.state, fun _ => hs, h'.sound, h'.leak⟩

theorem Moved.portInv {o : Op} {r : Except Exn Unit} (h : PortInv c) (hm : Moved False c o r c') :
    PortInv c' := by
  cases hm with
  | @initialized r c' hi =>
    have h' := hi.portInv h
    cases r with
    | ok n => exact ⟨h'.state, h'.dead, h'.sound, h'.leak⟩
    | error e => exact h'
  | startedUp hi => exact hi.portInv h
  | activated hi => exact hi.portInv h
  | shutDown hi => exact (hi.portInv h).1
  | serviced hi => exact hi.portInv h
  | destroyed hi => exact hi.portInv h
  | other => exact h

variable {ps : Parameters} {w : W}

theorem run_portInv (hr : Run ps free UserCode.Quiet w) : PortInv (core w) :=
  hr.core_inv False (fun _ h _ => h) .fresh fun _ hm h => hm.portInv h

/-- Until a bus is shut down, its interface is not closed. -/
def Unclosed (c : Core) : Prop := c.state ≠ .shutdown → PortEvent.closed ∉ c.port

theorem ShutDown.unclosed {r : Except Exn Unit} (h : PortInv c) (hm : ShutDown False c r c') :
    Unclosed c' :=
  fun hs => absurd (hm.portInv h).2 hs

theorem Unclosed.of_eq (h : Unclosed c) (hs : c.state ≠ .shutdown) (hp : c'.port = c.port) :
    Unclosed c' := by
  intro _
  rw [hp]
  exact h hs

theorem Moved.unclosed {o : Op} {r : Except Exn Unit} (hi : PortInv c) (h : Unclosed c)
    (hm : Moved False c o r c') : Unclosed c' := by
  cases hm with
  | @initialized r c' hm =>
    -- the report of how the call ended touches neither the state nor the port
    have key : Unclosed c' := by
      have hpre : c.state = .preInit → PortEvent.closed ∉ c.opened.port := fun hs hp =>
        h (by rw [hs]; decide) ((List.mem_cons.1 hp).resolve_left (by decide))
      cases hm with
      | refused => exact h
      | unopened => exact h
      | noDevices hs => exact fun _ => hpre hs
      | opened n hs =>
        intro _
        rw [Core.emplaceN_port]
        exact hpre hs
    cases r <;> exact key
  | startedUp hm =>
    cases hm with
    | refused => exact h
    | hookThrew ht => exact ht.elim
    -- a start-up that fails shuts the bus down itself, and the port with it
    | aborted hs hsd => exact hsd.unclosed (hi.move (hs ▸ by decide) (by simp [hs, BusState.open])
        (by simp [hs]) (by simp) (by simp) (by simp))
    | pdoThrew ht => exact ht.elim
    | configured hs => exact h.of_eq (by rw [hs]; decide) (by simp [Core.configured, Core.setState])
  | activated hm =>
    cases hm with
    | refused => exact h
    | preThrew ht => exact ht.elim
    | aborted hs hsd => exact hsd.unclosed (hi.move (hs ▸ by decide) (by simp [hs, BusState.open])
        (by simp [hs]) (by simp) (by simp) (by simp))
    | postThrew ht => exact ht.elim
    | activated hs => exact h.of_eq (by rw [hs]; decide) (by simp [Core.activated, Core.setState])
  | shutDown hm => exact hm.unclosed hi
  | serviced hm =>
    cases hm with
    | unchanged => exact h
    | operational hs => exact h.of_eq (by rw [hs]; decide) rfl
    | timeout _ hsd => exact hsd.unclosed hi
  | destroyed hm => exact fun hs => absurd ((hm.portInv hi).dead (by cases hm; rfl)) hs
  | other => exact h

theorem run_unclosed (hr : Run ps free UserCode.Quiet w) : Unclosed (core w) :=
  (hr.core_inv False (fun _ h _ => h) (J := fun c => PortInv c ∧ Unclosed c)
    ⟨.fresh, fun _ hp => by cases hp⟩ fun _ hm h => ⟨hm.portInv h.1, hm.unclosed h.1 h.2⟩).2

/-- No successful `ecx_init` without its `ecx_close`, once the bus is shut down or gone. -/
def Paired (w : W) : Prop :=
  Alternates (port w.hist) ∧ (w.st.state = .shutdown ∨ w.st.alive = false → ¬LeftOpen (port w.hist))

instance : DecidablePred Paired := fun w =>
  inferInstanceAs (Decidable (Alternates (port w.hist) ∧ (_ → ¬LeftOpen (port w.hist))))

/-- **The interface is opened and closed in turn**, and closed in the end, in every run in
which every discovery found a device; once the bus is destroyed, only then. -/
theorem interface_paired (hr : Run ps free UserCode.Quiet w) :
    (discoveryFailed w.hist = false → Paired w) ∧
      (w.st.alive = false → (Paired w ↔ discoveryFailed w.hist = false)) := by
  have h := run_portInv hr
  have sound : discoveryFailed w.hist = false → Paired w := by
    intro hf
    obtain ⟨halt, hopen⟩ := h.sound hf
    refine ⟨halt, fun hs hl => (hopen.1 hl).2 ?_⟩
    exact hs.elim id h.dead
  refine ⟨sound, fun ha => ⟨fun hp => ?_, sound⟩⟩
  by_contra hf
  rcases h.leak (Bool.of_not_eq_false hf) with hn | ⟨hl, -⟩
  · exact hn hp.1
  · exact hp.2 (.inr ha) hl

/-- A bus that found a device, was shut down and destroyed. -/
theorem interface_paired_orderly :
    Paired (world [initializeOne, { op := .shutdown }, { op := .destroyBus }]) :=
  (interface_paired (run_world _ (by simp [initializeOne, UserCode.none_ok, UserCode.none_quiet]))).1
    (by decide)

/-- A discovery that finds no device leaves the interface open for good. -/
theorem interface_leaked : ¬∀ ps w, Run ps free UserCode.Quiet w → Paired w := by
  intro h
  have hr : Run {} free UserCode.Quiet (world [
      { op := .initializeBus, env := [{}, {}, { ret := 1 }, { ret := 0 }] }, { op := .destroyBus }]) :=
    run_world _ (by simp [UserCode.none_ok, UserCode.none_quiet])
  exact absurd (h _ _ hr) (by decide)

end EthercatInterface
