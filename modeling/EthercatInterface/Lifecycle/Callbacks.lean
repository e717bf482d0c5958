import EthercatInterface.Lifecycle.Run

/-!
# The order of the lifecycle callbacks

`callbacks_ordered` (hooks neither throw nor call lifecycle operations): between two
operations all devices have received the same word of callbacks, and it is one of
seven. Which one is determined by the bus state, up to where a shutdown came from
(`WordOf`).
-/

namespace EthercatInterface

open Interleave

/-- The words of callbacks a device can have received in each bus state. -/
def WordOf : BusState → List Hook → Prop
  | .preInit, word => word = []
  | .initialized, word => word = []
  | .configured, word => word = [.onStartup, .onPdoConfigured]
  | .activated, word => word = [.onStartup, .onPdoConfigured, .onPreActivate, .onPostActivate]
  | .operational, word => word = [.onStartup, .onPdoConfigured, .onPreActivate, .onPostActivate]
  | .shuttingDown, _ => False
  | .shutdown, word =>
    word = [] ∨ word = [.onStartup] ∨
    word = [.onStartup, .onPdoConfigured, .onPreShutdown, .onPostShutdown] ∨
    word = [.onStartup, .onPdoConfigured, .onPreActivate, .onPreShutdown, .onPostShutdown] ∨
    word = [.onStartup, .onPdoConfigured, .onPreActivate, .onPostActivate, .onPreShutdown,
      .onPostShutdown]

/-- The devices in the list: all that were created, none before `initialize` and after
a shutdown. -/
def DevicesOf (c : Core) : Prop :=
  match c.state with
  | .preInit => c.devices = [] ∧ c.devCount = 0
  | .shutdown => c.devices = []
  | _ => c.devices = List.range c.devCount

/-- All devices have received `word`, and no others any callback. -/
def Heard (c : Core) (word : List Hook) : Prop :=
  ∀ p : ℕ, c.calls p = if p < c.devCount then word else []

/-- What runs without throwing hooks keep of the callbacks. -/
def CallInv (c : Core) : Prop :=
  DevicesOf c ∧ ∃ word, Heard c word ∧ WordOf c.state word

variable {c c' : Core}

/-- A loop over all devices appends one callback to the word. -/
theorem Heard.notifyAll {word : List Hook} {l : List Addr} (h : Heard c word)
    (hl : l = List.range c.devCount) (k : Hook) : Heard (c.notifyAll k l) (word ++ [k]) := by
  intro p
  rw [Core.notifyAll_calls k (hl ▸ List.nodup_range)]
  simp only [hl, List.mem_range, Core.notifyAll_devCount, h p]
  split <;> rfl

theorem ShutDown.heard_initialized {r : Except Exn Unit} {word : List Hook}
    (hs : c.state = .initialized) (hw : Heard c word) (hm : ShutDown False c r c') :
    c'.state = .shutdown ∧ c'.devices = [] ∧ Heard c' word := by
  cases hm with
  | initialized => exact ⟨rfl, rfl, hw⟩
  | already h => rw [hs] at h; cases h
  | unopened h => rw [hs] at h; cases h
  | stuck h => rw [hs] at h; cases h
  | preThrew ht => exact ht.elim
  | postThrew ht => exact ht.elim
  | torn h => rw [hs] at h; rcases h with h | h | h <;> cases h

theorem ShutDown.heard_running {r : Except Exn Unit} {word : List Hook} (hs : c.state.running)
    (hd : c.devices = List.range c.devCount) (hw : Heard c word) (hm : ShutDown False c r c') :
    c'.state = .shutdown ∧ c'.devices = [] ∧
      Heard c' (word ++ [.onPreShutdown, .onPostShutdown]) := by
  have hne : ∀ s, c.state = s → s.running := fun s h => h ▸ hs
  cases hm with
  | already h => exact absurd (hne _ h) (by simp [BusState.running])
  | unopened h => exact absurd (hne _ h) (by simp [BusState.running])
  | initialized h => exact absurd (hne _ h) (by simp [BusState.running])
  | stuck h => exact absurd (hne _ h) (by simp [BusState.running])
  | preThrew ht => exact ht.elim
  | postThrew ht => exact ht.elim
  | torn =>
    have h₁ : Heard c.tornDown (word ++ [.onPreShutdown]) :=
      Heard.notifyAll (c := c.setState .shuttingDown) hw hd .onPreShutdown
    have hd₁ : c.devices = List.range c.tornDown.devCount := by
      simpa [Core.tornDown, Core.setState, Core.close] using hd
    have h₂ := h₁.notifyAll hd₁ .onPostShutdown
    rw [List.append_assoc] at h₂
    exact ⟨by simp [Core.clear, Core.tornDown, Core.setState], rfl, h₂⟩

/-- The invariant in one of the states in which all devices are in the list. -/
theorem CallInv.of_range (word : List Hook) (hs : c.state.open)
    (hd : c.devices = List.range c.devCount) (hw : Heard c word) (hword : WordOf c.state word) :
    CallInv c := by
  refine ⟨?_, word, hw, hword⟩
  cases h : c.state <;> simp_all [DevicesOf, BusState.open]

theorem CallInv.range (h : CallInv c) (hs : c.state.open) :
    c.devices = List.range c.devCount ∧ ∃ word, Heard c word ∧ WordOf c.state word := by
  refine ⟨?_, h.2⟩
  have := h.1
  cases hst : c.state <;> simp_all [DevicesOf, BusState.open]

theorem CallInv.of_shutdown (word : List Hook) (hs : c.state = .shutdown) (hd : c.devices = [])
    (hw : Heard c word) (hword : WordOf .shutdown word) : CallInv c :=
  ⟨by simpa [DevicesOf, hs] using hd, word, hw, hs ▸ hword⟩

/-- The words that a shutdown completes. -/
theorem WordOf.complete {s : BusState} {word : List Hook} (hs : s.running) (hw : WordOf s word) :
    WordOf .shutdown (word ++ [.onPreShutdown, .onPostShutdown]) := by
  rcases hs with rfl | rfl | rfl <;> simp_all [WordOf]

theorem ShutDown.callInv {r : Except Exn Unit} (h : CallInv c) (hm : ShutDown False c r c') :
    CallInv c' := by
  have keep := hm
  cases hm with
  | already => exact h
  | unopened hs =>
    obtain ⟨hd, word, hw, hword⟩ := h
    rw [hs] at hword
    have hd' : c.devices = [] := by simp [DevicesOf, hs] at hd; exact hd.1
    exact .of_shutdown word rfl hd' hw (.inl hword)
  | initialized hs =>
    obtain ⟨word, hw, hword⟩ := h.2
    rw [hs] at hword
    exact .of_shutdown word rfl rfl hw (.inl hword)
  | stuck => exact h
  | preThrew ht => exact ht.elim
  | postThrew ht => exact ht.elim
  | torn hs =>
    obtain ⟨hd, word, hw, hword⟩ := h.range hs.open
    obtain ⟨hs', hd', hw'⟩ := keep.heard_running hs hd hw
    exact .of_shutdown _ hs' hd' hw' (hword.complete hs)

theorem Initialized.callInv {r : Except Exn ℤ} (h : CallInv c) (hm : Initialized c r c') :
    CallInv (c'.finish .initializeBus (r.map fun _ => ())) := by
  have mark : ∀ {c : Core}, CallInv c → CallInv (c.finish .initializeBus (r.map fun _ => ())) := by
    intro c h
    cases r <;> exact h
  refine mark ?_
  cases hm with
  | refused => exact h
  | unopened => exact h
  | noDevices => exact h
  | opened n hs =>
    obtain ⟨hd, word, hw, hword⟩ := h
    simp only [DevicesOf, hs] at hd
    refine .of_range [] (by simp [Core.setState, BusState.open]) ?_ ?_ (by
      simp [Core.setState, WordOf])
    · simp [Core.setState, Core.opened, hd.1, hd.2, List.range_eq_range']
    · intro p
      have hp := hw p
      rw [if_neg (by omega)] at hp
      simpa [Core.setState, Core.opened] using hp

theorem StartedUp.callInv {r : Except Exn Unit} (h : CallInv c) (hm : StartedUp False c r c') :
    CallInv c' := by
  have begun : c.state = .initialized →
      c.devices = List.range c.devCount ∧ Heard (c.notifyAll .onStartup c.devices) [.onStartup] := by
    intro hs
    obtain ⟨hd, word, hw, hword⟩ := h.range (hs ▸ by decide)
    rw [hs] at hword
    subst hword
    exact ⟨hd, hw.notifyAll hd .onStartup⟩
  cases hm with
  | refused => exact h
  | hookThrew ht => exact ht.elim
  | aborted hs hsd =>
    obtain ⟨hs', hd', hw'⟩ := hsd.heard_initialized (by simpa using hs) (begun hs).2
    exact .of_shutdown _ hs' hd' hw' (.inr (.inl rfl))
  | pdoThrew ht => exact ht.elim
  | configured hs =>
    obtain ⟨hd, hw⟩ := begun hs
    refine .of_range _ (by simp [Core.configured, Core.setState, BusState.open]) ?_
      (Heard.notifyAll (c := c.configured) hw ?_ .onPdoConfigured) ?_
    all_goals simp [Core.configured, Core.setState, hd, WordOf]

theorem Activated.callInv {r : Except Exn Unit} (h : CallInv c) (hm : Activated False c r c') :
    CallInv c' := by
  have begun : c.state = .configured → c.devices = List.range c.devCount ∧
      Heard (c.notifyAll .onPreActivate c.devices) [.onStartup, .onPdoConfigured, .onPreActivate] := by
    intro hs
    obtain ⟨hd, word, hw, hword⟩ := h.range (hs ▸ by decide)
    rw [hs] at hword
    subst hword
    exact ⟨hd, hw.notifyAll hd .onPreActivate⟩
  cases hm with
  | refused => exact h
  | preThrew ht => exact ht.elim
  | aborted hs hsd =>
    obtain ⟨hd, hw⟩ := begun hs
    obtain ⟨hs', hd', hw'⟩ := hsd.heard_running (by simp [hs, BusState.running]) (by simpa using hd) hw
    exact .of_shutdown _ hs' hd' hw' (by simp [WordOf])
  | postThrew ht => exact ht.elim
  | activated hs =>
    obtain ⟨hd, hw⟩ := begun hs
    refine .of_range _ (by simp [Core.activated, Core.setState, BusState.open]) ?_
      (Heard.notifyAll (c := c.activated) hw ?_ .onPostActivate) ?_
    all_goals simp [Core.activated, Core.setState, hd, WordOf]

theorem Serviced.callInv {r : Except Exn Bool} (h : CallInv c) (hm : Serviced False c r c') :
    CallInv c' := by
  cases hm with
  | unchanged => exact h
  | operational hs =>
    obtain ⟨hd, word, hw, hword⟩ := h.range (hs ▸ by decide)
    rw [hs] at hword
    exact .of_range _ (by simp [Core.setState, BusState.open]) hd hw hword
  | timeout _ hsd => exact hsd.callInv h

theorem Destroyed.callInv {r : Except Exn Unit} (h : CallInv c) (hm : Destroyed False c r c') :
    CallInv c' := by
  obtain ⟨hsd⟩ := hm
  have h' := hsd.callInv (c := c.clearBusAll) (by
    rw [Core.clearBusAll, Core.clearBus_eq]
    exact h)
  have hst := (hsd.safe (by
    intro hs
    rw [Core.clearBusAll, Core.clearBus_eq] at hs
    obtain ⟨-, word, -, hword⟩ := h
    rw [show c.state = .shuttingDown from hs] at hword
    exact hword)).2
  obtain ⟨-, word, hw, hword⟩ := h'
  rw [hst] at hword
  exact .of_shutdown word hst rfl hw hword

theorem Moved.callInv {o : Op} {r : Except Exn Unit} (h : CallInv c) (hm : Moved False c o r c') :
    CallInv c' := by
  cases hm with
  | initialized hi => exact hi.callInv h
  | startedUp hi => exact hi.callInv h
  | activated hi => exact hi.callInv h
  | shutDown hi => exact hi.callInv h
  | serviced hi => exact hi.callInv h
  | destroyed hi => exact hi.callInv h
  | other => exact h

/-- The order in which a device may receive its callbacks. -/
structure WellOrdered (word : List Hook) : Prop where
  shape : word = [] ∨ ∃ pdo pre post down : Bool, (pre → pdo) ∧ (post → pre) ∧
    word = [.onStartup] ++ (if pdo then [.onPdoConfigured] else []) ++
      (if pre then [.onPreActivate] else []) ++ (if post then [.onPostActivate] else []) ++
      (if down then [.onPreShutdown, .onPostShutdown] else [])
  once : word.Nodup
  last : .onPostShutdown ∈ word → word.getLast? = some .onPostShutdown
  undone : .onPreActivate ∈ word → .onPostActivate ∉ word →
    [.onPreShutdown, .onPostShutdown] <:+ word

/-- A word of the shape of `WellOrdered`, given by which parts it has. -/
theorem WellOrdered.of_shape (pdo pre post down : Bool) (h₁ : pre → pdo) (h₂ : post → pre)
    (h₃ : pre → post ∨ down) :
    WellOrdered ([.onStartup] ++ (if pdo then [.onPdoConfigured] else []) ++
      (if pre then [.onPreActivate] else []) ++ (if post then [.onPostActivate] else []) ++
      (if down then [.onPreShutdown, .onPostShutdown] else [])) where
  shape := .inr ⟨pdo, pre, post, down, h₁, h₂, rfl⟩
  once := by cases pdo <;> cases pre <;> cases post <;> cases down <;> decide
  last := by cases pdo <;> cases pre <;> cases post <;> cases down <;> decide
  undone := by
    cases pdo <;> cases pre <;> cases post <;> cases down <;>
      first | decide | exact absurd (h₃ rfl) (by decide)

theorem WordOf.wellOrdered {s : BusState} {word : List Hook} (h : WordOf s word) :
    WellOrdered word := by
  have empty : WellOrdered [] := ⟨.inl rfl, by decide, by decide, by decide⟩
  cases s with
  | preInit => exact h ▸ empty
  | initialized => exact h ▸ empty
  | configured => exact h ▸ .of_shape true false false false (by decide) (by decide) (by decide)
  | activated => exact h ▸ .of_shape true true true false (by decide) (by decide) (by decide)
  | operational => exact h ▸ .of_shape true true true false (by decide) (by decide) (by decide)
  | shuttingDown => exact h.elim
  | shutdown =>
    rcases h with h | h | h | h | h
    · exact h ▸ empty
    · exact h ▸ .of_shape false false false false (by decide) (by decide) (by decide)
    · exact h ▸ .of_shape true false false true (by decide) (by decide) (by decide)
    · exact h ▸ .of_shape true true false true (by decide) (by decide) (by decide)
    · exact h ▸ .of_shape true true true true (by decide) (by decide) (by decide)

variable {ps : Parameters} {w : W}

theorem run_callInv (hr : Run ps free UserCode.Quiet w) : CallInv (core w) :=
  hr.core_inv False (fun _ h _ => h)
    ⟨⟨rfl, rfl⟩, [], fun p => by simp [Core.fresh, core, calls], rfl⟩ fun _ hm h => hm.callInv h

/-- **All devices receive the same callbacks, in order and at most once.** -/
theorem callbacks_ordered (hr : Run ps free UserCode.Quiet w) :
    ∃ word, (∀ p < w.st.devCount, calls w.hist p = word) ∧ WellOrdered word ∧
      (w.st.state = .activated ∨ w.st.state = .operational →
        word = [.onStartup, .onPdoConfigured, .onPreActivate, .onPostActivate]) := by
  obtain ⟨-, word, hw, hword⟩ := run_callInv hr
  refine ⟨word, fun p hp => ?_, hword.wellOrdered, fun hs => ?_⟩
  · exact (hw p).trans (if_pos hp)
  · rcases hs with hs | hs
    · rwa [show (core w).state = .activated from hs] at hword
    · rwa [show (core w).state = .operational from hs] at hword

/-- The device of a bus that is shut down while configured has not been activated. -/
theorem callbacks_ordered_configured :
    calls (world [initializeOne, { op := .startup }, { op := .shutdown }]).hist 0 =
        [.onStartup, .onPdoConfigured, .onPreShutdown, .onPostShutdown] ∧
      WellOrdered [.onStartup, .onPdoConfigured, .onPreShutdown, .onPostShutdown] := by
  obtain ⟨word, hw, ho, -⟩ := callbacks_ordered (run_world
    [initializeOne, { op := .startup }, { op := .shutdown }]
    (by simp [initializeOne, UserCode.none_ok, UserCode.none_quiet]))
  have hword : calls (world [initializeOne, { op := .startup }, { op := .shutdown }]).hist 0 =
      [.onStartup, .onPdoConfigured, .onPreShutdown, .onPostShutdown] := by decide +kernel
  rw [← hw 0 (by decide), hword] at ho
  exact ⟨hword, ho⟩

end EthercatInterface
