import EthercatInterface.Lifecycle.Run

/-!
# Devices that outlive the bus

`destroyed_detached_iff`: after the bus has been destroyed, every device that users
still hold has lost its bus, and throws when it is asked to use it, exactly when the
**list of devices was not empty when the destructor walked it** (or nobody holds a
device). Every `shutdown` before the destruction empties the list, and leaves the
devices with a pointer to the destroyed bus.
-/

namespace EthercatInterface

open Interleave

variable {c c' : Core} {throws : Prop}

/-- How the devices are bound to the bus, and listed by it. -/
structure BindInv (c : Core) : Prop where
  list : c.devices = List.range c.devCount ∨ c.devices = []
  none : c.state = .preInit → c.devCount = 0
  bound : c.alive = true → c.swept = .none ∧ ∀ p < c.devCount, c.bus p = true
  unbound : c.alive = false → ∃ l, c.swept = some l ∧ ∀ p < c.devCount, c.bus p = decide (l = [])

/-- The lifecycle has gone on, at most forgetting the devices. -/
structure Onward (c c' : Core) : Prop where
  list : c'.devices = c.devices ∨ c'.devices = []
  state : c'.state = .preInit → c.state = .preInit
  devCount : c'.devCount = c.devCount
  alive : c'.alive = c.alive
  swept : c'.swept = c.swept
  bus : c'.bus = c.bus

theorem BindInv.onward (h : BindInv c) (ho : Onward c c') : BindInv c' where
  list := by
    rw [ho.devCount]
    rcases ho.list with hl | hl
    · exact hl ▸ h.list
    · exact .inr hl
  none := fun hs => ho.devCount.trans (h.none (ho.state hs))
  bound := fun ha => by
    rw [ho.swept, ho.bus, ho.devCount]
    exact h.bound (ho.alive ▸ ha)
  unbound := fun ha => by
    rw [ho.swept, ho.bus, ho.devCount]
    exact h.unbound (ho.alive ▸ ha)

theorem Onward.refl (c : Core) : Onward c c := ⟨.inl rfl, id, rfl, rfl, rfl, rfl⟩

theorem Onward.trans {c'' : Core} (h : Onward c c') (h' : Onward c' c'') : Onward c c'' where
  list := by
    rcases h'.list with hl | hl
    · exact hl ▸ h.list
    · exact .inr hl
  state := fun hs => h.state (h'.state hs)
  devCount := h'.devCount.trans h.devCount
  alive := h'.alive.trans h.alive
  swept := h'.swept.trans h.swept
  bus := h'.bus.trans h.bus

theorem Onward.notifyAll (h : Onward c c') (k : Hook) (l : List Addr) :
    Onward c (c'.notifyAll k l) :=
  h.trans ⟨.inl (by simp), by simp, by simp, by simp, by simp, by simp⟩

theorem Onward.setState (h : Onward c c') {s : BusState} (hs : s ≠ .preInit) :
    Onward c (c'.setState s) :=
  ⟨h.list, fun hp => absurd hp hs, h.devCount, h.alive, h.swept, h.bus⟩

theorem Onward.clear (h : Onward c c') : Onward c c'.clear :=
  ⟨.inr rfl, h.state, h.devCount, h.alive, h.swept, h.bus⟩

theorem Onward.close (h : Onward c c') : Onward c c'.close :=
  ⟨h.list, h.state, h.devCount, h.alive, h.swept, h.bus⟩

theorem Onward.tornDown (c : Core) : Onward c c.tornDown :=
  ((((Onward.refl c).setState (by decide)).notifyAll _ _).close).setState (by decide)

theorem ShutDown.onward {r : Except Exn Unit} (hm : ShutDown throws c r c') : Onward c c' := by
  cases hm with
  | already => exact .refl c
  | unopened => exact (Onward.refl c).setState (by decide)
  | initialized => exact ((Onward.refl c).clear.setState (by decide)).close
  | stuck => exact .refl c
  | preThrew => exact ((Onward.refl c).setState (by decide)).notifyAll _ _
  | postThrew => exact (Onward.tornDown c).notifyAll _ _
  | torn => exact ((Onward.tornDown c).notifyAll _ _).clear

theorem StartedUp.onward {r : Except Exn Unit} (hm : StartedUp throws c r c') : Onward c c' := by
  have configured : Onward c c.configured := ((Onward.refl c).notifyAll _ _).setState (by decide)
  cases hm with
  | refused => exact .refl c
  | hookThrew => exact (Onward.refl c).notifyAll _ _
  | aborted _ hsd => exact ((Onward.refl c).notifyAll _ _).trans hsd.onward
  | pdoThrew => exact configured.notifyAll _ _
  | configured => exact configured.notifyAll _ _

theorem Activated.onward {r : Except Exn Unit} (hm : Activated throws c r c') : Onward c c' := by
  have activated : Onward c c.activated := ((Onward.refl c).notifyAll _ _).setState (by decide)
  cases hm with
  | refused => exact .refl c
  | preThrew => exact (Onward.refl c).notifyAll _ _
  | aborted _ hsd => exact ((Onward.refl c).notifyAll _ _).trans hsd.onward
  | postThrew => exact activated.notifyAll _ _
  | activated => exact activated.notifyAll _ _

theorem Serviced.onward {r : Except Exn Bool} (hm : Serviced throws c r c') : Onward c c' := by
  cases hm with
  | unchanged => exact .refl c
  | operational => exact (Onward.refl c).setState (by decide)
  | timeout _ hsd => exact hsd.onward

theorem Initialized.bindInv {r : Except Exn ℤ} (ha : c.alive = true) (h : BindInv c)
    (hm : Initialized c r c') : BindInv c' := by
  cases hm with
  | refused => exact h
  | unopened => exact h
  | noDevices => exact ⟨h.list, h.none, h.bound, h.unbound⟩
  | opened n hs =>
    have h0 : c.devCount = 0 := h.none hs
    have hd : c.devices = [] := by
      rcases h.list with hl | hl
      · simpa [h0] using hl
      · exact hl
    have ha' : ((c.opened.setState .initialized).emplaceN n).alive = true := by
      simpa [Core.setState, Core.opened] using ha
    refine ⟨.inl ?_, by simp [Core.setState], fun _ => ⟨?_, ?_⟩, fun hf => ?_⟩
    · simp [Core.setState, Core.opened, hd, h0, List.range_eq_range']
    · simpa [Core.setState, Core.opened] using (h.bound ha).1
    · intro p hp
      rw [Core.emplaceN_bus, if_pos]
      simpa [Core.setState, Core.opened, h0] using hp
    · rw [ha'] at hf
      cases hf

/-- The destructor unbinds the devices it finds in the list. -/
theorem Destroyed.bindInv {r : Except Exn Unit} (ha : c.alive = true) (h : BindInv c)
    (hm : Destroyed throws c r c') : BindInv c' := by
  obtain ⟨hsd⟩ := hm
  have ho := hsd.onward
  have hcl : c.clearBusAll = { c with
      bus := (c.devices.foldl Core.clearBus c).bus, swept := some c.devices } := by
    rw [Core.clearBusAll, Core.clearBus_eq]
  rw [hcl] at ho
  refine ⟨.inr rfl, fun hs => ho.devCount.trans (h.none (ho.state hs)), (fun hf => by cases hf),
    fun _ => ⟨c.devices, ho.swept, fun p hp => ?_⟩⟩
  have hp' : p < c.devCount := lt_of_lt_of_eq hp ho.devCount
  change _ = _
  rw [Core.clear, ho.bus]
  change (c.devices.foldl Core.clearBus c).bus p = _
  rw [Core.clearBus_bus, (h.bound ha).2 p hp']
  rcases h.list with hl | hl
  · rw [hl, if_pos (List.mem_range.2 hp')]
    exact (decide_eq_false fun h0 => by rw [List.range_eq_nil.1 h0] at hp'; omega).symm
  · simp [hl]

theorem Moved.bindInv {o : Op} {r : Except Exn Unit} (ha : o.lifecycle = true → c.alive = true)
    (h : BindInv c) (hm : Moved throws c o r c') : BindInv c' := by
  cases hm with
  | @initialized r c' hi =>
    have h' := hi.bindInv (ha rfl) h
    cases r <;> exact ⟨h'.list, h'.none, h'.bound, h'.unbound⟩
  | startedUp hi => exact h.onward hi.onward
  | activated hi => exact h.onward hi.onward
  | shutDown hi => exact h.onward hi.onward
  | serviced hi => exact h.onward hi.onward
  | destroyed hi => exact hi.bindInv (ha rfl) h
  | other => exact h

variable {ps : Parameters} {hk : UserCode} {w : W} {ok : Guard Act Ans Env St}
  {good : UserCode → Prop}

theorem run_bindInv (hr : Run ps ok good w) : BindInv (core w) := by
  refine hr.core_inv True (fun _ _ ht => absurd trivial ht) ?_ fun ha hm h => hm.bindInv ha h
  exact ⟨.inr rfl, fun _ => rfl, fun _ => ⟨rfl, fun _ hp => absurd hp (Nat.not_lt_zero _)⟩,
    fun hf => by cases hf⟩

/-! ## The pointers users hold -/

/-- The list and the users only have devices that were created. -/
structure HeldInv (s : St) : Prop where
  listed : ∀ p ∈ s.devices, p < s.devCount
  held : ∀ p ∈ s.held, p < s.devCount

theorem HeldInv.exec {s : St} (h : HeldInv s) (a : Act) (i : Env) :
    HeldInv (EthercatInterface.exec a i s).2 := by
  cases a
  case emplaceDevice info =>
    refine ⟨fun p hp => ?_, fun p hp => Nat.lt_succ_of_lt (h.held p hp)⟩
    rcases List.mem_append.1 hp with hp | hp
    · exact Nat.lt_succ_of_lt (h.listed p hp)
    · rw [List.mem_singleton.1 hp]
      exact Nat.lt_succ_self _
  case clearDevices => exact ⟨fun p hp => absurd hp List.not_mem_nil, h.held⟩
  case destroyBackend => exact ⟨fun p hp => absurd hp List.not_mem_nil, h.held⟩
  case acquire id =>
    refine ⟨h.listed, fun p hp => ?_⟩
    rcases List.mem_append.1 hp with hp | hp
    · exact h.listed p (List.mem_of_find?_eq_some (Option.mem_toList.1 hp))
    · exact h.held p hp
  case release q => exact ⟨h.listed, fun p hp => h.held p (List.mem_of_mem_erase hp)⟩
  case ecxStatecheck id s =>
    simp only [EthercatInterface.exec]
    split <;> exact ⟨h.listed, h.held⟩
  all_goals exact ⟨h.listed, h.held⟩

theorem run_heldInv (hr : Run ps ok good w) : HeldInv w.st :=
  hr.keeps (J := fun w => HeldInv w.st) ⟨fun _ hp => absurd hp List.not_mem_nil,
    fun _ hp => absurd hp List.not_mem_nil⟩ fun a i _ _ h => h.exec a i

/-! ## Operations without a bus -/

/-- The operations of a device that need the bus. -/
def Op.throughBus : Op → Option Addr
  | .deviceSdoRead p .. | .deviceSdoWrite p .. | .deviceReadOd p _
  | .deviceChangeDeviceState p .. | .deviceFoeWrite p .. | .deviceFoeRead p .. => some p
  | _ => none

theorem Op.body_throughBus (ps : Parameters) (hk : UserCode) {o : Op} {p : Addr} (h : o.throughBus = some p) :
    ∃ (α : Type) (k : DeviceId → P α), o.body ps hk = void (EthercatInterface.throughBus p k) := by
  cases o <;> cases h <;> exact ⟨_, _, rfl⟩

/-- Without a bus they throw. -/
theorem wp_throughBus {o : Op} {p : Addr} (ho : o.throughBus = some p)
    (hb : (w.st.dev p).bus = false) :
    wp exec free free 0 (o.invoke ps hk) (fun out _ => out = .exn busNotInitialized) w := by
  obtain ⟨α, k, hbody⟩ := Op.body_throughBus ps hk ho
  refine wp_bind (wp_perform fun i _ => ⟨trivial, wp_bind (wp_attempt ?_)⟩)
  rw [hbody]
  refine wp_bind (wp_bind (wp_perform fun j _ =>
    ⟨trivial, wp_bind (wp_raiseIf (fun _ => ?_) fun h => ?_)⟩))
  · exact wp_bind (wp_perform fun j _ => ⟨trivial, rfl⟩)
  · rw [show (exec (.busPtr p) j (w.after exec 0 (.call o) i).st).1 = false from hb] at h
    cases h

/-- The device has lost its bus, and says so to whoever asks it to use it. -/
def Detached (ps : Parameters) (w : W) (p : Addr) : Prop :=
  (w.st.dev p).bus = false ∧ ∀ o hk out w', Op.throughBus o = some p →
    Exec exec free 0 (o.invoke ps hk) w out w' → out = .exn busNotInitialized

theorem detached_iff {p : Addr} : Detached ps w p ↔ (w.st.dev p).bus = false :=
  ⟨fun h => h.1, fun h => ⟨h, fun _ _ _ _ ho he => wp_sound he (wp_throughBus ho h)⟩⟩

/-- **Devices that outlive the bus are detached from it** exactly when the destructor
still found devices in the list. -/
theorem destroyed_detached_iff (hr : Run ps free (fun _ => True) w) (hd : w.st.alive = false) :
    (∀ p ∈ w.st.held, Detached ps w p) ↔
      w.st.held = [] ∨ ∃ l, swept w.hist = some l ∧ l ≠ [] := by
  obtain ⟨l, hl, hbus⟩ := (run_bindInv hr).unbound hd
  have hl : swept w.hist = some l := hl
  have bound : ∀ p ∈ w.st.held, (w.st.dev p).bus = decide (l = []) := fun p hp =>
    hbus p ((run_heldInv hr).held p hp)
  constructor
  · intro h
    rcases hh : w.st.held with _ | ⟨p, ps⟩
    · exact .inl rfl
    · have hp : p ∈ w.st.held := hh ▸ List.mem_cons_self
      refine .inr ⟨l, hl, fun h0 => ?_⟩
      have := (h p hp).1
      rw [bound p hp, h0] at this
      cases this
  · rintro (h | ⟨l', hl', h0⟩) p hp
    · rw [h] at hp
      cases hp
    · rw [hl] at hl'
      cases hl'
      rw [detached_iff, bound p hp]
      exact decide_eq_false h0

/-- A device acquired from a bus that is destroyed at once. -/
theorem destroyed_detached_unstarted :
    Detached {} (world [initializeOne, { op := .acquireDevice 1 }, { op := .destroyBus }]) 0 :=
  (destroyed_detached_iff (run_world _ (by simp [initializeOne, UserCode.none_ok])) (by decide)).2
    (.inr ⟨[0], by decide⟩) 0 (by decide)

/-- A device acquired from a bus that is shut down, then destroyed, keeps its pointer. -/
theorem destroyed_dangling : ¬∀ ps w, Run ps free (fun _ => True) w → w.st.alive = false →
    ∀ p ∈ w.st.held, Detached ps w p := by
  intro h
  have hr : Run {} free (fun _ => True) (world [initializeOne, { op := .acquireDevice 1 },
      { op := .shutdown }, { op := .destroyBus }]) :=
    run_world _ (by simp [initializeOne, UserCode.none_ok])
  exact absurd (h _ _ hr (by decide) 0 (by decide)).1 (by decide)

end EthercatInterface
