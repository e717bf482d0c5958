import EthercatInterface.Lifecycle.Core

/-!
# Reasoning about lifecycle functions

The rules of `Machine.Leads` at the lifecycle machine: actions the view does not see,
loads of `state_`, hooks, and the loops over the devices, whose callback loops end as
`Notified` says. `throws` tells whether hooks may throw.
-/

namespace EthercatInterface

open Interleave

/-- An action that the lifecycle view does not see. -/
def Neutral (a : Act) : Prop := ∀ (c : Core) (r : Ans a), lifecycle.perform c a r = c

theorem Calm.neutral {a : Act} (h : Calm a) : Neutral a := by
  intro c r
  cases a
  case done o ok => cases o <;> first | rfl | cases h
  case devices l => cases l <;> first | rfl | cases h
  all_goals first | rfl | cases h

variable {α : Type} {c : Core} {Q : Except Exn α → Core → Prop} {ps : Parameters} {hk : UserCode}

theorem leads_act {a : Act} {Q : Except Exn (Ans a) → Core → Prop}
    (h : ∀ r, c.answers a r → Q (.ok r) (c.perform a r)) : lifecycle.Leads (act a) c Q :=
  Machine.Leads.perform h

theorem leads_neutral {a : Act} {Q : Except Exn (Ans a) → Core → Prop} (ha : Neutral a)
    (h : ∀ r, Q (.ok r) c) : lifecycle.Leads (act a) c Q := by
  refine leads_act fun r _ => ?_
  rw [show c.perform a r = c from ha c r]
  exact h r

theorem leads_unseen {p : P α} (hp : p.Uses Neutral) (h : ∀ r, Q r c) : lifecycle.Leads p c Q :=
  (Machine.Leads.frame (fun _ ha => ha) hp).mono fun r _ hc => hc ▸ h r

theorem leads_calm {p : P α} (hp : p.Uses Calm) (h : ∀ r, Q r c) : lifecycle.Leads p c Q :=
  leads_unseen (hp.mono fun _ ha => ha.neutral) h

theorem leads_plain {p : P α} (hp : p.Uses Plain) (h : ∀ r, Q r c) : lifecycle.Leads p c Q :=
  leads_calm (hp.mono fun _ => Plain.calm) h

/-- A program that the view does not see and that does not throw. -/
theorem leads_silent {p : P α} (hp : p.Uses Neutral) (hn : p.NoThrow) (h : ∀ x, Q (.ok x) c) :
    lifecycle.Leads p c Q := by
  refine ((Machine.Leads.frame (fun _ ha => ha) hp).noThrow hn).mono fun r c' hr => ?_
  obtain ⟨rfl, x, rfl⟩ := hr
  exact h x

theorem leads_quiet {p : P α} (hp : p.Uses Plain) (hn : p.NoThrow) (h : ∀ x, Q (.ok x) c) :
    lifecycle.Leads p c Q :=
  leads_silent (hp.mono fun _ ha => ha.calm.neutral) hn h

theorem leads_stateIn {Q : Except Exn Bool → Core → Prop} : ∀ l : List BusState,
    Q (.ok (decide (c.state ∈ l))) c → lifecycle.Leads (stateIn l) c Q
  | [], h => .pure (by simpa using h)
  | s :: l, h => by
    refine Machine.Leads.bind (leads_act fun state hs => ?_)
    subst hs
    by_cases he : c.state = s
    · simp only [Machine.andThen, Core.perform, he, if_true]
      exact .pure (by simpa [he] using h)
    · simp only [Machine.andThen, Core.perform, he, if_false]
      exact leads_stateIn l (by simpa [he] using h)

/-- `if (state_ is in l) p else q`. -/
theorem leads_ifState {l : List BusState} {p q : P α} (ht : c.state ∈ l → lifecycle.Leads p c Q)
    (hf : c.state ∉ l → lifecycle.Leads q c Q) :
    lifecycle.Leads (stateIn l >>= fun b => if b = true then p else q) c Q := by
  refine .bind (leads_stateIn l ?_)
  by_cases h : c.state ∈ l
  · simp only [Machine.andThen, decide_eq_true h, if_true]
    exact ht h
  · simp only [Machine.andThen, decide_eq_false h, Bool.false_eq_true, if_false]
    exact hf h

/-- `if (state_ is not in l) throw e`. -/
theorem leads_require {l : List BusState} {e : Exn} {f : Unit → P α}
    (hf : c.state ∉ l → Q (.error e) c) (ht : c.state ∈ l → lifecycle.Leads (f ()) c Q) :
    lifecycle.Leads (stateIn l >>= fun b => Prog.raiseIf (!b) e >>= f) c Q := by
  refine .bind (leads_stateIn l (.bind (.raiseIf (fun h => ?_) fun h => ?_)))
  · exact hf (by simpa using h)
  · exact ht (by simpa using h)

/-- The hooks of `hk` are code of users, and throw only if `throws`. -/
structure Hooks (ps : Parameters) (throws : Prop) (hk : UserCode) : Prop where
  ok : hk.Ok ps
  quiet : ¬throws → hk.Quiet

variable {throws : Prop}

theorem leads_hook (hh : Hooks ps throws hk) (h : Hook) (p : Addr) {Q : Except Exn Unit → Core → Prop}
    (hok : Q (.ok ()) c) (hex : throws → ∀ e, Q (.error e) c) :
    lifecycle.Leads (hk.hook h p) c Q := by
  by_cases ht : throws
  · exact leads_calm (hh.ok.hook h p).calm fun r => by
      cases r with
      | ok u => exact hok
      | error e => exact hex ht e
  · refine ((leads_calm (Q := fun _ c' => c' = c) (hh.ok.hook h p).calm fun _ => rfl).noThrow
      (hh.quiet ht h p)).mono fun r c' hr => ?_
    obtain ⟨rfl, u, rfl⟩ := hr
    exact hok

/-! ## Loops over the devices -/

namespace Core

/-- Every device of `l` receives callback `h`. -/
def notifyAll (h : Hook) (l : List Addr) (c : Core) : Core := l.foldl (Core.notify h) c

theorem notifyAll_append (h : Hook) (l : List Addr) (x : Addr) (c : Core) :
    c.notifyAll h (l ++ [x]) = (c.notifyAll h l).notify h x := by
  simp [notifyAll]

/-- Nothing but the callbacks changes. -/
theorem notifyAll_eq (h : Hook) (l : List Addr) (c : Core) :
    c.notifyAll h l = { c with calls := (c.notifyAll h l).calls } := by
  induction l generalizing c with
  | nil => rfl
  | cons x l ih => exact ih (c.notify h x)

@[simp] theorem notifyAll_state (h : Hook) (l : List Addr) (c : Core) :
    (c.notifyAll h l).state = c.state := by rw [notifyAll_eq]

@[simp] theorem notifyAll_devices (h : Hook) (l : List Addr) (c : Core) :
    (c.notifyAll h l).devices = c.devices := by rw [notifyAll_eq]

@[simp] theorem notifyAll_devCount (h : Hook) (l : List Addr) (c : Core) :
    (c.notifyAll h l).devCount = c.devCount := by rw [notifyAll_eq]

@[simp] theorem notifyAll_alive (h : Hook) (l : List Addr) (c : Core) :
    (c.notifyAll h l).alive = c.alive := by rw [notifyAll_eq]

@[simp] theorem notifyAll_bus (h : Hook) (l : List Addr) (c : Core) :
    (c.notifyAll h l).bus = c.bus := by rw [notifyAll_eq]

@[simp] theorem notifyAll_port (h : Hook) (l : List Addr) (c : Core) :
    (c.notifyAll h l).port = c.port := by rw [notifyAll_eq]

@[simp] theorem notifyAll_discoveryFailed (h : Hook) (l : List Addr) (c : Core) :
    (c.notifyAll h l).discoveryFailed = c.discoveryFailed := by rw [notifyAll_eq]

@[simp] theorem notifyAll_initialized (h : Hook) (l : List Addr) (c : Core) :
    (c.notifyAll h l).initialized = c.initialized := by rw [notifyAll_eq]

@[simp] theorem notifyAll_swept (h : Hook) (l : List Addr) (c : Core) :
    (c.notifyAll h l).swept = c.swept := by rw [notifyAll_eq]

end Core

/-- How a callback loop ends: all devices were called, or a hook threw at some device. -/
inductive Notified (throws : Prop) (h : Hook) (c : Core) : Except Exn Unit → Core → Prop
  | all : Notified throws h c (.ok ()) (c.notifyAll h c.devices)
  | threw {l x rest e} : throws → c.devices = l ++ x :: rest →
      Notified throws h c (.error e) (c.notifyAll h (l ++ [x]))

/-- A loop over the devices whose body does not change the list. -/
theorem leads_forDevices {l : Loop} {body : Addr → DeviceId → P Unit}
    {Q : Except Exn Unit → Core → Prop} (J : List Addr → Core → Prop)
    (hJ : ∀ done c', J done c' → c'.devices = c.devices)
    (hstep : ∀ done x rest, c.devices = done ++ x :: rest → ∀ id c', J done c' →
      lifecycle.Leads (body x id) c' fun r c'' => match r with
        | .ok _ => J (done ++ [x]) c''
        | .error e => Q (.error e) c'')
    (hend : ∀ c', J c.devices c' → Q (.ok ()) c') (h : J [] (c.perform (.devices l) c.devices)) :
    lifecycle.Leads (forDevices l body) c Q := by
  refine .bind (leads_act fun devices hd => ?_)
  obtain rfl : devices = c.devices := hd
  refine .forEach J (fun done x rest hx c' hc' => ?_) hend h
  refine .bind (leads_act fun r hr => ?_)
  have hmem : r.isSome = true := by
    have hr' : r.isSome = decide (x ∈ c'.devices) := hr
    rw [hr', hJ done c' hc', hx]
    simp
  obtain ⟨id, rfl⟩ := Option.isSome_iff_exists.1 hmem
  refine (hstep done x rest hx id c' hc').mono fun r c'' hr => ?_
  cases r <;> exact hr

theorem leads_onCallback (hh : Hooks ps throws hk) (h : Hook) (x : Addr)
    {Q : Except Exn Unit → Core → Prop} (hok : Q (.ok ()) (c.notify h x))
    (hex : throws → ∀ e, Q (.error e) (c.notify h x)) :
    lifecycle.Leads (onCallback hk h x) c Q :=
  Machine.Leads.bind (leads_act fun _ _ => leads_hook hh h x hok hex)

theorem leads_notify (throws : Prop) (h : Hook) {body : Addr → DeviceId → P Unit}
    (hb : ∀ (x : Addr) (id : DeviceId) (c : Core) (Q : Except Exn Unit → Core → Prop),
      Q (.ok ()) (c.notify h x) → (throws → ∀ e, Q (.error e) (c.notify h x)) →
        lifecycle.Leads (body x id) c Q) :
    lifecycle.Leads (forDevices (.callback h) body) c (Notified throws h c) := by
  refine leads_forDevices (fun done c' => c' = c.notifyAll h done) ?_ ?_ ?_ rfl
  · rintro done c' rfl
    exact Core.notifyAll_devices h done c
  · rintro done x rest hx id c' rfl
    refine hb x id _ _ (Core.notifyAll_append h done x c).symm fun ht e => ?_
    rw [← Core.notifyAll_append]
    exact .threw ht hx
  · rintro c' rfl
    exact .all

theorem leads_callbacks (hh : Hooks ps throws hk) (h : Hook) :
    lifecycle.Leads (forDevices (.callback h) fun p _ => onCallback hk h p) c
      (Notified throws h c) :=
  leads_notify throws h fun x _ _ _ hok hex => leads_onCallback hh h x hok hex

end EthercatInterface
