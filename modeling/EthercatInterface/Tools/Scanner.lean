import EthercatInterface.Lib.Conclude
import EthercatInterface.Lifecycle.Interface
import EthercatInterface.Lifecycle.Tables
import EthercatInterface.Spec.Scanner

/-!
# The bus scanner only looks

`scannerMain` discovers the slaves, asks them, and destroys its bus, however the asking ends.

* `Verb.sends`: what a verb puts on the wire.
* `Probes`: a program that asks, and leaves the bus as it is.
* `scanner_looks`: whatever SOEM answers, the scanner ends, has sent nothing but what its verb sends, and
  has closed the interface again unless no slave was found.
-/

namespace EthercatInterface

open Interleave

/-- What a verb puts on the wire: the discovery, and what reads from a mailbox. -/
def Verb.sends : Verb → Act → Bool
  | _, .ecxConfigInit => true
  | .sdo _, .ecxReadODlist _ | .sdo _, .ecxReadODdescription _ _ | .sdo _, .ecxReadOE _ _ => true
  | .sdo readSdos, .ecxSDOread _ _ _ _ => readSdos
  | _, _ => false

/-- The action puts nothing else on the wire. -/
def Verb.Admits (v : Verb) (a : Act) : Prop := (a.transmits && !v.sends a) = false

instance (v : Verb) (a : Act) : Decidable (v.Admits a) :=
  inferInstanceAs (Decidable ((a.transmits && !v.sends a) = false))

/-- Runs that are to send nothing else. -/
abbrev scanning (v : Verb) : Setting Act Ans Env St := single free fun _ a _ _ => v.Admits a

variable {v : Verb} {α β γ : Type} {c : Core} {n : ℕ} {ps : Parameters} {w : W} {s : BusState}

/-! ## Asking -/

/-- The lifecycle of the bus and its number of slaves. -/
structure Standing (c : Core) (n : ℕ) (w : W) : Prop where
  core : core w = c
  count : w.st.context.ecatSlavecount = n

/-- What is thrown is a `std::exception`. -/
def Caught (c : Core) (n : ℕ) (e : Exn) (w : W) : Prop := e.isStd = true ∧ Standing c n w

/-- The program asks, and leaves the bus as it is. -/
def Probes (v : Verb) (p : P α) : Prop :=
  ∀ c n, (scanning v).Concludes (Standing c n) p (fun _ => Standing c n) (Caught c n)

theorem Calm.settled {a : Act} (h : Calm a) : a.enrols = false := by
  cases a <;> first | rfl | cases h

theorem Standing.after {a : Act} (ha : Calm a) (i : Env) (h : Standing c n w) :
    Standing c n (w.after exec 0 a i) where
  core := (core_after w 0 a i).trans ((ha.neutral _ _).trans h.core)
  count := (congrArg Roster.count (roster_exec ha.settled i w.st)).trans h.count

theorem probes_act {a : Act} (h : (a.lifecycle || (a.transmits && !v.sends a)) = false) : Probes v (act a) :=
  fun _ _ => .perform fun i _ _ hw =>
    ⟨(Bool.or_eq_false_iff.1 h).2, hw.after (Bool.or_eq_false_iff.1 h).1 i⟩

theorem probes_pure {x : α} : Probes v (.pure x : P α) := fun _ _ => .pure fun _ hw => hw

theorem probes_throw {e : Exn} (he : e.isStd = true) : Probes v (.throw e : P α) :=
  fun _ _ => .throw fun _ hw => ⟨he, hw⟩

namespace Probes

theorem bind {p : P β} {f : β → P α} (hp : Probes v p) (hf : ∀ x, Probes v (f x)) : Probes v (p.bind f) :=
  fun c n => .bind (hp c n) fun x => hf x c n

theorem withLock {m : List Mutex} {p : P α} (hp : Probes v p) : Probes v (Prog.withLock m p) :=
  fun c n => .withLock (hp c n)

theorem foldEach {f : γ → β → P γ} (hf : ∀ s x, Probes v (f s x)) (l : List β) (s : γ) :
    Probes v (Prog.foldEach l f s) := fun c n =>
  .foldEach (fun _ _ => Standing c n) fun _ x _ _ s => hf s x c n

theorem tryCatch {p : P α} {h : Exn → P α} (hp : Probes v p)
    (hh : ∀ e, e.isStd = true → Probes v (h e)) : Probes v (Prog.tryCatch p h) := fun c n =>
  .tryCatch (hp c n) fun e => .assume (c := e.isStd = true) (fun _ hw => hw.1) fun he =>
    (hh e he c n).mono (fun _ hw => hw.2) (fun _ _ h => h) fun _ _ h => h

end Probes

theorem probes_raiseIf {b : Bool} {e : Exn} (he : e.isStd = true) : Probes v (Prog.raiseIf b e : P Unit) :=
  fun _ _ => .raiseIf (fun _ _ hw => ⟨he, hw⟩) fun _ _ hw => hw

theorem probes_stateIn : ∀ l, Probes v (stateIn l)
  | [] => probes_pure
  | s :: l => by
    refine .bind (probes_act rfl) fun state => ?_
    split
    · exact probes_pure
    · exact probes_stateIn l

theorem probes_hasDeviceOnBus (id : DeviceId) : Probes v (hasDeviceOnBus id) :=
  .bind (probes_act rfl) fun _ => probes_pure

theorem probes_checkAccess (what : String) (id : DeviceId) : Probes v (checkAccess what id) :=
  .bind (probes_stateIn _) fun _ => .bind (probes_raiseIf rfl) fun _ =>
    .bind (probes_hasDeviceOnBus id) fun _ => probes_raiseIf rfl

/-! ## The error list -/

theorem probes_reportMailboxEvent (ev : MailboxEvent) : Probes v (reportMailboxEvent ev) :=
  .withLock (probes_act rfl)

theorem probes_drainAll : ∀ k, Probes v (drainAll k)
  | 0 => probes_pure
  | k + 1 => by
    refine .bind (probes_act rfl) fun r => ?_
    cases r with
    | none => exact probes_pure
    | some raw => exact .bind (probes_act rfl) fun _ => .bind (probes_reportMailboxEvent _) fun _ =>
        probes_drainAll k

theorem probes_drainFor (acc : MailboxAccess) : ∀ k attributed, Probes v (drainFor acc k attributed)
  | 0, _ => probes_pure
  | k + 1, attributed => by
    refine .bind (probes_act rfl) fun r => ?_
    cases r with
    | none => exact probes_pure
    | some raw =>
      refine .bind (probes_act rfl) fun now => ?_
      change Probes v (if _ then _ else _)
      split
      · exact probes_drainFor acc k _
      · exact .bind (probes_reportMailboxEvent _) fun _ => probes_drainFor acc k attributed

theorem probes_finishMailboxAccess (acc : MailboxAccess) (wkc : ℤ) :
    Probes v (finishMailboxAccess acc wkc) := by
  refine .bind (.bind (probes_act rfl) fun k => probes_drainFor acc (k + 1) none) fun event => ?_
  split
  · exact .bind (probes_act rfl) fun _ => .bind (probes_reportMailboxEvent _) fun _ => probes_pure
  · exact probes_pure

/-! ## What is asked -/

theorem probes_readSdoUntyped (size : ℕ) (id : DeviceId) (index subIndex : ℕ) (checkSize : Bool) :
    Probes (.sdo true) (readSdoUntyped size id index subIndex checkSize) := by
  refine .withLock (.bind (probes_checkAccess _ id) fun _ => .bind (.bind (probes_act rfl) fun k =>
    probes_drainAll (k + 1)) fun _ => .bind (probes_act rfl) fun transfer =>
    .bind (probes_finishMailboxAccess _ _) fun finished => ?_)
  split
  · exact probes_pure
  · exact .bind (probes_raiseIf rfl) fun _ => probes_pure

theorem probes_readAndPrint {size k : ℕ} {id : DeviceId} {index subIndex : ℕ} {checkSize : Bool}
    {text : SDOReadResult → List UInt8 → String} :
    Probes (.sdo true) (readAndPrint size k id index subIndex checkSize text) := by
  refine .bind (probes_readSdoUntyped k id index subIndex checkSize) fun read => ?_
  split
  · exact probes_pure
  · exact probes_pure

theorem probes_sdoPrintHelper (showReal : List UInt8 → String) (id : DeviceId) (index subIndex dataType : ℕ) :
    Probes (.sdo true) (sdoPrintHelper showReal id index subIndex dataType) := by
  refine .tryCatch ?_ fun e he => ?_
  · cases readingOf dataType with
    | none => exact probes_pure
    | some reading =>
      cases reading with
      | as T =>
        change Probes _ (sdoReadAs showReal T id index subIndex)
        unfold sdoReadAs
        cases T <;> exact probes_readAndPrint
      | oddInt bytes isSigned => exact probes_readAndPrint
      | bits k => exact probes_readAndPrint
  · cases e.runtimeError? with
    | none => exact probes_throw he
    | some what => exact probes_pure

theorem probes_readValue (showReal : List UInt8 → String) {asked readSdos : Bool}
    (h : readSdos = false → asked = false) (id : DeviceId) (index subIndex dataType : ℕ) :
    Probes (.sdo readSdos) (readValue showReal asked id index subIndex dataType) := by
  unfold readValue
  cases readSdos with
  | true =>
    split
    · exact .bind (probes_sdoPrintHelper showReal id index subIndex dataType) fun _ => probes_pure
    · exact probes_pure
  | false =>
    rw [h rfl]
    exact probes_pure

theorem probes_printSdo (showReal : List UInt8 → String) (readSdos : Bool) (id : DeviceId) (sdo : SDOEntry) :
    Probes (.sdo readSdos) (printSdo showReal readSdos id sdo) := by
  refine .bind (probes_readValue showReal (fun h => by rw [h]; rfl) id _ _ _) fun value => ?_
  exact .bind (.foldEach (fun values sub => .bind (probes_readValue showReal (fun h => h) id _ _ _)
    fun _ => probes_pure) _ _) fun _ => probes_pure

theorem probes_readOdFromDevice (readSdos : Bool) (id : DeviceId) :
    Probes (.sdo readSdos) (readOdFromDevice id true) := by
  refine .bind (probes_stateIn _) fun _ => .bind (probes_raiseIf rfl) fun _ =>
    .bind (probes_hasDeviceOnBus id) fun _ => .bind (probes_raiseIf rfl) fun _ =>
    .withLock (.bind (probes_act rfl) fun list => ?_)
  cases list with
  | none => exact probes_throw rfl
  | some od =>
    refine .bind (.foldEach (fun result x => .bind (.bind (probes_act rfl) fun _ => probes_pure)
      fun _ => probes_pure) _ _) fun result =>
      .foldEach (fun expanded obj => .bind ?_ fun _ => probes_pure) _ _
    unfold expandEntry
    split
    · exact probes_pure
    · cases od.findIdx? (· = obj.index) with
      | none => exact probes_pure
      | some itemIndex =>
        refine .bind (probes_act rfl) fun list => ?_
        cases list with
        | none => exact probes_pure
        | some oeList => exact probes_pure

/-- The devices are listed in order, each once. -/
theorem concludes_scan : (scanning v).Concludes (Standing c n) scan
    (fun devices w => devices.map DeviceInfo.id = List.range' 1 n ∧ Standing c n w) (Caught c n) := by
  refine .bind (probes_stateIn _ c n) fun _ => .bind (probes_raiseIf rfl c n) fun _ => ?_
  refine .bind (T := fun ids w => ids = List.range' 1 n ∧ Standing c n w) (.bind
    (T := fun count w => count = n ∧ Standing c n w) (.perform fun i w _ hw =>
      ⟨rfl, hw.count, hw.after (a := .slavecount) rfl i⟩) fun count =>
      .pure fun _ hw => ⟨by rw [hw.1], hw.2⟩) fun ids => ?_
  refine .assume (c := ids = List.range' 1 n) (fun _ hw => hw.1) fun hids => ?_
  subst hids
  refine (Setting.Concludes.foldEach (fun done (result : List DeviceInfo) w =>
    result.map DeviceInfo.id = done ∧ Standing c n w) fun done id rest _ result => ?_).mono
    (fun _ hw => ⟨rfl, hw.2⟩) (fun _ _ h => h) fun _ _ h => h
  refine .bind (T := fun info w => info.id = id ∧ result.map DeviceInfo.id = done ∧ Standing c n w)
    (.perform fun i w _ hw => ⟨rfl, rfl, hw.1, hw.2.after (a := .slaveInfo id) rfl i⟩) fun info =>
    .pure fun _ hw => ⟨?_, hw.2.2⟩
  rw [List.map_append, hw.2.1, List.map_singleton, hw.1]

/-- What is listed of a device begins with what was found. -/
theorem concludes_printDevice (showReal : List UInt8 → String) (readSdos : Bool) (info : DeviceInfo) :
    (scanning (.sdo readSdos)).Concludes (Standing c n) (printDevice showReal readSdos info)
      (fun printed w => printed.info = info ∧ Standing c n w) (Caught c n) :=
  .bind (probes_readOdFromDevice readSdos info.id c n) fun od => .bind (Probes.foldEach (fun _ sdo =>
    .bind (probes_printSdo showReal readSdos info.id sdo) fun _ => probes_pure) od [] c n) fun _ =>
    .pure fun _ hw => ⟨rfl, hw⟩

/-! ## `initialize` -/

/-- How `initialize` leaves a bus that has just been constructed. -/
inductive Scouted (c : Core) : Bool → Prop
  | unopened : c.state = .preInit → c.port = [] → c.discoveryFailed = false → Scouted c false
  | empty : c.state = .preInit → c.port = [.opened] → c.discoveryFailed = true → Scouted c false
  | found : c.state = .initialized → c.port = [.opened] → c.discoveryFailed = false → Scouted c true

theorem Initialized.scouted {r : Except Exn ℤ} (h : Initialized .fresh r c) :
    Scouted c true ∨ (∃ e, r = .error e) ∧ Scouted c false := by
  cases h with
  | refused hs => exact absurd rfl hs
  | @unopened e => exact .inr ⟨⟨e, rfl⟩, .unopened rfl rfl rfl⟩
  | @noDevices e => exact .inr ⟨⟨e, rfl⟩, .empty rfl rfl rfl⟩
  | opened k =>
    refine .inl (.found (Core.emplaceN_state ..) ?_ ?_)
    · exact Core.emplaceN_port ..
    · exact Core.emplaceN_discoveryFailed ..

/-- Nothing is known before and after, but what is thrown is a `std::exception`. -/
def Speaks (v : Verb) (p : P α) : Prop :=
  (scanning v).Concludes (fun _ => True) p (fun _ _ => True) fun e _ => e.isStd = true

theorem Probes.speaks {p : P α} (hp : Probes v p) : Speaks v p := fun w _ =>
  (hp (core w) w.st.context.ecatSlavecount).mono (fun _ h => h) (fun _ _ _ => trivial) (fun _ _ h => h.1) w
    ⟨rfl, rfl⟩

theorem speaks_act {a : Act} (ha : v.Admits a) : Speaks v (act a) := .perform fun _ _ _ _ => ⟨ha, trivial⟩

/-- The diagnostics have an entry for each of the slaves. -/
def Entered (ids : List DeviceId) (w : W) : Prop := ∀ id ∈ ids, id - 1 < w.st.latestDiagnostics.slaves.length

theorem speaks_initializeBus : Speaks v (initializeBus ps) := by
  refine .bind (probes_stateIn _).speaks fun _ => .bind (probes_raiseIf rfl).speaks fun _ =>
    .bind (speaks_act rfl) fun ec => .bind (probes_raiseIf rfl).speaks fun _ => ?_
  refine .bind (speaks_act rfl) fun deviceCount => .bind (probes_raiseIf rfl).speaks fun _ => ?_
  refine .bind (T := fun _ w => w.st.latestDiagnostics.slaves.length = w.st.context.ecatSlavecount)
    (.perform fun i w _ _ => ⟨rfl, length_resize _ _ _⟩) fun _ => ?_
  refine .bind (T := Entered) (.bind (T := fun k w => w.st.latestDiagnostics.slaves.length = k)
    (.perform fun i w _ hw => ⟨rfl, hw⟩) fun k => .pure fun w hw id hid => ?_) fun ids => ?_
  · have hk : w.st.latestDiagnostics.slaves.length = k := hw
    obtain ⟨hlo, hhi⟩ := List.mem_range'_1.1 hid
    rw [hk]
    exact Nat.sub_lt_left_of_lt_add hlo hhi
  refine .bind (T := fun _ _ => True) ((Setting.Concludes.forEach (fun _ => Entered ids)
    fun done id rest hids => ?_).mono (fun _ h => h) (fun _ _ _ => trivial) fun _ _ h => h) fun _ => ?_
  · have hid : id ∈ ids := by
      rw [hids]
      simp
    refine .bind (T := fun b w => b = true ∧ Entered ids w) (.perform fun i w _ hw =>
      ⟨rfl, decide_eq_true (hw id hid), fun x hx => ?_⟩) fun b => .assume (c := b = true) (fun _ hw => hw.1)
        fun hb => ?_
    · rw [show (w.after exec 0 (.captureTopology id) i).st.latestDiagnostics.slaves.length = _ from
        List.length_modify ..]
      exact hw x hx
    · subst hb
      exact .pure fun _ hw => hw.2
  refine .bind (speaks_act rfl) fun up => .bind (speaks_act rfl) fun _ => .bind (speaks_act rfl) fun _ => ?_
  refine .bind (T := fun _ _ => True) (Setting.Concludes.forEach (fun _ _ => True) fun _ id _ _ => ?_)
    fun _ => .pure fun _ h => h
  refine .bind (.bind (probes_stateIn _).speaks fun _ => .bind (probes_raiseIf rfl).speaks fun _ =>
    .bind (probes_hasDeviceOnBus id).speaks fun _ => .bind (probes_raiseIf rfl).speaks fun _ =>
    speaks_act rfl) fun info => speaks_act rfl

/-- `initialize`, of a bus that has just been constructed. -/
theorem concludes_initializeBus : (scanning v).Concludes (fun w => core w = .fresh) (initializeBus ps)
    (fun _ w => Scouted (core w) true) fun e w => e.isStd = true ∧ ∃ b, Scouted (core w) b := by
  refine (speaks_initializeBus.mono (fun _ _ => trivial) (fun _ _ h => h) fun _ _ h => h).andExec
    (F := fun w o w' => o.Ends (Initialized (core w)) (core w'))
    (fun w o w' _ he => leads_initializeBus.sound (core_simulates free 0) he) ?_ ?_
  · intro w x w' hw hf _
    have hi : Initialized .fresh (.ok x) (core w') := hw ▸ hf
    rcases hi.scouted with h | ⟨⟨e, he⟩, -⟩
    · exact h
    · cases he
  · intro w e w' hw hf he
    have hi : Initialized .fresh (.error e) (core w') := hw ▸ hf
    rcases hi.scouted with h | ⟨-, h⟩
    · exact ⟨he, true, h⟩
    · exact ⟨he, false, h⟩

/-! ## The destructor -/

/-- The state of the bus, and its number of slaves. -/
structure Resting (s : BusState) (n : ℕ) (w : W) : Prop where
  state : w.st.state = s
  count : w.st.context.ecatSlavecount = n

section State

variable {Q : α → W → Prop} {E : Exn → W → Prop}

/-- `if (state_ is in l) p else q`. -/
theorem concludes_branch {l : List BusState} {p q : P α}
    (ht : s ∈ l → (scanning v).Concludes (Resting s n) p Q E)
    (hf : s ∉ l → (scanning v).Concludes (Resting s n) q Q E) :
    (scanning v).Concludes (Resting s n) ((stateIn l).bind fun b => if b = true then p else q) Q E := by
  have hl : ∀ l, (scanning v).Concludes (Resting s n) (stateIn l)
      (fun b w => b = decide (s ∈ l) ∧ Resting s n w) E := by
    intro l
    induction l with
    | nil => exact .pure fun _ hw => ⟨by simp, hw⟩
    | cons b l ih =>
      refine .bind (T := fun state w => state = s ∧ Resting s n w)
        (.perform fun i w _ hw => ⟨rfl, hw.state, ⟨hw.state, hw.count⟩⟩) fun state =>
        .assume (c := state = s) (fun _ hw => hw.1) fun h => ?_
      subst h
      by_cases hb : state = b
      · rw [if_pos hb]
        exact .pure fun _ hw => ⟨by simp [hb], hw.2⟩
      · rw [if_neg hb]
        exact ih.mono (fun _ hw => hw.2) (fun _ _ hw => ⟨by simp [hw.1, hb], hw.2⟩) fun _ _ h => h
  refine .bind (hl l) fun b => .assume (c := b = decide (s ∈ l)) (fun _ hw => hw.1) fun h => ?_
  subst h
  by_cases hs : s ∈ l
  · rw [decide_eq_true hs]
    exact (ht hs).mono (fun _ hw => hw.2) (fun _ _ h => h) fun _ _ h => h
  · rw [decide_eq_false hs]
    exact (hf hs).mono (fun _ hw => hw.2) (fun _ _ h => h) fun _ _ h => h

end State

/-- The number of slaves. -/
def HasSlaves (n : ℕ) (w : W) : Prop := w.st.context.ecatSlavecount = n

/-- `shutdown` of a bus that has not been started. -/
theorem concludes_shutdown (hs : s = .preInit ∨ s = .initialized) :
    (scanning v).Concludes (Resting s n) (shutdown .none) (fun _ => HasSlaves n) fun _ _ => False := by
  refine concludes_branch (fun _ => .pure fun _ hw => hw.count) fun _ => ?_
  refine concludes_branch (fun _ => .perform fun i w _ hw => ⟨rfl, hw.count⟩) fun hpre => ?_
  refine concludes_branch (fun _ => .withLock ?_) fun hinit => ?_
  · exact .bind (T := fun _ => HasSlaves n) (.perform fun i w _ hw => ⟨rfl, hw.count⟩) fun _ =>
      .bind (T := fun _ => HasSlaves n) (.perform fun i w _ hw => ⟨rfl, hw⟩) fun _ =>
      .perform fun i w _ hw => ⟨rfl, hw⟩
  · rcases hs with rfl | rfl
    · exact absurd (List.mem_singleton.2 rfl) hpre
    · exact absurd (List.mem_singleton.2 rfl) hinit

theorem concludes_destroyBus (hs : s = .preInit ∨ s = .initialized) :
    (scanning v).Concludes (Resting s n) (destroyBus .none) (fun _ => HasSlaves n) fun _ _ => False := by
  refine .bind (T := fun _ => Resting s n) (.bind
    (T := fun devices w => w.st.devices = devices ∧ Resting s n w)
    (.perform fun i w _ hw => ⟨rfl, rfl, ⟨hw.state, hw.count⟩⟩) fun devices => ?_) fun _ => ?_
  · refine (Setting.Concludes.forEach (fun _ w => w.st.devices = devices ∧ Resting s n w)
      fun done p rest hl => ?_).mono (fun _ h => h) (fun _ _ h => h.2) fun _ _ h => h
    have hp : p ∈ devices := by
      rw [hl]
      simp
    refine .bind (T := fun r w => r.isSome = true ∧ w.st.devices = devices ∧ Resting s n w)
      (.perform fun i w _ hw => ⟨rfl, ?_, hw.1, ⟨hw.2.state, hw.2.count⟩⟩) fun r => ?_
    · change (if p ∈ w.st.devices then some (w.st.dev p).deviceInfo.id else none).isSome = true
      rw [hw.1, if_pos hp]
      rfl
    · refine .assume (c := r.isSome = true) (fun _ hw => hw.1) fun hr => ?_
      obtain ⟨id, rfl⟩ := Option.isSome_iff_exists.1 hr
      exact .perform fun i w _ hw => ⟨rfl, hw.2.1, ⟨hw.2.2.state, hw.2.2.count⟩⟩
  · refine .bind (.tryCatch (concludes_shutdown hs) fun e _ hw => hw.elim) fun _ =>
      .perform fun i w _ hw => ⟨rfl, hw⟩

/-- How the scanner leaves its bus. -/
structure Dismissed (found : Bool) (c : Core) : Prop where
  alive : c.alive = false
  devices : c.devices = []
  open_iff : LeftOpen c.port ↔ c.discoveryFailed = true
  closed : found = true → c.port = [.closed, .opened]

/-- A bus that has not been started is closed if it has been opened. -/
theorem ShutDown.unstarted {c' : Core} {r : Except Exn Unit}
    (hs : c.state = .preInit ∨ c.state = .initialized)
    (hm : ShutDown False c r c') : c'.discoveryFailed = c.discoveryFailed ∧
      c'.port = if c.state = .initialized then .closed :: c.port else c.port := by
  have hrun : ¬c.state.running := by rcases hs with hs | hs <;> rw [hs] <;> decide
  cases hm with
  | already h => rcases hs with hs | hs <;> cases hs.symm.trans h
  | unopened h => exact ⟨rfl, by rw [h]; rfl⟩
  | initialized h => exact ⟨rfl, by rw [if_pos h]; rfl⟩
  | stuck h => rcases hs with hs | hs <;> cases hs.symm.trans h
  | preThrew ht => exact ht.elim
  | postThrew ht => exact ht.elim
  | torn h => exact absurd h hrun

theorem Scouted.unstarted {b : Bool} (h : Scouted c b) : c.state = .preInit ∨ c.state = .initialized := by
  cases h with
  | unopened hs => exact .inl hs
  | empty hs => exact .inl hs
  | found hs => exact .inr hs

theorem Destroyed.dismissed {b : Bool} {c' : Core} {r : Except Exn Unit} (h : Scouted c b)
    (hm : Destroyed False c r c') : Dismissed b c' := by
  obtain ⟨hsd⟩ := hm
  have hstate : c.clearBusAll.state = c.state := by rw [Core.clearBusAll, Core.clearBus_eq]
  have hport : c.clearBusAll.port = c.port := by rw [Core.clearBusAll, Core.clearBus_eq]
  have hfailed : c.clearBusAll.discoveryFailed = c.discoveryFailed := by
    rw [Core.clearBusAll, Core.clearBus_eq]
  obtain ⟨hf, hp⟩ := hsd.unstarted (hstate ▸ h.unstarted)
  rw [hfailed] at hf
  rw [hstate, hport] at hp
  refine ⟨rfl, rfl, ?_, fun hb => ?_⟩
  · rw [Core.clear, hf, hp]
    cases h with
    | unopened hs hport hfailed => rw [if_neg (by rw [hs]; decide), hport, hfailed]; decide
    | empty hs hport hfailed => rw [if_neg (by rw [hs]; decide), hport, hfailed]; decide
    | found hs hport hfailed => rw [if_pos hs, hport, hfailed]; decide
  · subst hb
    cases h with
    | found hs hport => exact hp.trans (by rw [if_pos hs, hport])

/-- **A local bus**, of which the block says what it leaves. -/
theorem concludes_withBus {block : P α} {Q : α → ℕ → Prop}
    (hb : (scanning v).Concludes (fun w => core w = .fresh) block
      (fun x w => Scouted (core w) true ∧ Q x w.st.context.ecatSlavecount)
      fun e w => e.isStd = true ∧ ∃ b, Scouted (core w) b) :
    (scanning v).Concludes (fun w => core w = .fresh) (withBus block)
      (fun x w => Dismissed true (core w) ∧ Q x w.st.context.ecatSlavecount)
      fun e w => e.isStd = true ∧ ∃ b, Dismissed b (core w) := by
  have key : ∀ {b n} {R : Prop}, (scanning v).Concludes
      (fun w => Scouted (core w) b ∧ HasSlaves n w ∧ R) (destroyBus .none)
      (fun _ w => Dismissed b (core w) ∧ HasSlaves n w ∧ R) fun _ _ => False := by
    rintro b n R w ⟨hc, hn, hr⟩
    have hdestroy := wp_reached (concludes_destroyBus (v := v) hc.unstarted w ⟨rfl, hn⟩)
    refine wp_mono hdestroy fun o w' ho => ?_
    have hh : Hooks {} False UserCode.none := ⟨UserCode.none_ok _, fun _ => UserCode.none_quiet⟩
    have hm : o.Ends (Destroyed False (core w)) (core w') :=
      (leads_destroyBus hh).sound (core_simulates free 0) ho.2
    cases o with
    | ret _ => exact ⟨Destroyed.dismissed hc hm, ho.1, hr⟩
    | exn e => exact ho.1
    | crash => exact ho.1
  refine .bind (T := fun r => Outcome.Sure (fun x w => Scouted (core w) true ∧ Q x w.st.context.ecatSlavecount)
    (fun (e : Exn) w => e.isStd = true ∧ ∃ b, Scouted (core w) b) (.ofExcept r)) (.attempt hb) fun r => ?_
  cases r with
  | ok x =>
    refine fun w hw => Setting.Concludes.bind (T := fun _ w' => Dismissed true (core w') ∧
      HasSlaves w.st.context.ecatSlavecount w' ∧ Q x w.st.context.ecatSlavecount)
      (key.mono (fun _ h => h) (fun _ _ h => h) fun _ _ h => h.elim) (fun _ => .pure ?_) w ⟨hw.1, rfl, hw.2⟩
    rintro w' ⟨hd, hn, hq⟩
    exact ⟨hd, hn.symm ▸ hq⟩
  | error e =>
    rintro w ⟨he, b, hw⟩
    refine Setting.Concludes.bind (T := fun _ w' => Dismissed b (core w') ∧
      HasSlaves w.st.context.ecatSlavecount w' ∧ True)
      (key.mono (fun _ h => h) (fun _ _ h => h) fun _ _ h => h.elim) (fun _ => .throw ?_) w ⟨hw, rfl, trivial⟩
    rintro w' ⟨hd, -⟩
    exact ⟨he, b, hd⟩

/-! ## The scanner -/

/-- Each of the `n` slaves is listed, once and in order. -/
def Listed (listing : List PrintedDevice) (n : ℕ) : Prop :=
  listing.map (fun printed => printed.info.id) = List.range' 1 n

/-- The handler of a verb. -/
theorem concludes_handler {showReal : List UInt8 → String} {interface : String} :
    (scanning v).Concludes (fun w => core w = .fresh) (v.handler showReal interface)
      (fun listing w => Dismissed true (core w) ∧ Listed listing w.st.context.ecatSlavecount)
      fun e w => e.isStd = true ∧ ∃ b, Dismissed b (core w) := by
  have hscan : (scanning v).Concludes (fun w => Scouted (core w) true) scan
      (fun devices w => ∃ c n, Scouted c true ∧ devices.map DeviceInfo.id = List.range' 1 n ∧ Standing c n w)
      fun e w => e.isStd = true ∧ ∃ b, Scouted (core w) b := fun w hw =>
    (concludes_scan (c := core w) (n := w.st.context.ecatSlavecount)).mono (fun _ h => h)
      (fun devices w' h => ⟨_, _, hw, h⟩) (fun e w' h => ⟨h.1, true, h.2.core ▸ hw⟩) w ⟨rfl, rfl⟩
  cases v with
  | scan =>
    refine concludes_withBus (Q := Listed) (.bind concludes_initializeBus fun _ =>
      .bind hscan fun devices => .pure ?_)
    rintro w ⟨c, n, hc, hids, hw⟩
    rw [hw.core, hw.count, Listed, List.map_map]
    exact ⟨hc, hids⟩
  | sdo readSdos =>
    refine concludes_withBus (Q := Listed) (.bind concludes_initializeBus fun _ =>
      .bind hscan fun devices => ?_)
    rintro w ⟨c, n, hc, hids, hw⟩
    refine (Setting.Concludes.foldEach (fun done (listing : List PrintedDevice) w =>
      listing.map PrintedDevice.info = done ∧ Standing c n w) fun done info rest _ listing => ?_).mono
      (fun _ h => h) (fun listing w h => ?_) (fun e w (h : Caught c n e w) => ⟨h.1, true, h.2.core ▸ hc⟩) w
      ⟨rfl, hw⟩
    · refine .bind (T := fun printed w => listing.map PrintedDevice.info = done ∧ printed.info = info ∧
        Standing c n w) ?_ fun printed => .pure fun w hw => ⟨?_, hw.2.2⟩
      · exact fun w hw => (concludes_printDevice showReal readSdos info).mono (fun _ h => h)
          (fun _ _ h => ⟨hw.1, h⟩) (fun _ _ h => h) w hw.2
      · rw [List.map_append, hw.1, List.map_singleton, hw.2.1]
    · rw [h.2.core, h.2.count, Listed, ← hids, ← h.1, List.map_map]
      exact ⟨hc, rfl⟩

/-- **The scanner only looks.** Whatever SOEM answers, it ends with one of its two exit codes, its bus is
gone, and nothing has been sent but what its verb sends. The interface is left open exactly if no slave was
found; a listing has each slave once, in order. -/
theorem scanner_looks {showReal : List UInt8 → String} {interface : String}
    {o : Outcome Exn (ℤ × List PrintedDevice)} {w' : W}
    (he : Exec exec free 0 (scannerMain showReal interface v) ⟨{}, []⟩ o w') :
    (∀ e ∈ w'.hist, v.Admits e.act) ∧ w'.st.alive = false ∧ w'.st.devices = [] ∧
      (LeftOpen (port w'.hist) ↔ discoveryFailed w'.hist = true) ∧
      ((∃ listing, o = .ret (0, listing) ∧ port w'.hist = [.closed, .opened] ∧
        Listed listing w'.st.context.ecatSlavecount) ∨ o = .ret (-2, [])) := by
  have hmain : (scanning v).Concludes (fun w => core w = .fresh) (scannerMain showReal interface v)
      (fun r w => (∃ b, Dismissed b (core w)) ∧ ((∃ listing, r = (0, listing) ∧ Dismissed true (core w) ∧
        Listed listing w.st.context.ecatSlavecount) ∨ r = (-2, []))) fun _ _ => False := by
    refine .tryCatch (T := fun e w => e.isStd = true ∧ ∃ b, Dismissed b (core w))
      (.bind concludes_handler fun listing => .pure fun w hw => ?_) fun e => ?_
    · exact ⟨⟨true, hw.1⟩, .inl ⟨listing, rfl, hw⟩⟩
    · refine .assume (c := e.isStd = true) (fun _ hw => hw.1) fun hstd => ?_
      rw [if_pos hstd]
      exact .pure fun w hw => ⟨hw.2, .inr rfl⟩
  have h := wp_sound he (Setting.wp_performed (hmain ⟨{}, []⟩ rfl) fun e he => by cases he)
  obtain ⟨ho, hsent⟩ := h
  cases o with
  | exn e => exact ho.elim
  | crash => exact ho.elim
  | ret r =>
    obtain ⟨⟨b, hb⟩, hr⟩ := ho
    refine ⟨hsent, hb.alive, hb.devices, hb.open_iff, ?_⟩
    rcases hr with ⟨listing, rfl, hd, hl⟩ | rfl
    · exact .inl ⟨listing, rfl, hd.closed rfl, hl⟩
    · exact .inr rfl

/-- One slave with one object, a byte that reads 7. -/
def oneByte : List Env :=
  let asks : List Env := [{}, { ret := 1 }, { ret := 1, slavecount := 1 }]
  let lists : List Env := [{ odList := some [0x2000] },
    { odDescription := { objectCode := SDOObjectCode.var, dataType := 0x0005 } }]
  let reads : List Env := [{ ret := 1, size := 1, data := [7] }]
  asks ++ List.replicate 16 default ++ lists ++ List.replicate 5 default ++ reads

/-- What the scanner does with it. -/
def scannedByte : Outcome Exn (ℤ × List PrintedDevice) × W × List Env :=
  run exec 0 (scannerMain (fun _ => "") "eth0" (.sdo true)) oneByte ⟨{}, []⟩

/-- The exit code, if there is one. -/
def exitCode : Outcome Exn (ℤ × List PrintedDevice) → Option ℤ
  | .ret r => some r.1
  | _ => none

/-- It is read, and left alone. -/
theorem scanner_looks_byte : (∀ e ∈ scannedByte.2.1.hist, (Verb.sdo true).Admits e.act) ∧
    port scannedByte.2.1.hist = [.closed, .opened] := by
  have he : Exec exec free 0 (scannerMain (fun _ => "") "eth0" (.sdo true)) ⟨{}, []⟩ scannedByte.1
      scannedByte.2.1 :=
    run_exec exec 0 _ oneByte _
  obtain ⟨hsent, -, -, -, hend⟩ := scanner_looks he
  rcases hend with ⟨_, -, hport, -⟩ | hfailed
  · exact ⟨hsent, hport⟩
  · have hcode : exitCode scannedByte.1 = some 0 := by decide +kernel
    rw [hfailed] at hcode
    cases hcode

end EthercatInterface
