import EthercatInterface.Lib.Atomic
import EthercatInterface.Mailbox.Drain
import EthercatInterface.Proof.Sections

/-!
# Mailbox accesses

The four accesses are one section with different transfers and replies (`mailboxSection`).
`wp_section` is its specification, and `upholds_sections` makes an invariant of whole runs of
what every such section keeps.

**`success_iff`**: an access that returns succeeded if and only if it carries no event; it
failed if and only if its working counter was not positive or an attributable entry was popped
after its transfer; and the event of a failure names the device, is an error and no emergency.
-/

namespace EthercatInterface

open Interleave

/-- What the four accesses have in common. -/
def mailboxSection {β : Type} (what : String) (id : DeviceId) (b : Act)
    (finish : Ans b → P (Option MailboxEvent × Bool))
    (reply : Ans b → Option MailboxEvent × Bool → P β) : P β :=
  Prog.withLock [.mailbox] do
    checkAccess what id
    drainMailboxEvents
    let r ← act b
    let finished ← finish r
    reply r finished

/-! ## Outside the mailbox -/

/-- Nothing has been transferred, popped or counted. -/
structure Aside (w w' : W) : Prop where
  accesses : accesses w'.hist = accesses w.hist
  pops : pops w'.hist = pops w.hist
  status : w'.st.mailboxStatus = w.st.mailboxStatus

variable {ok : Guard Act Ans Env St} {t : ℕ} {w w' w₁ : W} {acc : MailboxAccess}

theorem Aside.refl (w : W) : Aside w w := ⟨rfl, rfl, rfl⟩

theorem Aside.trans (h : Aside w w₁) (h' : Aside w₁ w') : Aside w w' :=
  ⟨h'.accesses.trans h.accesses, h'.pops.trans h.pops, h'.status.trans h.status⟩

theorem Aside.act {a : Act} (ha : a.boxes = false) (i : Env) : Aside w (w.after exec t a i) := by
  refine ⟨?_, ?_, ?_⟩
  · exact accesses_skip (transferOf_unboxed ha _) (poppedOf_unboxed ha _)
  · exact pops_skip (poppedOf_unboxed ha _)
  · rw [World.after_st, mailboxStatus_exec, countedKind_unboxed ha]
    rfl

theorem wp_aside {β : Type} {p : P β} (hp : p.Uses Unboxed) :
    wp exec ok free t p (fun _ w' => Aside w w') w :=
  wp_uses (S := Unboxed) (J := Aside w) (fun _ ha i _ _ h => ⟨trivial, h.trans (.act ha i)⟩) hp
    (.refl w)

/-- Did not return. -/
def Outcome.Stopped {β : Type} (o : Outcome Exn β) : Prop := ∀ x, o ≠ .ret x

theorem stopped_exn {β : Type} (e : Exn) : Outcome.Stopped (.exn e : Outcome Exn β) :=
  fun _ h => by cases h

theorem stopped_crash {β : Type} : Outcome.Stopped (.crash : Outcome Exn β) := fun _ h => by cases h

/-- The checks leave the mailbox alone, and look at the slave count last. -/
theorem wp_checkAccess {what : String} {id : DeviceId} {Q : Outcome Exn Unit → W → Prop}
    (hstop : ∀ o w', Outcome.Stopped o → Aside w w' → Q o w')
    (hret : ∀ w', Aside w w' → inFlight t w'.hist = false → Q (.ret ()) w') :
    wp exec ok free t (checkAccess what id) Q w := by
  have quiet : (stateIn [.preInit, .shutdown]).Uses Unboxed := (Fits.unboxed (still_stateIn (V := AnyLock) _)).uses
  refine wp_bind (wp_mono (wp_aside quiet) fun o w₁ h₁ => ?_)
  cases o with
  | exn e => exact hstop _ _ (stopped_exn e) h₁
  | crash => exact hstop _ _ stopped_crash h₁
  | ret b =>
    refine wp_bind (wp_raiseIf (fun _ => hstop _ _ (stopped_exn _) h₁) fun _ => ?_)
    refine wp_bind (wp_bind (wp_perform fun i _ => ⟨trivial, ?_⟩))
    have h₂ := h₁.trans (Aside.act (t := t) (a := .slavecount) rfl i)
    exact wp_raiseIf (fun _ => hstop _ _ (stopped_exn _) h₂) fun _ => hret _ h₂ (inFlight_other rfl rfl _)

/-! ## The section of an access -/

/-- An access `a` that ended with `event` has taken place. What was on the error list before
(`stale`) has been counted, and what was popped for the access is what its transfer pushed. -/
structure Served (ok : Guard Act Ans Env St) (w : W) (a : Access) (event : Option MailboxEvent)
    (w' : W) : Prop where
  accesses : accesses w'.hist = a :: accesses w.hist
  counted : ∃ stale : List EcErrort,
    pops w'.hist = a.popped.reverse ++ (stale.reverse ++ pops w.hist) ∧
    w'.st.mailboxStatus =
      (stale.map kindOf ++ tally a.acc a.wkc a.popped).foldl MailboxStatus.count w.st.mailboxStatus
  pushed : ∃ (b : Act) (i : Env) (s : St), ok a.tid b i ⟨s, a.past⟩ ∧ a.popped = i.pushed ∧
    transferOf b (exec b i s).1 = some (a.acc, a.wkc)
  event : event.map MailboxEvent.untimed = verdict a.acc a.wkc a.popped

/-- A transfer only pushes onto the error list. -/
theorem exec_transfer {b : Act} {i : Env} {s : St} (h : (transferOf b (exec b i s).1).isSome) :
    (exec b i s).2 = s.pushErrors i.pushed := by
  cases b <;> first | rfl | cases h

theorem countedKind_transfer {b : Act} {r : Ans b} (h : (transferOf b r).isSome) :
    countedKind b = none ∧ poppedOf b r = none ∧ b.drains = false := by
  cases b <;> first | exact ⟨rfl, rfl, rfl⟩ | cases h

variable {β : Type} {what : String} {id : DeviceId} {b : Act}
  {finish : Ans b → P (Option MailboxEvent × Bool)} {reply : Ans b → Option MailboxEvent × Bool → P β}

/-- **The section of an access.** -/
theorem wp_section (wkcOf : Ans b → ℤ) {Q : Outcome Exn β → W → Prop}
    (hb : ∀ r, transferOf b r = some (acc, wkcOf r))
    (hfin : ∀ r w {Q}, (∀ event w', Finished t acc (wkcOf r) w event w' →
      Q (.ret (event, event.isSome)) w') → wp exec ok free t (finish r) Q w)
    (hstop : ∀ o w', Outcome.Stopped o → Aside w w' → Q o w')
    (hserve : ∀ r a event w', a.tid = t → a.acc = acc → a.wkc = wkcOf r → Served ok w a event w' →
      wp exec ok free t (reply r (event, event.isSome)) Q w') :
    wp exec ok free t (mailboxSection what id b finish reply) Q w := by
  refine wp_withLock (wp_bind (wp_checkAccess (fun o w' ho h => ?_) fun w₁ h₁ hf₁ => ?_))
  · -- a check that fails ends the section before it has touched the list
    cases o with
    | ret x => exact absurd rfl (ho x)
    | exn e => exact hstop _ _ (stopped_exn e) h
    | crash => exact hstop _ _ stopped_crash h
  -- then: what others left is counted, the transfer is made, and what it pushed is drained
  refine wp_bind (wp_drainMailboxEvents fun w₂ he₂ hd₂ _ => ?_)
  refine wp_bind (wp_perform fun i hi => ⟨trivial, ?_⟩)
  have hsome : (transferOf b (exec b i w₂.st).1).isSome := by rw [hb]; rfl
  obtain ⟨hk, hp, hdr⟩ := countedKind_transfer hsome
  refine wp_bind (hfin _ _ fun event w₃ hf => ?_)
  have hlist : (w₂.after exec t b i).st.context.ecatEList = i.pushed := by
    rw [World.after_st, exec_transfer hsome]
    simp [St.pushErrors, he₂]
  -- from the transfer on, what is popped belongs to this access
  have hflight : inFlight t (w₂.after exec t b i).hist = true := by
    rw [World.after_hist, inFlight, if_neg (by simp [hdr])]
    exact hsome
  have hacc : accesses (w₂.after exec t b i).hist =
      ⟨t, acc, wkcOf (exec b i w₂.st).1, [], w₂.hist⟩ :: accesses w.hist := by
    have := hd₂.accesses
    rw [hf₁] at this
    rw [World.after_hist, accesses, hb, ← h₁.accesses]
    exact congrArg _ this
  have hdone := hf.drained
  rw [hlist] at hdone
  refine hserve _ ⟨t, acc, wkcOf (exec b i w₂.st).1, i.pushed, w₂.hist⟩ event w₃ rfl rfl rfl
    ⟨?_, ⟨w₁.st.context.ecatEList, ?_, ?_⟩, ⟨b, i, w₂.st, hi, rfl, hb _⟩, ?_⟩
  · rw [hdone.accesses, hflight, if_pos rfl, hacc]
    exact foldl_popFor ⟨t, acc, wkcOf (exec b i w₂.st).1, [], w₂.hist⟩ _ _
  · rw [hdone.pops, World.after_hist, pops_skip hp, hd₂.pops, h₁.pops]
  · rw [hdone.status, World.after_st, mailboxStatus_exec, hk, Option.map_none, Option.getD_none,
      hd₂.status, h₁.status, List.foldl_append]
  · rw [hf.event, hlist]

/-! ## The four accesses -/

/-- How `read_sdo_untyped` ends. -/
def sdoReadReply (n : ℕ) (checkSize : Bool) (transfer : Transfer)
    (finished : Option MailboxEvent × Bool) : P (SDOReadResult × List UInt8) :=
  if finished.2 then
    pure ({ success := false, actualSizeRead := transfer.size, workingCounter := transfer.wkc
            mailboxDiagnostics := finished.1 }, transfer.data)
  else do
    Prog.raiseIf (checkSize && toInt n ≠ transfer.size)
      (soemErrorCode "SDORead size mismatch" transfer.size)
    pure ({ success := true, actualSizeRead := transfer.size, workingCounter := transfer.wkc
            mailboxDiagnostics := finished.1 }, transfer.data)

/-- How `foe_read` ends. -/
def foeReadReply (n : ℕ) (transfer : Transfer) (finished : Option MailboxEvent × Bool) :
    P (FoEReadResult × List UInt8) :=
  if finished.2 then
    pure ({ success := false, workingCounter := transfer.wkc, actualReadSize := 0
            mailboxDiagnostics := finished.1 }, [])
  else
    pure ({ success := true, workingCounter := transfer.wkc
            actualReadSize := min (toSize transfer.size) n
            mailboxDiagnostics := finished.1 }, transfer.data.take (min (toSize transfer.size) n))

theorem readSdoUntyped_eq (n : ℕ) (id : DeviceId) (index subIndex : ℕ) (checkSize : Bool) :
    readSdoUntyped n id index subIndex checkSize =
      mailboxSection "SDO" id (.ecxSDOread id index subIndex n)
        (fun r => finishMailboxAccess
          { deviceId := id, protocol := .coe, index := some index, subIndex := some subIndex } r.wkc)
        (sdoReadReply n checkSize) := rfl

theorem writeSdoUntyped_eq (data : List UInt8) (id : DeviceId) (index subIndex : ℕ) :
    writeSdoUntyped data id index subIndex =
      mailboxSection "SDO" id (.ecxSDOwrite id index subIndex data)
        (fun wkc => finishMailboxAccess
          { deviceId := id, protocol := .coe, index := some index, subIndex := some subIndex } wkc)
        (fun wkc finished => pure { success := !finished.2, workingCounter := wkc
                                    mailboxDiagnostics := finished.1 }) := rfl

theorem foeWrite_eq (id : DeviceId) (fileName : String) (data : List UInt8) :
    foeWrite id fileName data =
      mailboxSection "file" id (.ecxFOEwrite id fileName data)
        (fun wkc => finishFoeAccess { deviceId := id, protocol := .foe } wkc)
        (fun wkc finished => pure { success := !finished.2, workingCounter := wkc
                                    mailboxDiagnostics := finished.1 }) := rfl

theorem foeRead_eq (id : DeviceId) (fileName : String) (n : ℕ) :
    foeRead id fileName n =
      mailboxSection "file" id (.ecxFOEread id fileName n)
        (fun r => finishFoeAccess { deviceId := id, protocol := .foe } r.wkc) (foeReadReply n) := rfl

/-- A mailbox access, with its arguments. -/
inductive Request
  | readSdoUntyped (n : ℕ) (id : DeviceId) (index subIndex : ℕ) (checkSize : Bool)
  | writeSdoUntyped (data : List UInt8) (id : DeviceId) (index subIndex : ℕ)
  | foeWrite (id : DeviceId) (fileName : String) (data : List UInt8)
  | foeRead (id : DeviceId) (fileName : String) (n : ℕ)

/-- What the results of the four accesses have in common. -/
structure Reply where
  success : Bool
  workingCounter : ℤ
  mailboxDiagnostics : Option MailboxEvent
  deriving DecidableEq

/-- The access that a request is finished as. -/
def Request.access : Request → MailboxAccess
  | .readSdoUntyped _ id index subIndex _ | .writeSdoUntyped _ id index subIndex =>
    { deviceId := id, protocol := .coe, index := some index, subIndex := some subIndex }
  | .foeWrite id _ _ | .foeRead id _ _ => { deviceId := id, protocol := .foe }

/-- Perform the access. -/
def Request.run : Request → P Reply
  | .readSdoUntyped n id index subIndex checkSize =>
    (EthercatInterface.readSdoUntyped n id index subIndex checkSize).bind fun r =>
      pure ⟨r.1.success, r.1.workingCounter, r.1.mailboxDiagnostics⟩
  | .writeSdoUntyped data id index subIndex =>
    (EthercatInterface.writeSdoUntyped data id index subIndex).bind fun r =>
      pure ⟨r.success, r.workingCounter, r.mailboxDiagnostics⟩
  | .foeWrite id fileName data =>
    (EthercatInterface.foeWrite id fileName data).bind fun r =>
      pure ⟨r.success, r.workingCounter, r.mailboxDiagnostics⟩
  | .foeRead id fileName n =>
    (EthercatInterface.foeRead id fileName n).bind fun r =>
      pure ⟨r.1.success, r.1.workingCounter, r.1.mailboxDiagnostics⟩

/-- **The specification of the four accesses.** One that served its request may still throw, unless
it has an event. -/
theorem wp_run (q : Request) {Q : Outcome Exn Reply → W → Prop}
    (hstop : ∀ o w', Outcome.Stopped o → Aside w w' → Q o w')
    (hserve : ∀ a event w', a.tid = t → a.acc = q.access → Served ok w a event w' →
      (event = none → ∀ e, Q (.exn e) w') ∧ Q (.ret ⟨event.isNone, a.wkc, event⟩) w') :
    wp exec ok free t q.run Q w := by
  have stop : ∀ {α : Type} {f : α → P Reply} (o : Outcome Exn α) w', Outcome.Stopped o →
      Aside w w' → o.andThen (fun x => wp exec ok free t (f x) Q) Q w' := by
    intro α f o w' ho h
    cases o with
    | ret x => exact absurd rfl (ho x)
    | exn e => exact hstop _ _ (stopped_exn e) h
    | crash => exact hstop _ _ stopped_crash h
  cases q with
  | readSdoUntyped n id index subIndex checkSize =>
    rw [Request.run, readSdoUntyped_eq]
    refine wp_bind (wp_section Transfer.wkc (fun _ => rfl)
      (fun r w Q h => wp_finishMailboxAccess (by simp) h) stop ?_)
    intro r a event w' ht ha hw hs
    obtain ⟨he, hr⟩ := hserve a event w' ht ha hs
    rw [hw] at hr
    cases event with
    -- a read of the wrong size throws, after it has been served
    | none => exact wp_bind (wp_raiseIf (fun _ => he rfl _) fun _ => hr)
    | some ev => exact hr
  | writeSdoUntyped data id index subIndex =>
    rw [Request.run, writeSdoUntyped_eq]
    refine wp_bind (wp_section (fun r => r) (fun _ => rfl)
      (fun r w Q h => wp_finishMailboxAccess (by simp) h) stop ?_)
    intro r a event w' ht ha hw hs
    have hr := (hserve a event w' ht ha hs).2
    rw [hw] at hr
    cases event <;> exact hr
  | foeWrite id fileName data =>
    rw [Request.run, foeWrite_eq]
    refine wp_bind (wp_section (fun r => r) (fun _ => rfl)
      (fun r w Q h => wp_finishFoeAccess rfl h) stop ?_)
    intro r a event w' ht ha hw hs
    have hr := (hserve a event w' ht ha hs).2
    rw [hw] at hr
    cases event <;> exact hr
  | foeRead id fileName n =>
    rw [Request.run, foeRead_eq]
    refine wp_bind (wp_section Transfer.wkc (fun _ => rfl)
      (fun r w Q h => wp_finishFoeAccess rfl h) stop ?_)
    intro r a event w' ht ha hw hs
    have hr := (hserve a event w' ht ha hs).2
    rw [hw] at hr
    cases event <;> exact hr

/-- An access that returns has been served. -/
theorem served_of_exec {q : Request} {r : Reply} (he : Exec exec ok t q.run w (.ret r) w') :
    ∃ a event, a.tid = t ∧ a.acc = q.access ∧ Served ok w a event w' ∧
      r = ⟨event.isNone, a.wkc, event⟩ := by
  let Q : Outcome Exn Reply → W → Prop := fun o w' => ∀ r, o = .ret r →
    ∃ a event, a.tid = t ∧ a.acc = q.access ∧ Served ok w a event w' ∧ r = ⟨event.isNone, a.wkc, event⟩
  have h : wp exec ok free t q.run Q w := by
    refine wp_run q (fun o w' ho _ r hr => absurd hr (ho r)) fun a event w' ht ha hs => ?_
    refine ⟨fun _ _ _ h => (by cases h), fun r hr => ?_⟩
    cases hr
    exact ⟨a, event, ht, ha, hs, rfl⟩
  exact wp_sound he h r rfl

/-- **An access succeeds if and only if it carries no event.** It fails if and only if its
working counter is not positive or an attributable entry was popped after its transfer, and
the event of a failure names the device, is an error and no emergency. -/
theorem success_iff {q : Request} {r : Reply} (he : Exec exec free t q.run w (.ret r) w') :
    ∃ a, accesses w'.hist = a :: accesses w.hist ∧ a.tid = t ∧ a.acc = q.access ∧
      a.wkc = r.workingCounter ∧
      (r.success = true ↔ r.mailboxDiagnostics = none) ∧
      (r.success = false ↔ r.workingCounter ≤ 0 ∨
        ∃ raw ∈ a.popped, belongsToAccess q.access (makeMailboxEvent 0 raw) = true) ∧
      ∀ ev ∈ r.mailboxDiagnostics, ev.deviceId = q.access.deviceId ∧ ev.severity = .error ∧
        ev.kind ≠ .emergency := by
  obtain ⟨a, event, ht, ha, hs, rfl⟩ := served_of_exec he
  refine ⟨a, hs.accesses, ht, ha, rfl, Option.isNone_iff_eq_none, ?_, fun ev hev => ?_⟩
  · have := verdict_isSome a.acc a.wkc a.popped
    rw [← hs.event, Option.isSome_map, ha] at this
    cases event <;> simpa [MailboxAccess.owns] using this
  · cases hev
    have := verdict_event hs.event.symm
    rw [← ha]
    exact this

/-- An initialised bus with one slave, and an entry of another object on its error list. -/
def oneSlave : W :=
  ⟨{ state := .initialized
     context := { ecatSlavecount := 1, ecatEList := [{ Slave := 1, Index := 0x7000 }] } }, []⟩

def abortedRead : Request := .readSdoUntyped 4 1 0x6000 1 true

/-- The slave aborts the access. -/
def abortEntry : EcErrort := { Slave := 1, Index := 0x6000, SubIdx := 1, AbortCode := 0x06020000 }

/-- The transfer is the ninth action of the access. -/
def abortedEnv : List Env := List.replicate 8 default ++ [{ pushed := [abortEntry] }]

/-- The aborted read on that bus. -/
def abortedRun : Outcome Exn Reply × W × List Env := run exec 0 abortedRead.run abortedEnv oneSlave

/-- It fails, with the abort of its own object as its event. -/
theorem success_iff_aborted :
    abortedRun.1 = .ret ⟨false, 0, some (makeMailboxEvent 0 abortEntry)⟩ ∧
      (∃ a, accesses abortedRun.2.1.hist = [a] ∧ a.acc = abortedRead.access ∧ a.wkc = 0 ∧
        a.popped = [abortEntry]) ∧
      (makeMailboxEvent 0 abortEntry).deviceId = 1 ∧ (makeMailboxEvent 0 abortEntry).severity = .error := by
  have hrun : abortedRun.1 = .ret ⟨false, 0, some (makeMailboxEvent 0 abortEntry)⟩ := rfl
  have h : Exec exec free 0 abortedRead.run oneSlave
      (.ret ⟨false, 0, some (makeMailboxEvent 0 abortEntry)⟩) abortedRun.2.1 :=
    run_exec exec 0 abortedRead.run abortedEnv oneSlave
  obtain ⟨a, ha, _, hacc, hw, _, _, hevent⟩ := success_iff h
  obtain ⟨hid, hsev, -⟩ := hevent _ rfl
  have hpopped : (accesses abortedRun.2.1.hist).map Access.popped = [[abortEntry]] := by decide +kernel
  rw [ha] at hpopped
  exact ⟨hrun, ⟨a, ha, hacc, hw, (List.cons.inj hpopped).1⟩, hid, hsev⟩

/-! ## Invariants of the mailbox -/

theorem inFlight_own (t : ℕ) : ∀ h : List Ev, inFlight t (own t h) = inFlight t h
  | [] => rfl
  | ⟨u, a, r⟩ :: h => by
    by_cases hu : u = t
    · subst hu
      rw [own_cons_self, inFlight, inFlight, inFlight_own u h]
    · rw [own_cons_ne hu, inFlight_own t h, inFlight, if_pos (.inl hu)]

section Upholds

variable {J : W → Prop} (hA : ∀ {w w'}, Aside w w' → J w → J w')
  (hD : ∀ {t raws w w'}, inFlight t w.hist = false → Drained t raws (raws.map kindOf) w w' →
    J w → J w')
  (hS : ∀ {a event w w'}, Served ok w a event w' → J w → J w')
include hA hS

theorem upholds_mailboxSection {β : Type} {what : String} {id : DeviceId} {b : Act}
    {finish : Ans b → P (Option MailboxEvent × Bool)}
    {reply : Ans b → Option MailboxEvent × Bool → P β} (wkcOf : Ans b → ℤ)
    (hb : ∀ r, transferOf b r = some (acc, wkcOf r))
    (hfin : ∀ r w {Q}, (∀ event w', Finished t acc (wkcOf r) w event w' →
      Q (.ret (event, event.isSome)) w') → wp exec ok free t (finish r) Q w)
    (hr : ∀ r finished, (reply r finished).Uses Unboxed) :
    Upholds exec ok J t (mailboxSection what id b finish reply) := by
  refine Upholds.withLock fun w hw => wp_section wkcOf hb hfin (fun _ _ _ h => hA h hw) ?_
  intro r a event w' _ _ _ hs
  exact wp_mono (wp_aside (hr _ _)) fun _ _ h => hA h (hS hs hw)

include hD

/-- **Every operation keeps an invariant of the mailbox** that each access, each drain and every
other action keeps. -/
theorem upholds_sections : Sectioned fun p => Upholds exec ok J t p where
  bind := Upholds.bind
  attempt := Upholds.attempt
  flat h := .uses (S := Unboxed) (fun _ ha i _ _ hw => hA (.act ha i) hw) h.uses
  drainUnlessBusy := by
    intro h
    refine .bind (.perform fun i w _ hw hh => ⟨hA (.act rfl i) hw, ?_⟩)
    refine .when (fun _ => .withLock fun w hw hh => ?_) fun _ => trivial
    refine wp_drainMailboxEvents fun w' _ hd _ => ⟨hD ?_ hd hw, trivial⟩
    -- the lock has just been taken, so no transfer of this thread is in flight
    rw [← inFlight_own, hh]
    exact inFlight_other rfl rfl _
  readSdoUntyped n id i s c := by
    rw [readSdoUntyped_eq]
    refine upholds_mailboxSection hA hS Transfer.wkc (fun _ => rfl)
      (fun r w Q h => wp_finishMailboxAccess (by simp) h) fun r finished => ?_
    unfold sdoReadReply
    split
    · trivial
    · exact Prog.uses_raiseIf.bind fun _ => trivial
  writeSdoUntyped data id i s := by
    rw [writeSdoUntyped_eq]
    exact upholds_mailboxSection hA hS (fun r => r) (fun _ => rfl)
      (fun r w Q h => wp_finishMailboxAccess (by simp) h) fun _ _ => trivial
  foeWrite id f data := by
    rw [foeWrite_eq]
    exact upholds_mailboxSection hA hS (fun r => r) (fun _ => rfl)
      (fun r w Q h => wp_finishFoeAccess rfl h) fun _ _ => trivial
  foeRead id f n := by
    rw [foeRead_eq]
    refine upholds_mailboxSection hA hS Transfer.wkc (fun _ => rfl)
      (fun r w Q h => wp_finishFoeAccess rfl h) fun r finished => ?_
    unfold foeReadReply
    split <;> trivial
  updateWrite p tp := .uses (S := Unboxed) (fun _ ha i _ _ hw => hA (.act ha i) hw)
    (uses_updateWrite (fun _ => Still.unboxed) p tp fun _ _ => rfl)
  updateRead p tp := .uses (S := Unboxed) (fun _ ha i _ _ hw => hA (.act ha i) hw)
    (uses_updateRead (fun _ => Still.unboxed) p tp (fun _ _ => rfl) fun _ => rfl)

end Upholds

end EthercatInterface
