import Mathlib.Data.List.Perm.Basic
import EthercatInterface.Mailbox.Counters

/-!
# The ledger of the error list

Every entry that is popped from the error list is counted once or handed to the caller of one
access, as the event of that access. The counters also get the events that accesses make up:
missing responses, and the codes that FoE transfers return.

* `Reconciled`: the books are balanced. Every section of the mailbox keeps them so.
* `Attributed`: what the caller of an access is handed.
* `events_accounted`: the two hold over every run, and the drains end with an empty list.
-/

namespace EthercatInterface

open Interleave

/-! ## The books -/

/-- The event that an access makes up: for a missing response, or from an FoE return code. -/
def Access.madeUp (a : Access) : Option MailboxEvent :=
  if a.acc.protocol = .foe then
    if 0 < a.wkc then none else some (makeFoeEvent 0 a.acc.deviceId a.wkc)
  else if a.wkc ≤ 0 ∧ a.popped.find? a.acc.owns = none then some (makeTimeoutEvent 0 a.acc)
  else none

/-- The entry that the caller of an access is handed: **the first that belongs to it**, unless a
failed FoE transfer has a code of its own. -/
def Access.handed (a : Access) : Option EcErrort :=
  if a.acc.protocol = .foe ∧ a.wkc ≤ 0 then none else a.popped.find? a.acc.owns

/-- The entries popped for an access that are counted. -/
def Access.counted (a : Access) : List EcErrort :=
  if a.acc.protocol = .foe ∧ a.wkc ≤ 0 then a.popped else a.popped.eraseP a.acc.owns

/-- **The books are balanced**: what was popped is what was counted and what was handed out, and
the counters have each counted entry once, and each event that was made up. -/
def Reconciled (w : W) : Prop :=
  ∃ counted : List EcErrort,
    (pops w.hist).Perm (counted ++ (accesses w.hist).filterMap Access.handed) ∧
      w.st.mailboxStatus = (counted.map kindOf ++
        ((accesses w.hist).filterMap Access.madeUp).map MailboxEvent.kind).foldl MailboxStatus.count {}

theorem MailboxStatus.count_comm (m : MailboxStatus) (k k' : MailboxEventKind) :
    (m.count k).count k' = (m.count k').count k := by
  cases k <;> cases k' <;> rfl

/-- The order in which events are counted does not matter. -/
theorem foldl_count_perm {ks ks' : List MailboxEventKind} (h : ks.Perm ks') (m : MailboxStatus) :
    ks.foldl MailboxStatus.count m = ks'.foldl MailboxStatus.count m :=
  have : RightCommutative MailboxStatus.count := ⟨MailboxStatus.count_comm⟩
  h.foldl_eq m

theorem perm_eraseP {α : Type} (p : α → Bool) : ∀ l : List α,
    l.Perm (l.eraseP p ++ (l.find? p).toList)
  | [] => .refl _
  | x :: l => by
    have ih := perm_eraseP p l
    cases hx : p x with
    | true => simpa [hx] using (List.perm_append_singleton x l).symm
    | false => simpa [hx] using ih.cons x

/-- What was popped for an access is counted or handed out. -/
theorem Access.popped_perm (a : Access) : a.popped.Perm (a.counted ++ a.handed.toList) := by
  unfold counted handed
  split
  · simp
  · exact perm_eraseP _ _

/-- An access counts what it does not hand out, and what it makes up. -/
theorem Access.tally_perm (a : Access) : (tally a.acc a.wkc a.popped).Perm
    (a.counted.map kindOf ++ (a.madeUp.toList).map MailboxEvent.kind) := by
  unfold tally counted madeUp
  by_cases hp : a.acc.protocol = .foe
  · by_cases hw : 0 < a.wkc
    · have hw' : ¬a.wkc ≤ 0 := by omega
      simp [hp, hw, hw']
    · have hw' : a.wkc ≤ 0 := by omega
      simp only [hp, hw, hw', if_true, if_false, and_self, Option.toList_some, List.map_cons, List.map_nil]
      rw [← List.append_assoc, ← List.map_append]
      exact ((perm_eraseP _ _).symm.map kindOf).append_right _
  · by_cases hw : a.wkc ≤ 0 ∧ a.popped.find? a.acc.owns = none
    · simp [hp, hw, makeTimeoutEvent]
    · simp only [hp, hw, if_false, false_and]
      exact .refl _

/-- The event of an access is what it hands out, or makes up. -/
theorem Access.verdict_eq (a : Access) : verdict a.acc a.wkc a.popped =
    (a.handed.map (makeMailboxEvent 0)).or a.madeUp := by
  unfold verdict handed madeUp
  by_cases hp : a.acc.protocol = .foe
  · by_cases hw : 0 < a.wkc
    · have hw' : ¬a.wkc ≤ 0 := by omega
      simp [hp, hw, hw']
    · have hw' : a.wkc ≤ 0 := by omega
      simp [hp, hw, hw']
  · cases hf : a.popped.find? a.acc.owns <;> simp [hp]

section Reconciled

variable {ok : Guard Act Ans Env St} {t : ℕ} {w w' : W}

theorem Reconciled.aside (hw : Reconciled w) (h : Aside w w') : Reconciled w' := by
  obtain ⟨counted, hp, hs⟩ := hw
  refine ⟨counted, ?_, ?_⟩
  · rw [h.pops, h.accesses]
    exact hp
  · rw [h.status, h.accesses]
    exact hs

/-- A drain counts all it pops. -/
theorem Reconciled.drained (hw : Reconciled w) {raws : List EcErrort} (hf : inFlight t w.hist = false)
    (h : Drained t raws (raws.map kindOf) w w') : Reconciled w' := by
  obtain ⟨counted, hp, hs⟩ := hw
  have ha : accesses w'.hist = accesses w.hist := by
    rw [h.accesses, hf]
    exact if_neg Bool.false_ne_true
  refine ⟨raws ++ counted, ?_, ?_⟩
  · rw [h.pops, ha, List.append_assoc]
    exact (List.reverse_perm raws).append hp
  · rw [h.status, hs, ha, ← List.foldl_append]
    refine foldl_count_perm (List.perm_iff_count.2 fun k => ?_) _
    simp only [List.map_append, List.count_append]
    omega

/-- An access counts what it does not hand out. -/
theorem Reconciled.served (hw : Reconciled w) {a : Access} {event : Option MailboxEvent}
    (h : Served ok w a event w') : Reconciled w' := by
  obtain ⟨counted, hp, hs⟩ := hw
  obtain ⟨stale, hpops, hstatus⟩ := h.counted
  refine ⟨a.counted ++ (stale ++ counted), ?_, ?_⟩
  · -- the entries popped are those handed out and those counted, in some order
    have hhanded : (accesses w'.hist).filterMap Access.handed =
        a.handed.toList ++ (accesses w.hist).filterMap Access.handed := by
      rw [h.accesses, List.filterMap_cons]
      cases a.handed <;> rfl
    rw [hpops, hhanded]
    refine List.perm_iff_count.2 fun raw => ?_
    have h₁ := hp.count_eq raw
    have h₂ := a.popped_perm.count_eq raw
    simp only [List.count_append, List.count_reverse] at h₁ h₂ ⊢
    omega
  · -- what is counted without an entry is made up by the access itself
    have hmade : (accesses w'.hist).filterMap Access.madeUp =
        a.madeUp.toList ++ (accesses w.hist).filterMap Access.madeUp := by
      rw [h.accesses, List.filterMap_cons]
      cases a.madeUp <;> rfl
    rw [hstatus, hs, hmade, ← List.foldl_append]
    refine foldl_count_perm (List.perm_iff_count.2 fun k => ?_) _
    have h₁ := a.tally_perm.count_eq k
    simp only [List.map_append, List.count_append] at h₁ ⊢
    omega

end Reconciled

/-- The number of events in the counters. -/
def MailboxStatus.total (m : MailboxStatus) : ℕ :=
  m.mailboxAborts + m.mailboxTimeouts + m.mailboxEmergencies

/-- An event is added to one counter. -/
theorem MailboxStatus.total_foldl (ks : List MailboxEventKind) (m : MailboxStatus) :
    (ks.foldl MailboxStatus.count m).total = m.total + ks.length := by
  induction ks generalizing m with
  | nil => rfl
  | cons k ks ih =>
    have hk : (m.count k).total = m.total + 1 := by
      cases k <;> simp [MailboxStatus.count, MailboxStatus.total] <;> omega
    rw [List.foldl_cons, ih, hk, List.length_cons]
    omega

/-- **No event is lost or counted twice.** -/
theorem Reconciled.total {w : W} (hw : Reconciled w) :
    w.st.mailboxStatus.total + ((accesses w.hist).filterMap Access.handed).length =
      (pops w.hist).length + ((accesses w.hist).filterMap Access.madeUp).length := by
  obtain ⟨counted, hp, hs⟩ := hw
  have hlen := hp.length_eq
  rw [hs, MailboxStatus.total_foldl]
  simp only [List.length_append, List.length_map, MailboxStatus.total] at hlen ⊢
  omega

variable {ps : Parameters}

theorem reaches_reconciled {c : Conf Act Ans (List Mutex) Exn St}
    (hr : Reaches exec free (anyCall ps) (Conf.idle ⟨{}, []⟩) c) : Reconciled c.world := by
  have sections : ∀ t, Sectioned fun p => Upholds exec free Reconciled t p := fun _ =>
    upholds_sections (fun h hw => hw.aside h) (fun hf h hw => hw.drained hf h) fun h hw => hw.served h
  refine reaches_sustains (fun t p hp => ?_) hr ⟨[], .refl _, rfl⟩
  obtain ⟨o, hk, hok, rfl⟩ := hp
  exact (sections t).invoke hok o

/-! ## What callers get -/

/-- **The end of an access.** Either it stopped before it popped or counted anything, or it took
place. Its caller is then handed the entry that is not counted, or the event that was made up; if
it throws, there is neither. -/
def Attributed (q : Request) (w : W) (out : Outcome Exn Reply) (w' : W) : Prop :=
  (Aside w w' ∧ ∀ r, out ≠ .ret r) ∨
    ∃ a, accesses w'.hist = a :: accesses w.hist ∧ a.acc = q.access ∧
      (∃ stale : List EcErrort, pops w'.hist = a.popped.reverse ++ (stale.reverse ++ pops w.hist)) ∧
      match out with
      | .ret r => r.workingCounter = a.wkc ∧
        r.mailboxDiagnostics.map MailboxEvent.untimed = (a.handed.map (makeMailboxEvent 0)).or a.madeUp
      | .exn _ => a.handed = none ∧ a.madeUp = none
      | .crash => False

theorem exec_attributed {t : ℕ} {q : Request} {w w' : W} {out : Outcome Exn Reply}
    (he : Exec exec free t q.run w out w') : Attributed q w out w' := by
  refine wp_sound (Q := Attributed q w) he (wp_run q (fun o w' ho h => .inl ⟨h, ho⟩)
    fun a event w' ht ha hs => ?_)
  obtain ⟨stale, hpops, -⟩ := hs.counted
  refine ⟨fun hnone e => ?_, ?_⟩
  · have hv := hs.event
    rw [hnone, a.verdict_eq] at hv
    obtain ⟨hh, hm⟩ := Option.or_eq_none_iff.1 hv.symm
    exact .inr ⟨a, hs.accesses, ha, ⟨stale, hpops⟩, Option.map_eq_none_iff.1 hh, hm⟩
  · exact .inr ⟨a, hs.accesses, ha, ⟨stale, hpops⟩, rfl, hs.event.trans a.verdict_eq⟩

/-- **The end of a drain**: all that was on the list has been popped, `counted` of it has been
counted, and the loop has found the list empty. -/
structure Emptied (t : ℕ) (counted : List EcErrort) (w w' : W) : Prop where
  elist : w'.st.context.ecatEList = []
  pops : pops w'.hist = w.st.context.ecatEList.reverse ++ pops w.hist
  status : w'.st.mailboxStatus = (counted.map kindOf).foldl MailboxStatus.count w.st.mailboxStatus
  found : FoundNone t w'

theorem exec_drainMailboxEvents {t : ℕ} {w w' : W} {out : Outcome Exn Unit}
    (he : Exec exec free t drainMailboxEvents w out w') :
    out = .ret () ∧ Emptied t w.st.context.ecatEList w w' :=
  wp_sound (Q := fun o w' => o = .ret () ∧ Emptied t w.st.context.ecatEList w w') he
    (wp_drainMailboxEvents fun _ h hd hn => ⟨rfl, h, hd.pops, hd.status, hn⟩)

/-- The first entry that belongs to the access is kept from the counters. -/
def DrainedFor (t : ℕ) (acc : MailboxAccess) (w : W) (out : Outcome Exn (Option MailboxEvent)) (w' : W) : Prop :=
  Emptied t (w.st.context.ecatEList.eraseP acc.owns) w w' ∧
    ∃ event, out = .ret event ∧ event.map MailboxEvent.untimed =
      (w.st.context.ecatEList.find? acc.owns).map (makeMailboxEvent 0)

theorem exec_drainMailboxEventsFor {t : ℕ} {acc : MailboxAccess} {w w' : W}
    {out : Outcome Exn (Option MailboxEvent)} (he : Exec exec free t (drainMailboxEventsFor acc) w out w') :
    DrainedFor t acc w out w' :=
  wp_sound (Q := DrainedFor t acc w) he (wp_drainMailboxEventsFor fun event _ h hd hev hn =>
    ⟨⟨h, hd.pops, hd.status, hn⟩, event, rfl, hev⟩)

/-- **Every popped entry is accounted for once**, over any run of any threads; every access hands
out the first entry that belongs to it; and every drain ends, with an empty list. -/
theorem events_accounted {c : Conf Act Ans (List Mutex) Exn St}
    (hr : Reaches exec free (anyCall ps) (Conf.idle ⟨{}, []⟩) c) :
    Reconciled c.world ∧
      (∀ t q w out w', Exec exec free t (Request.run q) w out w' → Attributed q w out w') ∧
      (∀ t w out w', Exec exec free t drainMailboxEvents w out w' →
        out = .ret () ∧ Emptied t w.st.context.ecatEList w w') ∧
      ∀ t acc w out w', Exec exec free t (drainMailboxEventsFor acc) w out w' → DrainedFor t acc w out w' :=
  ⟨reaches_reconciled hr, fun _ _ _ _ _ => exec_attributed, fun _ _ _ _ => exec_drainMailboxEvents,
    fun _ _ _ _ _ => exec_drainMailboxEventsFor⟩

/-- An abort that is popped, handed to the caller of its access, and not counted. -/
theorem events_accounted_abort :
    let w := (afterAccess { ret := 1, pushed := [abortEntry] }).world
    Reconciled w ∧ pops w.hist = [abortEntry] ∧ (accesses w.hist).filterMap Access.handed = [abortEntry] ∧
      w.st.mailboxStatus = {} :=
  ⟨(events_accounted (reaches_afterAccess { ret := 1, pushed := [abortEntry] })).1, by decide +kernel,
    by decide +kernel, by decide +kernel⟩

end EthercatInterface
