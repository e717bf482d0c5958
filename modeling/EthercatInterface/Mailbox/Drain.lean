import EthercatInterface.Mailbox.Accesses

/-!
# The drains of the error list

The specification of each function that empties the error list: what was on the list before a
transfer is counted, what the transfer pushed is popped for its access, and the event that the
access ends with is `verdict` of its working counter and these entries.
-/

namespace EthercatInterface

open Interleave

variable {ok : Guard Act Ans Env St} {t : ℕ} {w w' : W} {acc : MailboxAccess}

/-! ## The drains -/

theorem wp_report {Q : Outcome Exn Unit → W → Prop} (ev : MailboxEvent)
    (hQ : ∀ w', Drained t [] [ev.kind] w w' →
      w'.st.context.ecatEList = w.st.context.ecatEList → Q (.ret ()) w') :
    wp exec ok free t (reportMailboxEvent ev) Q w :=
  wp_withLock (wp_perform fun _ _ => ⟨trivial, hQ _ (.count _) rfl⟩)

/-- The entries that an access leaves unattributed, if it has no event yet. -/
def unattributed (acc : MailboxAccess) (event : Option MailboxEvent) (raws : List EcErrort) :
    List EcErrort :=
  match event with
  | some _ => raws
  | none => raws.eraseP acc.owns

/-- The event of an access, from what is popped for it. -/
def attributed (acc : MailboxAccess) (event : Option MailboxEvent) (raws : List EcErrort) :
    Option MailboxEvent :=
  (event.map MailboxEvent.untimed).or ((raws.find? acc.owns).map (makeMailboxEvent 0))

/-- The last action of thread `t` was to look for an error, and there was none. -/
def FoundNone (t : ℕ) (w : W) : Prop := w.hist.head? = some ⟨t, .ecxPoperror, none⟩

theorem foundNone_pop {i : Env} (h : w.st.context.ecatEList = []) :
    FoundNone t (w.after exec t .ecxPoperror i) := by
  have hnone : (exec .ecxPoperror i w.st).1 = none := by simp [exec, h]
  rw [FoundNone, World.after_hist, hnone]
  rfl

theorem wp_drainFor : ∀ {n : ℕ} {event : Option MailboxEvent} {w : W}
    {Q : Outcome Exn (Option MailboxEvent) → W → Prop}, w.st.context.ecatEList.length < n →
    (∀ event' w', w'.st.context.ecatEList = [] →
      Drained t w.st.context.ecatEList
        ((unattributed acc event w.st.context.ecatEList).map kindOf) w w' →
      event'.map MailboxEvent.untimed = attributed acc event w.st.context.ecatEList →
      FoundNone t w' → Q (.ret event') w') →
    wp exec ok free t (drainFor acc n event) Q w := by
  intro n
  -- the bound is not reached: every round takes an entry off the list
  induction n with
  | zero => exact fun h => absurd h (Nat.not_lt_zero _)
  | succ n ih =>
    intro event w Q hn hQ
    refine wp_bind (wp_perform fun i _ => ⟨trivial, ?_⟩)
    cases hl : w.st.context.ecatEList with
    | nil =>
      -- the list is empty, and the loop ends with the event it has
      rw [hl] at hQ
      have hnone : (exec .ecxPoperror i w.st).1 = none := by simp [exec, hl]
      rw [hnone]
      refine hQ event _ ?_ ?_ ?_ (foundNone_pop hl)
      · simp [exec, hl]
      · have hs : Drained t [] [] w (w.after exec t .ecxPoperror i) := .skip rfl hnone rfl
        cases event <;> exact hs
      · cases event <;> simp [attributed]
    | cons raw rest =>
      rw [hl] at hQ hn
      have hsome : (exec .ecxPoperror i w.st).1 = some raw := by simp [exec, hl]
      rw [hsome]
      refine wp_bind (wp_perform fun j _ => ⟨trivial, ?_⟩)
      have hpop := (Drained.pop (t := t) (i := i) hl).trans (.skip (a := .now) (i := j) rfl rfl rfl)
      have hrest : ((w.after exec t .ecxPoperror i).after exec t .now j).st.context.ecatEList =
          rest := by simp [exec, hl]
      dsimp only [Outcome.andThen]
      rw [belongsToAccess_now]
      by_cases hc : (event.isNone && acc.owns raw) = true
      · -- the entry becomes the event of the access
        rw [if_pos hc]
        obtain ⟨he, ho⟩ := Bool.and_eq_true_iff.1 hc
        obtain rfl := Option.isNone_iff_eq_none.1 he
        refine ih (by rw [hrest]; simpa using hn) fun event' w' hw hd hev hn => hQ event' w' hw ?_ ?_ hn
        · rw [hrest] at hd
          have := hpop.trans hd
          simpa [unattributed, List.eraseP_cons, ho] using this
        · rw [hev, hrest]
          simp [attributed, ho]
      · -- the entry is counted
        rw [if_neg hc]
        refine wp_bind (wp_report _ fun w₁ h₁ hl₁ => ?_)
        rw [kind_now] at h₁
        rw [hrest] at hl₁
        refine ih (by rw [hl₁]; simpa using hn) fun event' w' hw hd hev hn => hQ event' w' hw ?_ ?_ hn
        · rw [hl₁] at hd
          have := (hpop.trans h₁).trans hd
          cases event with
          | some ev => simpa [unattributed] using this
          | none =>
            have ho : acc.owns raw = false := by simpa using hc
            simpa [unattributed, List.eraseP_cons, ho] using this
        · rw [hev, hl₁]
          cases event with
          | some ev => simp [attributed]
          | none =>
            have ho : acc.owns raw = false := by simpa using hc
            simp [attributed, ho]

theorem wp_drainMailboxEventsFor {Q : Outcome Exn (Option MailboxEvent) → W → Prop}
    (hQ : ∀ event w', w'.st.context.ecatEList = [] →
      Drained t w.st.context.ecatEList ((w.st.context.ecatEList.eraseP acc.owns).map kindOf) w w' →
      event.map MailboxEvent.untimed =
        (w.st.context.ecatEList.find? acc.owns).map (makeMailboxEvent 0) → FoundNone t w' →
          Q (.ret event) w') :
    wp exec ok free t (drainMailboxEventsFor acc) Q w := by
  refine wp_bind (wp_perform fun i _ => ⟨trivial, ?_⟩)
  refine wp_drainFor (Nat.lt_succ_self _) fun event w' hw hd hev hn => hQ event w' hw ?_ ?_ hn
  · exact (Drained.skip (a := .elistLength) rfl rfl rfl).trans hd
  · exact hev

theorem wp_drainAll : ∀ {n : ℕ} {w : W} {Q : Outcome Exn Unit → W → Prop},
    w.st.context.ecatEList.length < n →
    (∀ w', w'.st.context.ecatEList = [] →
      Drained t w.st.context.ecatEList (w.st.context.ecatEList.map kindOf) w w' → FoundNone t w' →
        Q (.ret ()) w') →
    wp exec ok free t (drainAll n) Q w := by
  intro n
  -- as in `wp_drainFor`, with every entry counted
  induction n with
  | zero => exact fun h => absurd h (Nat.not_lt_zero _)
  | succ n ih =>
    intro w Q hn hQ
    refine wp_bind (wp_perform fun i _ => ⟨trivial, ?_⟩)
    cases hl : w.st.context.ecatEList with
    | nil =>
      rw [hl] at hQ
      have hnone : (exec .ecxPoperror i w.st).1 = none := by simp [exec, hl]
      rw [hnone]
      exact hQ _ (by simp [exec, hl]) (.skip rfl hnone rfl) (foundNone_pop hl)
    | cons raw rest =>
      rw [hl] at hQ hn
      have hsome : (exec .ecxPoperror i w.st).1 = some raw := by simp [exec, hl]
      rw [hsome]
      refine wp_bind (wp_perform fun j _ => ⟨trivial, ?_⟩)
      have hpop := (Drained.pop (t := t) (i := i) hl).trans (.skip (a := .now) (i := j) rfl rfl rfl)
      have hrest : ((w.after exec t .ecxPoperror i).after exec t .now j).st.context.ecatEList =
          rest := by simp [exec, hl]
      refine wp_bind (wp_report _ fun w₁ h₁ hl₁ => ?_)
      rw [kind_now] at h₁
      rw [hrest] at hl₁
      refine ih (by rw [hl₁]; simpa using hn) fun w' hw hd hn => hQ w' hw ?_ hn
      rw [hl₁] at hd
      exact (hpop.trans h₁).trans hd

/-- **What is left on the list is counted.** -/
theorem wp_drainMailboxEvents {Q : Outcome Exn Unit → W → Prop}
    (hQ : ∀ w', w'.st.context.ecatEList = [] →
      Drained t w.st.context.ecatEList (w.st.context.ecatEList.map kindOf) w w' → FoundNone t w' →
        Q (.ret ()) w') :
    wp exec ok free t drainMailboxEvents Q w := by
  refine wp_bind (wp_perform fun i _ => ⟨trivial, ?_⟩)
  exact wp_drainAll (Nat.lt_succ_self _) fun w' hw hd hn =>
    hQ w' hw ((Drained.skip (a := .elistLength) rfl rfl rfl).trans hd) hn

/-! ## The end of an access -/

/-- The event an access ends with, timestamps aside: a function of what it asked for, its
working counter and what was popped for it. -/
def verdict (acc : MailboxAccess) (wkc : ℤ) (raws : List EcErrort) : Option MailboxEvent :=
  if acc.protocol = .foe then
    if 0 < wkc then (raws.find? acc.owns).map (makeMailboxEvent 0)
    else some (makeFoeEvent 0 acc.deviceId wkc)
  else
    ((raws.find? acc.owns).map (makeMailboxEvent 0)).or
      (if wkc ≤ 0 then some (makeTimeoutEvent 0 acc) else none)

/-- The events that an access counts. -/
def tally (acc : MailboxAccess) (wkc : ℤ) (raws : List EcErrort) : List MailboxEventKind :=
  (raws.eraseP acc.owns).map kindOf ++
    if acc.protocol = .foe then
      if 0 < wkc then []
      else (raws.find? acc.owns).toList.map kindOf ++ [(makeFoeEvent 0 acc.deviceId wkc).kind]
    else if wkc ≤ 0 ∧ raws.find? acc.owns = none then [.timeout]
    else []

/-- What finishing an access after its transfer leaves behind: the list is empty, and what was
on it has been popped for the access. -/
structure Finished (t : ℕ) (acc : MailboxAccess) (wkc : ℤ) (w : W) (event : Option MailboxEvent)
    (w' : W) : Prop where
  elist : w'.st.context.ecatEList = []
  drained : Drained t w.st.context.ecatEList (tally acc wkc w.st.context.ecatEList) w w'
  event : event.map MailboxEvent.untimed = verdict acc wkc w.st.context.ecatEList

theorem makeFoeEvent_now (now : ℤ) (id : DeviceId) (wkc : ℤ) :
    makeFoeEvent now id wkc = { makeFoeEvent 0 id wkc with timestamp := now } := by
  unfold makeFoeEvent
  dsimp only
  split_ifs <;> rfl

theorem untimed_restamp {ev : MailboxEvent} {now : ℤ} (h : ev.timestamp = 0) :
    { ev with timestamp := now }.untimed = ev := by
  cases ev
  cases h
  rfl

theorem foe_event (id : DeviceId) (wkc : ℤ) : (makeFoeEvent 0 id wkc).deviceId = id ∧
    (makeFoeEvent 0 id wkc).severity = .error ∧ (makeFoeEvent 0 id wkc).kind ≠ .emergency ∧
      (makeFoeEvent 0 id wkc).timestamp = 0 := by
  unfold makeFoeEvent
  dsimp only
  split_ifs <;> simp

/-- **The event of a failed access** names the device, is an error and no emergency. -/
theorem verdict_event {wkc : ℤ} {raws : List EcErrort} {ev : MailboxEvent}
    (h : verdict acc wkc raws = some ev) :
    ev.deviceId = acc.deviceId ∧ ev.severity = .error ∧ ev.kind ≠ .emergency := by
  have owned : (raws.find? acc.owns).map (makeMailboxEvent 0) = some ev →
      ev.deviceId = acc.deviceId ∧ ev.severity = .error ∧ ev.kind ≠ .emergency := by
    intro h
    obtain ⟨raw, hr, rfl⟩ := Option.map_eq_some_iff.1 h
    exact MailboxAccess.owns_error (List.find?_some hr)
  unfold verdict at h
  split at h
  · split at h
    · exact owned h
    · cases h
      obtain ⟨hd, hs, hk, _⟩ := foe_event acc.deviceId wkc
      exact ⟨hd, hs, hk⟩
  · rcases Option.or_eq_some_iff.1 h with h | ⟨_, h⟩
    · exact owned h
    · split at h
      · cases h
        exact ⟨rfl, rfl, nofun⟩
      · cases h

/-- **An access fails** if there was no answer, or an attributable entry. -/
theorem verdict_isSome (acc : MailboxAccess) (wkc : ℤ) (raws : List EcErrort) :
    (verdict acc wkc raws).isSome = true ↔ wkc ≤ 0 ∨ ∃ raw ∈ raws, acc.owns raw = true := by
  unfold verdict
  by_cases hw : wkc ≤ 0
  · have : ¬0 < wkc := by omega
    simp [hw, this]
    split <;> simp
  · have : 0 < wkc := by omega
    simp [hw, this]

/-- The event that the code tests for its severity, told apart by being there at all. -/
theorem isError_iff {event : Option MailboxEvent} {raws : List EcErrort}
    (h : event.map MailboxEvent.untimed = (raws.find? acc.owns).map (makeMailboxEvent 0)) :
    isError event = event.isSome := by
  cases event with
  | none => rfl
  | some ev =>
    obtain ⟨raw, hr, hev⟩ := Option.map_eq_some_iff.1 h.symm
    have hs : ev.severity = .error := by
      change ev.untimed.severity = .error
      rw [← hev]
      exact (MailboxAccess.owns_error (List.find?_some hr)).2.1
    simp [isError, hs]

theorem wp_finishMailboxAccess (hp : acc.protocol ≠ .foe) {wkc : ℤ}
    {Q : Outcome Exn (Option MailboxEvent × Bool) → W → Prop}
    (hQ : ∀ event w', Finished t acc wkc w event w' → Q (.ret (event, event.isSome)) w') :
    wp exec ok free t (finishMailboxAccess acc wkc) Q w := by
  refine wp_bind (wp_drainMailboxEventsFor fun event w₁ he hd hev _ => ?_)
  dsimp only [Outcome.andThen]
  by_cases hc : wkc ≤ 0 ∧ event = none
  · -- no transfer and no event: the time-out is counted, and becomes the event
    obtain ⟨hw, rfl⟩ := hc
    have hfind : w.st.context.ecatEList.find? acc.owns = none := by simpa using hev.symm
    rw [if_pos ⟨hw, rfl⟩]
    refine wp_bind (wp_perform fun i _ => ⟨trivial, ?_⟩)
    refine wp_bind (wp_report _ fun w' h' he' => ?_)
    have := hQ (some (makeTimeoutEvent (exec .now i w₁.st).1 acc)) w' ⟨?_, ?_, ?_⟩
    · change Q (.ret (_, decide (wkc ≤ 0) || _)) w'
      rw [decide_eq_true hw]
      exact this
    · rw [he']
      exact he
    · have := (hd.trans (.skip (a := .now) (i := i) rfl rfl rfl)).trans h'
      simpa [tally, hp, hw, hfind, makeTimeoutEvent] using this
    · simp [verdict, hp, hw, hfind]
      rfl
  · -- otherwise the event that was found, if any, is the verdict
    rw [if_neg hc]
    have hsome : (decide (wkc ≤ 0) || isError event) = event.isSome := by
      rw [isError_iff hev]
      cases event with
      | none => simpa using hc
      | some ev => simp
    rw [hsome]
    have hno : ¬(wkc ≤ 0 ∧ w.st.context.ecatEList.find? acc.owns = none) := by
      rintro ⟨hw, hf⟩
      rw [hf] at hev
      exact hc ⟨hw, by simpa using hev⟩
    refine hQ event w₁ ⟨he, ?_, ?_⟩
    · rw [tally, if_neg hp, if_neg hno, List.append_nil]
      exact hd
    · rw [verdict, if_neg hp, hev]
      by_cases hw : wkc ≤ 0
      · cases hf : w.st.context.ecatEList.find? acc.owns with
        | none => exact absurd ⟨hw, hf⟩ hno
        | some raw => rfl
      · simp [hw]

theorem wp_finishFoeAccess (hp : acc.protocol = .foe) {wkc : ℤ}
    {Q : Outcome Exn (Option MailboxEvent × Bool) → W → Prop}
    (hQ : ∀ event w', Finished t acc wkc w event w' → Q (.ret (event, event.isSome)) w') :
    wp exec ok free t (finishFoeAccess acc wkc) Q w := by
  refine wp_bind (wp_drainMailboxEventsFor fun event w₁ he hd hev _ => ?_)
  dsimp only [Outcome.andThen]
  by_cases hw : wkc > 0
  · rw [if_pos hw, isError_iff hev]
    exact hQ event w₁ ⟨he, by simpa [tally, hp, hw] using hd, by simpa [verdict, hp, hw] using hev⟩
  rw [if_neg hw]
  -- the event of the drain is reported as well
  have hany : ∀ Q' : Outcome Exn Unit → W → Prop, (∀ w₂,
      Drained t [] ((w.st.context.ecatEList.find? acc.owns).toList.map kindOf) w₁ w₂ →
        w₂.st.context.ecatEList = [] → Q' (.ret ()) w₂) →
      wp exec ok free t (reportAny event) Q' w₁ := by
    intro Q' hQ'
    cases event with
    | none =>
      have hf : w.st.context.ecatEList.find? acc.owns = none := by simpa using hev.symm
      exact hQ' w₁ (by rw [hf]; exact .refl t w₁) he
    | some ev =>
      obtain ⟨raw, hr, hraw⟩ := Option.map_eq_some_iff.1 hev.symm
      refine wp_report ev fun w₂ h₂ he₂ => hQ' w₂ ?_ (he₂.trans he)
      have hk : kindOf raw = ev.kind := by
        change (makeMailboxEvent 0 raw).kind = ev.untimed.kind
        rw [hraw]
      rw [hr]
      simpa [hk] using h₂
  refine wp_bind (hany _ fun w₂ h₂ he₂ => ?_)
  refine wp_bind (wp_perform fun i _ => ⟨trivial, ?_⟩)
  refine wp_bind (wp_report _ fun w' h' he' => ?_)
  refine hQ _ w' ⟨?_, ?_, ?_⟩
  · rw [he']
    exact he₂
  · have := ((hd.trans h₂).trans (.skip (a := .now) (i := i) rfl rfl rfl)).trans h'
    rw [makeFoeEvent_now] at this
    simpa [tally, hp, hw] using this
  · rw [Option.map_some, makeFoeEvent_now]
    rw [untimed_restamp (foe_event acc.deviceId wkc).2.2.2, verdict, if_pos hp, if_neg hw]

end EthercatInterface
