import EthercatInterface.Mailbox.Request

/-!
# The mailbox counters

`DiagnosticsSnapshot::mailbox` counts the events of the mailbox over the life of the bus
(`totals`). An event that is returned to the caller of an access is not counted, unless it is
superseded by an FoE return code: `finish_foe_access` reports it then. `counters_exact_iff`: the
counters equal the totals exactly as long as no such event was returned (`Access.uncounted`).
The other two counters are always exact; the aborts fall behind by the number of these accesses
(`Balanced`).
-/

namespace EthercatInterface

open Interleave

/-- An entry was attributed to the access and returned to its caller. -/
def Access.uncounted (a : Access) : Bool :=
  (a.popped.find? a.acc.owns).isSome && !(a.acc.protocol = .foe && a.wkc ≤ 0)

/-- The access failed with a synthesised no-response event. -/
def Access.unanswered (a : Access) : Bool :=
  if a.acc.protocol = .foe then a.wkc = 0
  else a.wkc ≤ 0 && (a.popped.find? a.acc.owns).isNone

/-- An FoE return code was decoded. -/
def Access.foeCode (a : Access) : Bool := a.acc.protocol = .foe && a.wkc < 0

/-- All mailbox events of a history: the emergencies popped, the accesses without a response,
and the other events popped or decoded from an FoE return code. -/
def totals (h : List Ev) : MailboxStatus where
  mailboxAborts :=
    (pops h).countP (fun raw => kindOf raw ≠ .emergency) + (accesses h).countP Access.foeCode
  mailboxTimeouts := (accesses h).countP Access.unanswered
  mailboxEmergencies := (pops h).countP fun raw => kindOf raw = .emergency

/-! ## Counting -/

theorem countP_eraseP {α : Type} (p q : α → Bool) : ∀ l : List α,
    (l.eraseP p).countP q + (l.find? p).toList.countP q = l.countP q
  | [] => rfl
  | x :: l => by
    have ih := countP_eraseP p q l
    cases hx : p x with
    | true => simp [hx, List.countP_cons]
    | false =>
      simp only [List.eraseP_cons, hx, cond_false, List.find?_cons, List.countP_cons]
      omega

theorem foldl_count (ks : List MailboxEventKind) (m : MailboxStatus) :
    ks.foldl MailboxStatus.count m =
      { mailboxAborts := m.mailboxAborts + ks.countP fun k => k ≠ .emergency ∧ k ≠ .timeout
        mailboxTimeouts := m.mailboxTimeouts + ks.countP (· = .timeout)
        mailboxEmergencies := m.mailboxEmergencies + ks.countP (· = .emergency) } := by
  induction ks generalizing m with
  | nil => rfl
  | cons k ks ih =>
    rw [List.foldl_cons, ih]
    cases k <;> simp [MailboxStatus.count] <;> omega

/-- No entry of the list stands for a missing response. -/
theorem kindOf_ne_timeout (raw : EcErrort) : kindOf raw ≠ .timeout := by
  unfold kindOf makeMailboxEvent
  dsimp only
  split_ifs <;> simp

theorem countP_kinds (raws : List EcErrort) :
    (raws.map kindOf).countP (fun k => k ≠ .emergency ∧ k ≠ .timeout) =
        raws.countP (fun raw => kindOf raw ≠ .emergency) ∧
      (raws.map kindOf).countP (· = .timeout) = 0 ∧
      (raws.map kindOf).countP (· = .emergency) = raws.countP fun raw => kindOf raw = .emergency := by
  refine ⟨?_, ?_, ?_⟩
  · rw [List.countP_map]
    exact List.countP_congr fun raw _ => by simp [kindOf_ne_timeout]
  · rw [List.countP_map, List.countP_eq_zero]
    exact fun raw _ => by simp [kindOf_ne_timeout]
  · rw [List.countP_map]
    rfl

/-- The entry attributed to an access is no emergency. -/
theorem countP_owned (acc : MailboxAccess) (raws : List EcErrort) :
    (raws.find? acc.owns).toList.countP (fun raw => kindOf raw ≠ .emergency) =
        (if (raws.find? acc.owns).isSome then 1 else 0) ∧
      (raws.find? acc.owns).toList.countP (fun raw => kindOf raw = .emergency) = 0 := by
  cases h : raws.find? acc.owns with
  | none => simp
  | some raw =>
    have := (MailboxAccess.owns_error (List.find?_some h)).2.2
    simp [this]

theorem foe_kind (id : DeviceId) (wkc : ℤ) :
    (makeFoeEvent 0 id wkc).kind = .timeout ↔ wkc = 0 := by
  unfold makeFoeEvent
  dsimp only
  split_ifs with h <;> simp [h]

/-- **What an access counts**, next to all that was popped for it. -/
theorem tally_counts (a : Access) :
    (tally a.acc a.wkc a.popped).countP (fun k => k ≠ .emergency ∧ k ≠ .timeout) +
        (if a.uncounted then 1 else 0) =
      a.popped.countP (fun raw => kindOf raw ≠ .emergency) + (if a.foeCode then 1 else 0) ∧
    (tally a.acc a.wkc a.popped).countP (· = .timeout) = (if a.unanswered then 1 else 0) ∧
    (tally a.acc a.wkc a.popped).countP (· = .emergency) =
      a.popped.countP fun raw => kindOf raw = .emergency := by
  obtain ⟨hk₁, hk₂, hk₃⟩ := countP_kinds (a.popped.eraseP a.acc.owns)
  obtain ⟨ho₁, ho₂⟩ := countP_owned a.acc a.popped
  obtain ⟨hf₁, hf₂, hf₃⟩ := countP_kinds (a.popped.find? a.acc.owns).toList
  have h₁ := countP_eraseP a.acc.owns (fun raw => kindOf raw ≠ .emergency) a.popped
  have h₂ := countP_eraseP a.acc.owns (fun raw => kindOf raw = .emergency) a.popped
  rw [← h₁, ← h₂, ho₁, ho₂, tally, List.countP_append, List.countP_append, List.countP_append, hk₁,
    hk₂, hk₃]
  unfold Access.uncounted Access.unanswered Access.foeCode
  -- a file access counts its return code, any other one a time-out
  by_cases hp : a.acc.protocol = .foe
  · by_cases hw : 0 < a.wkc
    · have h₃ : ¬a.wkc ≤ 0 := by omega
      have h₄ : ¬a.wkc < 0 := by omega
      have h₅ : a.wkc ≠ 0 := by omega
      simp [hp, hw, h₃, h₄, h₅]
    · -- the event of the drain is counted, and the return code
      have h₃ : a.wkc ≤ 0 := by omega
      have hne := (foe_event a.acc.deviceId a.wkc).2.2.1
      simp only [hp, hw, if_true, if_false, List.countP_append, hf₁, hf₂, hf₃, ho₁, ho₂]
      by_cases h0 : a.wkc = 0
      · have h₄ : ¬a.wkc < 0 := by omega
        have hk := (foe_kind a.acc.deviceId a.wkc).2 h0
        rw [h0] at hk
        simp [h0, hk]
      · have h₄ : a.wkc < 0 := by omega
        have hk : (makeFoeEvent 0 a.acc.deviceId a.wkc).kind ≠ .timeout := fun h =>
          h0 ((foe_kind _ _).1 h)
        simp [h₃, h₄, h0, hk, hne]
        omega
  · cases hf : a.popped.find? a.acc.owns with
    | none =>
      by_cases hw : a.wkc ≤ 0 <;> simp [hp, hw]
    | some raw => simp [hp]

/-! ## The invariant -/

/-- **The counters and the totals.** Only the aborts fall behind. -/
structure Balanced (w : W) : Prop where
  aborts : w.st.mailboxStatus.mailboxAborts + (accesses w.hist).countP Access.uncounted =
    (totals w.hist).mailboxAborts
  timeouts : w.st.mailboxStatus.mailboxTimeouts = (totals w.hist).mailboxTimeouts
  emergencies : w.st.mailboxStatus.mailboxEmergencies = (totals w.hist).mailboxEmergencies

section Balanced

variable {ok : Guard Act Ans Env St} {t : ℕ} {w w' : W}

/-- The totals after more entries were popped. -/
theorem pops_counts {raws : List EcErrort} (h : pops w'.hist = raws.reverse ++ pops w.hist)
    (q : EcErrort → Bool) : (pops w'.hist).countP q = raws.countP q + (pops w.hist).countP q := by
  rw [h, List.countP_append, List.countP_reverse]

theorem Balanced.aside (hw : Balanced w) (h : Aside w w') : Balanced w' := by
  refine ⟨?_, ?_, ?_⟩
  · rw [totals, h.status, h.accesses, h.pops]
    exact hw.aborts
  · rw [totals, h.status, h.accesses]
    exact hw.timeouts
  · rw [totals, h.status, h.pops]
    exact hw.emergencies

/-- A drain counts all it pops. -/
theorem Balanced.drained (hw : Balanced w) {raws : List EcErrort} (hf : inFlight t w.hist = false)
    (h : Drained t raws (raws.map kindOf) w w') : Balanced w' := by
  have ha : accesses w'.hist = accesses w.hist := by
    rw [h.accesses, hf]
    exact if_neg Bool.false_ne_true
  obtain ⟨hk₁, hk₂, hk₃⟩ := countP_kinds raws
  have hs := h.status
  rw [foldl_count, hk₁, hk₂, hk₃] at hs
  have h₁ := hw.aborts
  have h₂ := hw.timeouts
  have h₃ := hw.emergencies
  simp only [totals] at h₁ h₂ h₃
  refine ⟨?_, ?_, ?_⟩
  · simp only [totals, hs, ha, pops_counts h.pops]
    omega
  · simp only [totals, hs, ha]
    omega
  · simp only [totals, hs, pops_counts h.pops]
    omega

/-- An access counts all but the event it returns. -/
theorem Balanced.served (hw : Balanced w) {a : Access} {event : Option MailboxEvent}
    (h : Served ok w a event w') : Balanced w' := by
  obtain ⟨stale, hpops, hs⟩ := h.counted
  obtain ⟨hk₁, hk₂, hk₃⟩ := countP_kinds stale
  obtain ⟨ht₁, ht₂, ht₃⟩ := tally_counts a
  have hq : ∀ q, (pops w'.hist).countP q =
      a.popped.countP q + (stale.countP q + (pops w.hist).countP q) := by
    intro q
    rw [hpops, List.countP_append, List.countP_append, List.countP_reverse, List.countP_reverse]
  rw [foldl_count, List.countP_append, List.countP_append, List.countP_append, hk₁, hk₂, hk₃] at hs
  have h₁ := hw.aborts
  have h₂ := hw.timeouts
  have h₃ := hw.emergencies
  simp only [totals] at h₁ h₂ h₃
  refine ⟨?_, ?_, ?_⟩
  · simp only [totals, hs, h.accesses, hq, List.countP_cons]
    omega
  · simp only [totals, hs, h.accesses, List.countP_cons, ht₂]
    omega
  · simp only [totals, hs, hq, ht₃]
    omega

end Balanced

variable {ps : Parameters}

theorem reaches_balanced {c : Conf Act Ans (List Mutex) Exn St}
    (hr : Reaches exec free (anyCall ps) (Conf.idle ⟨{}, []⟩) c) : Balanced c.world := by
  have sections : ∀ t, Sectioned fun p => Upholds exec free Balanced t p := fun _ =>
    upholds_sections (fun h hw => hw.aside h) (fun hf h hw => hw.drained hf h) fun h hw => hw.served h
  refine reaches_sustains (fun t p hp => ?_) hr ⟨rfl, rfl, rfl⟩
  obtain ⟨o, hk, hok, rfl⟩ := hp
  exact (sections t).invoke hok o

/-- `diagnostics` returns the counters as they are. -/
theorem diagnostics_mailbox {ok : Guard Act Ans Env St} {t : ℕ} {f : Bool} {w w' : W}
    {snapshot : DiagnosticsSnapshot}
    (he : Exec exec ok t (diagnostics ps f) w (.ret snapshot) w') :
    snapshot.mailbox = w.st.mailboxStatus := by
  have h : wp exec ok free t (diagnostics ps f)
      (fun o _ => ∀ x, o = .ret x → x.mailbox = w.st.mailboxStatus) w := by
    have aside : ∀ {α : Type} {p : P α} {k : α → P DiagnosticsSnapshot} {w₁ : W}, Aside w w₁ →
        p.Fits Still AnyLock → (∀ x w₂, Aside w w₂ → wp exec ok free t (k x)
          (fun o _ => ∀ x, o = .ret x → x.mailbox = w.st.mailboxStatus) w₂) →
        wp exec ok free t (p.bind k) (fun o _ => ∀ x, o = .ret x → x.mailbox = w.st.mailboxStatus) w₁ := by
      intro α p k w₁ hw₁ hp hk
      refine wp_bind (wp_mono (wp_aside (Fits.unboxed hp).uses) fun o w₂ h => ?_)
      cases o with
      | ret x => exact hk x w₂ (hw₁.trans h)
      | exn e => exact fun _ h => by cases h
      | crash => exact fun _ h => by cases h
    refine aside (.refl w) (still_stateIn _) fun b w₁ h₁ => aside h₁ Prog.fits_raiseIf fun _ w₂ h₂ => ?_
    refine aside h₂ (Prog.fits_when ((still_stateIn _).bind fun _ => Prog.fits_raiseIf)) fun _ w₃ h₃ => ?_
    refine aside h₃ (still_takeSnapshot f) fun s w₄ h₄ => ?_
    refine wp_bind (wp_withLock (wp_perform fun i _ => ⟨trivial, fun x hx => ?_⟩))
    cases hx
    exact h₄.status
  exact wp_sound he h _ rfl

/-- **The counters are exact as long as no event is returned uncounted.** -/
theorem counters_exact_iff {c : Conf Act Ans (List Mutex) Exn St}
    (hr : Reaches exec free (anyCall ps) (Conf.idle ⟨{}, []⟩) c) {t : ℕ} {f : Bool}
    {snapshot : DiagnosticsSnapshot} {w : W}
    (he : Exec exec free t (diagnostics ps f) c.world (.ret snapshot) w) :
    snapshot.mailbox = totals c.world.hist ↔
      ∀ a ∈ accesses c.world.hist, a.uncounted = false := by
  have hb := reaches_balanced hr
  rw [diagnostics_mailbox he]
  constructor
  · intro h
    -- the aborts alone decide: they are short by the accesses that returned an event uncounted
    have := hb.aborts
    rw [h, Nat.add_eq_left, List.countP_eq_zero] at this
    exact fun a ha => by simpa using this a ha
  · intro h
    have h0 : (accesses c.world.hist).countP Access.uncounted = 0 :=
      List.countP_eq_zero.2 fun a ha => by simp [h a ha]
    have ha := hb.aborts
    rw [h0, Nat.add_zero] at ha
    have ht := hb.timeouts
    have he := hb.emergencies
    cases hs : c.world.st.mailboxStatus with
    | mk x y z =>
      rw [hs] at ha ht he
      cases hh : totals c.world.hist with
      | mk x' y' z' =>
        rw [hh] at ha ht he
        cases ha
        cases ht
        cases he
        rfl

/-- A bus with one slave is initialised, and one SDO read is made on it; the environment decides
`e` for each of its actions up to the transfer. -/
def oneAccess (e : Env) : List (Choice Act Ans (List Mutex) Exn Env) :=
  .call 0 (Op.initializeBus.invoke {} .none) ::
    List.replicate 16 (.step 0 [{ ret := 1, slavecount := 1 }]) ++
  .call 0 ((Op.readSdoUntyped 4 1 0x6000 1 true).invoke {} .none) ::
    List.replicate 2 (.step 0 (List.replicate 6 e))

def afterAccess (e : Env) : Conf Act Ans (List Mutex) Exn St :=
  (Conf.idle ⟨{}, []⟩).follow exec (oneAccess e)

theorem reaches_afterAccess (e : Env) :
    Reaches exec free (anyCall {}) (Conf.idle ⟨{}, []⟩) (afterAccess e) := by
  refine reaches_follow fun t p hp => ?_
  have hp : p = Op.initializeBus.invoke {} .none ∨
      p = (Op.readSdoUntyped 4 1 0x6000 1 true).invoke {} .none := by
    simp only [oneAccess, List.cons_append, List.mem_append, Choice.call_mem_call, Choice.call_mem_replicate,
      false_or, or_false] at hp
    exact hp.imp And.right And.right
  rcases hp with rfl | rfl
  · exact ⟨.initializeBus, .none, UserCode.none_ok _, rfl⟩
  · exact ⟨.readSdoUntyped 4 1 0x6000 1 true, .none, UserCode.none_ok _, rfl⟩

/-- What `diagnostics` returns. -/
def diagnosticsIn (w : W) : Outcome Exn DiagnosticsSnapshot × W × List Env :=
  run exec 0 (diagnostics {} false) [] w

theorem exec_diagnosticsIn (w : W) : Exec exec free 0 (diagnostics {} false) w (diagnosticsIn w).1
    (diagnosticsIn w).2.1 :=
  run_exec exec 0 (diagnostics {} false) [] w

/-- An access that nobody answers is counted. -/
theorem counters_exact_unanswered : ∃ snapshot, (diagnosticsIn (afterAccess {}).world).1 = .ret snapshot ∧
    snapshot.mailbox = totals (afterAccess {}).world.hist := by
  have he := exec_diagnosticsIn (afterAccess {}).world
  have hret : (match (diagnosticsIn (afterAccess {}).world).1 with
    | .ret _ => true
    | _ => false) = true := by decide
  cases ho : (diagnosticsIn (afterAccess {}).world).1 with
  | ret snapshot =>
    rw [ho] at he
    exact ⟨snapshot, rfl, (counters_exact_iff (reaches_afterAccess {}) he).2 (by decide)⟩
  | exn e => rw [ho] at hret; cases hret
  | crash => rw [ho] at hret; cases hret

/-- An SDO abort that is returned to the caller is missing from the counters. -/
theorem counters_inexact : ¬∀ (ps : Parameters) (c : Conf Act Ans (List Mutex) Exn St) t f snapshot w,
    Reaches exec free (anyCall ps) (Conf.idle ⟨{}, []⟩) c →
    Exec exec free t (diagnostics ps f) c.world (.ret snapshot) w →
    snapshot.mailbox = totals c.world.hist := by
  intro h
  let c := afterAccess { ret := 1, pushed := [abortEntry] }
  have he := exec_diagnosticsIn c.world
  have hne : (match (diagnosticsIn c.world).1 with
    | .ret snapshot => decide (snapshot.mailbox ≠ totals c.world.hist)
    | _ => false) = true := by decide
  cases ho : (diagnosticsIn c.world).1 with
  | ret snapshot =>
    rw [ho] at he hne
    exact absurd (h _ _ _ _ _ _ (reaches_afterAccess _) he) (of_decide_eq_true hne)
  | exn e => rw [ho] at hne; cases hne
  | crash => rw [ho] at hne; cases hne

end EthercatInterface
