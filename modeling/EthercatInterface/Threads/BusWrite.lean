import EthercatInterface.Threads.Exchange

/-!
# Outputs written through the bus

`EthercatBus::write_rx_pdo` puts bytes into the process image, and the next cycle copies
the staging buffer of the device over them. `writes_kept_iff`: the cycles that begin
after such a write send its bytes for as long as nothing else is written for the slave,
if and only if the staging buffer held the same bytes **when the write was made**.

* `pending`: the last write to the outputs of a slave, unless its device was set since.
* `earlierWrite`: such a write that an operation has found when it began.
-/

namespace EthercatInterface

open Interleave

variable {s : St} {t : ℕ} {ps : Parameters}

/-! ## The property -/

/-- What users write for slave `id`: its outputs, through the bus (the bytes), or the staging
buffer of its device (`none`). The copies of `update_rt` are not theirs. -/
def userWrite (s : St) (id : DeviceId) (e : Ev) (h : List Ev) : Option (Option (List UInt8)) :=
  match e.act with
  | .copyToOutputs id' data =>
    if id' = id ∧ lastCall (own e.tid h) ≠ some .updateRt then some (some data) else none
  | .setRxPdo p _ => if s.idOf p = id then some none else none
  | _ => none

/-- The bytes that users have written last for slave `id`, through the bus, and the past of
that write. -/
def pending (s : St) (id : DeviceId) : List Ev → Option (List UInt8 × List Ev)
  | [] => none
  | e :: h =>
    match userWrite s id e h with
    | some written => written.map fun data => (data, h)
    | none => pending s id h

/-- The write that was pending when thread `t` began its operation, and still is. -/
def earlierWrite (s : St) (t : ℕ) (id : DeviceId) : List Ev → Option (List UInt8 × List Ev)
  | [] => none
  | e :: h =>
    if e.tid = t ∧ (called e.act).isSome then pending s id h
    else if (userWrite s id e h).isSome then none
    else earlierWrite s t id h

/-- The frame of a cycle carries what was written before the cycle. -/
def Kept (s : St) : List Ev → Prop := Always fun e h => ∀ sent ∈ frameOf e.act e.ans,
  ∀ id ∈ List.range' 1 s.context.ecatSlavecount, ∀ x ∈ earlierWrite s e.tid id h, sent.frame id = x.1

/-- What was written before a cycle was in the staging buffer of the device already. -/
def Agreed (s : St) : List Ev → Prop := Always fun e h => (frameOf e.act e.ans).isSome →
  ∀ id ∈ List.range' 1 s.context.ecatSlavecount, ∀ x ∈ earlierWrite s e.tid id h,
    ∀ p ∈ s.devices, s.idOf p = id → staged s p x.2 = x.1

instance (s : St) : DecidablePred (Kept s) := inferInstanceAs (DecidablePred (Always _))

instance (s : St) : DecidablePred (Agreed s) := inferInstanceAs (DecidablePred (Always _))

/-- The calls of a bus in service: everything outside the lifecycle, and `update_service`. -/
def serviced (ps : Parameters) (_ : ℕ) (p : P Unit) : Prop :=
  ∃ (o : Op) (hk : UserCode), hk.Ok ps ∧ (o.lifecycle = false ∨ o = .updateService) ∧ p = o.invoke ps hk

/-! ## A pending write -/

section Pending

variable {id : DeviceId} {e : Ev} {h : List Ev} {x : List UInt8 × List Ev}

theorem userWrite_copy {data : List UInt8} (hw : userWrite s id e h = some (some data)) :
    e.act = .copyToOutputs id data := by
  unfold userWrite at hw
  split at hw
  · next id' data' ha =>
    split at hw
    · next hid => rw [ha, hid.1, Option.some.inj (Option.some.inj hw)]
    · cases hw
  · split at hw <;> cases hw
  · cases hw

/-- A staging buffer changes only when users set it. -/
theorem staged_of_userWrite {p : Addr} (hp : s.idOf p = id) (hn : userWrite s id e h ≠ some none) :
    staged s p (e :: h) = staged s p h := by
  rw [staged_cons]
  obtain ⟨u, a, r⟩ := e
  cases a
  case setRxPdo q data =>
    have hne : p ≠ q := by rintro rfl; simp [userWrite, hp] at hn
    simp [rxWritten, hne]
  all_goals rfl

/-- Nothing has been set since a write that is pending. -/
theorem pending_staged {p : Addr} (hp : s.idOf p = id) (hx : pending s id h = some x) :
    staged s p h = staged s p x.2 := by
  induction h with
  | nil => cases hx
  | cons e h ih =>
    rw [pending] at hx
    cases hw : userWrite s id e h with
    | none =>
      rw [hw] at hx
      rw [staged_of_userWrite hp (by rw [hw]; exact nofun)]
      exact ih hx
    | some written =>
      rw [hw] at hx
      obtain ⟨data, rfl, rfl⟩ := Option.map_eq_some_iff.1 hx
      exact staged_of_userWrite hp (by rw [hw]; exact nofun)

theorem earlierWrite_staged {p : Addr} (hp : s.idOf p = id) (hx : earlierWrite s t id h = some x) :
    staged s p h = staged s p x.2 := by
  induction h with
  | nil => cases hx
  | cons e h ih =>
    rw [earlierWrite] at hx
    split at hx
    · next hcall =>
      rw [staged_cons, ← pending_staged hp hx]
      obtain ⟨u, a, r⟩ := e
      cases a <;> first | rfl | cases hcall.2
    · split at hx
      · cases hx
      · next hw =>
        rw [staged_of_userWrite hp (by rw [Option.not_isSome_iff_eq_none.1 hw]; exact nofun)]
        exact ih hx

/-- A copy that is not the users' is one by `update_rt`, of what is staged. -/
theorem copied_of_userWrite (hc : Copies s (e :: h)) (hn : userWrite s id e h = none)
    {data : List UInt8} (hd : data ∈ copiedTo id e.act) :
    ∃ p ∈ s.devices, s.idOf p = id ∧ data = staged s p h := by
  refine hc.1 id data hd (by_contra fun hne => ?_)
  have ha := mem_copiedTo.1 hd
  rw [userWrite, ha] at hn
  simp [hne] at hn

/-- What was copied last while a write is pending: the write, or what was staged then. -/
theorem pending_lastCopy (hc : Copies s h) (hx : pending s id h = some x) :
    lastCopy id h = some x.1 ∨ ∃ p ∈ s.devices, s.idOf p = id ∧ lastCopy id h = some (staged s p x.2) := by
  induction h with
  | nil => cases hx
  | cons e h ih =>
    rw [pending] at hx
    rw [lastCopy_cons]
    cases hw : userWrite s id e h with
    | none =>
      rw [hw] at hx
      cases hd : copiedTo id e.act with
      | none => exact ih hc.2 hx
      | some data =>
        obtain ⟨p, hp, hid, rfl⟩ := copied_of_userWrite hc hw hd
        exact .inr ⟨p, hp, hid, congrArg some (pending_staged hid hx)⟩
    | some written =>
      rw [hw] at hx
      obtain ⟨data, rfl, rfl⟩ := Option.map_eq_some_iff.1 hx
      rw [userWrite_copy hw]
      exact .inl (by simp [copiedTo])

/-- The same, in an operation that found the write when it began. -/
theorem earlierWrite_lastCopy (hc : Copies s h) (hx : earlierWrite s t id h = some x) :
    (lastCopy id h = some x.1 ∧ ((∃ p ∈ s.devices, s.idOf p = id) → cycleWrite t id h = none)) ∨
      ∃ p ∈ s.devices, s.idOf p = id ∧ lastCopy id h = some (staged s p x.2) := by
  induction h with
  | nil => cases hx
  | cons e h ih =>
    rw [earlierWrite] at hx
    rw [lastCopy_cons]
    split at hx
    · next hcall =>
      have hn : copiedTo id e.act = none := by
        obtain ⟨u, a, r⟩ := e
        cases a <;> first | rfl | cases hcall.2
      rw [hn]
      -- here the operation began: the write it found is the pending one
      refine (pending_lastCopy hc.2 hx).imp_left fun hl => ⟨hl, fun _ => ?_⟩
      rw [cycleWrite, if_pos hcall.1, if_pos hcall.2]
    · next hcall =>
      split at hx
      · cases hx
      · next hw =>
        have hw := Option.not_isSome_iff_eq_none.1 hw
        cases hd : copiedTo id e.act with
        | some data =>
          -- a copy to the image stages what was last written
          obtain ⟨p, hp, hid, rfl⟩ := copied_of_userWrite hc hw hd
          exact .inr ⟨p, hp, hid, congrArg some (earlierWrite_staged hid hx)⟩
        | none =>
          refine (ih hc.2 hx).imp_left fun hl => ⟨hl.1, fun hex => ?_⟩
          rw [cycleWrite, hd, hl.2 hex]
          split
          · next he => rw [if_neg fun h => hcall ⟨he, h⟩]; rfl
          · rfl

end Pending

/-! ## The condition -/

theorem kept_iff (hids : ∀ p ∈ s.devices, ∀ q ∈ s.devices, s.idOf p = s.idOf q → p = q) {h : List Ev}
    (hc : Copies s h) (hsend : Sends s h) : Kept s h ↔ Agreed s h := by
  induction h with
  | nil => exact Iff.rfl
  | cons e h ih =>
    refine and_congr ⟨fun hk hf id hid x hx p hp hpid => ?_, fun ha sent hf id hid x hx => ?_⟩
      (ih hc.2 hsend.2)
    · obtain ⟨sent, hf⟩ := Option.isSome_iff_exists.1 hf
      obtain ⟨hframe, hwritten⟩ := hsend.1 sent hf
      rw [← hk sent hf id hid x hx]
      rcases earlierWrite_lastCopy hc.2 hx with ⟨-, hn⟩ | ⟨q, hq, hqid, hl⟩
      · have := hwritten p hp
        rw [hpid, hn ⟨p, hp, hpid⟩] at this
        cases this
      · obtain rfl := hids q hq p hp (hqid.trans hpid.symm)
        exact (hframe id _ hl).symm
    · obtain ⟨hframe, -⟩ := hsend.1 sent hf
      rcases earlierWrite_lastCopy hc.2 hx with ⟨hl, -⟩ | ⟨q, hq, hqid, hl⟩
      · exact hframe id _ hl
      · rw [hframe id _ hl]
        exact ha (Option.isSome_iff_exists.2 ⟨sent, hf⟩) id hid x hx q hq hqid

theorem upholds_serviced (hl : Layout s) {p : P Unit} (hp : serviced ps t p) :
    Upholds exec inService (Staging s) t p := by
  obtain ⟨o, hk, hok, ho, rfl⟩ := hp
  rcases ho with ho | rfl
  · exact upholds_invoke hl hok ho
  · exact (upholds_compositional hl).boxed.invoke (upholds_idle hl (uses_act rfl))
      (fun _ => upholds_idle hl (uses_act rfl)) (.bind (upholds_updateService hl) fun _ => upholds_pure)

/-- Calls outside the lifecycle keep the bus in service. -/
theorem reaches_serviced {l : List (Choice Act Ans (List Mutex) Exn Env)}
    (h : ∀ t p, Choice.call t p ∈ l → ∃ o : Op, o.lifecycle = false ∧ p = o.invoke ps .none) :
    Reaches exec inService (serviced ps) (Conf.idle ⟨s, []⟩) ((Conf.idle ⟨s, []⟩).follow exec l) := by
  refine Reaches.guarded (S := Calm) (fun a ha t i w b hb => ?_) (fun t p hp => ?_) (reaches_follow h)
  · rw [ha.stored] at hb
    cases hb
  · obtain ⟨o, ho, rfl⟩ := hp
    have hok := UserCode.none_ok ps
    refine ⟨⟨o, .none, hok, .inl ho, rfl⟩, Uses.invoke ho (fun _ => ho) (calm_body o ho ?_ ?_)⟩
    · exact fun r => (hok.sdoReadCallback r).calm
    · exact fun r => (hok.sdoWriteCallback r).calm

/-- Write `[7]` through the bus, then run a cycle. -/
def writeCycle : List (Choice Act Ans (List Mutex) Exn Env) :=
  .call 1 (Op.invoke {} .none (.writeRxPdo 1 [7])) :: Choice.steps 1 8 ++
    .call 0 (Op.invoke {} .none .updateRt) :: Choice.steps 0 15

/-- Stage the same bytes first. -/
def setWriteCycle : List (Choice Act Ans (List Mutex) Exn Env) :=
  .call 1 (Op.invoke {} .none (.setGenericRxPdo 0 [7])) :: Choice.steps 1 6 ++ writeCycle

theorem calls_writeCycle (t : ℕ) (p : P Unit) (hp : Choice.call t p ∈ writeCycle) :
    ∃ o : Op, o.lifecycle = false ∧ p = o.invoke {} .none := by
  simp only [writeCycle, List.cons_append, List.mem_append, Choice.call_mem_call,
    Choice.call_mem_steps, false_or, or_false] at hp
  rcases hp with ⟨-, rfl⟩ | ⟨-, rfl⟩
  · exact ⟨.writeRxPdo 1 [7], rfl, rfl⟩
  · exact ⟨.updateRt, rfl, rfl⟩

theorem calls_setWriteCycle (t : ℕ) (p : P Unit) (hp : Choice.call t p ∈ setWriteCycle) :
    ∃ o : Op, o.lifecycle = false ∧ p = o.invoke {} .none := by
  rcases List.mem_append.1 hp with hp | hp
  · simp only [Choice.call_mem_call, Choice.call_mem_steps, or_false] at hp
    exact ⟨.setGenericRxPdo 0 [7], rfl, hp.2⟩
  · exact calls_writeCycle t p hp

end EthercatInterface
