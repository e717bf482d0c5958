import EthercatInterface.Proof.Members
import EthercatInterface.Proof.Footprint

/-!
# The accesses of a history

An access starts with its transfer. What its thread then takes off the error list, before it
does anything but empty the list, was popped for it. `accesses h` are the accesses of a
history, newest first, each with what was popped for it so far; `pops h` is all that was ever
taken off the list, by accesses or not.

`Drained` says what a few steps of emptying the list leave behind.
-/

namespace EthercatInterface

open Interleave

/-! ## What the events say -/

/-- The access that a transfer belongs to, and its working counter. -/
def transferOf : (a : Act) → Ans a → Option (MailboxAccess × ℤ)
  | .ecxSDOread id index subIndex _, r => some
    ({ deviceId := id, protocol := .coe, index := some index, subIndex := some subIndex }, r.wkc)
  | .ecxSDOwrite id index subIndex _, wkc => some
    ({ deviceId := id, protocol := .coe, index := some index, subIndex := some subIndex }, wkc)
  | .ecxFOEread id _ _, r => some ({ deviceId := id, protocol := .foe }, r.wkc)
  | .ecxFOEwrite id _ _, wkc => some ({ deviceId := id, protocol := .foe }, wkc)
  | _, _ => none

/-- The entry that an action takes off the error list. -/
def poppedOf : (a : Act) → Ans a → Option EcErrort
  | .ecxPoperror, r => r
  | _, _ => none

/-- Since its last transfer, thread `t` has done nothing but empty the error list. -/
def inFlight (t : ℕ) : List Ev → Bool
  | [] => false
  | e :: h => if e.tid ≠ t ∨ e.act.drains then inFlight t h else (transferOf e.act e.ans).isSome

/-- An access: its thread, what it asked for, its working counter, what was popped for it, and
what had happened before its transfer. -/
structure Access where
  tid : ℕ
  acc : MailboxAccess
  wkc : ℤ
  popped : List EcErrort
  past : List Ev

/-- Add an entry to what was popped for the last access of thread `t`. -/
def popFor (t : ℕ) (raw : EcErrort) : List Access → List Access
  | [] => []
  | a :: l => if a.tid = t then { a with popped := a.popped ++ [raw] } :: l else a :: popFor t raw l

/-- The accesses of a history, newest first. -/
def accesses : List Ev → List Access
  | [] => []
  | e :: h =>
    match transferOf e.act e.ans with
    | some (acc, wkc) => ⟨e.tid, acc, wkc, [], h⟩ :: accesses h
    | none =>
      match poppedOf e.act e.ans with
      | some raw => if inFlight e.tid h then popFor e.tid raw (accesses h) else accesses h
      | none => accesses h

/-- Everything that was taken off the error list, newest first. -/
def pops (h : List Ev) : List EcErrort := h.filterMap fun e => poppedOf e.act e.ans

/-- What kind of event an entry is. -/
def kindOf (raw : EcErrort) : MailboxEventKind := (makeMailboxEvent 0 raw).kind

/-- An event without its timestamp. -/
def MailboxEvent.untimed (ev : MailboxEvent) : MailboxEvent := { ev with timestamp := 0 }

/-- The entry is attributable to the access. -/
def MailboxAccess.owns (acc : MailboxAccess) (raw : EcErrort) : Bool :=
  belongsToAccess acc (makeMailboxEvent 0 raw)

theorem makeMailboxEvent_now (now : ℤ) (raw : EcErrort) :
    makeMailboxEvent now raw = { makeMailboxEvent 0 raw with timestamp := now } := by
  unfold makeMailboxEvent
  dsimp only
  split_ifs <;> rfl

theorem belongsToAccess_now (acc : MailboxAccess) (now : ℤ) (raw : EcErrort) :
    belongsToAccess acc (makeMailboxEvent now raw) = acc.owns raw := by
  rw [makeMailboxEvent_now]
  rfl

theorem kind_now (now : ℤ) (raw : EcErrort) : (makeMailboxEvent now raw).kind = kindOf raw := by
  rw [makeMailboxEvent_now]
  rfl

@[simp] theorem untimed_makeMailboxEvent (now : ℤ) (raw : EcErrort) :
    (makeMailboxEvent now raw).untimed = makeMailboxEvent 0 raw := by
  rw [makeMailboxEvent_now]
  unfold makeMailboxEvent MailboxEvent.untimed
  dsimp only
  split_ifs <;> rfl

/-- **An attributable event is an error**, and no emergency. -/
theorem MailboxAccess.owns_error {acc : MailboxAccess} {raw : EcErrort} (h : acc.owns raw = true) :
    (makeMailboxEvent 0 raw).deviceId = acc.deviceId ∧ (makeMailboxEvent 0 raw).severity = .error ∧
      kindOf raw ≠ .emergency := by
  unfold owns belongsToAccess at h
  simp only [Bool.and_eq_true, decide_eq_true_eq] at h
  obtain ⟨⟨⟨⟨hk, hd⟩, _⟩, _⟩, _⟩ := h
  refine ⟨hd, ?_, hk⟩
  by_contra hs
  apply hk
  revert hs
  unfold makeMailboxEvent
  dsimp only
  split_ifs <;> simp

/-! ## Events that change nothing here -/

section Cons

variable {t : ℕ} {e : Ev} {h : List Ev}

theorem transferOf_unboxed {a : Act} (ha : a.boxes = false) (r : Ans a) : transferOf a r = none := by
  cases a <;> first | rfl | cases ha

theorem poppedOf_unboxed {a : Act} (ha : a.boxes = false) (r : Ans a) : poppedOf a r = none := by
  cases a <;> first | rfl | cases ha

theorem countedKind_unboxed {a : Act} (ha : a.boxes = false) : countedKind a = none := by
  cases a <;> first | rfl | cases ha

theorem accesses_skip (ht : transferOf e.act e.ans = none) (hp : poppedOf e.act e.ans = none) :
    accesses (e :: h) = accesses h := by
  rw [accesses, ht, hp]

theorem accesses_pop {raw : EcErrort} (ht : transferOf e.act e.ans = none)
    (hp : poppedOf e.act e.ans = some raw) :
    accesses (e :: h) = if inFlight e.tid h then popFor e.tid raw (accesses h) else accesses h := by
  rw [accesses, ht, hp]

theorem pops_skip (hp : poppedOf e.act e.ans = none) : pops (e :: h) = pops h :=
  List.filterMap_cons_none hp

theorem pops_pop {raw : EcErrort} (hp : poppedOf e.act e.ans = some raw) :
    pops (e :: h) = raw :: pops h :=
  List.filterMap_cons_some hp

theorem inFlight_drains {a : Act} (ha : a.drains = true) (r : Ans a) :
    inFlight t (⟨t, a, r⟩ :: h) = inFlight t h := by
  rw [inFlight, if_pos (.inr ha)]

theorem inFlight_other {a : Act} (ha : a.drains = false) (hb : a.boxes = false) (r : Ans a) :
    inFlight t (⟨t, a, r⟩ :: h) = false := by
  rw [inFlight, if_neg (by simp [ha]), transferOf_unboxed hb]
  rfl

end Cons

/-! ## Emptying the list -/

/-- Between the two worlds thread `t` has taken `raws` off the list and counted `kinds`. -/
structure Drained (t : ℕ) (raws : List EcErrort) (kinds : List MailboxEventKind) (w w' : W) :
    Prop where
  flight : inFlight t w'.hist = inFlight t w.hist
  accesses : accesses w'.hist =
    if inFlight t w.hist then raws.foldl (fun l raw => popFor t raw l) (accesses w.hist)
    else accesses w.hist
  pops : pops w'.hist = raws.reverse ++ pops w.hist
  status : w'.st.mailboxStatus = kinds.foldl MailboxStatus.count w.st.mailboxStatus

section Drained

variable {t : ℕ} {raws raws' : List EcErrort} {kinds kinds' : List MailboxEventKind} {w w₁ w' : W}

theorem Drained.refl (t : ℕ) (w : W) : Drained t [] [] w w := by
  refine ⟨rfl, ?_, rfl, rfl⟩
  split <;> rfl

theorem Drained.trans (h : Drained t raws kinds w w₁) (h' : Drained t raws' kinds' w₁ w') :
    Drained t (raws ++ raws') (kinds ++ kinds') w w' := by
  refine ⟨h'.flight.trans h.flight, ?_, ?_, ?_⟩
  · rw [h'.accesses, h.flight, h.accesses]
    split
    · rw [List.foldl_append]
    · rfl
  · rw [h'.pops, h.pops, List.reverse_append, List.append_assoc]
  · rw [h'.status, h.status, List.foldl_append]

/-- An action of draining that neither pops nor counts. -/
theorem Drained.skip {a : Act} {i : Env} (ha : a.drains = true)
    (hp : poppedOf a (exec a i w.st).1 = none) (hc : countedKind a = none) :
    Drained t [] [] w (w.after exec t a i) := by
  have ht : transferOf a (exec a i w.st).1 = none := by cases a <;> first | rfl | cases ha
  refine ⟨?_, ?_, ?_, ?_⟩
  · rw [World.after_hist, inFlight_drains ha]
  · rw [World.after_hist, accesses_skip ht hp]
    split <;> rfl
  · rw [World.after_hist, pops_skip hp]
    rfl
  · rw [World.after_st, mailboxStatus_exec, hc]
    rfl

theorem Drained.count {i : Env} (k : MailboxEventKind) :
    Drained t [] [k] w (w.after exec t (.countMailboxEvent k) i) := by
  refine ⟨?_, ?_, rfl, rfl⟩
  · rw [World.after_hist, inFlight_drains rfl]
  · rw [World.after_hist, accesses_skip rfl rfl]
    split <;> rfl

theorem Drained.pop {i : Env} {raw : EcErrort} {rest : List EcErrort}
    (hl : w.st.context.ecatEList = raw :: rest) :
    Drained t [raw] [] w (w.after exec t .ecxPoperror i) := by
  have hp : poppedOf .ecxPoperror (exec .ecxPoperror i w.st).1 = some raw := by
    simp [poppedOf, exec, hl]
  refine ⟨?_, ?_, ?_, rfl⟩
  · rw [World.after_hist, inFlight_drains rfl]
  · rw [World.after_hist, accesses_pop rfl hp]
    rfl
  · rw [World.after_hist, pops_pop hp]
    rfl

end Drained

/-- Entries popped for an access that is the last one. -/
theorem foldl_popFor (a : Access) (l : List Access) (raws : List EcErrort) :
    raws.foldl (fun l raw => popFor a.tid raw l) (a :: l) =
      { a with popped := a.popped ++ raws } :: l := by
  induction raws generalizing a with
  | nil => simp
  | cons raw raws ih =>
    rw [List.foldl_cons, popFor, if_pos rfl, ih { a with popped := a.popped ++ [raw] }]
    simp

end EthercatInterface
