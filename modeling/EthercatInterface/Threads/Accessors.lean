import EthercatInterface.Lib.Pipeline
import EthercatInterface.Lifecycle.Run
import EthercatInterface.Threads.Cycle

/-!
# Calls of the accessors of process data

The past of a thread tells what its calls have been about. What `set_generic_rx_pdo` copies to
the staging buffer is the argument of the call, copied once if the call succeeds and not at all
if it throws (`SetsInOrder`). What `get_generic_tx_pdo` returns is what it has read at one moment
of the call (`Handed`).

* `faithful`: what a thread promises of its own past, which every call keeps
  (`faithful_setGenericRxPdo`, `faithful_getGenericTxPdo`, `faithful_invoke` for the others).
-/

namespace EthercatInterface

open Interleave

variable {t : ℕ} {ps : Parameters} {hk : UserCode} {p : Addr} {h : List Ev}

/-! ## The property -/

/-- The operation a thread with this past is in. -/
def inside : List Ev → Option Op
  | [] => none
  | e :: h => match e.act with
    | .call o => some o
    | .done _ _ => none
    | _ => inside h

/-- What a thread with this past has set on `p` since its last call began. -/
def setSince (p : Addr) : List Ev → List (List UInt8)
  | [] => []
  | e :: h => if (called e.act).isSome then [] else (rxWritten p e.act).toList ++ setSince p h

/-- What is set is the argument of a call under way. A call that succeeds has set it, once, and
one that fails has set nothing. -/
def SetsInOrder : List Ev → Prop := Always fun e h =>
  (∀ p rx, e.act = .setRxPdo p rx →
    inside (own e.tid h) = some (.setGenericRxPdo p rx) ∧ setSince p (own e.tid h) = []) ∧
  ∀ p rx ok, e.act = .done (.setGenericRxPdo p rx) ok →
    inside (own e.tid h) = some (.setGenericRxPdo p rx) ∧ setSince p (own e.tid h) = if ok then [rx] else []

/-- The call of `get_generic_tx_pdo` that thread `t` has just been through returns `bytes`, and
had begun before the moment `past`. -/
def Handed (t : ℕ) (p : Addr) (n : ℕ) (bytes : List UInt8) (past h : List Ev) : Prop :=
  ∃ earlier,
    (getGenericTxPdo p n).Yields t (⟨t, .call (.getGenericTxPdo p n), ()⟩ :: earlier) bytes (own t h) ∧
    ⟨t, .call (.getGenericTxPdo p n), ()⟩ :: earlier <:+ own t past ∧ past <:+ h

/-! ## The promise -/

/-- The actions something is promised of. -/
def Act.promised : Act → Bool
  | .setRxPdo _ _ | .done (.setGenericRxPdo _ _) _ | .done (.getGenericTxPdo _ _) true => true
  | _ => false

/-- In the call of a thread with this past, `l` has been set on `p`. -/
def Underway (o : Op) (p : Addr) (l : List (List UInt8)) (h : List Ev) : Prop :=
  inside h = some o ∧ setSince p h = l

/-- The call that has just returned `bytes` has read them in its last action. -/
def HasRead (t : ℕ) (p : Addr) (n : ℕ) (h : List Ev) : Prop :=
  ∃ earlier bytes past, h = ⟨t, .getTxPdo p, bytes⟩ :: past ∧
    ⟨t, .call (.getGenericTxPdo p n), ()⟩ :: earlier <:+ past ∧
    (getGenericTxPdo p n).Yields t (⟨t, .call (.getGenericTxPdo p n), ()⟩ :: earlier) bytes h

/-- What a thread promises of its own past. -/
def faithful (t : ℕ) : Act → List Ev → Prop
  | .setRxPdo p rx, h => Underway (.setGenericRxPdo p rx) p [] h
  | .done (.setGenericRxPdo p rx) ok, h => Underway (.setGenericRxPdo p rx) p (if ok then [rx] else []) h
  | .done (.getGenericTxPdo p n) true, h => HasRead t p n h
  | _, _ => True

/-- The promise, of a whole history. -/
def Faithful : List Ev → Prop := Always fun e h => faithful e.tid e.act (own e.tid h)

theorem faithful_other {a : Act} (ha : a.promised = false) (h : List Ev) : faithful t a h := by
  cases a
  case setRxPdo => cases ha
  case done o ok => cases o <;> cases ok <;> trivial
  all_goals trivial

theorem Underway.plain {o : Op} {l : List (List UInt8)} {a : Act} (ha : Plain a) (r : Ans a)
    (hs : Underway o p l h) : Underway o p l (⟨t, a, r⟩ :: h) := by
  cases a <;> first | exact hs | cases ha

/-! ## The calls -/

/-- A call of an operation that performs nothing promised. -/
theorem faithful_invoke {o : Op} (hd : ∀ b, (Act.done o b).promised = false)
    (hb : (o.body ps hk).Uses fun a => a.promised = false) : Honours (faithful t) t (o.invoke ps hk) :=
  Honours.invoke (faithful_other rfl) (fun b => faithful_other (hd b))
    (.uses (fun _ ha => faithful_other ha) hb)

theorem obeys_setGenericRxPdo (rx : List UInt8) (hs : Underway (.setGenericRxPdo p rx) p [] h) :
    Obeys (faithful t) t (setGenericRxPdo p rx) (fun o h' =>
      (∀ x, o = .ret x → Underway (.setGenericRxPdo p rx) p [rx] h') ∧
        ∀ e, o = .exn e → Underway (.setGenericRxPdo p rx) p [] h') h := by
  refine .bind (.perform trivial fun b => .bind (.raiseIf (fun _ => ?_) fun _ => ?_))
  · exact ⟨nofun, fun _ _ => hs⟩
  refine .bind (.perform trivial fun n => .bind (.raiseIf (fun _ => ?_) fun _ => ?_))
  · exact ⟨nofun, fun _ _ => hs⟩
  refine .withLock (.perform hs fun _ => ⟨fun _ _ => ?_, nofun⟩)
  have hsince : setSince p h = [] := hs.2
  exact ⟨hs.1, by simp [setSince, called, rxWritten, hsince]⟩

theorem faithful_setGenericRxPdo (rx : List UInt8) :
    Honours (faithful t) t (Op.invoke ps hk (.setGenericRxPdo p rx)) := by
  intro h
  refine .bind (.perform trivial fun _ => .seq (K := fun o h' =>
    (∀ x, o = .ret (.ok x) → Underway (.setGenericRxPdo p rx) p [rx] h') ∧
      ∀ e, o = .ret (.error e) → Underway (.setGenericRxPdo p rx) p [] h') (.attempt ?_) fun r h' hr => ?_)
  · refine (obeys_setGenericRxPdo rx ⟨rfl, rfl⟩).mono fun o h' ho => ?_
    cases o with
    | ret x => exact ⟨fun _ _ => ho.1 x rfl, nofun⟩
    | exn e => exact ⟨nofun, fun _ _ => ho.2 e rfl⟩
    | crash => exact ⟨nofun, nofun⟩
  · cases r with
    | ok x => exact .perform (hr.1 x rfl) fun _ => trivial
    | error e => exact .bind (.perform (hr.2 e rfl) fun _ => trivial)

/-- The last thing `get_generic_tx_pdo` does is to read what it returns. -/
theorem obeys_getGenericTxPdo (n : ℕ) : Obeys (faithful t) t (getGenericTxPdo p n)
    (fun o h' => ∀ x, o = .ret x → ∃ past, h' = ⟨t, .getTxPdo p, x⟩ :: past ∧ h <:+ past) h := by
  refine .bind (.perform trivial fun b => .bind (.raiseIf (fun _ => nofun) fun _ => ?_))
  refine .bind (.perform trivial fun m => .bind (.raiseIf (fun _ => nofun) fun _ => ?_))
  refine .withLock (.perform trivial fun r x hx => ?_)
  cases hx
  exact ⟨_, rfl, (List.suffix_cons _ _).trans (List.suffix_cons _ _)⟩

theorem faithful_getGenericTxPdo (n : ℕ) :
    Honours (faithful t) t (Op.invoke ps hk (.getGenericTxPdo p n)) := by
  intro h
  refine .bind (.perform trivial fun _ => .seq (K := fun o h' =>
    ∀ x, o = .ret (.ok x) → HasRead t p n h') (.attempt (.bind ?_)) fun r h' hr => ?_)
  · refine (obeys_getGenericTxPdo n).yields.mono fun o h' ho => ?_
    cases o with
    | ret x =>
      obtain ⟨past, hpast, hsuf⟩ := ho.1 x rfl
      exact fun _ _ => ⟨h, x, past, hpast, hsuf, ho.2 x rfl⟩
    | exn e => exact nofun
    | crash => exact nofun
  · cases r with
    | ok x => exact .perform (hr x rfl) fun _ => trivial
    | error e => exact .bind (.perform (faithful_other rfl _) fun _ => trivial)

/-! ## What a history shows of them -/

theorem Faithful.sets (hf : Faithful h) : SetsInOrder h := by
  refine hf.mono fun e h he => ⟨fun p rx ha => ?_, fun p rx ok ha => ?_⟩
  · rw [ha] at he
    exact he
  · rw [ha] at he
    exact he

/-- A call that has succeeded hands out what it has read, at a moment since it began. -/
theorem Faithful.handed (hf : Faithful h) : Always (fun e h => ∀ p n,
    e.act = .done (.getGenericTxPdo p n) true → ∃ bytes past, Handed e.tid p n bytes past h ∧
      ⟨e.tid, .getTxPdo p, bytes⟩ :: past <:+ h) h := by
  refine hf.mono fun e h he p n ha => ?_
  rw [ha] at he
  obtain ⟨earlier, bytes, past, hown, hcall, hy⟩ := he
  obtain ⟨past', hpast, rfl⟩ := suffix_of_own_eq_cons hown
  exact ⟨bytes, past', ⟨earlier, hy, hcall, (List.suffix_cons _ _).trans hpast⟩, hpast⟩

end EthercatInterface
