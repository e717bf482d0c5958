import EthercatInterface.Lib.Cell
import EthercatInterface.Lib.Triple
import EthercatInterface.Lifecycle.Run
import EthercatInterface.Mailbox.Request
import EthercatInterface.Spec.Typed

/-!
# A value is read back as it was written

The slaves keep what is written to their objects (`storing`). Between a typed write that reports
success and a typed read, any threads may run anything that does not write to the object.

* `triple_mailboxSection`: the sections of the four accesses, in terms of what the transfer leaves.
* `sdoRead_back`: what is read is what was written, if the types have the same size; else there is
  no value.
* `sdoReadString_back`: a string comes back up to its first zero.
-/

namespace EthercatInterface

open Interleave

variable {α β : Type} {ok : Guard Act Ans Env St} {t : ℕ}

/-! ## Objects of the slaves -/

structure SdoObject where
  device : DeviceId
  index : ℕ
  subIndex : ℕ
  deriving DecidableEq

/-- What an event leaves in an object. After a write that failed nobody can tell. -/
def SdoObject.note (x : SdoObject) : Ev → Option (Option (List UInt8))
  | ⟨_, .ecxSDOwrite id index subIndex data, wkc⟩ =>
    if (⟨id, index, subIndex⟩ : SdoObject) = x then some (if 0 < wkc then some data else none) else none
  | _ => none

/-- The bytes in an object, where the history tells. -/
abbrev SdoObject.bytes (x : SdoObject) (h : List Ev) : Option (List UInt8) := contents x.note h

/-- A slave keeps its objects: a read with success delivers what was written, whole, into a buffer
that has room for it. -/
def storing : Guard Act Ans Env St := fun _ a i w =>
  match a with
  | .ecxSDOread id index subIndex n => 0 < i.ret →
      ∀ data ∈ SdoObject.bytes ⟨id, index, subIndex⟩ w.hist,
        data.length ≤ n ∧ i.data = data ∧ i.size = data.length
  | _ => True

/-- Does not write to the object. -/
abbrev Leaves (x : SdoObject) : Act → Prop := Spares x.note

theorem leaves_of {x : SdoObject} {a : Act}
    (ha : ∀ id index subIndex data, a = .ecxSDOwrite id index subIndex data →
        (⟨id, index, subIndex⟩ : SdoObject) ≠ x) :
    Leaves x a := by
  intro t r
  cases a
  case ecxSDOwrite id index subIndex data => exact if_neg (ha id index subIndex data rfl)
  all_goals rfl

theorem Draining.leaves {x : SdoObject} {a : Act} (h : Draining a) : Leaves x a := by
  refine leaves_of fun id index subIndex data ha => ?_
  subst ha
  cases h

/-! ## Sections -/

/-- Threads of their own. -/
abbrev alone (ok : Guard Act Ans Env St) (t : ℕ) : Setting Act Ans Env St := ⟨exec, ok, free, t⟩

/-- An access without a working counter is not reported as a success. -/
theorem triple_finish {acc : MailboxAccess} {wkc : ℤ} {K : W → Prop}
    (hK : ∀ a, Draining a → (alone ok t).Keeps K a) :
    (alone ok t).Triple K (finishMailboxAccess acc wkc) (fun x w => (x.2 = false → 0 < wkc) ∧ K w)
      fun _ _ => True := by
  have off : ∀ {γ : Type} {p : P γ} {V : List Mutex → Prop}, p.Fits Draining V →
      (alone ok t).Triple K p (fun _ => K) fun _ _ => True := fun hp =>
    (Setting.Triple.of_keeps hK hp.uses).mono (fun _ h => h) (fun _ _ h => h) fun _ _ _ => trivial
  refine .bind (off (draining_drainMailboxEventsFor acc)) fun event => ?_
  split
  · refine .bind (off (draining_act (V := StatusLock) rfl)) fun now => ?_
    refine .bind (off (draining_reportMailboxEvent _)) fun _ => .pure fun w hw => ⟨?_, hw⟩
    simp [isError, makeTimeoutEvent]
  · refine .pure fun w hw => ⟨fun hx => ?_, hw⟩
    simp only [Bool.or_eq_false_iff, decide_eq_false_iff_not] at hx
    omega

/-- **An access**: `J` until the transfer, `K` after it. -/
theorem triple_mailboxSection {what : String} {id : DeviceId} {b : Act}
    {finish : Ans b → P (Option MailboxEvent × Bool)} {reply : Ans b → Option MailboxEvent × Bool → P β}
    {J : W → Prop} {K : Ans b → W → Prop} {T : Ans b → Option MailboxEvent × Bool → Prop} {Q : β → W → Prop}
    (hJ : ∀ a, Mailing a → a.transmits = false → (alone ok t).Keeps J a)
    (hb : ∀ i w, ok t b i w → J w → K (exec b i w.st).1 (w.after exec t b i))
    (hf : ∀ r, (alone ok t).Triple (K r) (finish r) (fun x w => T r x ∧ K r w) fun _ _ => True)
    (hr : ∀ r x, T r x → (alone ok t).Triple (K r) (reply r x) Q fun _ _ => True) :
    (alone ok t).Triple J (mailboxSection what id b finish reply) Q fun _ _ => True := by
  have off : ∀ {γ : Type} {p : P γ} {V : List Mutex → Prop},
    p.Fits (fun a => Mailing a ∧ a.transmits = false) V →
      (alone ok t).Triple J p (fun _ => J) fun _ _ => True := fun hp =>
    (Setting.Triple.of_keeps (fun a ha => hJ a ha.1 ha.2) hp.uses).mono (fun _ h => h) (fun _ _ h => h)
      fun _ _ _ => trivial
  have hdrain : ∀ a, Draining a → Mailing a ∧ a.transmits = false := fun a ha => by
    cases a <;> first | exact ⟨rfl, rfl⟩ | cases ha
  refine .withLock (.bind (off (V := AnyLock) (fits_checkAccess ⟨rfl, rfl⟩ ⟨rfl, rfl⟩ what id)) fun _ => ?_)
  refine .bind (off (draining_drainMailboxEvents.mono hdrain fun _ h => h)) fun _ => ?_
  refine .bind (T := K) (.perform fun i w hi hw => ⟨trivial, hb i w hi hw⟩) fun r => ?_
  refine .bind (hf r) fun x => .assume (fun w hw => hw.1) fun hx => ?_
  exact (hr r x hx).mono (fun w hw => hw.2) (fun _ _ h => h) fun _ _ h => h

/-! ## Writing and reading -/

variable {id : DeviceId} {index subIndex : ℕ} {data : List UInt8} {n : ℕ} {checkSize : Bool} {x : SdoObject}

theorem keeps_bytes {y : Option (List UInt8)} {a : Act} (ha : Leaves x a) :
    (alone ok t).Keeps (fun w => x.bytes w.hist = y) a := fun i w _ hw =>
  ⟨trivial, (contents_spared ha i w).trans hw⟩

theorem Mailing.leaves {a : Act} (h : Mailing a) (hs : a.transmits = false) : Leaves x a := by
  refine leaves_of fun id index subIndex data ha => ?_
  subst ha
  cases hs

/-- What was written with success is in the object. -/
theorem triple_writeSdoUntyped :
    (alone ok t).Triple (fun _ => True) (writeSdoUntyped data id index subIndex)
      (fun r w => r.success = true → SdoObject.bytes ⟨id, index, subIndex⟩ w.hist = some data)
      fun _ _ => True := by
  rw [writeSdoUntyped_eq]
  refine triple_mailboxSection (J := fun _ => True)
    (K := fun wkc w => SdoObject.bytes ⟨id, index, subIndex⟩ w.hist = if 0 < wkc then some data else none)
    (T := fun wkc x => x.2 = false → 0 < wkc) (fun _ _ _ _ _ _ hw => ⟨trivial, hw⟩) (fun i w _ _ => ?_)
    (fun wkc => ?_) fun wkc finished hf => ?_
  · exact contents_cons (if_pos rfl) _
  · exact triple_finish fun a ha => keeps_bytes ha.leaves
  · refine .pure fun w hw hs => ?_
    rw [hw, if_pos (hf (by simpa using hs))]

/-- A read with success delivers what is in the object. -/
theorem triple_readSdoUntyped :
    (alone storing t).Triple (fun w => SdoObject.bytes ⟨id, index, subIndex⟩ w.hist = some data)
      (readSdoUntyped n id index subIndex checkSize)
      (fun r _ => r.1.success = true → data.length ≤ n ∧ r.2 = data ∧ r.1.actualSizeRead = data.length ∧
        (checkSize = true → toInt n = data.length)) fun _ _ => True := by
  rw [readSdoUntyped_eq]
  refine triple_mailboxSection
    (K := fun (r : Transfer) _ => 0 < r.wkc → data.length ≤ n ∧ r.data = data ∧ r.size = data.length)
    (T := fun (r : Transfer) x => x.2 = false → 0 < r.wkc) (fun a hm hs => keeps_bytes (hm.leaves hs))
    (fun i w hi hw h => ?_) (fun r => ?_) fun (r : Transfer) finished hf => ?_
  · exact hi h data hw
  · exact triple_finish fun a _ i w _ hw => ⟨trivial, hw⟩
  unfold sdoReadReply
  split
  · exact .pure fun w hw hs => by cases hs
  · next hfin =>
    have hfin : finished.2 = false := by simpa using hfin
    refine .bind (T := fun _ w => (0 < r.wkc → data.length ≤ n ∧ r.data = data ∧ r.size = data.length) ∧
      (checkSize = true → toInt n = r.size)) (.raiseIf (fun _ _ _ => trivial) fun hc w hw => ⟨hw, ?_⟩)
        fun _ => ?_
    · simpa [or_iff_not_imp_left] using hc
    · refine .pure fun w hw _ => ?_
      obtain ⟨hle, hdata, hsize⟩ := hw.1 (hf hfin)
      exact ⟨hle, hdata, hsize, fun hc => (hw.2 hc).trans hsize⟩

/-! ## Values -/

section Back

variable {calls : ℕ → P Unit → Prop} {c c' : Conf Act Ans (List Mutex) Exn St} {u : ℕ} {w w' : W}

/-- A write with success to an object of a slave, and then any runs that leave the object alone. -/
structure Stored (t : ℕ) (write : P SDOWriteResult) (x : SdoObject) (calls : ℕ → P Unit → Prop) (w : W)
    (c c' : Conf Act Ans (List Mutex) Exn St) : Prop where
  write : ∃ r, r.success = true ∧ Exec exec storing t write w (.ret r) c.world
  running : ∀ t p, c.pool t = some p → p.Uses (Leaves x)
  coming : ∀ t p, calls t p → p.Uses (Leaves x)
  reaches : Reaches exec storing calls c c'

theorem Stored.bytes (h : Stored t (writeSdoUntyped data id index subIndex)
    ⟨id, index, subIndex⟩ calls w c c') :
    SdoObject.bytes ⟨id, index, subIndex⟩ c'.world.hist = some data := by
  obtain ⟨r, hs, he⟩ := h.write
  rw [SdoObject.bytes, h.reaches.contents h.coming h.running]
  exact triple_writeSdoUntyped.sound he trivial hs

/-- Bytes that fill a buffer are all there is in it. -/
theorem readInto_full {b : ℕ} {data : List UInt8} (h : data.length = b) : readInto b b data = data := by
  subst h
  simp [readInto]

theorem triple_sdoRead {T : ByteLayout α} :
    (alone storing t).Triple (fun w => SdoObject.bytes ⟨id, index, subIndex⟩ w.hist = some data)
      (sdoRead T id index subIndex)
      (fun x _ => x.hasValue = x.diagnostics.success ∧
        ∀ y ∈ x.value, toInt T.size = data.length ∧ (data.length = T.size → y = T.value data))
      fun _ _ => True := by
  refine .bind triple_readSdoUntyped fun r => ?_
  cases hs : r.1.success
  · exact .pure fun w _ => ⟨hs.symm, nofun⟩
  · refine .pure fun w hw => ⟨hs.symm, fun y hy => ?_⟩
    obtain ⟨-, hdata, -, hsize⟩ := hw rfl
    obtain rfl : T.value (readInto T.size T.size r.2) = y := by simpa using hy
    refine ⟨hsize rfl, fun hlen => ?_⟩
    rw [hdata, readInto_full hlen]

/-- **A value is read back as it was written**, by any thread, whatever any threads have run in
between that leaves the object alone; and there is a value if the read reports success. -/
theorem sdoRead_back {T : ByteLayout α} {v : α} {y : SDOReadValue α}
    (hw : Stored t (sdoWrite T id v index subIndex) ⟨id, index, subIndex⟩ calls w c c')
    (he : Exec exec storing u (sdoRead T id index subIndex) c'.world (.ret y) w') :
    y.hasValue = y.diagnostics.success ∧ ∀ x ∈ y.value, x = v := by
  obtain ⟨hvalue, hback⟩ := triple_sdoRead.sound he hw.bytes
  refine ⟨hvalue, fun x hx => ?_⟩
  rw [(hback x hx).2 (T.length_bytes v), T.value_bytes]

/-- The buffer of a string that fits is cut where the string ends. -/
theorem visibleString_readInto {b : ℕ} (h : data.length ≤ b) (hb : b < 2 ^ 64) :
    visibleString (readInto b b data) data.length = data.takeWhile (· ≠ 0) := by
  have hsize : toSize data.length = data.length := by
    rw [toSize, Int.emod_eq_of_lt (by omega) (by omega)]
    rfl
  rw [visibleString, hsize, readInto, List.take_of_length_le h, List.take_left]

theorem triple_sdoReadString :
    (alone storing t).Triple (fun w => SdoObject.bytes ⟨id, index, subIndex⟩ w.hist = some data)
      (sdoReadString id index subIndex)
      (fun y _ => y.hasValue = y.diagnostics.success ∧
        ∀ x ∈ y.value, data.length ≤ maximumVisibleStringSize ∧ x = data.takeWhile (· ≠ 0))
      fun _ _ => True := by
  refine .bind triple_readSdoUntyped fun r => ?_
  cases hs : r.1.success
  · exact .pure fun w _ => ⟨hs.symm, nofun⟩
  · refine .pure fun w hw => ⟨hs.symm, fun x hx => ?_⟩
    obtain ⟨hle, hdata, hsize, -⟩ := hw rfl
    obtain rfl := Option.some.inj hx
    refine ⟨hle, ?_⟩
    rw [hdata, hsize]
    exact visibleString_readInto hle (by decide)

/-- **A string is read back up to its first zero**, and not at all if it is longer than the buffer. -/
theorem sdoReadString_back {s : List UInt8} {y : SDOReadValue (List UInt8)}
    (hw : Stored t (sdoWriteString id s index subIndex) ⟨id, index, subIndex⟩ calls w c c')
    (he : Exec exec storing u (sdoReadString id index subIndex) c'.world (.ret y) w') :
    y.hasValue = y.diagnostics.success ∧
      ∀ x ∈ y.value, s.length ≤ maximumVisibleStringSize ∧ x = s.takeWhile (· ≠ 0) :=
  triple_sdoReadString.sound he hw.bytes

end Back

/-! ## Two objects of a slave -/

theorem leaves_writeSdoUntyped (h : (⟨id, index, subIndex⟩ : SdoObject) ≠ x) :
    (writeSdoUntyped data id index subIndex).Uses (Leaves x) := by
  have hlook : Leaves x .getBusState := leaves_of nofun
  have hcount : Leaves x .slavecount := leaves_of nofun
  have hwrite : Leaves x (.ecxSDOwrite id index subIndex data) := leaves_of fun _ _ _ _ ha => by
    cases ha
    exact h
  refine Prog.uses_withLock (Prog.Uses.bind (fits_checkAccess (V := AnyLock) hlook hcount _ id).uses
    fun _ => ?_)
  refine Prog.Uses.bind (draining_drainMailboxEvents.uses.mono fun _ => Draining.leaves) fun _ => ?_
  refine (uses_act hwrite).bind fun wkc => ?_
  exact ((draining_finishMailboxAccess _ _).uses.mono fun _ => Draining.leaves).bind fun _ => trivial

instance (t : ℕ) (a : Act) (i : Env) (w : W) : Decidable (storing t a i w) :=
  decidable_of_iff
    ((match a with
      | .ecxSDOread id index subIndex n => decide (0 < i.ret →
          ∀ data ∈ SdoObject.bytes ⟨id, index, subIndex⟩ w.hist,
            data.length ≤ n ∧ i.data = data ∧ i.size = data.length)
      | _ => true) = true)
    (by cases a <;> first | exact decide_eq_true_iff | exact ⟨fun _ => trivial, fun _ => rfl⟩)

/-- The slave answers every access, a read with these bytes. -/
def delivering (data : List UInt8) : List Env :=
    List.replicate 16 { ret := 1, data := data, size := data.length }

/-- A value is returned that passes a check. -/
def returnsWith {α : Type} (check : α → Bool) : Outcome Exn α → Bool
  | .ret x => check x
  | _ => false

/-- A computed run that the slaves allow, and its value. -/
theorem exec_returnsWith {α : Type} {p : P α} {l : List Env} {w : W} {check : α → Bool}
    (ha : admits exec storing t p l w = true) (hx : returnsWith check (run exec t p l w).1 = true) :
    ∃ x, check x = true ∧ Exec exec storing t p w (.ret x) (run exec t p l w).2.1 := by
  have he := run_exec_admitted p l w ha
  cases h : (run exec t p l w).1
  case ret x =>
    rw [h] at he hx
    exact ⟨x, hx, he⟩
  all_goals
    rw [h] at hx
    cases hx

/-- A write to a bus with one slave. -/
def afterWrite (write : P SDOWriteResult) : Conf Act Ans (List Mutex) Exn St :=
  .idle (run exec 1 write (delivering []) (world [initializeOne])).2.1

/-- What another thread writes. -/
def writeMode : P Unit := void (writeSdoUntyped [8] 1 0x6060 0)

def modeSchedule : List (Choice Act Ans (List Mutex) Exn Env) := [.call 2 writeMode, .step 2 (delivering [])]

def afterMode (write : P SDOWriteResult) : Conf Act Ans (List Mutex) Exn St :=
  (afterWrite write).follow exec modeSchedule

theorem stored_mode {write : P SDOWriteResult} (hx : (⟨1, 0x6060, 0⟩ : SdoObject) ≠ x)
    (ha : admits exec storing 1 write (delivering []) (world [initializeOne]) = true)
    (hs : returnsWith (fun r : SDOWriteResult => r.success)
      (run exec 1 write (delivering []) (world [initializeOne])).1 = true)
    (hr : (afterWrite write).admitsAll exec storing modeSchedule = true) :
    Stored 1 write x (fun _ p => p = writeMode) (world [initializeOne]) (afterWrite write)
      (afterMode write) where
  write := exec_returnsWith ha hs
  running t p h := by cases h
  coming t p h := by
    subst h
    exact Uses.void (leaves_writeSdoUntyped hx)
  reaches := by
    refine reaches_admitted (fun t p hp => ?_) hr
    rcases Choice.call_mem_call.1 hp with ⟨-, rfl⟩ | hp
    · rfl
    · simp at hp

def target : ByteLayout.Signed 2 := ⟨-300, by decide⟩

def writeTarget : P SDOWriteResult := sdoWrite (ByteLayout.signed 2) 1 target 0x607A 0

def readTarget : P (SDOReadValue (ByteLayout.Signed 2)) := sdoRead (ByteLayout.signed 2) 1 0x607A 0

/-- A third thread reads the target, after another object has been written. -/
theorem sdoRead_back_target : ∃ (y : SDOReadValue (ByteLayout.Signed 2)) (w : W),
    Exec exec storing 3 readTarget (afterMode writeTarget).world (.ret y) w ∧
      y.hasValue = true ∧ ∀ x ∈ y.value, x = target := by
  have hw : Stored 1 writeTarget ⟨1, 0x607A, 0⟩ _ _ _ _ :=
    stored_mode (by decide) (by decide +kernel) (by decide +kernel) (by decide +kernel)
  obtain ⟨y, hy, he⟩ : ∃ y : SDOReadValue (ByteLayout.Signed 2), y.hasValue = true ∧
      Exec exec storing 3 readTarget (afterMode writeTarget).world (.ret y) _ :=
    exec_returnsWith (l := delivering [0xD4, 0xFE]) (by decide +kernel) (by decide +kernel)
  exact ⟨y, _, he, hy, (sdoRead_back hw he).2⟩

/-- A name with a zero in it. -/
def writeName : P SDOWriteResult := sdoWriteString 1 [0x41, 0x42, 0, 0x43] 0x2000 1

def readName : P (SDOReadValue (List UInt8)) := sdoReadString 1 0x2000 1

/-- What follows the zero is not read. -/
theorem sdoReadString_back_name : ∃ (y : SDOReadValue (List UInt8)) (w : W),
    Exec exec storing 3 readName (afterMode writeName).world (.ret y) w ∧
      y.hasValue = true ∧ ∀ x ∈ y.value, x = [0x41, 0x42] := by
  have hw : Stored 1 writeName ⟨1, 0x2000, 1⟩ _ _ _ _ :=
    stored_mode (by decide) (by decide +kernel) (by decide +kernel) (by decide +kernel)
  obtain ⟨y, hy, he⟩ : ∃ y : SDOReadValue (List UInt8), y.hasValue = true ∧
      Exec exec storing 3 readName (afterMode writeName).world (.ret y) _ :=
    exec_returnsWith (l := delivering [0x41, 0x42, 0, 0x43]) (by decide +kernel) (by decide +kernel)
  exact ⟨y, _, he, hy, fun x hx => ((sdoReadString_back hw he).2 x hx).2⟩

end EthercatInterface
