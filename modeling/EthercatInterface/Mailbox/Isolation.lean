import EthercatInterface.Mailbox.Request

/-!
# Accesses do not see each other

All accesses share one error list, whose entries do not name a request, and `read_od` leaves
its errors behind. `access_isolated`: what an access returns is nevertheless a function of its
own request, its working counter and the entries that its own transfer pushed (`verdict`),
because every access counts what it finds on the list before its transfer.

What SOEM pushes is a parameter of the run: `push t h` is what a mailbox call of thread `t`
pushes after the history `h`.
-/

namespace EthercatInterface

open Interleave

/-- SOEM pushes `push t h` when thread `t` calls it after the history `h`. -/
def pushing (push : ℕ → List Ev → List EcErrort) : Guard Act Ans Env St :=
  fun t _ i w => i.pushed = push t w.hist

variable {ps : Parameters} {push push' : ℕ → List Ev → List EcErrort} {t t' : ℕ} {w w' : W}

/-- What was popped for an access is what its own transfer pushed. -/
def Isolated (push : ℕ → List Ev → List EcErrort) (w : W) : Prop :=
  ∀ a ∈ accesses w.hist, a.popped = push a.tid a.past

theorem Served.popped {a : Access} {event : Option MailboxEvent}
    (h : Served (pushing push) w a event w') : a.popped = push a.tid a.past := by
  obtain ⟨b, i, s, hi, hp, -⟩ := h.pushed
  rw [hp]
  exact hi

theorem Served.isolated {a : Access} {event : Option MailboxEvent}
    (h : Served (pushing push) w a event w') (hw : Isolated push w) : Isolated push w' := by
  intro b hb
  rw [h.accesses] at hb
  rcases List.mem_cons.1 hb with rfl | hb
  · exact h.popped
  · exact hw b hb

/-- **Every operation** keeps accesses isolated. -/
theorem sectioned_isolated : Sectioned fun p => Upholds exec (pushing push) (Isolated push) t p := by
  refine upholds_sections (fun h hw a ha => hw a (h.accesses ▸ ha)) (fun hf hd hw a ha => hw a ?_)
    fun h hw => h.isolated hw
  have := hd.accesses
  rw [if_neg (by rw [hf]; exact nofun)] at this
  exact this ▸ ha

theorem reaches_isolated {s : St} {c : Conf Act Ans (List Mutex) Exn St}
    (hr : Reaches exec (pushing push) (anyCall ps) (Conf.idle ⟨s, []⟩) c) : Isolated push c.world := by
  refine reaches_sustains (fun t p hp => ?_) hr nofun
  obtain ⟨o, hk, hok, rfl⟩ := hp
  exact sectioned_isolated.invoke hok o

/-- The reply of an access, timestamps aside. -/
def Reply.untimed (r : Reply) : Reply :=
  { r with mailboxDiagnostics := r.mailboxDiagnostics.map MailboxEvent.untimed }

/-- What an access replies. -/
def Request.reply (q : Request) (wkc : ℤ) (pushed : List EcErrort) : Reply :=
  ⟨(verdict q.access wkc pushed).isNone, wkc, verdict q.access wkc pushed⟩

/-- **Accesses do not see each other.** In any run, every access that took place was given the
entries its own transfer pushed, and those only; and one that returns now replies what its
request, its working counter and the entries its own transfer pushed determine, so it replies
the same in any other run that gives it the same. -/
theorem access_isolated {s s' : St} {c c' : Conf Act Ans (List Mutex) Exn St}
    (hr : Reaches exec (pushing push) (anyCall ps) (Conf.idle ⟨s, []⟩) c)
    (hr' : Reaches exec (pushing push') (anyCall ps) (Conf.idle ⟨s', []⟩) c')
    {q : Request} {r r' : Reply} (he : Exec exec (pushing push) t q.run c.world (.ret r) w)
    (he' : Exec exec (pushing push') t' q.run c'.world (.ret r') w') :
    Isolated push w ∧ Isolated push' w' ∧
    ∃ a a', accesses w.hist = a :: accesses c.world.hist ∧ a.tid = t ∧ a.acc = q.access ∧
      accesses w'.hist = a' :: accesses c'.world.hist ∧ a'.tid = t' ∧ a'.acc = q.access ∧
      r.untimed = q.reply r.workingCounter (push t a.past) ∧
      (r.workingCounter = r'.workingCounter → push t a.past = push' t' a'.past →
        r.success = r'.success ∧ r.untimed = r'.untimed) := by
  obtain ⟨a, event, ht, ha, hs, rfl⟩ := served_of_exec he
  obtain ⟨a', event', ht', ha', hs', rfl⟩ := served_of_exec he'
  -- the reply depends on what the transfer of this access has pushed, and on nothing else
  have reply : ∀ {push t} {w w' : W} {a : Access} {event}, a.tid = t → a.acc = q.access →
      Served (pushing push) w a event w' →
      Reply.untimed ⟨event.isNone, a.wkc, event⟩ = q.reply a.wkc (push t a.past) := by
    intro push t w w' a event ht ha hs
    unfold Reply.untimed Request.reply
    rw [hs.event, ha, hs.popped, ht]
    have := congrArg Option.isNone hs.event
    rw [Option.isNone_map, ha, hs.popped, ht] at this
    rw [this]
  refine ⟨hs.isolated (reaches_isolated hr), hs'.isolated (reaches_isolated hr'), a, a',
    hs.accesses, ht, ha, hs'.accesses, ht', ha', reply ht ha hs, fun hw hp => ?_⟩
  have h := reply ht ha hs
  have h' := reply ht' ha' hs'
  have hu : Reply.untimed ⟨event.isNone, a.wkc, event⟩ =
      Reply.untimed ⟨event'.isNone, a'.wkc, event'⟩ := by
    rw [h, h', hp]
    exact congrArg (q.reply · _) hw
  have hsuccess := congrArg Reply.success hu
  exact ⟨hsuccess, hu⟩

/-- The bus of `oneSlave`, with nothing on its error list. -/
def oneSlaveClean : St := { state := .initialized, context := { ecatSlavecount := 1 } }

/-- SOEM pushes nothing. -/
def pushNothing (_ : ℕ) (_ : List Ev) : List EcErrort := []

theorem exec_pushNothing (s : St) : Exec exec (pushing pushNothing) 0 abortedRead.run ⟨s, []⟩
    (run exec 0 abortedRead.run [] ⟨s, []⟩).1 (run exec 0 abortedRead.run [] ⟨s, []⟩).2.1 :=
  (run_exec_of exec (G := fun i => i.pushed = []) rfl (fun _ _ _ hi => hi) _ [] ⟨s, []⟩ nofun).1

/-- With or without a foreign entry on the list, an access nobody answers fails the same way. -/
theorem access_isolated_unanswered :
    ∃ r r' : Reply, (run exec 0 abortedRead.run [] oneSlave).1 = .ret r ∧
      (run exec 0 abortedRead.run [] ⟨oneSlaveClean, []⟩).1 = .ret r' ∧ r.success = r'.success := by
  refine ⟨⟨false, 0, some (makeTimeoutEvent 0 abortedRead.access)⟩,
    ⟨false, 0, some (makeTimeoutEvent 0 abortedRead.access)⟩, rfl, rfl, ?_⟩
  have hr : ∀ s : St, Reaches exec (pushing pushNothing) (anyCall {}) (Conf.idle ⟨s, []⟩)
      (Conf.idle ⟨s, []⟩) := fun _ => .refl
  obtain ⟨-, -, a, a', -, -, -, -, -, -, -, h⟩ := access_isolated (hr _) (hr _)
    (exec_pushNothing oneSlave.st) (exec_pushNothing oneSlaveClean)
  exact (h rfl rfl).1

end EthercatInterface
