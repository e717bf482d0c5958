import EthercatInterface.Lib.History

/-!
# Data on its way through a chain of registers

Events copy one register into the next. `back` goes from what is in the last register to
the past in which it left the first: back to the last event that copies into the last
register, from there to the last one that copies into the register before it, and so on.

* `back_mono`: what is in the last register is never replaced by older data.
* `Chained.back`: data that has gone through the chain is in the last register, or newer data is.
-/

namespace Interleave

variable {A : Type} {R : A → Type} {β : Type} {f : Event A R → Bool} {fs gs : List (Event A R → Bool)}
  {e : Event A R} {h past x : List (Event A R)}

/-- The past of the last event that `f` picks. -/
def latest (f : Event A R → Bool) : List (Event A R) → Option (List (Event A R))
  | [] => none
  | e :: h => if f e then some h else latest f h

/-- The past of the first event of the latest chain that `fs` picks, the last of the chain first. -/
def back : List (Event A R → Bool) → List (Event A R) → Option (List (Event A R))
  | [], h => some h
  | f :: fs, h => (latest f h).bind (back fs)

/-- There is a chain of events that `fs` picks. -/
def Chained : List (Event A R → Bool) → List (Event A R) → Prop
  | [], _ => True
  | f :: fs, h => ∃ e past, f e = true ∧ e :: past <:+ h ∧ Chained fs past

/-! ## The last event -/

theorem latest_cons_pos (he : f e = true) : latest f (e :: h) = some h := if_pos he

theorem latest_cons_neg (he : ¬f e = true) : latest f (e :: h) = latest f h := if_neg he

theorem latest_some (hl : latest f h = some past) : ∃ e, f e = true ∧ e :: past <:+ h := by
  induction h with
  | nil => cases hl
  | cons e h ih =>
    by_cases he : f e = true
    · rw [latest_cons_pos he] at hl
      cases hl
      exact ⟨e, he, List.suffix_rfl⟩
    · rw [latest_cons_neg he] at hl
      obtain ⟨e', he', hs⟩ := ih hl
      exact ⟨e', he', hs.trans (List.suffix_cons e h)⟩

/-- The last event comes after any other. -/
theorem latest_of_suffix (he : f e = true) (hs : e :: past <:+ h) :
    ∃ past', latest f h = some past' ∧ past <:+ past' := by
  induction h with
  | nil => cases List.suffix_nil.1 hs
  | cons e' h ih =>
    by_cases he' : f e' = true
    · refine ⟨h, latest_cons_pos he', ?_⟩
      rcases List.suffix_cons_iff.1 hs with hs | hs
      · cases hs
        exact List.suffix_rfl
      · exact (List.suffix_cons e past).trans hs
    · rcases List.suffix_cons_iff.1 hs with hs | hs
      · cases hs
        exact absurd he he'
      · rw [latest_cons_neg he']
        exact ih hs

/-- What is last to have a value, and what was first before it. -/
theorem latest_findSome? {g : Event A R → Option β} (hl : latest (fun e => (g e).isSome) h = some past) :
    ∃ e b, g e = some b ∧ e :: past <:+ h ∧ h.findSome? g = some b := by
  induction h with
  | nil => cases hl
  | cons e h ih =>
    cases he : g e with
    | some b =>
      rw [latest_cons_pos (by rw [he]; rfl)] at hl
      cases hl
      exact ⟨e, b, he, List.suffix_rfl, by rw [List.findSome?_cons, he]⟩
    | none =>
      rw [latest_cons_neg (by rw [he]; exact Bool.noConfusion)] at hl
      obtain ⟨e', b, he', hs, hb⟩ := ih hl
      exact ⟨e', b, he', hs.trans (List.suffix_cons e h), by rw [List.findSome?_cons, he]; exact hb⟩

theorem latest_eq_none {g : Event A R → Option β} (hl : latest (fun e => (g e).isSome) h = none) :
    h.findSome? g = none := by
  induction h with
  | nil => rfl
  | cons e h ih =>
    cases he : g e with
    | some b =>
      rw [latest_cons_pos (by rw [he]; rfl)] at hl
      cases hl
    | none =>
      rw [latest_cons_neg (by rw [he]; exact Bool.noConfusion)] at hl
      rw [List.findSome?_cons, he]
      exact ih hl

theorem Always.suffix {φ : Event A R → List (Event A R) → Prop} {h' : List (Event A R)} (hφ : Always φ h)
    (hs : h' <:+ h) : Always φ h' := by
  induction h with
  | nil =>
    rw [List.suffix_nil.1 hs]
    trivial
  | cons e h ih =>
    rcases List.suffix_cons_iff.1 hs with rfl | hs
    · exact hφ
    · exact ih hφ.2 hs

theorem always_of_suffix {φ : Event A R → List (Event A R) → Prop}
    (hφ : ∀ e past, e :: past <:+ h → φ e past) : Always φ h := by
  induction h with
  | nil => trivial
  | cons e h ih =>
    exact ⟨hφ e h List.suffix_rfl, ih fun e' past hs => hφ e' past (hs.trans (List.suffix_cons e h))⟩

/-! ## Chains -/

theorem back_append (fs gs : List (Event A R → Bool)) (h : List (Event A R)) :
    back (fs ++ gs) h = (back fs h).bind (back gs) := by
  induction fs generalizing h with
  | nil => rfl
  | cons f fs ih =>
    rw [List.cons_append, back, back, Option.bind_assoc]
    exact Option.bind_congr fun past _ => ih past

/-- **What goes through the chain stays in order.** -/
theorem back_mono {h' : List (Event A R)} (hs : h <:+ h') (hb : back fs h = some x) :
    ∃ x', back fs h' = some x' ∧ x <:+ x' := by
  induction fs generalizing h h' with
  | nil =>
    cases hb
    exact ⟨h', rfl, hs⟩
  | cons f fs ih =>
    obtain ⟨past, hl, hb⟩ := Option.bind_eq_some_iff.1 hb
    obtain ⟨e, he, hp⟩ := latest_some hl
    obtain ⟨past', hl', hs'⟩ := latest_of_suffix he (hp.trans hs)
    obtain ⟨x', hb', hx⟩ := ih hs' hb
    exact ⟨x', by rw [back, hl']; exact hb', hx⟩

theorem back_suffix (hb : back fs h = some x) : x <:+ h := by
  induction fs generalizing h with
  | nil =>
    cases hb
    exact List.suffix_rfl
  | cons f fs ih =>
    obtain ⟨past, hl, hb⟩ := Option.bind_eq_some_iff.1 hb
    obtain ⟨e, -, hp⟩ := latest_some hl
    exact (ih hb).trans ((List.suffix_cons e past).trans hp)

theorem Chained.mono {h' : List (Event A R)} (hp : Chained fs h) (hs : h <:+ h') : Chained fs h' := by
  cases fs with
  | nil => trivial
  | cons f fs =>
    obtain ⟨e, past, he, hpast, hp⟩ := hp
    exact ⟨e, past, he, hpast.trans hs, hp⟩

theorem Chained.cons (hp : Chained fs h) (he : f e = true) : Chained (f :: fs) (e :: h) :=
  ⟨e, h, he, List.suffix_rfl, hp⟩

theorem Chained.of_append (hp : Chained (fs ++ gs) h) : Chained fs h := by
  induction fs generalizing h with
  | nil => trivial
  | cons f fs ih =>
    obtain ⟨e, past, he, hs, hp⟩ := hp
    exact ⟨e, past, he, hs, ih hp⟩

/-- A chain goes on where another one has ended. -/
theorem Chained.append (hp : Chained fs h) (hq : Chained gs x) : Chained (fs ++ gs) (h ++ x) := by
  induction fs generalizing h with
  | nil => exact hq.mono (List.suffix_append h x)
  | cons f fs ih =>
    obtain ⟨e, past, he, ⟨l, rfl⟩, hp⟩ := hp
    exact ⟨e, past ++ x, he, ⟨l, by simp⟩, ih hp⟩

/-- A chain in part of a history. -/
theorem Chained.amid (hp : Chained fs h) (l x : List (Event A R)) : Chained fs (l ++ (h ++ x)) := by
  have happ := hp.append (show Chained [] x from trivial)
  rw [List.append_nil] at happ
  exact happ.mono (List.suffix_append l _)

/-- **What has gone through the chain is there**, or newer data is. -/
theorem Chained.back {later : List (Event A R)} (hp : Chained fs later) (hs : later ++ x <:+ h) :
    ∃ past, Interleave.back fs h = some past ∧ x <:+ past := by
  induction fs generalizing later h with
  | nil => exact ⟨h, rfl, (List.suffix_append later x).trans hs⟩
  | cons f fs ih =>
    obtain ⟨e, past, he, ⟨l, rfl⟩, hp⟩ := hp
    have hpast : e :: (past ++ x) <:+ h := List.IsSuffix.trans ⟨l, by simp⟩ hs
    obtain ⟨past', hl, hs'⟩ := latest_of_suffix he hpast
    obtain ⟨y, hb, hx⟩ := ih hp hs'
    exact ⟨y, by rw [Interleave.back, hl]; exact hb, hx⟩

/-- A chain of a thread's own events. -/
theorem Chained.of_own {t : ℕ} (hp : Chained fs (own t h)) : Chained fs h := by
  have suffix : ∀ {h : List (Event A R)} {e past}, e :: past <:+ own t h →
      ∃ past', e :: past' <:+ h ∧ own t past' = past := by
    intro h e past hs
    induction h with
    | nil => cases List.suffix_nil.1 hs
    | cons e' h ih =>
      by_cases ht : e'.tid = t
      · obtain ⟨u, a, r⟩ := e'
        cases ht
        rw [own_cons_self] at hs
        rcases List.suffix_cons_iff.1 hs with hs | hs
        · cases hs
          exact ⟨h, List.suffix_rfl, rfl⟩
        · obtain ⟨past', hp, ho⟩ := ih hs
          exact ⟨past', hp.trans (List.suffix_cons _ h), ho⟩
      · rw [own_cons_ne ht] at hs
        obtain ⟨past', hp, ho⟩ := ih hs
        exact ⟨past', hp.trans (List.suffix_cons _ h), ho⟩
  induction fs generalizing h with
  | nil => trivial
  | cons f fs ih =>
    obtain ⟨e, past, he, hs, hp⟩ := hp
    obtain ⟨past', hs', rfl⟩ := suffix hs
    exact ⟨e, past', he, hs', ih hp⟩

/-- The `n`-th last value. -/
theorem getElem?_filterMap (g : Event A R → Option β) (n : ℕ) (h : List (Event A R)) :
    (h.filterMap g)[n]? = (back (.replicate n fun e => (g e).isSome) h).bind (List.findSome? g) := by
  have skip : ∀ h : List (Event A R), h.filterMap g =
      (latest (fun e => (g e).isSome) h).elim [] fun past => (h.findSome? g).toList ++ past.filterMap g := by
    intro h
    induction h with
    | nil => rfl
    | cons e h ih =>
      cases he : g e with
      | some b =>
        rw [latest_cons_pos (by rw [he]; rfl), List.filterMap_cons_some he, List.findSome?_cons, he]
        rfl
      | none =>
        rw [latest_cons_neg (by rw [he]; exact Bool.noConfusion), List.filterMap_cons_none he,
          List.findSome?_cons, he]
        exact ih
  induction n generalizing h with
  | zero => exact (List.head?_eq_getElem? ..).symm.trans (List.head?_filterMap ..)
  | succ n ih =>
    rw [skip, List.replicate_succ, back]
    cases hl : latest (fun e => (g e).isSome) h with
    | none => rfl
    | some past =>
      obtain ⟨e, b, -, -, hb⟩ := latest_findSome? hl
      rw [hb]
      exact ih past

end Interleave
