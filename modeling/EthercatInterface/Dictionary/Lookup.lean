import EthercatInterface.Dictionary.Spec

/-!
# Lookups stay inside the object

`lookups_consistent`: whatever has been constructed, copied, moved, assigned and
destroyed, the lookups of a live object find the first of **its own** entries, in
**its own** storage.

* `Storage.Tidy`, `Owned`: every live object that has a buffer owns it alone.
* `ObjectDictionary.Indexed`: the maps hold the positions of the first entries.
-/

namespace EthercatInterface

open Interleave

namespace Dictionaries

/-! ## The property -/

/-- `p` is the first element of the object's storage that has `q`, and no other object owns
that storage. -/
structure FirstOf (s : Dictionaries) (o : ObjectId) (d : ObjectDictionary) (q : SDOEntry → Prop)
    (p : EntryPtr) : Prop where
  own : d.sdoEntries = some p.buffer
  found : ∃ e, s.storage.deref p = some e ∧ q e
  first : ∀ k < p.position, ∀ e, s.storage.deref ⟨p.buffer, k⟩ = some e → ¬q e
  apart : ∀ o' d', s.objects o' = some d' → d'.sdoEntries = some p.buffer → o' = o

/-- `has` and `at`, for the entries with key `k`. -/
def Finds (s : Dictionaries) (o : ObjectId) (d : ObjectDictionary) (q : SDOEntry → Prop) (has : Bool)
    (at' : Except OutOfRange EntryPtr) : Prop :=
  (has = true ↔ ∃ e ∈ s.entries d, q e) ∧ match at' with
    | .ok p => s.FirstOf o d q p
    | .error _ => ¬∃ e ∈ s.entries d, q e

/-- The lookups of an object are about its own entries. -/
structure Consistent (s : Dictionaries) (o : ObjectId) (d : ObjectDictionary) : Prop where
  index : ∀ i, s.Finds o d (fun e => e.index = i) (d.hasIndex i) (d.atIndex i)
  name : ∀ n, s.Finds o d (fun e => e.name = n) (d.hasName n) (d.atName n)

/-! ## The invariant -/

end Dictionaries

/-- The map of an object for the keys `key` holds the first entries of its storage. -/
def ObjectDictionary.Indexes {κ : Type} [DecidableEq κ] (d : ObjectDictionary) (m : Storage)
    (key : SDOEntry → κ) (t : Table κ EntryPtr) : Prop :=
  ∀ k, t.value? k = ((m.elements d.sdoEntries).findIdx? fun e => key e = k).map d.address

/-- Both maps do. -/
structure ObjectDictionary.Indexed (d : ObjectDictionary) (m : Storage) : Prop where
  index : d.Indexes m SDOEntry.index d.sdoEntriesByIndex
  name : d.Indexes m SDOEntry.name d.sdoEntriesByName

theorem ObjectDictionary.rebuildLookup_indexed (d : ObjectDictionary) (m : Storage) :
    (d.rebuildLookup m).Indexed m :=
  ⟨fun k => Table.value?_index _ _ _ k, fun k => Table.value?_index _ _ _ k⟩

/-- Only the object's own buffer matters. -/
theorem ObjectDictionary.Indexed.congr {d : ObjectDictionary} {m m' : Storage} (hd : d.Indexed m)
    (hm : ∀ b, d.sdoEntries = some b → m'.buffers b = m.buffers b) : d.Indexed m' := by
  have he : m'.elements d.sdoEntries = m.elements d.sdoEntries := by
    unfold Storage.elements
    cases hv : d.sdoEntries with
    | none => rfl
    | some b => simp only [Option.bind_some, hm b hv]
  exact ⟨fun k => by rw [he]; exact hd.index k, fun k => by rw [he]; exact hd.name k⟩

namespace Dictionaries

/-- Live objects own the buffers they use, and their maps are about these. -/
structure Valid (s : Dictionaries) : Prop where
  fresh : ∀ b : ℕ, s.storage.next ≤ b → s.storage.buffers b = none
  alive : ∀ o d b, s.objects o = some d → d.sdoEntries = some b → (s.storage.buffers b).isSome
  apart : ∀ o o' d d' b, s.objects o = some d → s.objects o' = some d' →
    d.sdoEntries = some b → d'.sdoEntries = some b → o = o'
  indexed : ∀ o d, s.objects o = some d → d.Indexed s.storage

theorem valid_start : Valid {} where
  fresh _ _ := rfl
  alive _ _ _ h := by cases h
  apart _ _ _ _ _ h := by cases h
  indexed _ _ h := by cases h

/-! ## One lookup -/

variable {s : Dictionaries} {o : ObjectId} {d : ObjectDictionary}

theorem Valid.firstOf (hs : Valid s) (ho : s.objects o = some d) {q : SDOEntry → Prop}
    [DecidablePred q] {i : ℕ} (hi : (s.entries d).findIdx? (fun e => q e) = some i) :
    s.FirstOf o d q (d.address i) := by
  obtain ⟨hlt, hq, hbefore⟩ := List.findIdx?_eq_some_iff_getElem.1 hi
  cases hv : d.sdoEntries with
  | none =>
    rw [entries, Storage.elements, hv] at hlt
    cases hlt
  | some b =>
    obtain ⟨l, hl⟩ := Option.isSome_iff_exists.1 (hs.alive o d b ho hv)
    have he : s.entries d = l := by simp [entries, Storage.elements, hv, hl]
    simp only [he] at hlt hq hbefore
    have hat : d.address i = ⟨b, i⟩ := by rw [ObjectDictionary.address, hv]; rfl
    have hderef : ∀ k, s.storage.deref ⟨b, k⟩ = l[k]? := fun k => by simp [Storage.deref, hl]
    rw [hat]
    exact {
      own := hv
      found := ⟨l[i], by rw [hderef, List.getElem?_eq_getElem hlt], of_decide_eq_true hq⟩
      first := fun k (hk : k < i) e he => by
        rw [hderef, List.getElem?_eq_getElem (by omega)] at he
        rw [← Option.some.inj he]
        simpa using hbefore k hk
      apart := fun o' d' ho' hv' => hs.apart o' o d' d b ho' ho hv' hv }

theorem Valid.finds (hs : Valid s) (ho : s.objects o = some d) {κ : Type} [DecidableEq κ]
    {key : SDOEntry → κ} {t : Table κ EntryPtr} (ht : d.Indexes s.storage key t) (k : κ) :
    s.Finds o d (fun e => key e = k) (t.value? k).isSome
      (match t.value? k with
        | some p => .ok p
        | none => .error .outOfRange) := by
  have hany : ((s.entries d).findIdx? fun e => key e = k).isSome = true ↔
      ∃ e ∈ s.entries d, key e = k := by
    rw [List.findIdx?_isSome, List.any_eq_true]
    simp only [decide_eq_true_eq]
  rw [ht k, show s.storage.elements d.sdoEntries = s.entries d from rfl]
  refine ⟨by rw [Option.isSome_map]; exact hany, ?_⟩
  cases hi : (s.entries d).findIdx? fun e => key e = k with
  | none =>
    rw [← hany, hi]
    exact Bool.false_ne_true
  | some i => exact hs.firstOf ho hi

theorem Valid.consistent (hs : Valid s) (ho : s.objects o = some d) : s.Consistent o d :=
  ⟨hs.finds ho (hs.indexed o d ho).index, hs.finds ho (hs.indexed o d ho).name⟩

/-! ## One call -/

/-- Replacing one object, without touching the buffers of the others. -/
theorem Valid.put (hs : Valid s) {x : Option ObjectDictionary} {m : Storage}
    (hfresh : ∀ b : ℕ, m.next ≤ b → m.buffers b = none)
    (hkeep : ∀ o' d' b, o' ≠ o → s.objects o' = some d' → d'.sdoEntries = some b →
      m.buffers b = s.storage.buffers b)
    (hx : ∀ d, x = some d → d.Indexed m ∧ ∀ b, d.sdoEntries = some b → (m.buffers b).isSome ∧
      ∀ o' d', o' ≠ o → s.objects o' = some d' → d'.sdoEntries ≠ some b) :
    Valid (s.put o x m) := by
  -- an object is the one replaced, or as it was
  have look : ∀ {o' d'}, (s.put o x m).objects o' = some d' →
      (o' = o ∧ x = some d') ∨ (o' ≠ o ∧ s.objects o' = some d') := by
    intro o' d' h
    by_cases ho : o' = o
    · subst ho
      simp only [Dictionaries.put, Function.update_self] at h
      exact .inl ⟨rfl, h⟩
    · simp only [Dictionaries.put, Function.update_of_ne ho] at h
      exact .inr ⟨ho, h⟩
  refine ⟨hfresh, fun o' d' b h hb => ?_, fun o₁ o₂ d₁ d₂ b h₁ h₂ hb₁ hb₂ => ?_, fun o' d' h => ?_⟩
  · rcases look h with ⟨-, h⟩ | ⟨hne, h⟩
    · exact ((hx d' h).2 b hb).1
    · change (m.buffers b).isSome
      rw [hkeep o' d' b hne h hb]
      exact hs.alive o' d' b h hb
  · rcases look h₁ with ⟨ho₁, h₁⟩ | ⟨hne₁, h₁⟩
    · rcases look h₂ with ⟨ho₂, -⟩ | ⟨hne₂, h₂⟩
      · rw [ho₁, ho₂]
      · exact absurd hb₂ (((hx d₁ h₁).2 b hb₁).2 o₂ d₂ hne₂ h₂)
    · rcases look h₂ with ⟨-, h₂⟩ | ⟨-, h₂⟩
      · exact absurd hb₁ (((hx d₂ h₂).2 b hb₂).2 o₁ d₁ hne₁ h₁)
      · exact hs.apart o₁ o₂ d₁ d₂ b h₁ h₂ hb₁ hb₂
  · rcases look h with ⟨-, h⟩ | ⟨hne, h⟩
    · exact (hx d' h).1
    · exact (hs.indexed o' d' h).congr fun b hb => hkeep o' d' b hne h hb

/-- What is written to a buffer that the other objects do not use. -/
theorem Valid.keep_update (hs : Valid s) (ho : s.objects o = some d) {b : BufferId}
    (hb : d.sdoEntries = some b) (l : Option (List SDOEntry)) {o' : ObjectId} {d' : ObjectDictionary}
    {b' : BufferId} (hne : o' ≠ o) (ho' : s.objects o' = some d') (hb' : d'.sdoEntries = some b') :
    Function.update s.storage.buffers b l b' = s.storage.buffers b' := by
  refine Function.update_of_ne (fun h => hne ?_) _ _
  subst h
  exact hs.apart o' o d' d b' ho' ho hb' hb

theorem Valid.buffer_lt (hs : Valid s) (ho : s.objects o = some d) {b : ℕ}
    (hb : d.sdoEntries = some b) : b < s.storage.next := by
  by_contra h
  have := hs.alive o d b ho hb
  rw [hs.fresh b (by omega)] at this
  cases this

/-- The end of an object. -/
theorem Valid.destroy (hs : Valid s) (ho : s.objects o = some d) :
    Valid (s.put o none (s.storage.free d.sdoEntries)) := by
  cases hb : d.sdoEntries with
  | none => exact hs.put hs.fresh (fun _ _ _ _ _ _ => rfl) fun _ h => by cases h
  | some b =>
    refine hs.put (fun b' hb' => ?_) (fun o' d' b' hne ho' hb' => hs.keep_update ho hb none hne ho' hb')
      fun _ h => by cases h
    change Function.update s.storage.buffers b none b' = none
    rw [Function.update_apply]
    split
    · rfl
    · exact hs.fresh b' hb'

/-- An object with a vector of its own. -/
theorem Valid.allocate (hs : Valid s) (l : List SDOEntry) (d : ObjectDictionary) :
    Valid (s.put o (some ({ d with sdoEntries := (s.storage.allocate l).1 }.rebuildLookup
      (s.storage.allocate l).2)) (s.storage.allocate l).2) := by
  unfold Storage.allocate
  split
  · refine hs.put hs.fresh (fun _ _ _ _ _ _ => rfl) fun d' h => ?_
    cases h
    exact ⟨ObjectDictionary.rebuildLookup_indexed _ _, fun b hb => by cases hb⟩
  · refine hs.put (fun b hb => ?_) (fun o' d' b hne ho' hb' => ?_) fun d' h => ?_
    · have hlt : s.storage.next < b := hb
      exact (Function.update_of_ne (Nat.ne_of_gt hlt) _ _).trans (hs.fresh b (by omega))
    · exact Function.update_of_ne (Nat.ne_of_lt (hs.buffer_lt ho' hb')) _ _
    · cases h
      refine ⟨ObjectDictionary.rebuildLookup_indexed _ _, fun b hb => ?_⟩
      obtain rfl : s.storage.next = b := Option.some.inj hb
      refine ⟨by simp, fun o' d' _ ho' hb' => ?_⟩
      exact Nat.lt_irrefl _ (hs.buffer_lt ho' hb')

/-- Copy assignment, into the old buffer or a new one. -/
theorem Valid.copyAssign (hs : Valid s) (ho : s.objects o = some d) (other : ObjectDictionary)
    (reuse : Bool) : Valid (s.copyAssign o d other reuse) := by
  -- into a new buffer it is destruction and construction
  have fresh : Valid (s.put o (some ({ d with sdoEntries :=
      ((s.storage.free d.sdoEntries).allocate (s.entries other)).1 }.rebuildLookup
        ((s.storage.free d.sdoEntries).allocate (s.entries other)).2))
      ((s.storage.free d.sdoEntries).allocate (s.entries other)).2) := by
    have := (hs.destroy ho).allocate (o := o) (s.entries other) d
    simpa [Dictionaries.put] using this
  unfold Dictionaries.copyAssign Storage.assign
  cases hb : d.sdoEntries with
  | none => rw [hb] at fresh; cases reuse <;> exact fresh
  | some b =>
    cases reuse with
    | false => rw [hb] at fresh; exact fresh
    | true =>
      -- into the old one, which no other object uses
      refine hs.put (fun b' hb' => ?_) (fun o' d' b' hne ho' hb' => hs.keep_update ho hb _ hne ho' hb')
        fun d' h => ?_
      · have hlt : b < b' := Nat.lt_of_lt_of_le (hs.buffer_lt ho hb) hb'
        exact (Function.update_of_ne (Nat.ne_of_gt hlt) _ _).trans (hs.fresh b' hb')
      · cases h
        refine ⟨ObjectDictionary.rebuildLookup_indexed _ _, fun b' hb' => ?_⟩
        obtain rfl : b = b' := Option.some.inj hb'
        refine ⟨by simp, fun o' d' hne ho' hb' => ?_⟩
        exact hne (hs.apart o' o d' d b ho' ho hb' hb)

/-- What an object had goes to another one, which has nothing. -/
theorem Valid.transfer (hs : Valid s) {src : ObjectId} {other : ObjectDictionary} (hne : o ≠ src)
    (hsrc : s.objects src = some other) : Valid (s.moveConstruct o src other) := by
  have hmoved : Valid (s.put src (some {}) s.storage) := by
    refine hs.put hs.fresh (fun _ _ _ _ _ _ => rfl) fun d' h => ?_
    cases h
    exact ⟨⟨fun k => rfl, fun k => rfl⟩, fun b hb => by cases hb⟩
  have hcomm : s.moveConstruct o src other = (s.put src (some {}) s.storage).put o (some other) s.storage := by
    simp only [moveConstruct, Dictionaries.put, Function.update_comm hne]
  rw [hcomm]
  refine hmoved.put hs.fresh (fun _ _ _ _ _ _ => rfl) fun d' h => ?_
  cases h
  refine ⟨hs.indexed src other hsrc, fun b hb => ⟨hs.alive src other b hsrc hb, fun o' d' ho' h hb' => ?_⟩⟩
  by_cases hos : o' = src
  · subst hos
    simp only [Dictionaries.put, Function.update_self] at h
    cases h
    cases hb'
  · simp only [Dictionaries.put, Function.update_of_ne hos] at h
    exact hos (hs.apart o' src d' other b h hsrc hb' hb)

/-- Move assignment is the end of the target and a transfer. -/
theorem Valid.moveAssign (hs : Valid s) {src : ObjectId} {other : ObjectDictionary} (hne : o ≠ src)
    (ho : s.objects o = some d) (hsrc : s.objects src = some other) :
    Valid (s.moveAssign o src d other) := by
  have hother : (s.put o none (s.storage.free d.sdoEntries)).objects src = some other :=
    (Function.update_of_ne hne.symm _ _).trans hsrc
  have := (hs.destroy ho).transfer hne hother
  simpa [Dictionaries.moveAssign, Dictionaries.moveConstruct, Dictionaries.put] using this

/-- **One call** of any special member function. -/
theorem Valid.call (hs : Valid s) {s' : Dictionaries} {f : Member} (hf : s.call f = some s') :
    Valid s' := by
  cases f with
  | construct o =>
    simp only [Dictionaries.call, Option.bind_eq_bind, Option.bind_eq_some_iff] at hf
    obtain ⟨-, -, hf⟩ := hf
    cases hf
    refine hs.put hs.fresh (fun _ _ _ _ _ _ => rfl) fun d' h => ?_
    cases h
    exact ⟨⟨fun k => rfl, fun k => rfl⟩, fun b hb => by cases hb⟩
  | constructFrom o entries =>
    simp only [Dictionaries.call, Option.bind_eq_bind, Option.bind_eq_some_iff] at hf
    obtain ⟨-, -, hf⟩ := hf
    cases hf
    exact hs.allocate entries {}
  | copyConstruct o src =>
    simp only [Dictionaries.call, Option.bind_eq_bind, Option.bind_eq_some_iff] at hf
    obtain ⟨-, -, other, -, hf⟩ := hf
    cases hf
    exact hs.allocate (s.entries other) {}
  | moveConstruct o src =>
    simp only [Dictionaries.call, Option.bind_eq_bind, Option.bind_eq_some_iff] at hf
    obtain ⟨_, ho, other, hsrc, hf⟩ := hf
    cases hf
    -- an object that is being constructed is not the one moved from
    refine hs.transfer (fun h => ?_) hsrc
    rw [h, hsrc] at ho
    cases ho
  | copyAssign o src reuse =>
    simp only [Dictionaries.call, Option.bind_eq_bind, Option.bind_eq_some_iff] at hf
    obtain ⟨d, ho, other, -, hf⟩ := hf
    -- self-assignment changes nothing
    split at hf <;> cases hf
    · exact hs.copyAssign ho other reuse
    · exact hs
  | moveAssign o src =>
    simp only [Dictionaries.call, Option.bind_eq_bind, Option.bind_eq_some_iff] at hf
    obtain ⟨d, ho, other, hsrc, hf⟩ := hf
    split at hf
    · next hne => cases hf; exact hs.moveAssign hne ho hsrc
    · cases hf; exact hs
  | destroy o =>
    simp only [Dictionaries.call, Option.bind_eq_bind, Option.bind_eq_some_iff] at hf
    obtain ⟨d, ho, hf⟩ := hf
    cases hf
    exact hs.destroy ho

/-- **Whatever has been called**, the lookups of every live object are about its own entries. -/
theorem lookups_consistent (hs : Reachable s) (ho : s.objects o = some d) : s.Consistent o d := by
  suffices h : Valid s from h.consistent ho
  clear ho
  induction hs with
  | start => exact valid_start
  | call f _ hf ih => exact ih.call hf

/-- Copy a dictionary whose entries share an index, destroy the original, move the copy. -/
def copyAndMove : Option Dictionaries := do
  let s ← Dictionaries.call {} (.constructFrom 0 [{ index := 5, name := "a" }, { index := 5, name := "b" }])
  let s ← s.call (.copyConstruct 1 0)
  let s ← s.call (.destroy 0)
  s.call (.moveConstruct 2 1)

theorem reachable_copyAndMove (h : copyAndMove = some s) : Reachable s := by
  simp only [copyAndMove, Option.bind_eq_bind, Option.bind_eq_some_iff] at h
  obtain ⟨s₁, h₁, s₂, h₂, s₃, h₃, h₄⟩ := h
  exact ((((Reachable.start.call _ h₁).call _ h₂).call _ h₃).call _ h₄)

/-- The moved copy finds the entry `a` under the index, in its own buffer. -/
theorem lookups_consistent_moved : ∃ s d, copyAndMove = some s ∧ s.objects 2 = some d ∧
    d.atIndex 5 = .ok ⟨1, 0⟩ ∧ s.Consistent 2 d :=
  ⟨_, _, rfl, rfl, rfl, lookups_consistent (reachable_copyAndMove rfl) rfl⟩

end Dictionaries

end EthercatInterface
