import Mathlib.Data.List.Basic
import EthercatInterface.Lifecycle.Run
import EthercatInterface.Proof.Triples

/-!
# Reading the object dictionary of a device

`read_od_from_device` takes the number of sub-indices that a device has described for a bound
on their slots, and the answer to the last query for that to all of them.

* `ReportedOd`: what a device reports, and `ReportedOd.dictionary`, what is to be returned.
* `readOdFromDevice_returns`: what is returned.
* `dictionary_iff`: the two agree exactly if the device describes, of each object that is no
  `Var`, all sub-indices or none (`ReportedOd.Complete`).
-/

namespace EthercatInterface

open Interleave

/-! ## What a device reports -/

/-- An object of the list of a device, with its description. -/
structure ListedObject where
  index : ℕ
  description : OdDescription

/-- The objects of a device, in order, and how it describes a sub-index of the object with some
index, if it does, when it is asked in the course of a query. -/
structure ReportedOd where
  objects : List ListedObject
  describes : (query index subIndex : ℕ) → Option OeSlot

namespace ListedObject

/-- `Var` objects have no sub-indices. -/
def isVar (o : ListedObject) : Bool := o.description.objectCode = SDOObjectCode.var

/-- The entry of an object, without sub entries. -/
def entry (o : ListedObject) : SDOEntry where
  index := o.index
  objType := o.description.objectCode
  dataType := o.description.dataType
  countSubIndices := o.description.maxSub
  name := o.description.name

/-- The objects, each with the number of the query that is about it. Nothing is asked about a
`Var`. -/
def numbered : ℕ → List ListedObject → List (ℕ × ListedObject)
  | _, [] => []
  | n, o :: os => (n, o) :: numbered (if o.isVar then n else n + 1) os

end ListedObject

def subEntry (s : ℕ) (x : OeSlot) : SDOSubEntry where
  index := s
  name := x.name
  dataType := x.dataType
  size := x.bitLength / 8

/-- The sub-indices up to `m` that are described, in increasing order. -/
def describedSubs (D : ℕ → Option OeSlot) (m : ℕ) : List SDOSubEntry :=
  (List.range (m + 1)).filterMap fun s => (D s).map (subEntry s)

namespace ReportedOd

/-- The entry of an object with the sub-indices that the device describes. -/
def entry (d : ReportedOd) (n : ℕ) (o : ListedObject) : SDOEntry :=
  if o.isVar then o.entry
  else { o.entry with subEntries := describedSubs (d.describes n o.index) o.description.maxSub }

/-- **What a device reports**, entry by entry. -/
def dictionary (d : ReportedOd) : List SDOEntry :=
  (ListedObject.numbered 0 d.objects).map fun x => d.entry x.1 x.2

end ReportedOd

/-! ## SOEM -/

/-- `ecx_readOE` asks for the sub-indices up to `m`. It stores what is described in the slot of the
sub-index and counts it, and the last query decides. -/
def ecxReadOE (m : ℕ) (D : ℕ → Option OeSlot) : Option OeList :=
  if (D m).isSome then some {
    entries := (List.range (m + 1)).countP fun s => (D s).isSome
    slot := fun s => if s ≤ m then (D s).getD {} else {} }
  else none

/-- Begins to read a list. -/
def Act.lists : Act → Bool
  | .ecxReadODlist _ => true
  | _ => false

/-- Asks for the sub-indices of an object. -/
def Act.queries : Act → Bool
  | .ecxReadOE _ _ => true
  | _ => false

/-- The number of objects that have been asked about since the list was read. -/
def queries (h : List Ev) : ℕ := (h.takeWhile fun e => !e.act.lists).countP fun e => e.act.queries

/-- SOEM hands on what the device reports. -/
def soemReports (d : ReportedOd) : Guard Act Ans Env St := fun _ a i w =>
  match a with
  | .ecxReadODlist _ => i.odList = some (d.objects.map ListedObject.index)
  | .ecxReadODdescription _ item => ∀ o ∈ d.objects[item]?, i.odDescription = o.description
  | .ecxReadOE _ item => ∀ o ∈ d.objects[item]?,
    i.oeList = ecxReadOE o.description.maxSub (d.describes (queries w.hist) o.index)
  | _ => True

abbrev reporting (d : ReportedOd) : Setting Act Ans Env St := single (soemReports d) free

theorem queries_cons {a : Act} {t : ℕ} {r : Ans a} {h : List Ev} (ha : a.lists = false) :
    queries (⟨t, a, r⟩ :: h) = queries h + if a.queries then 1 else 0 := by
  unfold queries
  rw [List.takeWhile_cons_of_pos (by simp [ha]), List.countP_cons]

/-! ## What is returned -/

/-- The bound on the sub-indices of an index: that of the first object that has it. -/
def ReportedOd.maxSub (d : ReportedOd) (x : ℕ) : ℕ :=
  ((d.objects.find? fun o => o.index = x).map fun o => o.description.maxSub).getD 0

/-- The entry that is returned for an object. -/
def ReportedOd.readEntry (d : ReportedOd) (n : ℕ) (o : ListedObject) : SDOEntry :=
  if o.isVar then o.entry
  else { o.entry with
    subEntries := ((ecxReadOE (d.maxSub o.index) (d.describes n o.index)).map subEntriesOf).getD [] }

variable {d : ReportedOd} {w : W} {α β : Type}

/-- The lookup finds the first object with the index. -/
theorem findIdx_index {o : ListedObject} (ho : o ∈ d.objects) :
    ∃ item o', (d.objects.map ListedObject.index).findIdx? (· = o.index) = some item ∧
      d.objects[item]? = some o' ∧ o'.index = o.index ∧ o'.description.maxSub = d.maxSub o.index := by
  rw [List.findIdx?_map]
  have hsome : (d.objects.findIdx? ((· = o.index) ∘ ListedObject.index)).isSome = true := by
    rw [List.findIdx?_isSome, List.any_eq_true]
    exact ⟨o, ho, by simp⟩
  obtain ⟨item, hitem⟩ := Option.isSome_iff_exists.1 hsome
  obtain ⟨hlt, hidx, hfirst⟩ := List.findIdx?_eq_some_iff_getElem.1 hitem
  have hfind : d.objects.find? (fun o' => decide (o'.index = o.index)) = some d.objects[item] :=
    List.find?_eq_some_iff_getElem.2 ⟨hidx, item, hlt, rfl, fun j hj => by simpa using hfirst j hj⟩
  refine ⟨item, d.objects[item], hitem, List.getElem?_eq_getElem hlt, by simpa using hidx, ?_⟩
  rw [ReportedOd.maxSub, hfind]
  rfl

theorem returns_stateIn {l : List BusState} {J : W → Prop} (hJ : (reporting d).Keeps J .getBusState)
    (hs : ∀ w, J w → w.st.state ∉ l) :
    (reporting d).Returns J (stateIn l) fun b w => b = false ∧ J w := by
  induction l with
  | nil => exact .pure fun w hw => ⟨rfl, hw⟩
  | cons s l ih =>
    refine .bind (T := fun state w => state ≠ s ∧ J w) (.perform fun i w hi hw => ?_) fun state => ?_
    · exact ⟨trivial, fun h => hs w hw (h ▸ List.mem_cons_self), (hJ i w hi hw).2⟩
    refine .assume (c := state ≠ s) (fun _ hw => hw.1) fun h => ?_
    rw [if_neg h]
    exact (ih fun w hw h => hs w hw (List.mem_cons_of_mem s h)).mono (fun _ hw => hw.2) fun _ _ h => h

/-- `n` objects have been asked about. -/
def Asked (n : ℕ) (w : W) : Prop := queries w.hist = n

/-- The descriptions of the objects. -/
theorem returns_readOdEntries (id : DeviceId) : ∀ (os pre : List ListedObject) (acc : List SDOEntry),
    d.objects = pre ++ os → (reporting d).Returns (Asked 0)
      (Prog.foldEach ((os.map ListedObject.index).zipIdx pre.length) (fun result x => do
        let entry ← readOdEntry id x.1 x.2
        pure (result ++ [entry])) acc)
      fun result w => result = acc ++ os.map ListedObject.entry ∧ Asked 0 w
  | [], _, _, _ => .pure fun _ hw => ⟨by simp, hw⟩
  | o :: os, pre, acc, hd => by
    have ih := returns_readOdEntries id os (pre ++ [o]) (acc ++ [o.entry]) (by simp [hd])
    rw [List.length_append] at ih
    refine .bind (T := fun result w => result = acc ++ [o.entry] ∧ Asked 0 w) (.bind (T := fun entry w =>
      entry = o.entry ∧ Asked 0 w) (.bind (T := fun x w => x = o.description ∧ Asked 0 w)
        (.perform fun i w hi hw => ⟨trivial, ?_, ?_⟩) fun x => .pure fun w hw => ⟨?_, hw.2⟩)
      fun entry => .pure fun w hw => ⟨by rw [hw.1], hw.2⟩) fun result =>
      .assume (c := result = acc ++ [o.entry]) (fun _ hw => hw.1) fun h => ?_
    · exact hi o (by simp [hd])
    · exact (queries_cons rfl).trans hw
    · rw [hw.1]
      rfl
    · subst h
      refine ih.mono (fun _ hw => hw.2) fun r w hw => ⟨?_, hw.2⟩
      rw [hw.1, List.append_assoc]
      rfl

/-- The sub entries of an object. -/
theorem returns_expandEntry {id : DeviceId} {o : ListedObject} (ho : o ∈ d.objects) (n : ℕ) :
    (reporting d).Returns (Asked n) (expandEntry id (d.objects.map ListedObject.index) o.entry)
      fun entry w => entry = d.readEntry n o ∧ Asked (if o.isVar then n else n + 1) w := by
  by_cases hv : o.isVar = true
  · have hvar : o.entry.objType = SDOObjectCode.var := of_decide_eq_true hv
    rw [expandEntry, if_pos hvar, if_pos hv]
    exact .pure fun w hw => ⟨by rw [ReportedOd.readEntry, if_pos hv], hw⟩
  have hvar : o.entry.objType ≠ SDOObjectCode.var := fun h => hv (decide_eq_true h)
  -- the object found under the index may be another one, with the same index
  obtain ⟨item, o', hitem, hget, hidx, hmax⟩ := findIdx_index ho
  have hitem' : (d.objects.map ListedObject.index).findIdx? (fun x => decide (x = o.entry.index)) = some item :=
    hitem
  rw [expandEntry, if_neg hvar, hitem', if_neg hv]
  refine .bind (T := fun l w => l = ecxReadOE (d.maxSub o.index) (d.describes n o.index) ∧ Asked (n + 1) w)
    (.perform fun i w hi hw => ⟨trivial, ?_, ?_⟩) fun l => ?_
  · have h : i.oeList = ecxReadOE o'.description.maxSub (d.describes (queries w.hist) o'.index) :=
      hi o' hget
    rw [hmax, hidx, hw] at h
    exact h
  · exact (queries_cons rfl).trans (congrArg (· + 1) hw)
  refine .assume (c := l = ecxReadOE (d.maxSub o.index) (d.describes n o.index)) (fun _ hw => hw.1) fun hl => ?_
  have hr : d.readEntry n o = { o.entry with subEntries := (l.map subEntriesOf).getD [] } := by
    rw [ReportedOd.readEntry, if_neg hv, hl]
  rw [hr]
  cases l with
  | none => exact .pure fun w hw => ⟨rfl, hw.2⟩
  | some oeList => exact .pure fun w hw => ⟨rfl, hw.2⟩

/-- The list with the sub entries. -/
theorem returns_expandEntries (id : DeviceId) : ∀ (os : List ListedObject) (n : ℕ) (acc : List SDOEntry),
    (∀ o ∈ os, o ∈ d.objects) → (reporting d).Returns (Asked n)
      (Prog.foldEach (os.map ListedObject.entry) (fun expanded obj => do
        let entry ← expandEntry id (d.objects.map ListedObject.index) obj
        pure (expanded ++ [entry])) acc)
      fun expanded _ => expanded = acc ++ (ListedObject.numbered n os).map fun x => d.readEntry x.1 x.2
  | [], _, _, _ => .pure fun _ _ => (List.append_nil _).symm
  | o :: os, n, acc, ho => by
    have ih := returns_expandEntries id os (if o.isVar then n else n + 1) (acc ++ [d.readEntry n o])
      fun o' h => ho o' (List.mem_cons_of_mem o h)
    refine .bind (T := fun expanded w => expanded = acc ++ [d.readEntry n o] ∧
      Asked (if o.isVar then n else n + 1) w) (.bind (returns_expandEntry (ho o List.mem_cons_self) n)
        fun entry => .pure fun w hw => ⟨by rw [hw.1], hw.2⟩) fun expanded =>
      .assume (c := expanded = acc ++ [d.readEntry n o]) (fun _ hw => hw.1) fun h => ?_
    subst h
    refine ih.mono (fun _ hw => hw.2) fun r w hw => ?_
    rw [hw, List.append_assoc]
    rfl

/-- What `read_od_from_device` returns. -/
def ReportedOd.read (d : ReportedOd) : List SDOEntry :=
  (ListedObject.numbered 0 d.objects).map fun x => d.readEntry x.1 x.2

/-- A device that can be asked. -/
def Askable (id : DeviceId) (w : W) : Prop :=
  w.st.state ∉ [BusState.preInit, .shutdown] ∧ 0 < id ∧ id ≤ w.st.context.ecatSlavecount

theorem returns_readOdFromDevice (id : DeviceId) :
    (reporting d).Returns (Askable id) (readOdFromDevice id true) fun result _ => result = d.read := by
  refine .bind (returns_stateIn (fun i w _ hw => ⟨trivial, hw⟩) fun w hw => hw.1) fun b =>
    .assume (c := b = false) (fun _ hw => hw.1) fun hb => ?_
  subst hb
  refine .bind (T := fun _ => Askable id) (.pure fun w hw => hw.2) fun _ => .bind (T := fun b w => b = true)
    (.bind (T := fun n w => 0 < id ∧ id ≤ n) (.perform fun i w _ hw => ⟨trivial, hw.2⟩) fun n =>
      .pure fun w hw => by simpa using hw) fun b => .assume (c := b = true) (fun _ hw => hw) fun hb => ?_
  subst hb
  refine .bind (T := fun _ _ => True) (.pure fun _ _ => trivial) fun _ => .withLock ?_
  refine .bind (T := fun od w => od = some (d.objects.map ListedObject.index) ∧ Asked 0 w)
    (.perform fun i w hi _ => ⟨trivial, hi, rfl⟩) fun od => .assume
      (c := od = some (d.objects.map ListedObject.index)) (fun _ hw => hw.1) fun hod => ?_
  subst hod
  refine .mono ?_ (fun _ hw => hw.2) fun _ _ h => h
  refine .bind (returns_readOdEntries id d.objects [] [] rfl) fun result =>
    .assume (c := result = d.objects.map ListedObject.entry) (fun _ hw => by simpa using hw.1) fun hr => ?_
  subst hr
  refine (returns_expandEntries id d.objects 0 [] fun _ h => h).mono (fun _ hw => hw.2) fun r w hw => ?_
  rw [hw, List.nil_append]
  rfl

/-! ## When it is what the device reports -/

/-- Of the sub-indices up to `m`, exactly those up to the bound `k` of the query are described; or
none, and `k` is not either. -/
def Full (D : ℕ → Option OeSlot) (k m : ℕ) : Prop :=
  if (D k).isSome then k ≤ m ∧ ∀ s ≤ m, (D s).isSome ↔ s ≤ k else ∀ s ≤ m, D s = none

instance (D : ℕ → Option OeSlot) (k m : ℕ) : Decidable (Full D k m) :=
  inferInstanceAs (Decidable (if (D k).isSome then k ≤ m ∧ ∀ s ≤ m, (D s).isSome ↔ s ≤ k else ∀ s ≤ m, D s = none))

/-- **Every object is described in full**, or not at all. -/
def ReportedOd.Complete (d : ReportedOd) : Prop :=
  ∀ x ∈ ListedObject.numbered 0 d.objects, x.2.isVar = false →
    Full (d.describes x.1 x.2.index) (d.maxSub x.2.index) x.2.description.maxSub

instance (d : ReportedOd) : Decidable d.Complete :=
  inferInstanceAs (Decidable (∀ x ∈ ListedObject.numbered 0 d.objects, x.2.isVar = false →
    Full (d.describes x.1 x.2.index) (d.maxSub x.2.index) x.2.description.maxSub))

section Full

variable {D : ℕ → Option OeSlot} {k m : ℕ}

/-- The sub-indices of the sub entries. -/
theorem index_describedSubs : (describedSubs D m).map SDOSubEntry.index =
    (List.range (m + 1)).filter fun s => (D s).isSome := by
  unfold describedSubs
  induction List.range (m + 1) with
  | nil => rfl
  | cons s l ih =>
    cases h : D s with
    | none => simpa [h] using ih
    | some x => simpa [h, subEntry] using ih

theorem index_subEntriesOf (l : OeList) :
    (subEntriesOf l).map SDOSubEntry.index = List.range l.entries := by
  simp [subEntriesOf, Function.comp_def]

/-- A bound that is described is one of the sub-indices counted, so that a gap below it makes the
count too small. -/
theorem full_of_range (hk : (D k).isSome = true)
    (h : List.range ((List.range (k + 1)).countP fun s => (D s).isSome) =
      (List.range (m + 1)).filter fun s => (D s).isSome) : Full D k m := by
  have hc : ((List.range (k + 1)).countP fun s => (D s).isSome) =
      ((List.range k).countP fun s => (D s).isSome) + 1 := by
    rw [List.range_succ, List.countP_append, List.countP_singleton, if_pos hk]
  have hle := List.countP_le_length (p := fun s => (D s).isSome) (l := List.range k)
  rw [List.length_range] at hle
  generalize hn : ((List.range k).countP fun s => (D s).isSome) = n at hc hle
  rw [hc] at h
  -- the count says which of the entries up to `m` are there: the first `n + 1`
  have hmem (s : ℕ) : s ≤ n ↔ s ≤ m ∧ (D s).isSome = true := by
    have hs : s ∈ List.range (n + 1) ↔ s ∈ (List.range (m + 1)).filter fun s => (D s).isSome := by rw [h]
    simpa [Nat.lt_succ_iff] using hs
  have hkm : k ≤ m := by
    -- else all of `0 … n` would be there below `k`, one more than are counted
    by_contra hkm
    have hnk : n + 1 ≤ k := by
      have := (hmem n).1 (Nat.le_refl n)
      omega
    have hall : ((List.range (n + 1)).countP fun s => (D s).isSome) = (List.range (n + 1)).length :=
      List.countP_eq_length.2 fun s hs => ((hmem s).1 (Nat.lt_succ_iff.1 (List.mem_range.1 hs))).2
    have hsub := (List.range_sublist.2 hnk).countP_le (p := fun s => (D s).isSome)
    rw [hall, List.length_range, hn] at hsub
    omega
  have hkn : k ≤ n := (hmem k).2 ⟨hkm, hk⟩
  rw [Full, if_pos hk]
  refine ⟨hkm, fun s hs => ?_⟩
  have hs' := hmem s
  constructor
  · intro hd
    have := hs'.2 ⟨hs, hd⟩
    omega
  · intro hsk
    exact (hs'.1 (by omega)).2

/-- Nothing is described beyond `k`. -/
theorem describedSubs_eq (hkm : k ≤ m) (h : ∀ s ≤ m, (D s).isSome ↔ s ≤ k) :
    describedSubs D m = (List.range (k + 1)).map fun s => subEntry s ((D s).getD {}) := by
  obtain ⟨b, rfl⟩ := Nat.exists_eq_add_of_le hkm
  have hrange : List.range (k + b + 1) = List.range (k + 1) ++ (List.range b).map (k + 1 + ·) := by
    rw [← List.range_add]
    congr 1
    omega
  have htail : ((List.range b).map (k + 1 + ·)).filterMap (fun s => (D s).map (subEntry s)) = [] := by
    rw [List.filterMap_eq_nil_iff]
    intro s hs
    obtain ⟨x, hx, rfl⟩ := List.mem_map.1 hs
    have hx := List.mem_range.1 hx
    have hnone : ¬(D (k + 1 + x)).isSome = true := fun hd => by
      have := (h _ (by omega)).1 hd
      omega
    rw [Option.not_isSome_iff_eq_none.1 hnone]
    rfl
  rw [describedSubs, hrange, List.filterMap_append, htail, List.append_nil]
  refine List.filterMap_eq_map_iff_forall_eq_some.2 fun s hs => ?_
  have hs := Nat.lt_succ_iff.1 (List.mem_range.1 hs)
  obtain ⟨x, hx⟩ := Option.isSome_iff_exists.1 ((h s (by omega)).2 hs)
  rw [hx]
  rfl

theorem full_iff : ((ecxReadOE k D).map subEntriesOf).getD [] = describedSubs D m ↔ Full D k m := by
  unfold ecxReadOE
  split
  · next hk =>
    refine ⟨fun h => full_of_range hk ?_, fun h => ?_⟩
    · have h := congrArg (List.map SDOSubEntry.index) h
      rw [index_describedSubs] at h
      exact (index_subEntriesOf _).symm.trans h
    · rw [Full, if_pos hk] at h
      obtain ⟨hkm, h⟩ := h
      -- nothing is missing up to `k`, so the count is right and the entries are the described ones
      have hall : ((List.range (k + 1)).countP fun s => (D s).isSome) = k + 1 := by
        rw [List.countP_eq_length.2 fun s hs => ?_, List.length_range]
        have hs := Nat.lt_succ_iff.1 (List.mem_range.1 hs)
        exact (h s (by omega)).2 hs
      rw [describedSubs_eq hkm h, hall]
      refine List.map_congr_left fun s hs => ?_
      have hs := Nat.lt_succ_iff.1 (List.mem_range.1 hs)
      simp only [if_pos hs]
      rfl
  · next hk =>
    rw [Full, if_neg hk]
    change [] = describedSubs D m ↔ _
    rw [eq_comm, describedSubs, List.filterMap_eq_nil_iff]
    refine ⟨fun h s hs => ?_, fun h s hs => ?_⟩
    · exact Option.map_eq_none_iff.1 (h s (List.mem_range.2 (by omega)))
    · rw [h s (Nat.lt_succ_iff.1 (List.mem_range.1 hs))]
      rfl

end Full

theorem readEntry_iff (n : ℕ) (o : ListedObject) : d.readEntry n o = d.entry n o ↔
    (o.isVar = false → Full (d.describes n o.index) (d.maxSub o.index) o.description.maxSub) := by
  rw [← full_iff, ReportedOd.readEntry, ReportedOd.entry]
  cases o.isVar <;> simp

/-- What is returned is what the device reports. -/
theorem read_iff : d.read = d.dictionary ↔ d.Complete := by
  rw [ReportedOd.read, ReportedOd.dictionary, List.map_inj_left]
  exact forall₂_congr fun x _ => readEntry_iff x.1 x.2

/-- **The object dictionary is read as the device reports it** exactly if the device describes all
sub-indices of an object or none. -/
theorem dictionary_iff {id : DeviceId} (hs : w.st.state ∉ [BusState.preInit, .shutdown])
    (hid : 0 < id ∧ id ≤ w.st.context.ecatSlavecount) {out : Outcome Exn (List SDOEntry)} {w' : W}
    (he : Exec exec (soemReports d) 0 (readOdFromDevice id true) w out w') :
    out = .ret d.dictionary ↔ d.Complete := by
  obtain ⟨result, rfl, hr⟩ := (returns_readOdFromDevice id).sound he ⟨hs, hid⟩
  rw [hr, ← read_iff]
  exact ⟨fun h => by injection h, fun h => by rw [h]⟩

/-- SOEM can hand on whatever a device reports. -/
theorem soemReports_possible (d : ReportedOd) (a : Act) (w : W) : ∃ i, soemReports d 0 a i w := by
  cases a
  case ecxReadODlist id => exact ⟨{ odList := some (d.objects.map ListedObject.index) }, rfl⟩
  case ecxReadODdescription id item =>
    refine ⟨{ odDescription := (d.objects[item]?.map ListedObject.description).getD {} }, fun o ho => ?_⟩
    rw [Option.mem_def.1 ho]
    rfl
  case ecxReadOE id item =>
    refine ⟨{ oeList := d.objects[item]?.bind fun o =>
      ecxReadOE o.description.maxSub (d.describes (queries w.hist) o.index) }, fun o ho => ?_⟩
    rw [Option.mem_def.1 ho]
    rfl
  all_goals exact ⟨{}, trivial⟩

/-- An object `0x2000` with three sub-indices, of which those in `l` are described. -/
def arrayDescribing (l : List ℕ) : ReportedOd where
  objects := [⟨0x2000, { objectCode := 0x08, maxSub := 2 }⟩]
  describes _ _ s := if s ∈ l then some { name := "sub" ++ toString s } else none

/-- All three are described. -/
theorem dictionary_iff_array : ∃ w', Exec exec (soemReports (arrayDescribing [0, 1, 2])) 0
    (readOdFromDevice 1 true) (world [initializeOne]) (.ret (arrayDescribing [0, 1, 2]).dictionary) w' := by
  obtain ⟨out, w', he⟩ := exec_exists (soemReports_possible (arrayDescribing [0, 1, 2]))
    (readOdFromDevice 1 true) (world [initializeOne])
  have hout := (dictionary_iff (by decide) (by decide) he).2 (by decide)
  exact ⟨w', hout ▸ he⟩

/-- Sub-index 1 is not described. Sub-index 2 is lost then, and 1 is there. -/
theorem dictionary_gap : ¬∀ (d : ReportedOd) (w : W) (id : DeviceId) (out : Outcome Exn (List SDOEntry)) (w' : W),
    w.st.state ∉ [BusState.preInit, .shutdown] → 0 < id ∧ id ≤ w.st.context.ecatSlavecount →
      Exec exec (soemReports d) 0 (readOdFromDevice id true) w out w' → out = .ret d.dictionary := by
  intro h
  obtain ⟨out, w', he⟩ := exec_exists (soemReports_possible (arrayDescribing [0, 2]))
    (readOdFromDevice 1 true) (world [initializeOne])
  have hopen : Askable 1 (world [initializeOne]) := by
    unfold Askable
    decide
  obtain ⟨result, rfl, hr⟩ := (returns_readOdFromDevice 1).sound he hopen
  have hout := h _ _ 1 _ w' hopen.1 hopen.2 he
  injection hout with hout
  rw [hr, read_iff] at hout
  exact absurd hout (by decide)

end EthercatInterface
