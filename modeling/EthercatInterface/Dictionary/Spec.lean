import Mathlib.Data.Option.Basic
import Mathlib.Logic.Function.Basic
import EthercatInterface.Lib.Table
import EthercatInterface.Spec.Types

/-!
# `ObjectDictionary`

An object dictionary keeps its entries in a vector and caches pointers into the buffer
of that vector in two maps. Buffers have identities that are never used again, so that
a pointer into a buffer that was freed, or went to another object, can be told from one
into the object's own storage. A vector without elements has no buffer when it is
constructed; one that is moved from has none.
-/

namespace EthercatInterface

open Interleave

abbrev BufferId := ℕ

/-- `const SDOEntry*`: an element of a buffer. -/
structure EntryPtr where
  buffer : BufferId
  position : ℕ
  deriving DecidableEq

/-- The buffers of vectors of entries; those from `next` on have not been allocated yet. -/
structure Storage where
  buffers : BufferId → Option (List SDOEntry) := fun _ => none
  next : ℕ := 0

namespace Storage

/-- The elements of a vector with buffer `v`. -/
def elements (m : Storage) (v : Option BufferId) : List SDOEntry := (v.bind m.buffers).getD []

def deref (m : Storage) (p : EntryPtr) : Option SDOEntry := do
  let l ← m.buffers p.buffer
  l[p.position]?

/-- A new vector with the elements `l`. -/
def allocate (m : Storage) (l : List SDOEntry) : Option BufferId × Storage :=
  if l = [] then (none, m)
  else (some m.next, ⟨Function.update m.buffers m.next (some l), m.next + 1⟩)

/-- The end of a vector. -/
def free (m : Storage) : Option BufferId → Storage
  | some b => { m with buffers := Function.update m.buffers b none }
  | none => m

/-- The assignment of the elements `l` to a vector: into its buffer, if the implementation
finds that it is large enough (`reuse`), or into a new one. -/
def assign (m : Storage) (v : Option BufferId) (l : List SDOEntry) (reuse : Bool) :
    Option BufferId × Storage :=
  match v, reuse with
  | some b, true => (some b, { m with buffers := Function.update m.buffers b (some l) })
  | v, _ => (m.free v).allocate l

end Storage

/-- `ObjectDictionary`. -/
structure ObjectDictionary where
  sdoEntries : Option BufferId := none
  sdoEntriesByIndex : Table ℕ EntryPtr := []
  sdoEntriesByName : Table String EntryPtr := []

/-- `std::out_of_range`. -/
inductive OutOfRange
  | outOfRange
  deriving DecidableEq

namespace ObjectDictionary

/-- `&sdo_entries_[i]`. -/
def address (d : ObjectDictionary) (i : ℕ) : EntryPtr := ⟨d.sdoEntries.getD 0, i⟩

/-- `rebuild_lookup`. -/
def rebuildLookup (d : ObjectDictionary) (m : Storage) : ObjectDictionary where
  sdoEntries := d.sdoEntries
  sdoEntriesByIndex := Table.index SDOEntry.index d.address (m.elements d.sdoEntries)
  sdoEntriesByName := Table.index SDOEntry.name d.address (m.elements d.sdoEntries)

/-- `has_index`. -/
def hasIndex (d : ObjectDictionary) (i : ℕ) : Bool := (d.sdoEntriesByIndex.value? i).isSome

/-- `has_name`. -/
def hasName (d : ObjectDictionary) (name : String) : Bool := (d.sdoEntriesByName.value? name).isSome

/-- `at(index)`. -/
def atIndex (d : ObjectDictionary) (i : ℕ) : Except OutOfRange EntryPtr :=
  match d.sdoEntriesByIndex.value? i with
  | some p => .ok p
  | none => .error .outOfRange

/-- `at(name)`. -/
def atName (d : ObjectDictionary) (name : String) : Except OutOfRange EntryPtr :=
  match d.sdoEntriesByName.value? name with
  | some p => .ok p
  | none => .error .outOfRange

end ObjectDictionary

/-! ## Objects -/

abbrev ObjectId := ℕ

/-- The live objects and the storage they use. -/
structure Dictionaries where
  objects : ObjectId → Option ObjectDictionary := fun _ => none
  storage : Storage := {}

/-- The special member functions, called for the object `o`. -/
inductive Member
  | construct (o : ObjectId)
  | constructFrom (o : ObjectId) (entries : List SDOEntry)
  | copyConstruct (o other : ObjectId)
  | moveConstruct (o other : ObjectId)
  | copyAssign (o other : ObjectId) (reuse : Bool)
  | moveAssign (o other : ObjectId)
  | destroy (o : ObjectId)

namespace Dictionaries

def put (s : Dictionaries) (o : ObjectId) (d : Option ObjectDictionary) (m : Storage) : Dictionaries :=
  ⟨Function.update s.objects o d, m⟩

/-- The entries of the object `d`. -/
def entries (s : Dictionaries) (d : ObjectDictionary) : List SDOEntry := s.storage.elements d.sdoEntries

/-- `ObjectDictionary(entries)`. -/
def constructFrom (s : Dictionaries) (o : ObjectId) (entries : List SDOEntry) : Dictionaries :=
  let (v, m) := s.storage.allocate entries
  s.put o (some (ObjectDictionary.rebuildLookup { sdoEntries := v } m)) m

/-- `ObjectDictionary(const ObjectDictionary&)`. -/
def copyConstruct (s : Dictionaries) (o : ObjectId) (other : ObjectDictionary) : Dictionaries :=
  let (v, m) := s.storage.allocate (s.entries other)
  s.put o (some (ObjectDictionary.rebuildLookup { sdoEntries := v } m)) m

/-- `ObjectDictionary(ObjectDictionary&&)`: what `other` had goes to `o`. -/
def moveConstruct (s : Dictionaries) (o src : ObjectId) (other : ObjectDictionary) : Dictionaries :=
  (s.put o (some other) s.storage).put src (some {}) s.storage

/-- `operator=(const ObjectDictionary&)`. -/
def copyAssign (s : Dictionaries) (o : ObjectId) (d other : ObjectDictionary) (reuse : Bool) :
    Dictionaries :=
  let (v, m) := s.storage.assign d.sdoEntries (s.entries other) reuse
  s.put o (some ({ d with sdoEntries := v }.rebuildLookup m)) m

/-- `operator=(ObjectDictionary&&)`: the buffer of `o` is freed first. -/
def moveAssign (s : Dictionaries) (o src : ObjectId) (d other : ObjectDictionary) : Dictionaries :=
  let m := s.storage.free d.sdoEntries
  (s.put o (some other) m).put src (some {}) m

/-- A call of a special member function; `none` if it cannot be called. An assignment of an
object to itself does nothing. -/
def call (s : Dictionaries) : Member → Option Dictionaries
  | .construct o => do
    guard (s.objects o).isNone
    pure (s.put o (some {}) s.storage)
  | .constructFrom o entries => do
    guard (s.objects o).isNone
    pure (s.constructFrom o entries)
  | .copyConstruct o src => do
    guard (s.objects o).isNone
    let other ← s.objects src
    pure (s.copyConstruct o other)
  | .moveConstruct o src => do
    guard (s.objects o).isNone
    let other ← s.objects src
    pure (s.moveConstruct o src other)
  | .copyAssign o src reuse => do
    let d ← s.objects o
    let other ← s.objects src
    if o ≠ src then pure (s.copyAssign o d other reuse) else pure s
  | .moveAssign o src => do
    let d ← s.objects o
    let other ← s.objects src
    if o ≠ src then pure (s.moveAssign o src d other) else pure s
  | .destroy o => do
    let d ← s.objects o
    pure (s.put o none (s.storage.free d.sdoEntries))

/-- Reachable by any sequence of calls. -/
inductive Reachable : Dictionaries → Prop
  | start : Reachable {}
  | call {s s' : Dictionaries} (f : Member) : Reachable s → s.call f = some s' → Reachable s'

end Dictionaries

end EthercatInterface
