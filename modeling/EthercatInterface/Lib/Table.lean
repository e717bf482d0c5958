import Mathlib.Data.List.Basic
import Mathlib.Tactic.Common

/-!
# Tables that keep the first value

An association list with `emplace`, which leaves the value of a key that is already
there. `value?_index`: a table filled with the positions of the elements of a list finds,
for each key, the **first** element that has it.
-/

namespace Interleave

/-- Values by key. -/
abbrev Table (κ ν : Type) := List (κ × ν)

namespace Table

variable {α κ ν : Type} [DecidableEq κ]

/-- The value of `k`. -/
def value? (t : Table κ ν) (k : κ) : Option ν := (List.find? (fun x => x.1 = k) t).map Prod.snd

/-- Add a value for `k`, unless there is one. -/
def emplace (t : Table κ ν) (k : κ) (v : ν) : Table κ ν :=
  if (t.value? k).isSome then t else t ++ [(k, v)]

/-- The elements of `l` by their keys; `place` says where the element at a position is. -/
def index (key : α → κ) (place : ℕ → ν) (l : List α) : Table κ ν :=
  l.zipIdx.foldl (fun t x => t.emplace (key x.1) (place x.2)) []

theorem value?_emplace (t : Table κ ν) (k : κ) (v : ν) (k' : κ) :
    (t.emplace k v).value? k' = (t.value? k').or (if k = k' then some v else none) := by
  have happend : (t ++ [(k, v)] : Table κ ν).value? k' =
      (t.value? k').or (if k = k' then some v else none) := by
    unfold value?
    rw [List.find?_append]
    by_cases hk : k = k' <;> cases List.find? (fun x => decide (x.1 = k')) t <;> simp [hk]
  unfold emplace
  split
  · next h =>
    by_cases hk : k = k'
    · subst hk
      obtain ⟨v', hv⟩ := Option.isSome_iff_exists.1 h
      rw [hv]
      rfl
    · rw [if_neg hk, Option.or_none]
  · exact happend

theorem value?_fill (key : α → κ) (place : ℕ → ν) (k : κ) : ∀ (l : List α) (n : ℕ) (t : Table κ ν),
    ((l.zipIdx n).foldl (fun t x => t.emplace (key x.1) (place x.2)) t).value? k =
      (t.value? k).or ((l.findIdx? fun x => key x = k).map fun i => place (i + n)) := by
  intro l
  induction l with
  | nil => intro n t; simp
  | cons x l ih =>
    intro n t
    rw [List.zipIdx_cons, List.foldl_cons, ih, value?_emplace, Option.or_assoc, List.findIdx?_cons]
    congr 1
    by_cases hx : key x = k
    · simp [hx]
    · simp [hx, Function.comp_def, Nat.add_assoc, Nat.add_comm 1 n]

/-- **The first element with a key is found.** -/
theorem value?_index (key : α → κ) (place : ℕ → ν) (l : List α) (k : κ) :
    (index key place l).value? k = (l.findIdx? fun x => key x = k).map place := by
  rw [index, value?_fill]
  rfl

end Table

end Interleave
