import Mathlib.Data.List.GetD
import Mathlib.Tactic.Common

/-!
# Flat byte memory

Reading and writing regions of a memory of bytes, as `memcpy` does. `read_write` and
`read_write_apart` are all that users of a region need: a region reads back what
was written to it, and does not see writes outside it.
-/

namespace Interleave

/-- Bytes by address. -/
abbrev Memory := ℕ → UInt8

/-- The region of `n` bytes from `off` shares no byte with the one of `n'` bytes from `off'`. -/
def Apart (off n off' n' : ℕ) : Prop := n = 0 ∨ n' = 0 ∨ off + n ≤ off' ∨ off' + n' ≤ off

theorem Apart.symm {off n off' n' : ℕ} (h : Apart off n off' n') : Apart off' n' off n := by
  unfold Apart at *
  omega

namespace Memory

/-- The `n` bytes from `off`. -/
def read (m : Memory) (off n : ℕ) : List UInt8 := (List.range n).map fun k => m (off + k)

/-- `m` with the bytes `bs` from `off`. -/
def write (m : Memory) (off : ℕ) (bs : List UInt8) : Memory :=
  fun k => if off ≤ k ∧ k < off + bs.length then bs.getD (k - off) 0 else m k

@[simp] theorem length_read (m : Memory) (off n : ℕ) : (m.read off n).length = n := by
  simp [read]

/-- A region reads back what was written to it. -/
theorem read_write (m : Memory) (off : ℕ) (bs : List UInt8) :
    (m.write off bs).read off bs.length = bs := by
  apply List.ext_getElem
  · simp
  · intro k hk hk'
    have hb : off ≤ off + k ∧ off + k < off + bs.length := by omega
    simp only [read, List.getElem_map, List.getElem_range, write, if_pos hb]
    rw [Nat.add_sub_cancel_left, List.getD_eq_getElem _ _ hk']

/-- A region does not see writes outside it. -/
theorem read_write_apart (m : Memory) {off n off' : ℕ} {bs : List UInt8}
    (hd : Apart off n off' bs.length) : (m.write off' bs).read off n = m.read off n := by
  apply List.ext_getElem
  · simp
  · intro k hk hk'
    rw [length_read] at hk'
    have hb : ¬(off' ≤ off + k ∧ off + k < off' + bs.length) := by
      rcases hd with h | h | h | h <;> omega
    simp only [read, List.getElem_map, List.getElem_range, write, if_neg hb]

/-! ## Writing many regions -/

section Scatter

variable {ι : Type} (off : ι → ℕ) (data : ι → Option (List UInt8))

/-- `m` with the bytes `data j` at `off j`, for each `j` of `l` that has any. -/
def scatter (m : Memory) (l : List ι) : Memory :=
  l.foldl (fun m j => match data j with
    | some bs => m.write (off j) bs
    | none => m) m

theorem scatter_cons (m : Memory) (j : ι) (l : List ι) :
    m.scatter off data (j :: l) = (match data j with
      | some bs => m.write (off j) bs
      | none => m).scatter off data l := rfl

variable {off data}

/-- A region does not see writes to others. -/
theorem read_scatter_apart {o n : ℕ} {l : List ι}
    (h : ∀ j ∈ l, ∀ bs, data j = some bs → Apart o n (off j) bs.length) (m : Memory) :
    (m.scatter off data l).read o n = m.read o n := by
  induction l generalizing m with
  | nil => rfl
  | cons j l ih =>
    rw [scatter_cons, ih fun j hj => h j (List.mem_cons_of_mem _ hj)]
    cases hd : data j with
    | none => rfl
    | some bs => exact read_write_apart m (h j List.mem_cons_self bs hd)

/-- Among regions that are apart, each reads back what was written to it. -/
theorem read_scatter {x : ι} {n : ℕ} {l : List ι} (hx : x ∈ l) (hl : l.Nodup)
    (hn : ∀ bs, data x = some bs → bs.length = n)
    (h : ∀ j ∈ l, j ≠ x → ∀ bs, data j = some bs → Apart (off x) n (off j) bs.length) (m : Memory) :
    (m.scatter off data l).read (off x) n = (data x).getD (m.read (off x) n) := by
  induction l generalizing m with
  | nil => cases hx
  | cons j l ih =>
    obtain ⟨hj, hl⟩ := List.nodup_cons.1 hl
    rw [scatter_cons]
    by_cases hjx : j = x
    · subst hjx
      -- what is written after it is apart from it, so its own write shows
      have hrest : ∀ i ∈ l, ∀ bs, data i = some bs → Apart (off j) n (off i) bs.length :=
        fun i hi => h i (List.mem_cons_of_mem _ hi) fun hij => hj (hij ▸ hi)
      rw [read_scatter_apart hrest]
      cases hd : data j with
      | none => rfl
      | some bs =>
        rw [← hn bs hd]
        exact read_write m (off j) bs
    · rcases List.mem_cons.1 hx with hx | hx
      · exact absurd hx.symm hjx
      -- what is written before it does not touch it
      rw [ih hx hl fun i hi => h i (List.mem_cons_of_mem _ hi)]
      congr 1
      cases hd : data j with
      | none => rfl
      | some bs => exact read_write_apart m (h j List.mem_cons_self hjx bs hd)

end Scatter

end Memory

end Interleave
