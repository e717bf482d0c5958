import EthercatInterface.Lib.Pool

/-!
# A cell in the world outside

What some cell of the world outside contains, as far as the history tells: each event leaves a
value in it, or makes it uncertain, or does not concern it (`note`). A run of any threads, none of
which performs an action that concerns the cell, leaves its contents alone (`Reaches.contents`).
-/

namespace Interleave

variable {A : Type} {R : A → Type} {M ε I σ α β : Type}

section Contents

variable (note : Event A R → Option (Option β))

/-- What the last event that concerns the cell has left in it. -/
def contents : List (Event A R) → Option β
  | [] => none
  | e :: h => (note e).getD (contents h)

/-- The action does not concern the cell, whatever its answer. -/
def Spares (a : A) : Prop := ∀ t r, note ⟨t, a, r⟩ = none

variable {note}

theorem contents_cons {e : Event A R} {x : Option β} (he : note e = some x) (h : List (Event A R)) :
    contents note (e :: h) = x := by
  rw [contents, he, Option.getD_some]

theorem contents_spared {exec : Interp A R I σ} {t : ℕ} {a : A} (ha : Spares note a) (i : I)
    (w : World A R σ) : contents note (w.after exec t a i).hist = contents note w.hist := by
  rw [World.after_hist, contents, ha, Option.getD_none]

/-- **Between two accesses to the cell** any threads may run any calls that spare it. -/
theorem Reaches.contents {exec : Interp A R I σ} {ok : Guard A R I σ}
    {calls : ℕ → Prog A R M ε Unit → Prop} {c c' : Conf A R M ε σ}
    (hcalls : ∀ t p, calls t p → p.Uses (Spares note)) (hc : ∀ t p, c.pool t = some p → p.Uses (Spares note))
    (hr : Reaches exec ok calls c c') :
    Interleave.contents note c'.world.hist = Interleave.contents note c.world.hist := by
  let J : World A R σ → Prop := fun w => Interleave.contents note w.hist = Interleave.contents note c.world.hist
  refine (reaches_inv (P := fun _ a _ => Spares note a) (J := J) (fun t p hp => ?_) ?_ hr ?_ rfl).2
  · exact Honours.uses (fun a ha _ => ha) (hcalls t p hp)
  · intro t a i w _ ha hw
    exact (contents_spared ha i w).trans hw
  · exact fun t p hp => Obeys.uses (J := fun _ => True) (fun a ha _ _ _ => ⟨ha, trivial⟩) (hc t p hp) trivial

end Contents

end Interleave
