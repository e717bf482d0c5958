import EthercatInterface.Lib.Machine
import EthercatInterface.Lib.Rely

/-!
# A component inside a larger one

Programs over the actions `A` are programs over `A ⊕ B` (`Prog.lift`): they act on the first
component of the state and leave the second as it is. `World.left` forgets the second
component, its actions included.

`Secures.lift` carries results on the first component over: what a machine says of a
program (`Leads`) holds of it among other threads, as long as these leave alone what the
machine sees of the first component.
-/

namespace Interleave

variable {A B : Type} {R : A → Type} {S : B → Type} {M ε I J σ τ C α β : Type}

variable (S) in
/-- A program of the first component. -/
def Prog.lift : {α : Type} → Prog A R M ε α → Prog (A ⊕ B) (Sum.elim R S) M ε α
  | _, .pure x => .pure x
  | _, .throw e => .throw e
  | _, .crash => .crash
  | _, .act a k => .act (.inl a) fun r => (k r).lift
  | _, .locked m p k => .locked m p.lift fun b => (k b).lift

/-- Both components, side by side. -/
def Interp.both (e : Interp A R I σ) (f : Interp B S J τ) :
    Interp (A ⊕ B) (Sum.elim R S) (I × J) (σ × τ)
  | .inl a, i, s => ((e a i.1 s.1).1, (e a i.1 s.1).2, s.2)
  | .inr b, i, s => ((f b i.2 s.2).1, s.1, (f b i.2 s.2).2)

def Event.left : Event (A ⊕ B) (Sum.elim R S) → Option (Event A R)
  | ⟨t, .inl a, r⟩ => some ⟨t, a, r⟩
  | ⟨_, .inr _, _⟩ => none

/-- What the world is to the first component. -/
def World.left (w : World (A ⊕ B) (Sum.elim R S) (σ × τ)) : World A R σ :=
  ⟨w.st.1, w.hist.filterMap Event.left⟩

variable (S) in
def Event.lift (e : Event A R) : Event (A ⊕ B) (Sum.elim R S) := ⟨e.tid, .inl e.act, e.ans⟩

variable (S) in
/-- A world of the first component, next to a second one. -/
def World.lift (w : World A R σ) (s : τ) : World (A ⊕ B) (Sum.elim R S) (σ × τ) :=
  ⟨(w.st, s), w.hist.map (Event.lift S)⟩

@[simp] theorem World.lift_left (w : World A R σ) (s : τ) : (w.lift S s).left = w := by
  have h : (Event.left ∘ Event.lift S : Event A R → Option (Event A R)) = some := rfl
  rw [World.lift, World.left, List.filterMap_map, h, List.filterMap_some]

variable {e : Interp A R I σ} {f : Interp B S J τ} {t : ℕ}

theorem Uses.lift {T : A → Prop} {p : Prog A R M ε α} (hp : p.Uses T) :
    (p.lift S).Uses (Sum.elim T fun _ => False) := by
  induction p with
  | pure x => trivial
  | throw e => trivial
  | crash => trivial
  | act a k ih => exact ⟨hp.1, fun r => ih r (hp.2 r)⟩
  | locked m p k ihp ihk => exact ⟨ihp hp.1, fun b => ihk b (hp.2 b)⟩

/-- A run of the first component is one of the larger system. -/
theorem Exec.lift [Inhabited J] {ok : Guard (A ⊕ B) (Sum.elim R S) (I × J) (σ × τ)}
    (hok : ∀ a i w, ok t (.inl a) i w) {p : Prog A R M ε α} {v v' : World A R σ} {o : Outcome ε α}
    (he : Exec e free t p v o v') :
    ∀ w : World (A ⊕ B) (Sum.elim R S) (σ × τ), w.left = v →
      ∃ (l : List (Event A R)) (w' : World (A ⊕ B) (Sum.elim R S) (σ × τ)),
        Exec (e.both f) ok t (p.lift S) w o w' ∧ w'.hist = l.map (Event.lift S) ++ w.hist ∧ w'.left = v' := by
  induction he with
  | pure x v => exact fun w hw => ⟨[], w, .pure x w, rfl, hw⟩
  | throw e v => exact fun w hw => ⟨[], w, .throw e w, rfl, hw⟩
  | crash v => exact fun w hw => ⟨[], w, .crash w, rfl, hw⟩
  | @act _ a k v v' o i _ _ ih =>
    rintro w rfl
    obtain ⟨l, w', he, hist, hleft⟩ := ih (w.after (e.both f) t (.inl a) (i, default)) rfl
    refine ⟨l ++ [⟨t, a, (e a i w.st.1).1⟩], w', .act (i, default) (hok _ _ _) he, ?_, hleft⟩
    rw [hist, List.map_append, List.append_assoc]
    rfl
  | lockedRet _ _ ihp ihk =>
    intro w hw
    obtain ⟨l₁, w₁, he₁, hist₁, hleft₁⟩ := ihp w hw
    obtain ⟨l₂, w₂, he₂, hist₂, hleft₂⟩ := ihk w₁ hleft₁
    refine ⟨l₂ ++ l₁, w₂, .lockedRet he₁ he₂, ?_, hleft₂⟩
    rw [hist₂, hist₁, List.map_append, List.append_assoc]
  | lockedExn _ ih =>
    intro w hw
    obtain ⟨l, w', he, hist⟩ := ih w hw
    exact ⟨l, w', .lockedExn he, hist⟩
  | lockedCrash _ ih =>
    intro w hw
    obtain ⟨l, w', he, hist⟩ := ih w hw
    exact ⟨l, w', .lockedCrash he, hist⟩

/-- **What a program does to any past** it does in the larger system: `h` is what came before. -/
theorem Obeys.lift {P : A ⊕ B → List (Event (A ⊕ B) (Sum.elim R S)) → Prop} {p : Prog A R M ε α}
    {Q : Outcome ε α → List (Event A R) → Prop} {h : List (Event (A ⊕ B) (Sum.elim R S))}
    {l : List (Event A R)}
    (hp : Obeys (fun a l => P (.inl a) (l.map (Event.lift S) ++ h)) t p Q l) :
    Obeys P t (p.lift S) (fun o h' => ∃ l', h' = l'.map (Event.lift S) ++ h ∧ Q o l')
      (l.map (Event.lift S) ++ h) := by
  induction p generalizing l with
  | pure x => exact ⟨l, rfl, hp⟩
  | throw e => exact ⟨l, rfl, hp⟩
  | crash => exact ⟨l, rfl, hp⟩
  | act a k ih =>
    intro i _
    -- of the answers to all actions, those to the first component's
    obtain ⟨ha, hk⟩ := hp (fun b => i (.inl b)) trivial
    exact ⟨ha, ih _ hk⟩
  | locked m p k ihp ihk =>
    refine wp_locked (wp_mono (ihp hp.of_locked) fun o w ho => ?_)
    obtain ⟨⟨⟩, hist⟩ := w
    obtain ⟨l', rfl, ho⟩ := ho
    cases o with
    | ret b => exact ihk b ho
    | exn e => exact ⟨l', rfl, ho⟩
    | crash => exact ⟨l', rfl, ho⟩

section Secures

variable {ok : Guard (A ⊕ B) (Sum.elim R S) (I × J) (σ × τ)}
  {K : Pact (A ⊕ B) (Sum.elim R S) (σ × τ)} {m : Machine A R C} {abs : World A R σ → C}
  {P : World (A ⊕ B) (Sum.elim R S) (σ × τ) → Prop}

/-- The actions of the first component keep `P` and the pact. -/
def Confined (e : Interp A R I σ) (f : Interp B S J τ)
    (ok : Guard (A ⊕ B) (Sum.elim R S) (I × J) (σ × τ))
    (K : Pact (A ⊕ B) (Sum.elim R S) (σ × τ)) (t : ℕ)
    (P : World (A ⊕ B) (Sum.elim R S) (σ × τ) → Prop) : Prop :=
  ∀ a i w, ok t (.inl a) i w → K.inv w → P w →
    P (w.after (e.both f) t (.inl a) i) ∧ K.Admits t w (w.after (e.both f) t (.inl a) i)

/-- A section: no other thread moves. -/
theorem wp_lift (hs : Simulates e free t m abs) (hc : Confined e f ok K t P) {p : Prog A R M ε α}
    {Q : Outcome ε α → World A R C → Prop} :
    ∀ {w : World (A ⊕ B) (Sum.elim R S) (σ × τ)} {h : List (Event A R)}, K.inv w → P w →
      wp m.interp m.allowed free 0 p Q ⟨abs w.left, h⟩ →
      wp (e.both f) ok free t (p.lift S) (fun o w' => (∃ h', Q o ⟨abs w'.left, h'⟩) ∧ P w' ∧
        K.Admits t w w') w := by
  induction p with
  | pure x => exact fun {w h} hw hP hp => ⟨⟨h, hp⟩, hP, K.guar_refl t w, hw⟩
  | throw e => exact fun {w h} hw hP hp => ⟨⟨h, hp⟩, hP, K.guar_refl t w, hw⟩
  | crash => exact fun {w h} hw hP hp => ⟨⟨h, hp⟩, hP, K.guar_refl t w, hw⟩
  | act a k ih =>
    intro w h hw hP hp i hi
    obtain ⟨hP', hadm⟩ := hc a i w hi hw hP
    obtain ⟨hans, habs⟩ := hs a i.1 w.left trivial
    have hk := (hp (fun b => (e b i.1 w.left.st).1) hans).2
    rw [World.after, Machine.interp, ← habs] at hk
    refine ⟨trivial, wp_mono (ih _ hadm.2 hP' hk) fun o w' hend => ?_⟩
    obtain ⟨ho, hPo, hadm'⟩ := hend
    exact ⟨ho, hPo, K.guar_trans hadm.1 hadm'.1, hadm'.2⟩
  | locked l p k ihp ihk =>
    intro w h hw hP hp
    refine wp_locked (wp_mono (ihp hw hP hp) fun o w₁ hend => ?_)
    obtain ⟨⟨h₁, ho⟩, hP₁, hadm⟩ := hend
    cases o with
    | ret b =>
      refine wp_mono (ihk b hadm.2 hP₁ ho) fun o w' hend => ?_
      obtain ⟨ho, hPo, hadm'⟩ := hend
      exact ⟨ho, hPo, K.guar_trans hadm.1 hadm'.1, hadm'.2⟩
    | exn e => exact ⟨⟨h₁, ho⟩, hP₁, hadm⟩
    | crash => exact ⟨⟨h₁, ho⟩, hP₁, hadm⟩

/-- **What a machine says of a program** holds of it among threads that leave alone what the
machine sees. -/
theorem Secures.lift (hs : Simulates e free t m abs) (hc : Confined e f ok K t P)
    (hP : ∀ w w', K.inv w' → K.rely t w w' → P w → P w' ∧ abs w'.left = abs w.left)
    {p : Prog A R M ε α} {Q : Except ε α → C → Prop}
    {w : World (A ⊕ B) (Sum.elim R S) (σ × τ)} (hp : m.Leads p (abs w.left) Q) (hw : P w) :
    Secures (e.both f) ok K t (p.lift S) (fun o w' => P w' ∧ o.Ends Q (abs w'.left)) w := by
  have key : ∀ {α : Type} (p : Prog A R M ε α) {Q : Except ε α → C → Prop}
      {w : World (A ⊕ B) (Sum.elim R S) (σ × τ)} {h : List (Event A R)}, P w →
      wp m.interp m.allowed free 0 p (fun o v => o.Ends Q v.st) ⟨abs w.left, h⟩ →
      Secures (e.both f) ok K t (p.lift S) (fun o w' => P w' ∧ o.Ends Q (abs w'.left)) w := by
    intro α p Q
    -- at a leaf nothing is left to do, and what the others do keeps what the machine sees
    have stay : ∀ {o : Outcome ε α} {w : World (A ⊕ B) (Sum.elim R S) (σ × τ)}, P w →
        o.Ends Q (abs w.left) → K.Later t (fun w' => P w' ∧ o.Ends Q (abs w'.left)) w := by
      intro o w hw ho w' hw' hr
      obtain ⟨hPw', habs⟩ := hP w w' hw' hr hw
      exact ⟨hPw', habs ▸ ho⟩
    induction p with
    | pure x => exact fun {w h} hw hp => stay (o := .ret x) hw hp
    | throw e => exact fun {w h} hw hp => stay (o := .exn e) hw hp
    | crash => exact fun {w h} hw hp => stay (o := .crash) hw hp
    -- the others move, then the action is taken: `hP` carries over the first, `hc` the second
    | act a k ih =>
      intro w h hw hp w' hw' hr i hi
      obtain ⟨hPw', habs⟩ := hP w w' hw' hr hw
      obtain ⟨hPa, hadm⟩ := hc a i w' hi hw' hPw'
      obtain ⟨hans, hafter⟩ := hs a i.1 w'.left trivial
      rw [← habs] at hp
      have hk := (hp (fun b => (e b i.1 w'.left.st).1) hans).2
      rw [World.after, Machine.interp, ← hafter] at hk
      exact ⟨hadm, ih _ stay hPa hk⟩
    | locked l p k _ ih =>
      intro w h hw hp w' hw' hr
      obtain ⟨hPw', habs⟩ := hP w w' hw' hr hw
      rw [← habs] at hp
      refine wp_mono (wp_lift hs hc hw' hPw' hp) fun o w₁ hend => ?_
      obtain ⟨⟨h₁, ho⟩, hP₁, hadm⟩ := hend
      refine ⟨hadm, ?_⟩
      cases o with
      | ret b => exact ih b stay hP₁ ho
      | exn e => exact stay (o := .exn e) hP₁ ho
      | crash => exact stay (o := .crash) hP₁ ho
  exact key p hw (hp [])

end Secures

end Interleave
