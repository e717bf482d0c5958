import Mathlib.Tactic.Common

/-!
# Programs of atomic actions

A program is a tree: it performs one action of the signature `A`, receives an
answer in `R a`, and goes on. A section under mutexes (`locked`) is a program of
its own, so one text has two readings: alone, a section is just its body; among
other threads it is a single step.

`attempt` is `try`: it turns an exception of type `ε` into a value. `crash` is the
end of the process (undefined behaviour, a signal, `std::terminate`), which nothing
catches.
-/

namespace Interleave

/-- Programs over actions `A` with answers `R`, mutexes `M` and exceptions `ε`. -/
inductive Prog (A : Type) (R : A → Type) (M ε : Type) : Type → Type 1
  | pure {α : Type} (x : α) : Prog A R M ε α
  | throw {α : Type} (e : ε) : Prog A R M ε α
  | crash {α : Type} : Prog A R M ε α
  | act {α : Type} (a : A) (k : R a → Prog A R M ε α) : Prog A R M ε α
  | locked {α β : Type} (m : M) (p : Prog A R M ε β) (k : β → Prog A R M ε α) : Prog A R M ε α

namespace Prog

variable {A : Type} {R : A → Type} {M ε α β γ : Type}

def bind : Prog A R M ε α → (α → Prog A R M ε β) → Prog A R M ε β
  | .pure x, f => f x
  | .throw e, _ => .throw e
  | .crash, _ => .crash
  | .act a k, f => .act a fun r => (k r).bind f
  | .locked m p k, f => .locked m p fun b => (k b).bind f

instance : Monad (Prog A R M ε) where
  pure := Prog.pure
  bind := Prog.bind

/-- Perform one action and return its answer. -/
def perform (a : A) : Prog A R M ε (R a) := .act a .pure

/-- Run `p` holding the mutexes `m`; they are released however `p` ends. -/
def withLock (m : M) (p : Prog A R M ε α) : Prog A R M ε α := .locked m p .pure

/-- Go on with `k` after a section that returned, skip it after one that threw. -/
def resume (r : Except ε β) (k : β → Prog A R M ε (Except ε α)) : Prog A R M ε (Except ε α) :=
  match r with
  | .ok b => k b
  | .error e => .pure (.error e)

/-- The end of `p` as a value: what it returned, or what it threw. -/
def attempt : {α : Type} → Prog A R M ε α → Prog A R M ε (Except ε α)
  | _, .pure x => .pure (.ok x)
  | _, .throw e => .pure (.error e)
  | _, .crash => .crash
  | _, .act a k => .act a fun r => (k r).attempt
  | _, .locked m p k => .locked m p.attempt fun r => resume r fun b => (k b).attempt

/-- `try p catch h`. -/
def tryCatch (p : Prog A R M ε α) (h : ε → Prog A R M ε α) : Prog A R M ε α :=
  p.attempt.bind fun
    | .ok x => .pure x
    | .error e => h e

/-- `if c: p`. -/
def when (c : Bool) (p : Prog A R M ε Unit) : Prog A R M ε Unit := if c then p else .pure ()

/-- `if c: throw e`. -/
def raiseIf (c : Bool) (e : ε) : Prog A R M ε Unit := when c (.throw e)

/-- `for x in l: s = f s x`. -/
def foldEach : List β → (γ → β → Prog A R M ε γ) → γ → Prog A R M ε γ
  | [], _, s => .pure s
  | x :: l, f, s => (f s x).bind fun s' => foldEach l f s'

/-- `for x in l: f x`. -/
def forEach (l : List β) (f : β → Prog A R M ε Unit) : Prog A R M ε Unit :=
  foldEach l (fun _ x => f x) ()

/-- Every action of `p`, on every path, is in `S`. -/
def Uses (S : A → Prop) : {α : Type} → Prog A R M ε α → Prop
  | _, .pure _ => True
  | _, .throw _ => True
  | _, .crash => True
  | _, .act a k => S a ∧ ∀ r, (k r).Uses S
  | _, .locked _ p k => p.Uses S ∧ ∀ b, (k b).Uses S

/-- Every action of `p` is in `S`, its sections are in `T`, and they are not nested. -/
def Fits (S : A → Prop) : (M → Prop) → {α : Type} → Prog A R M ε α → Prop
  | _, _, .pure _ => True
  | _, _, .throw _ => True
  | _, _, .crash => True
  | T, _, .act a k => S a ∧ ∀ r, (k r).Fits S T
  | T, _, .locked m p k => T m ∧ p.Fits S (fun _ => False) ∧ ∀ b, (k b).Fits S T

/-- No path of `p` throws. -/
def NoThrow : {α : Type} → Prog A R M ε α → Prop
  | _, .pure _ => True
  | _, .throw _ => False
  | _, .crash => True
  | _, .act _ k => ∀ r, (k r).NoThrow
  | _, .locked _ p k => p.NoThrow ∧ ∀ b, (k b).NoThrow

variable {S T : A → Prop}

@[simp] theorem monad_bind (p : Prog A R M ε α) (f : α → Prog A R M ε β) : p >>= f = p.bind f := rfl

@[simp] theorem monad_pure (x : α) : (Pure.pure x : Prog A R M ε α) = .pure x := rfl

@[simp] theorem pure_bind (x : α) (f : α → Prog A R M ε β) : (Prog.pure x).bind f = f x := rfl

theorem bind_assoc (p : Prog A R M ε α) (f : α → Prog A R M ε β) (g : β → Prog A R M ε γ) :
    (p.bind f).bind g = p.bind fun x => (f x).bind g := by
  induction p with
  | pure x => rfl
  | throw e => rfl
  | crash => rfl
  | act a k ih => exact congrArg (Prog.act a) (funext fun r => ih r f)
  | locked m p k _ ih => exact congrArg (Prog.locked m p) (funext fun b => ih b f)

theorem bind_pure (p : Prog A R M ε α) : p.bind .pure = p := by
  induction p with
  | pure x => rfl
  | throw e => rfl
  | crash => rfl
  | act a k ih => exact congrArg (Prog.act a) (funext ih)
  | locked m p k _ ih => exact congrArg (Prog.locked m p) (funext ih)

@[simp] theorem uses_pure (x : α) : (Prog.pure x : Prog A R M ε α).Uses S := trivial

@[simp] theorem uses_throw (e : ε) : (Prog.throw e : Prog A R M ε α).Uses S := trivial

@[simp] theorem uses_crash : (Prog.crash : Prog A R M ε α).Uses S := trivial

theorem uses_perform {a : A} (h : S a) : (perform a : Prog A R M ε (R a)).Uses S :=
  ⟨h, fun _ => trivial⟩

theorem uses_withLock {m : M} {p : Prog A R M ε α} (h : p.Uses S) : (withLock m p).Uses S :=
  ⟨h, fun _ => trivial⟩

theorem Uses.bind {p : Prog A R M ε α} {f : α → Prog A R M ε β} (hp : p.Uses S)
    (hf : ∀ x, (f x).Uses S) : (p.bind f).Uses S := by
  induction p with
  | pure x => exact hf x
  | throw e => trivial
  | crash => trivial
  | act a k ih => exact ⟨hp.1, fun r => ih r (hp.2 r) hf⟩
  | locked m p k _ ih => exact ⟨hp.1, fun b => ih b (hp.2 b) hf⟩

theorem Uses.mono (hST : ∀ a, S a → T a) {p : Prog A R M ε α} (hp : p.Uses S) : p.Uses T := by
  induction p with
  | pure x => trivial
  | throw e => trivial
  | crash => trivial
  | act a k ih => exact ⟨hST a hp.1, fun r => ih r (hp.2 r)⟩
  | locked m p k ihp ihk => exact ⟨ihp hp.1, fun b => ihk b (hp.2 b)⟩

theorem uses_true (p : Prog A R M ε α) : p.Uses fun _ => True := by
  induction p with
  | pure x => trivial
  | throw e => trivial
  | crash => trivial
  | act a k ih => exact ⟨trivial, ih⟩
  | locked m p k ihp ihk => exact ⟨ihp, ihk⟩

theorem uses_when {c : Bool} {p : Prog A R M ε Unit} (h : p.Uses S) : (when c p).Uses S := by
  cases c
  · exact trivial
  · exact h

theorem uses_raiseIf {c : Bool} {e : ε} : (raiseIf c e : Prog A R M ε Unit).Uses S :=
  uses_when trivial

theorem Uses.foldEach {f : γ → β → Prog A R M ε γ} (hf : ∀ s x, (f s x).Uses S) :
    ∀ l s, (foldEach l f s).Uses S := by
  intro l
  induction l with
  | nil => exact fun _ => trivial
  | cons x l ih => exact fun s => (hf s x).bind fun s' => ih s'

theorem Uses.forEach {f : β → Prog A R M ε Unit} (hf : ∀ x, (f x).Uses S) (l : List β) :
    (forEach l f).Uses S :=
  Uses.foldEach (fun _ x => hf x) l ()

theorem NoThrow.bind {p : Prog A R M ε α} {f : α → Prog A R M ε β} (hp : p.NoThrow)
    (hf : ∀ x, (f x).NoThrow) : (p.bind f).NoThrow := by
  induction p with
  | pure x => exact hf x
  | throw e => cases hp
  | crash => trivial
  | act a k ih => exact fun r => ih r (hp r) hf
  | locked m p k _ ih => exact ⟨hp.1, fun b => ih b (hp.2 b) hf⟩

theorem noThrow_perform {a : A} : (perform a : Prog A R M ε (R a)).NoThrow := fun _ => trivial

theorem noThrow_withLock {m : M} {p : Prog A R M ε α} (h : p.NoThrow) : (withLock m p).NoThrow :=
  ⟨h, fun _ => trivial⟩

theorem noThrow_when {c : Bool} {p : Prog A R M ε Unit} (h : p.NoThrow) : (when c p).NoThrow := by
  cases c
  · exact trivial
  · exact h

theorem NoThrow.foldEach {f : γ → β → Prog A R M ε γ} (hf : ∀ s x, (f s x).NoThrow) :
    ∀ l s, (foldEach l f s).NoThrow := by
  intro l
  induction l with
  | nil => exact fun _ => trivial
  | cons x l ih => exact fun s => (hf s x).bind fun s' => ih s'

theorem NoThrow.forEach {f : β → Prog A R M ε Unit} (hf : ∀ x, (f x).NoThrow) (l : List β) :
    (forEach l f).NoThrow :=
  NoThrow.foldEach (fun _ x => hf x) l ()

theorem Uses.attempt {p : Prog A R M ε α} (hp : p.Uses S) : p.attempt.Uses S := by
  induction p with
  | pure x => trivial
  | throw e => trivial
  | crash => trivial
  | act a k ih => exact ⟨hp.1, fun r => ih r (hp.2 r)⟩
  | locked m p k ihp ihk =>
    refine ⟨ihp hp.1, fun b => ?_⟩
    cases b with
    | ok b => exact ihk b (hp.2 b)
    | error e => trivial

section Fits

variable {V W : M → Prop}

@[simp] theorem fits_pure (x : α) : (Prog.pure x : Prog A R M ε α).Fits S V := trivial

@[simp] theorem fits_throw (e : ε) : (Prog.throw e : Prog A R M ε α).Fits S V := trivial

@[simp] theorem fits_crash : (Prog.crash : Prog A R M ε α).Fits S V := trivial

theorem fits_perform {a : A} (h : S a) : (perform a : Prog A R M ε (R a)).Fits S V :=
  ⟨h, fun _ => trivial⟩

theorem fits_withLock {m : M} {p : Prog A R M ε α} (hm : V m) (h : p.Fits S fun _ => False) :
    (withLock m p).Fits S V :=
  ⟨hm, h, fun _ => trivial⟩

theorem Fits.bind {p : Prog A R M ε α} {f : α → Prog A R M ε β} (hp : p.Fits S V)
    (hf : ∀ x, (f x).Fits S V) : (p.bind f).Fits S V := by
  induction p with
  | pure x => exact hf x
  | throw e => trivial
  | crash => trivial
  | act a k ih => exact ⟨hp.1, fun r => ih r (hp.2 r) hf⟩
  | locked m p k _ ih => exact ⟨hp.1, hp.2.1, fun b => ih b (hp.2.2 b) hf⟩

theorem Fits.mono (hST : ∀ a, S a → T a) (hVW : ∀ m, V m → W m) {p : Prog A R M ε α}
    (hp : p.Fits S V) : p.Fits T W := by
  induction p generalizing V W with
  | pure x => trivial
  | throw e => trivial
  | crash => trivial
  | act a k ih => exact ⟨hST a hp.1, fun r => ih r hVW (hp.2 r)⟩
  | locked m p k ihp ihk =>
    exact ⟨hVW m hp.1, ihp (fun _ h => h) hp.2.1, fun b => ihk b hVW (hp.2.2 b)⟩

theorem Fits.uses {p : Prog A R M ε α} (hp : p.Fits S V) : p.Uses S := by
  induction p generalizing V with
  | pure x => trivial
  | throw e => trivial
  | crash => trivial
  | act a k ih => exact ⟨hp.1, fun r => ih r (hp.2 r)⟩
  | locked m p k ihp ihk => exact ⟨ihp hp.2.1, fun b => ihk b (hp.2.2 b)⟩

theorem fits_when {c : Bool} {p : Prog A R M ε Unit} (h : p.Fits S V) : (when c p).Fits S V := by
  cases c
  · exact trivial
  · exact h

theorem fits_raiseIf {c : Bool} {e : ε} : (raiseIf c e : Prog A R M ε Unit).Fits S V :=
  fits_when trivial

theorem Fits.foldEach {f : γ → β → Prog A R M ε γ} (hf : ∀ s x, (f s x).Fits S V) :
    ∀ l s, (foldEach l f s).Fits S V := by
  intro l
  induction l with
  | nil => exact fun _ => trivial
  | cons x l ih => exact fun s => (hf s x).bind fun s' => ih s'

theorem Fits.forEach {f : β → Prog A R M ε Unit} (hf : ∀ x, (f x).Fits S V) (l : List β) :
    (forEach l f).Fits S V :=
  Fits.foldEach (fun _ x => hf x) l ()

end Fits

end Prog

end Interleave
