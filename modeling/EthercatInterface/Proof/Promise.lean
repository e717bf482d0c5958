import EthercatInterface.Proof.Footprint

/-!
# What code of users does not undo

A promise that binds no plain action goes through sequencing, so code of users keeps it
(`User.honours`), as soon as the operations on the process image do.
-/

namespace EthercatInterface

open Interleave

/-- Goes through sequencing, and holds of plain programs. -/
structure Compositional (F : ∀ {α : Type}, P α → Prop) : Prop where
  bind : ∀ {α β : Type} {p : P β} {f : β → P α}, F p → (∀ x, F (f x)) → F (p.bind f)
  attempt : ∀ {α : Type} {p : P α}, F p → F p.attempt
  plain : ∀ {α : Type} {p : P α}, p.Uses Plain → F p

theorem Compositional.boxed {F : ∀ {α : Type}, P α → Prop} (hF : Compositional F) : Boxed F :=
  .of_plain hF.bind hF.attempt hF.plain

variable {K : Act → List Ev → Prop} {t : ℕ} {ps : Parameters} {hk : UserCode}

theorem honours_act {a : Act} (ha : ∀ h, K a h) : Honours K t (act a) := .perform ha

theorem honours_crashUnless {b : Bool} : Honours K t (crashUnless b) := .when honours_crash

theorem Honours.void {α : Type} {p : P α} (hp : Honours K t p) :
    Honours K t (EthercatInterface.void p) :=
  hp.bind fun _ => honours_pure

theorem Honours.forDevices {l : Loop} {body : Addr → DeviceId → P Unit}
    (hl : ∀ h, K (.devices l) h) (hd : ∀ p h, K (.deref p) h)
    (hb : ∀ p id, Honours K t (body p id)) : Honours K t (forDevices l body) := by
  refine .bind (honours_act hl) fun devices => .forEach (fun p => ?_) devices
  refine .bind (honours_act (hd p)) fun r => ?_
  cases r with
  | none => exact honours_crash
  | some id => exact hb p id

theorem Honours.invoke {o : Op} (hc : ∀ h, K (.call o) h) (hd : ∀ b h, K (.done o b) h)
    (hb : Honours K t (o.body ps hk)) : Honours K t (o.invoke ps hk) := by
  refine .bind (honours_act hc) fun _ => hb.attempt.bind fun r => ?_
  cases r with
  | ok x => exact honours_act (hd true)
  | error e => exact (honours_act (hd false)).bind fun _ => honours_throw

theorem honours_callbacks {h : Hook} (hl : ∀ past, K (.devices (.callback h)) past)
    (hd : ∀ p past, K (.deref p) past) (hc : ∀ p past, K (.callback h p) past)
    (hh : ∀ p, Honours K t (hk.hook h p)) :
    Honours K t (forDevices (.callback h) fun p _ => onCallback hk h p) :=
  Honours.forDevices hl hd fun p _ => .bind (honours_act (hc p)) fun _ => hh p

section User

variable (hK : ∀ a, Plain a → ∀ h, K a h)
include hK

theorem honours_plain {α : Type} {p : P α} (hp : p.Uses Plain) : Honours K t p := .uses hK hp

theorem honours_compositional : Compositional fun p => Honours K t p :=
  ⟨Honours.bind, Honours.attempt, honours_plain hK⟩

theorem honours_body (o : Op) (hl : o.lifecycle = false) (ht : o.transfers = false)
    (hr : ∀ r, Honours K t (hk.sdoReadCallback r)) (hw : ∀ r, Honours K t (hk.sdoWriteCallback r)) :
    Honours K t (o.body ps hk) :=
  (honours_compositional hK).boxed.body o hl ht hr hw

/-- **Code of users keeps every promise about the lifecycle**, and those about the process
image that the operations on it keep. -/
theorem User.honours (hm : ∀ o : Op, o.lifecycle = false → ∀ h, K (.call o) h ∧ ∀ b, K (.done o b) h)
    (ht : ∀ (o : Op) hk, o.transfers = true → Honours K t (o.invoke ps hk)) {p : P Unit}
    (h : User ps p) : Honours K t p :=
  User.holds (honours_compositional hK).boxed (fun o ho => ⟨honours_act fun h => (hm o ho h).1,
    fun b => honours_act fun h => (hm o ho h).2 b⟩) ht h

end User

end EthercatInterface
