import Mathlib.Logic.Relation
import Mathlib.Logic.Function.Basic

/-!
# Contexts and their connections

An abstract model of the binding between EMM contexts and ECM sessions.  A context that is allocated
points to a session or to none, and so does a session to its context.  A session starts unbound, is bound
once, to a new context or to one that is found, and at the end releases its context and goes.  Releasing
clears the pointer of the context without a look at it, so it matters what the pointer was: `BindStep K`
is the model in which, if `K` holds, a context is only found while it points to no session.
-/

namespace AaltoMME

open Relation

/-- What is allocated, and what it points to. -/
structure Binding where
  ecm : Nat → Option (Option Nat)
  emm : Nat → Option (Option Nat)
  fresh : Nat

namespace Binding

/-- The elementary changes. -/
inductive BindStep (K : Prop) (b : Binding) : Binding → Prop
  | freeContext (e : Nat) : BindStep K b { b with ecm := Function.update b.ecm e none }
  | newAssoc : BindStep K b { b with fresh := b.fresh + 1 }
  | newSession : BindStep K b
      { b with emm := Function.update b.emm b.fresh (some none), fresh := b.fresh + 1 }
  | newContext {c : Nat} : b.emm c = some none → BindStep K b
      { emm := Function.update b.emm c (some (some b.fresh))
        ecm := Function.update b.ecm b.fresh (some (some c))
        fresh := b.fresh + 1 }
  | connect {c e : Nat} {p : Option Nat} : b.emm c = some none → b.ecm e = some p → (K → p = none) →
      BindStep K b { b with
        emm := Function.update b.emm c (some (some e))
        ecm := Function.update b.ecm e (some (some c)) }
  | release {c e : Nat} {p : Option Nat} : b.emm c = some (some e) → b.ecm e = some p →
      BindStep K b { b with
        emm := Function.update b.emm c none
        ecm := Function.update b.ecm e (some none) }

def BindSteps (K : Prop) : Binding → Binding → Prop := ReflTransGen (BindStep K)

/-- The invariant: a session that a context points to is allocated and bound to the context, and if `K`
holds, the context of a session points to the session. -/
structure Bound (K : Prop) (b : Binding) : Prop where
  freshSession : ∀ c, b.fresh ≤ c → b.emm c = none
  freshContext : ∀ e, b.fresh ≤ e → b.ecm e = none
  allocated : ∀ c e, b.emm c = some (some e) → e < b.fresh
  live : ∀ e c, b.ecm e = some (some c) → b.emm c = some (some e)
  current : K → ∀ c e p, b.emm c = some (some e) → b.ecm e = some p → p = some c

variable {K : Prop} {b b' : Binding}

theorem Bound.lt_of_emm (h : Bound K b) {c : Nat} {p : Option Nat} (hc : b.emm c = some p) : c < b.fresh := by
  by_contra hle
  rw [h.freshSession c (Nat.le_of_not_lt hle)] at hc
  cases hc

theorem BindStep.bound (hs : BindStep K b b') (h : Bound K b) : Bound K b' := by
  obtain ⟨hfs, hfc, hall, hlive, hcur⟩ := h
  cases hs with
  | freeContext => constructor <;> grind [Function.update_apply]
  | newAssoc => constructor <;> grind
  | newSession => constructor <;> grind [Function.update_apply]
  | newContext hc => constructor <;> grind [Function.update_apply]
  -- another session of the context would make its pointer different from NULL
  | connect hc he hp => constructor <;> grind [Function.update_apply]
  -- another session of the context would be the one that goes
  | release hc he => constructor <;> grind [Function.update_apply]

theorem BindSteps.bound (hs : BindSteps K b b') (h : Bound K b) : Bound K b' := by
  induction hs with
  | refl => exact h
  | tail _ hs ih => exact hs.bound ih

theorem BindSteps.emm (hs : BindSteps K b b') (h : Bound K b) {c e : Nat} (hc : b.emm c = some (some e)) :
    b'.emm c = some (some e) ∨ b'.emm c = none := by
  have hlt := h.lt_of_emm hc
  suffices b.fresh ≤ b'.fresh ∧ (b'.emm c = some (some e) ∨ b'.emm c = none) from this.2
  induction hs with
  | refl => exact ⟨Nat.le_refl _, .inl hc⟩
  | tail _ hs ih =>
    cases hs <;> grind [Function.update_apply]

/-- If contexts are only found while they point to no session, a context loses its session only when the
session goes. -/
theorem BindSteps.released (hK : K) (hs : BindSteps K b b') (h : Bound K b) {c e : Nat}
    (he : b.ecm e = some (some c)) (he' : b'.ecm e = some none) : b'.emm c = none := by
  refine (hs.emm h (h.live e c he)).resolve_left fun hc => ?_
  have hcur := (hs.bound h).current hK c e none hc he'
  cases hcur

end Binding

end AaltoMME
