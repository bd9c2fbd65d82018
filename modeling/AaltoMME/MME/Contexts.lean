import AaltoMME.S1.Assoc
import AaltoMME.EMM.Security.Properties

/-!
# The contexts of the MME

What an event of the MME does to the EMM contexts is made of four kinds of smaller events: an event of one
context, which may register it under an M-TMSI; a new context; the end of the ECM session of a context; and
everything below the contexts, which leaves them alone.  `ctxStep` runs them.  That every event of the MME is
a run of them is proved in `AaltoMME.MME.Connections`, so an invariant of the contexts has four cases.

Many properties only hold as long as the events of the contexts meet some condition.  A `CtxCondition` is one
that does not depend on anything below the contexts, and `Meets` says that the events of the contexts that an
event of the MME leads to meet it, in terms of the event and of the state before it.
-/

namespace AaltoMME

open Base NAS

/-- The events of a context that conditions are about: messages, packets, timers and `emm_stop`. -/
def EMMEvent.Watched : EMMEvent → Prop
  | .uplink _ _ | .s11 _ | .timer _ | .stop => True
  | _ => False

/-- What happens to the contexts. -/
inductive CtxEvent
  /-- An event of a context. -/
  | on (x : Env) (e : Nat) (ev : EMMEvent)
  /-- A new context for an ECM session. -/
  | new (id : Nat)
  /-- The ECM session of a context ends. -/
  | deregister (e : Nat)
  /-- What is below the contexts changes to what it is in `v`. -/
  | lower (v : MME)

namespace MME

/-- The contexts of `w` over what is below them in `v`. -/
def lowered (w v : MME) : MME :=
  { w with
    ecms := v.ecms
    assocs := v.assocs
    ecmSessionsByLocalID := v.ecmSessionsByLocalID
    s1LocalIDs := v.s1LocalIDs
    fresh := v.fresh }

def newEMM (w : MME) (id : Nat) : MME :=
  { w.setEMM w.fresh (emmInit w.fresh id w.s11) with fresh := w.fresh + 1 }

def ctxStep (P : Prims) (w : MME) : CtxEvent → Outcome MME
  | .on x e ev => w.onEMM x (some e) fun env c => c.step P (env, ev)
  | .new id => .ok (w.newEMM id)
  | .deregister e => do
    let c ← deref w.emms (some e)
    pure (w.setEMM e c.emmDeregister)
  | .lower v => .ok (w.lowered v)

/-- An event of a context: the context is lent the S11 stack, and registered if it asks for it. -/
theorem ctxStep_on {P : Prims} {w v : MME} {x : Env} {i : Nat} {ev : EMMEvent} (h : w.ctxStep P (.on x i ev) = .ok v) :
    ∃ c d, w.emms i = some c ∧ EMMCtx.step P { c with s11 := w.s11 } (w.env x, ev) = .ok d ∧
      { w.setEMM i d with s11 := d.s11 }.register (d.trace.take (d.trace.length - c.trace.length)) = .ok v := by
  obtain ⟨c, hc, h⟩ := bind_eq_ok.mp h
  obtain ⟨_, ⟨⟩, hc⟩ := deref_eq_ok.mp hc
  obtain ⟨d, hd, h⟩ := bind_eq_ok.mp h
  exact ⟨c, d, hc, hd, h⟩

end MME

/-! ## Conditions -/

/-- A condition on the events of the contexts: `holds w c e` is about the event `e` of the context `c`, which
was lent the S11 stack, in the MME `w`. -/
structure CtxCondition where
  holds : MME → EMMCtx → Env × EMMEvent → Prop
  lower {w v : MME} {c : EMMCtx} {e : Env × EMMEvent} : w.lowered v = v → holds w c e → holds v c e
  new {w : MME} {c : EMMCtx} {e : Env × EMMEvent} (id : Nat) : holds w c e → holds (w.newEMM id) c e
  rebind {w : MME} {i : Nat} {c : EMMCtx} {e : Env × EMMEvent} (ecm : Option Nat) (trace : List Act) :
    w.emms i = some c → holds w { c with s11 := w.s11 } e →
      holds (w.setEMM i { c with s11 := w.s11, ecm, trace }) { c with s11 := w.s11, ecm, trace } e
  env {w : MME} {c : EMMCtx} {x : Env} {ev : EMMEvent} (u : MME) : holds w c (x, ev) → holds w c (u.env x, ev)
  other {w : MME} {c : EMMCtx} {x : Env} {ev : EMMEvent} : ¬ ev.Watched → holds w c (x, ev)

/-- The condition that always holds. -/
def CtxCondition.any : CtxCondition where
  holds _ _ _ := True
  lower _ _ := trivial
  new _ _ := trivial
  rebind _ _ _ _ := trivial
  env _ _ := trivial
  other _ := trivial

namespace MME

variable (Q : CtxCondition) (x : Env) (w : MME)

/-- The condition, for the context behind a pointer. -/
def HoldsOn (p : Option Nat) (ev : EMMEvent) : Prop :=
  ∀ e ∈ p, ∀ c ∈ w.emms e, Q.holds w { c with s11 := w.s11 } (x, ev)

/-- The events of the contexts that the MME takes: a context is where its identifier says, it is coherent, its ECM
session is bound to it, and its event meets the condition. -/
def Guarded : CtxEvent → Prop
  | .on x e ev => (∀ s, ev ≠ .s11Stack s) ∧ HoldsOn Q x w (some e) ev ∧
      ∀ c ∈ w.emms e, c.self = e ∧ c.sec.Coherent ∧ EMMCtx.Linked { c with s11 := w.s11 } (w.env x, ev)
  | .lower v => w.fresh ≤ v.fresh
  | _ => True

/-! ## Events of the MME that meet a condition -/

/-- The session that an item of a reset names. -/
def resetTarget (a : Nat) (item : ResetItem) : Outcome (Option Nat) :=
  match item.eNBUEId, item.mmeUEId with
  | some i, _ => w.s1AssocGetECMSession a i
  | none, some i => w.mmeLookupECM i
  | none, none => pure none

/-- The context of a session may be stopped. -/
def MayReset (id : Nat) : Prop := ∀ s ∈ w.ecms id, HoldsOn Q x w s.emm .stop

/-- The contexts that a reset stops may be stopped, each in the state that its turn finds. -/
def MeetsReset (a : Nat) : ResetType → Prop
  | .s1Interface => ∀ s ∈ w.assocs a,
      Along (fun w id => w.s1AssocResetECM x id) (MayReset Q x) w (x.order (s.ecmSessions.map (·.value)))
  | .partOfS1Interface items =>
      Along (fun w item => w.resetItem x a item)
        (fun w item => ∀ found ∈ (w.resetTarget a item).toOption, ∀ id ∈ found, MayReset Q x w id) w items

/-- The context that an initialUEMessage is for: a known one, or the new one that is given. -/
def firstRecipient (msg : S1APMsg) (pdu : Mem × UInt64) (new : EMMCtx) : Option EMMCtx :=
  match w.findEMM x msg.sTMSI pdu.1 pdu.2 with
  | .ok (some e) => w.emms e
  | .ok none => some new
  | .error _ => none

/-- The context that the NAS PDU of an S1AP message is for. -/
def recipient (a : Nat) (msg : S1APMsg) (pdu : Mem × UInt64) : Option EMMCtx :=
  match msg.procedureCode with
  | .initialUEMessage => w.firstRecipient x msg pdu (emmInit (w.fresh + 1) w.fresh w.s11)
  | .uplinkNASTransport =>
    (msg.eNBUEId.bind fun i => (w.s1AssocGetECMSession a i).toOption.join).bind fun id =>
      (w.ecms id).bind fun s => s.emm.bind w.emms
  | _ => none

/-- The events of the contexts that the event leads to meet the condition. -/
def Meets : Env × MMEEvent → Prop
  | (x, .s1ap a msg _) =>
    (msg.procedureCode = .reset → ∀ t ∈ msg.resetType, MeetsReset Q x w a t) ∧
      ∀ pdu ∈ msg.nasPdu, ∀ c ∈ w.recipient x a msg pdu,
        Q.holds w { c with s11 := w.s11 } (x, .uplink pdu.1 pdu.2)
  | (x, .timer e code) => HoldsOn Q x w (some e) (.timer code)
  | (x, .s11 pkt) => ∀ u ∈ w.s11.users.get pkt.tei, HoldsOn Q x w (some u.emm) (.s11 pkt)
  | _ => True

variable {Q x w}

theorem HoldsOn.lower {v : MME} {p : Option Nat} {ev : EMMEvent} (h : HoldsOn Q x w p ev) (hlow : w.lowered v = v) :
    HoldsOn Q x v p ev := by
  intro e he c hc
  have hs11 : v.s11 = w.s11 := by rw [← hlow]; rfl
  have hemms : v.emms = w.emms := by rw [← hlow]; rfl
  rw [hs11]
  exact Q.lower hlow (h e he c (hemms ▸ hc))

theorem MayReset.lower {v : MME} {id : Nat} (h : MayReset Q x w id) (hlow : w.lowered v = v)
    (hecms : v.ecms = w.ecms) : MayReset Q x v id := by
  intro s hs
  rw [hecms] at hs
  exact (h s hs).lower hlow

variable (Q x w)

section Decidable

variable [∀ w c e, Decidable (Q.holds w c e)]

instance (p : Option Nat) (ev : EMMEvent) : Decidable (HoldsOn Q x w p ev) :=
  inferInstanceAs (Decidable (∀ e ∈ p, ∀ c ∈ w.emms e, Q.holds w { c with s11 := w.s11 } (x, ev)))

instance (id : Nat) : Decidable (MayReset Q x w id) :=
  inferInstanceAs (Decidable (∀ s ∈ w.ecms id, HoldsOn Q x w s.emm .stop))

instance (a : Nat) : (t : ResetType) → Decidable (MeetsReset Q x w a t)
  | .s1Interface => inferInstanceAs (Decidable (∀ s ∈ w.assocs a,
      Along (fun w id => w.s1AssocResetECM x id) (MayReset Q x) w (x.order (s.ecmSessions.map (·.value)))))
  | .partOfS1Interface items => inferInstanceAs (Decidable (Along (fun w item => w.resetItem x a item)
      (fun w item => ∀ found ∈ (w.resetTarget a item).toOption, ∀ id ∈ found, MayReset Q x w id) w items))

instance : (e : Env × MMEEvent) → Decidable (Meets Q w e)
  | (x, .s1ap a msg _) => inferInstanceAs (Decidable (
      (msg.procedureCode = .reset → ∀ t ∈ msg.resetType, MeetsReset Q x w a t) ∧
        ∀ pdu ∈ msg.nasPdu, ∀ c ∈ w.recipient x a msg pdu,
          Q.holds w { c with s11 := w.s11 } (x, .uplink pdu.1 pdu.2)))
  | (x, .timer e code) => inferInstanceAs (Decidable (HoldsOn Q x w (some e) (.timer code)))
  | (x, .s11 pkt) => inferInstanceAs (Decidable (
      ∀ u ∈ w.s11.users.get pkt.tei, HoldsOn Q x w (some u.emm) (.s11 pkt)))
  | (_, .accept) | (_, .closed _) => .isTrue trivial

end Decidable

end MME

end AaltoMME
