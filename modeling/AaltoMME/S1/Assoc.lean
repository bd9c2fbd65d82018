import AaltoMME.S1.ECMSession

/-!
# S1 associations

`S1Assoc.c` and its two states, and the events of the MME: a new association, an S1AP message or the end
of one, a packet from the serving gateway and the expiration of a timer of an EMM context.
-/

namespace AaltoMME

open Base NAS

namespace MME

variable (P : Prims) (x : Env) (w : MME)

/-! ## Removing sessions -/

/-- `s1Assoc_free`: every ECM session of the association is freed. -/
def s1AssocFree (a : Nat) : Outcome MME := do
  let s ← deref w.assocs (some a)
  let w ← (x.order (s.ecmSessions.map (·.value))).foldlM (fun w id => w.mmeDeregisterECM id) w
  pure { w with assocs := Function.update w.assocs a none }

/-- `s1Assoc_resetECM`. -/
def s1AssocResetECM (id : Nat) : Outcome MME := do
  let w ← w.ecmSessionReset x id
  w.mmeDeregisterECM id

/-- One item of a partial reset: the session is looked up in the association by its eNB identifier, or
in the whole MME by its MME identifier. -/
def resetItem (a : Nat) (item : ResetItem) : Outcome MME := do
  let found ←
    match item.eNBUEId, item.mmeUEId with
    | some i, _ => w.s1AssocGetECMSession a i
    | none, some i => w.mmeLookupECM i
    | none, none => pure none
  match found with
  | none => pure w
  | some id => do
    let w ← w.s1AssocDeregisterECMSession a id
    w.s1AssocResetECM x id

/-- `process_reset`. -/
def processReset (a : Nat) (s : S1Assoc) (msg : S1APMsg) : Outcome MME := do
  match ← ie msg.resetType with
  | .s1Interface => do
    let w ← (x.order (s.ecmSessions.map (·.value))).foldlM (fun w id => w.s1AssocResetECM x id) w
    pure (w.setAssoc a { s with ecmSessions := [] })
  | .partOfS1Interface items => items.foldlM (fun w item => w.resetItem x a item) w

/-! ## The states -/

def pathSwitchRequest (a : Nat) (msg : S1APMsg) (rSid : Nat) : Outcome MME := do
  let i ← ie msg.sourceMMEUEId
  let p ← w.mmeLookupECM i
  w.ecmSessionPathSwitchReq P x p a msg rSid

/-- UE associated signalling: the session is found by the eNB identifier, and the MME identifier has to
match. -/
def ueAssociated (a : Nat) (msg : S1APMsg) (rSid : Nat) : Outcome MME := do
  let eNBUEId ← ie msg.eNBUEId
  match ← w.s1AssocGetECMSession a eNBUEId with
  | none => pure w
  | some id => do
    let mmeUEId ← ie msg.mmeUEId
    let k ← w.mmeUEIdKey id
    if mmeUEId ≠ k then pure w else w.ecmSessionProcessMsg P x id msg rSid

/-- `processMsg` of S1_Active. -/
def activeProcessMsg (a : Nat) (s : S1Assoc) (msg : S1APMsg) (rSid : Nat) : Outcome MME :=
  if rSid = s.nonueRsid then
    match msg.procedureCode, msg.choice with
    | .reset, _ => w.processReset x a s msg
    | .initialUEMessage, .initiatingMessage => w.ecmSessionInit P x a msg rSid
    | .pathSwitchRequest, .initiatingMessage => w.pathSwitchRequest P x a msg rSid
    | _, _ => .ok w
  else
    match msg.procedureCode, msg.choice with
    | .initialUEMessage, .initiatingMessage => w.ecmSessionInit P x a msg rSid
    | .pathSwitchRequest, .initiatingMessage => w.pathSwitchRequest P x a msg rSid
    | _, _ => w.ueAssociated P x a msg rSid

/-- `processMsg` of S1_NotConfigured; an association whose tracking areas the MME does not serve is
freed. -/
def notConfiguredProcessMsg (a : Nat) (s : S1Assoc) (msg : S1APMsg) (rSid : Nat) : Outcome MME :=
  let s := { s with nonueRsid := rSid }
  let w := w.setAssoc a s
  if msg.procedureCode ≠ .s1Setup ∧ msg.choice ≠ .initiatingMessage then .ok w
  else if !msg.globalENBId then .error .nullDeref
  else
    match msg.supportedTAs with
    | none => .ok w
    | some false => w.s1AssocFree x a
    | some true => .ok (w.setAssoc a { s with active := true })

/-! ## Events -/

end MME

/-- What happens to the MME. -/
inductive MMEEvent
  /-- An eNodeB connects. -/
  | accept
  /-- An S1AP message of an association, on a stream. -/
  | s1ap (assoc : Nat) (msg : S1APMsg) (rSid : Nat)
  /-- An association is lost. -/
  | closed (assoc : Nat)
  /-- The expiration of a timer of an EMM context. -/
  | timer (emm : Nat) (code : EMMTimerCode)
  /-- A packet from the serving gateway. -/
  | s11 (pkt : GtpPacket)

namespace MME

variable (P : Prims)

/-- One event, with what it finds in its environment. -/
def step (w : MME) : Env × MMEEvent → Outcome MME
  | (_, .accept) => .ok { w.setAssoc w.fresh ⟨false, 0, []⟩ with fresh := w.fresh + 1 }
  | (x, .s1ap a msg rSid) => do
    let s ← deref w.assocs (some a)
    if s.active then w.activeProcessMsg P x a s msg rSid else w.notConfiguredProcessMsg x a s msg rSid
  | (x, .closed a) => w.s1AssocFree x a
  | (x, .timer e code) => w.onEMM x (some e) fun env c => c.timerExpires P env code
  | (x, .s11 pkt) =>
    match w.s11.users.get pkt.tei with
    | none => .ok w
    | some u => w.onEMM x (some u.emm) fun env c => c.s11Accept P env pkt

end MME

end AaltoMME
