import AaltoMME.MME.State

/-!
# ECM sessions

`ECMSession.c` and its two states.  An S1AP message is given by its procedure, its kind and the
information elements that the modelled code looks for; one that is missing is a NULL pointer.  A session
is created by an initialUEMessage.  The EMM context it belongs to is found by the S-TMSI of the message,
or by the GUTI or IMSI in the NAS PDU, before anything is authenticated.
-/

namespace AaltoMME

open Base NAS

/-! ## Messages -/

/-- The procedures that the modelled code distinguishes. -/
inductive S1Procedure
  | reset | s1Setup | initialUEMessage | pathSwitchRequest | uEContextRelease | initialContextSetup
  | uplinkNASTransport | uEContextReleaseRequest | other
  deriving DecidableEq, Repr

/-- `choice`. -/
inductive S1Choice
  | initiatingMessage | successfulOutcome | unsuccessfulOutcome
  deriving DecidableEq, Repr

/-- `UE_associatedLogicalS1_ConnectionItem_t`. -/
structure ResetItem where
  eNBUEId : Option UInt32
  mmeUEId : Option UInt32
  deriving DecidableEq, Repr

/-- `ResetType_t`. -/
inductive ResetType
  | s1Interface
  | partOfS1Interface (items : List ResetItem)
  deriving DecidableEq, Repr

/-- `S1AP_Message_t`.  A tracking area is a serving network with an area code; of the supported
tracking areas only matters whether the MME serves one of them, and of the cell identity, the global
eNB identifier and the cause whether they are there. -/
structure S1APMsg where
  procedureCode : S1Procedure
  choice : S1Choice
  mmeUEId : Option UInt32
  eNBUEId : Option UInt32
  sourceMMEUEId : Option UInt32
  nasPdu : Option (Mem × UInt64)
  tAI : Option (List UInt8 × List UInt8)
  sTMSI : Option UInt32
  eRABs : Option (List ERABItem)
  resetType : Option ResetType
  supportedTAs : Option Bool
  eCGI : Bool
  globalENBId : Bool
  cause : Bool

/-- A message without information elements. -/
def S1APMsg.new (procedureCode : S1Procedure) (choice : S1Choice) : S1APMsg :=
  ⟨procedureCode, choice, none, none, none, none, none, none, none, none, none, false, false, false⟩

/-- An information element, dereferenced. -/
def ie {α : Type} : Option α → Outcome α
  | none => .error .nullDeref
  | some a => .ok a

theorem ie_eq_ok {α : Type} {o : Option α} {a : α} : ie o = .ok a ↔ o = some a := by
  cases o <;> simp [ie]

/-! ## The identity of the UE in a NAS PDU -/

/-- The message that `emm_getGUTIfromMsg` and `emm_getIMSIfromAttach` look into, if it can be read
without deciphering. -/
def readableMsg (buf : Mem) (size : UInt64) : Outcome (Option GenericNASMsg) :=
  match nasGetHeader buf size.toUInt32 with
  | none => .error (.gError "Empty NAS message buffer")
  | some (s, _) =>
    if s = .plainNAS then .ok (some (decNAS buf size).2)
    else if s = .integrityProtected then .ok (some (decNAS (buf.shift 6) (size - 6)).2)
    else .ok none

/-- `emm_getGUTIfromMsg`, into a structure of zeros. -/
def emmGetGUTIfromMsg (buf : Mem) (size : UInt64) : Outcome Guti := do
  match ← readableMsg buf size with
  | none => pure .zero
  | some msg =>
    if (msg.emmMessageType = attachRequest || msg.emmMessageType = trackingAreaUpdateRequest) &&
      mobileIdType (msg.shift 6) = 6
    then pure (.ofMem msg 7)
    else pure .zero

/-- `emm_getIMSIfromAttach`, into a local that is not initialised. -/
def emmGetIMSIfromAttach (junk : UInt64) (buf : Mem) (size : UInt64) : Outcome UInt64 := do
  match ← readableMsg buf size with
  | none => pure junk
  | some msg =>
    if msg.emmMessageType = attachRequest && mobileIdType (msg.shift 6) = 1
    then imsiOfMobileId (msg.shift 6) (msg 5)
    else pure junk

namespace MME

variable (P : Prims) (x : Env) (w : MME)

/-! ## ECM_Idle -/

/-- The lookups of `ecm_processMsg`: the EMM context that an initialUEMessage belongs to. -/
def findEMM (sTMSI : Option UInt32) (buf : Mem) (size : UInt64) : Outcome (Option Nat) :=
  match sTMSI with
  | some mtmsi => w.mmeLookupEMMCtxt mtmsi
  | none => do
    let guti ← emmGetGUTIfromMsg buf size
    if guti.mtmsi ≠ 0 then w.mmeLookupEMMCtxt guti.mtmsi
    else
      let imsi ← emmGetIMSIfromAttach x.junkImsi buf size
      w.mmeLookupEMMCtxtByIMSI x.order imsi

/-- Bind a session to the context that was found, or to a new one. -/
def bindEMM (id : Nat) (s : ECMSession) : Option Nat → Outcome (MME × Nat)
  | none =>
    let e := w.fresh
    .ok ({ (w.setECM id { s with emm := some e }).setEMM e (emmInit e id w.s11) with fresh := e + 1 }, e)
  | some e => do
    let w ← (w.setECM id { s with emm := some e }).onEMM x (some e) fun env c => c.emmRegisterECM env id
    pure (w, e)

/-- `ecm_processMsg` of ECM_Idle. -/
def idleProcessMsg (id : Nat) (s : ECMSession) (msg : S1APMsg) (rSid : Nat) : Outcome MME :=
  if msg.procedureCode = .initialUEMessage ∧ msg.choice = .initiatingMessage then do
    let eNBUEId ← ie msg.eNBUEId
    let (buf, size) ← ie msg.nasPdu
    let (sn, tAC) ← ie msg.tAI
    let s := { s with
      eNBUEId, sn, tAC
      rSid := if rSid ≠ 0 then rSid else s.rSid
      rSidValid := rSid ≠ 0 || s.rSidValid }
    let found ← w.findEMM x msg.sTMSI buf size
    let (w, e) ← w.bindEMM x id s found
    let w := w.setECM id { s with emm := some e, stateName := .connected }
    w.onEMM x (some e) fun env c => c.emmProcessMsg P env buf size
  else .ok w

/-- `ecmSession_init`.  The session is registered after its first message was processed. -/
def ecmSessionInit (a : Nat) (msg : S1APMsg) (rSid : Nat) : Outcome MME := do
  let (w, mmeUEId) := w.mmeNewLocalUEid
  let id := w.fresh
  let s : ECMSession := ⟨a, none, .idle, false, rSid, mmeUEId, 0, [0, 0, 0], [0, 0], false⟩
  let w ← ({ w with fresh := id + 1 }.setECM id s).idleProcessMsg P x id s msg rSid
  let w ← w.s1AssocRegisterECMSession a id
  w.mmeRegisterECM id

/-! ## ECM_Connected -/

/-- Whether both S1AP identifiers of a message are those of the session. -/
def idsMatch (s : ECMSession) (msg : S1APMsg) : Outcome Bool := do
  let eNBUEId ← ie msg.eNBUEId
  let mmeUEId ← ie msg.mmeUEId
  pure (eNBUEId == s.eNBUEId && mmeUEId == s.mmeUEId)

/-- The procedures of `processMsg` of ECM_Connected. -/
def connectedProcedure (id : Nat) (s : ECMSession) (msg : S1APMsg) : Outcome MME :=
  match msg.procedureCode, msg.choice with
  | .uEContextRelease, .successfulOutcome => do
    let w ← (w.setECM id { s with causeRelease := false }).s1AssocDeregisterECMSession s.assoc id
    w.mmeDeregisterECM id
  | .initialContextSetup, .successfulOutcome => do
    if ← idsMatch s msg then
      w.onEMM x s.emm fun env c => c.emmModifyERABList P env msg.eRABs none
    else pure w
  | .uplinkNASTransport, .initiatingMessage => do
    if ← idsMatch s msg then
      let (buf, size) ← ie msg.nasPdu
      w.onEMM x s.emm fun env c => c.emmProcessMsg P env buf size
    else pure w
  | .uEContextReleaseRequest, .initiatingMessage =>
    (w.setECM id { s with causeRelease := msg.cause }).onEMM x s.emm fun env c =>
      c.emmUEContextReleaseReq P env (.sendUEContextReleaseCommand id)
  | _, _ => .ok w

/-- `processMsg` of ECM_Connected: the first message fixes the stream. -/
def connectedProcessMsg (id : Nat) (s : ECMSession) (msg : S1APMsg) (rSid : Nat) : Outcome MME :=
  if rSid ≠ s.rSid ∧ s.rSidValid then .ok w
  else
    let s := { s with rSid, rSidValid := true }
    (w.setECM id s).connectedProcedure P x id s msg

/-- `ecmSession_processMsg`. -/
def ecmSessionProcessMsg (id : Nat) (msg : S1APMsg) (rSid : Nat) : Outcome MME := do
  let s ← deref w.ecms (some id)
  match s.stateName with
  | .idle => w.idleProcessMsg P x id s msg rSid
  | .connected => w.connectedProcessMsg P x id s msg rSid

/-! ## Procedures of the association -/

/-- `ecmSession_pathSwitchReq`, for the session behind a pointer. -/
def ecmSessionPathSwitchReq (p : Option Nat) (a : Nat) (msg : S1APMsg) (rSid : Nat) : Outcome MME :=
  match p with
  | none => .error .nullDeref
  | some id => do
    let s ← deref w.ecms (some id)
    let _ ← deref w.emms s.emm
    let w ← w.s1AssocDeregisterECMSession s.assoc id
    let eNBUEId ← ie msg.eNBUEId
    let s := { s with assoc := a, rSid, eNBUEId }
    let w ← (w.setECM id s).s1AssocRegisterECMSession a id
    let (sn, tAC) ← ie msg.tAI
    if !msg.eCGI then .error .nullDeref
    else
      (w.setECM id { s with sn, tAC }).onEMM x s.emm fun env c =>
        c.emmModifyERABList P env msg.eRABs (some (.sendPathSwitchReqAck id))

/-- `ecmSession_reset`. -/
def ecmSessionReset (id : Nat) : Outcome MME := do
  let s ← deref w.ecms (some id)
  w.onEMM x s.emm fun env c => c.emmStop env

end MME

end AaltoMME
