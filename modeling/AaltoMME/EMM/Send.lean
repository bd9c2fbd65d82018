import AaltoMME.S11.User

/-!
# Downlink messages

The functions of `NAS_EMM.c` and of the EMM states that build a NAS message and hand it to the ECM
session.  Each of them decides on its own whether the message is protected: most of them ask `sci`,
some always call `newNASMsg_sec` and some never do.
-/

namespace AaltoMME

open Base NAS

namespace EMMCtx

variable (P : Prims) (env : Env) (c : EMMCtx)

/-! ## The ECM session -/

/-- `ecm_send`.  Without an ECM session the message is dropped. -/
def ecmSend (pdu : List UInt8) : Outcome EMMCtx :=
  match c.ecm with
  | none => .ok (c.log (.ecmSend none c.sci pdu))
  | some id => do
    let _ ← c.derefEcm env
    pure (c.log (.ecmSend (some id) c.sci pdu))

/-- `ecm_sendUEContextReleaseCommand`. -/
def ecmSendUEContextReleaseCommand (cause : ReleaseCause) : Outcome EMMCtx :=
  match c.ecm with
  | none => .ok c
  | some id => do
    let _ ← c.derefEcm env
    pure (c.log (.ueContextRelease id cause))

/-- `ecmSession_getTAIlist`, the octets of the list; `list` starts at the second one. -/
def tAIlist (e : ECMSession) : List UInt8 := 0 :: (e.sn ++ e.tAC)

/-- `emmCtx_newGUTI`.  The salt of the M-TMSI is `r & r << 32`. -/
def emmCtxNewGUTI : Outcome EMMCtx :=
  if c.guti.mtmsi ≠ 0 then .ok c
  else do
    let e ← c.derefEcm env
    let emm ← c.ofEcm env e
    let r := env.rand.toUInt64
    let mtmsi := P.gInt64Hash (emm.imsi ^^^ (r &&& (r <<< 32)))
    let c := { c with guti := ⟨e.sn, env.mmegi, env.mmec, mtmsi⟩ }
    pure (c.log (.registerEMMCtxt emm.self (if emm.self = c.self then mtmsi else emm.guti.mtmsi)))

/-! ## Keys for the access stratum -/

/-- `generate_KeNB`. -/
def generateKeNB (kasme : List UInt8) (ulNASCount : UInt32) : List UInt8 :=
  P.hmacSha256 kasme (0x11 :: octets32 ulNASCount ++ [0x00, 0x04])

/-- `emm_getKeNB`. -/
def emmGetKeNB : List UInt8 := generateKeNB P c.kasme c.nasUlCountForSC

/-- `emm_getNH`: the pair that is handed out, and the context with the advanced chain. -/
def emmGetNH : List UInt8 × UInt8 × EMMCtx :=
  let (oldNh, oldNcc, ncc) :=
    if c.hop.nh = List.replicate 32 0 then (c.emmGetKeNB P, (0 : UInt8), (0 : UInt8))
    else (c.hop.nh, c.hop.ncc, c.hop.ncc)
  let nh := P.hmacSha256 c.kasme (0x12 :: oldNh ++ [0x00, 0x20])
  (oldNh, oldNcc &&& 7, { c with hop := ⟨nh, ncc + 1, oldNh, oldNcc⟩ })

/-- `ecm_sendCtxtSUReq` for the first session of a list. -/
def ecmSendCtxtSUReq (pdu : Option (List UInt8)) (sessions : List Nat) : Outcome EMMCtx :=
  match c.ecm with
  | none => .ok (pdu.elim c fun m => c.log (.ecmSend none c.sci m))
  | some id => do
    let e ← c.derefEcm env
    let emm ← c.ofEcm env e
    match sessions with
    | [] => .error .nullDeref
    | first :: _ =>
      let session ← c.session first
      let bearer ← c.bearer session.defaultBearer
      let req : CtxtSUReq :=
        { ambrDl := emm.subs.ambrDl
          ambrUl := emm.subs.ambrUl
          nasPdu := pdu.filter (· ≠ [])
          eRABId := bearer.ebi
          transportLayerAddress := bearer.s1uSgw.addr
          gtpTEID := bearer.s1uSgw.teid
          encryptionAlgorithms := (emm.ueCapabilities.getD 0 0).toUInt16 <<< 8
          integrityProtectionAlgorithms := (emm.ueCapabilities.getD 1 0).toUInt16 <<< 8
          securityKey := emm.emmGetKeNB P }
      pure (c.log (.ctxtSUReq id c.sci emm.nasUlCountForSC req))

/-! ## Protected and plain messages -/

/-- `newNASMsg_sec` on the handler of the context; `unset` is what the caller's length holds when
nothing is built. -/
def emmNewNASMsgSec (s : SecurityHeaderType) (plain : List UInt8) (unset : Outcome (List UInt8)) :
    Outcome (EMMCtx × List UInt8) := do
  match ← newNASMsgSec P c.parser epsMobilityManagementMessages s .downLink plain with
  | some (h, out) => pure ({ c with parser := h }, out)
  | none =>
    let out ← unset
    pure (c, out)

/-- Build a protected message and send it. -/
def sendSec (s : SecurityHeaderType) (plain : List UInt8) (unset : Outcome (List UInt8)) :
    Outcome EMMCtx := do
  let (c, out) ← c.emmNewNASMsgSec P s plain unset
  c.ecmSend env out

/-- Protect a message if there is a security context, otherwise send it as it is. -/
def sendIfSC (plain : List UInt8) (unset : Outcome (List UInt8)) : Outcome EMMCtx :=
  if c.sci then c.sendSec P env .integrityProtectedAndCiphered plain unset
  else c.ecmSend env plain

def noLength : Outcome (List UInt8) := .error .uninitialised

/-- The length is initialised with 0. -/
def zeroLength : Outcome (List UInt8) := .ok []

/-- `emm_sendAttachReject`, which is always called without an ESM message. -/
def emmSendAttachReject (cause : UInt8) : Outcome EMMCtx :=
  if !c.attachStarted then .ok c
  else
    let c := { c with attachStarted := false, s1BearersActive := false }
    c.sendIfSC P env [0x07, attachReject, cause] noLength

/-- `emm_sendServiceReject`. -/
def emmSendServiceReject (cause : UInt8) : Outcome EMMCtx := do
  let c ← c.sendIfSC P env [0x07, serviceReject, cause] noLength
  pure (c.emmChangeState .deregistered)

/-- `emm_sendTAUReject`. -/
def emmSendTAUReject (cause : UInt8) : Outcome EMMCtx :=
  c.sendIfSC P env [0x07, trackingAreaUpdateReject, cause] zeroLength

/-- `emm_internalSendESM`. -/
def emmInternalSendESM (msg : List UInt8) : Outcome EMMCtx := c.sendIfSC P env msg noLength

/-- `emm_sendESM`: only two states have the operation. -/
def emmSendESM (msg : List UInt8) : Outcome EMMCtx :=
  match c.stateName with
  | .registered | .specificProcedureInitiated => c.emmInternalSendESM P env msg
  | _ => .error .nullCall

/-- `emm_nextKSI`. -/
def emmNextKSI (k : UInt8) : UInt8 := if k < 6 then k + 1 else 1

/-- `emm_generateNewKSI`. -/
def emmGenerateNewKSI (k1 k2 : UInt8) : UInt8 :=
  let k2 := emmNextKSI k2
  if k1 = k2 then emmNextKSI k2 else k2

/-- `emmCtx_getFirstAuthQuadruplet`, dereferenced; element 0 of an empty array is NULL or dangling. -/
def firstAuthQuadruplet : Outcome AuthQuadruplet :=
  match c.authQuadrs with
  | [] => .error .uninitialised
  | q :: _ => .ok q

/-- `emm_sendAuthRequest`. -/
def emmSendAuthRequest : Outcome EMMCtx := do
  let sec ← c.firstAuthQuadruplet
  let c := { c with ksi := emmGenerateNewKSI c.ksi c.msg.ksi }
  let buffer := [0x07, authenticationRequest, c.ksi &&& 0x0F] ++ sec.rAND ++ 16 :: sec.aUTN
  let c ← c.ecmSend env buffer
  pure ((c.emmSetTimer .t3460 buffer).emmChangeState .commonProcedureInitiated)

/-- The capabilities that the Security Mode Command replays, from 5 octets on the stack. -/
def replayedCapabilities : Outcome (List UInt8) :=
  if 5 < c.ueCapabilitiesLen then .error .overflow
  else
    let cap := c.ueCapabilities.take c.ueCapabilitiesLen ++ List.replicate (5 - c.ueCapabilitiesLen) 0
    .ok (cap.take 3 ++ [cap.getD 3 0 &&& 0x7F,
      ((c.msNetCap.getD 0 0 &&& 0x80) >>> 1) ||| ((c.msNetCap.getD 1 0 &&& 0x7E) >>> 1)])

/-- `emm_sendSecurityModeCommand`. -/
def emmSendSecurityModeCommand : Outcome EMMCtx := do
  let cap ← c.replayedCapabilities
  let plain := [0x07, securityModeCommand, (NASEEA.eea0.octet <<< 4) ||| NASEIA.eia2.octet,
    c.ksi &&& 0x0F, 5] ++ cap ++ [0xC1]
  let c ← c.sendSec P env .integrityProtectedWithNewEPSSecurityContext plain noLength
  pure ((c.emmSetTimer .t3460 plain).emmChangeState .commonProcedureInitiated)

/-- `emm_sendIdentityReq`. -/
def emmSendIdentityReq : Outcome EMMCtx :=
  let buffer := [0x07, identityRequest, 1]
  (c.emmSetTimer .t3470 buffer).ecmSend env buffer

/-- The tail that Attach Accept and Tracking Area Update Accept add for a combined procedure. -/
def combinedResult (lAI mtmsi : List UInt8) : List UInt8 :=
  (if c.msg.additionalUpdateType && c.msg.smsOnly then []
    else 0x13 :: lAI ++ [0x23, 5, 0xF4] ++ mtmsi) ++
  if c.msg.additionalUpdateType then [0xF0 ||| if c.msg.smsOnly then 2 else 0] else []

/-- `emm_sendTAUAccept`. -/
def emmSendTAUAccept : Outcome EMMCtx := do
  let e ← c.derefEcm env
  let combined := c.updateResult = 1 || c.updateResult = 5
  let plain := [0x07, trackingAreaUpdateAccept, c.updateResult &&& 0x0F, 0x5A, c.t3412, 0x50, 11, 0xF6]
    ++ c.guti.octets ++ 0x54 :: 6 :: tAIlist e
    ++ (if c.msg.bearerCtxI then [0x57, 2, 0x20, 0x00] else [])
    ++ if combined then c.combinedResult (e.sn ++ e.tAC) (hostOctets c.guti.mtmsi) else []
  let (c, out) ← c.emmNewNASMsgSec P .integrityProtectedAndCiphered plain zeroLength
  (c.emmSetTimer .t3450 plain).ecmSend env out

/-- `sendAuthReject`. -/
def sendAuthReject : Outcome EMMCtx := do
  let c ← c.ecmSend env [0x07, authenticationReject]
  pure (c.emmChangeState .deregistered)

/-- `emm_detachAccept`. -/
def emmDetachAccept : Outcome EMMCtx := do
  let c := { c with s1BearersActive := false }
  let c ← if c.msg.detachType &&& 0x8 ≠ 0x8 then c.ecmSend env [0x07, detachAccept] else pure c
  (c.emmChangeState .deregistered).ecmSendUEContextReleaseCommand env .detach

/-- The Attach Accept of `emmAttachAccept`.  The M-TMSI of the MS identity is read from a local that
is never written. -/
def attachAcceptPlain (e : ECMSession) (esmMsg : List UInt8) : List UInt8 :=
  [0x07, attachAccept, c.attachResult &&& 0x0F, c.t3412, 6] ++ tAIlist e
    ++ octetsOfNat 2 esmMsg.length ++ esmMsg ++ [0x50, 11, 0xF6] ++ c.guti.octets
    ++ if c.attachResult = 2 then c.combinedResult (e.sn ++ e.tAC) (List.replicate 4 env.junk) else []

/-- `emmAttachAccept`, the operation of EMM_SpecificProcedureInitiated; the plain message is built in
250 octets on the stack. -/
def emmAttachAcceptSPI (esmMsg : List UInt8) (sessions : List Nat) : Outcome EMMCtx :=
  if !c.attachStarted then .ok c
  else do
    let c := { c with attachStarted := false }
    let e ← c.derefEcm env
    let c ← c.emmCtxNewGUTI P env
    let plain := c.attachAcceptPlain env e esmMsg
    if 250 < plain.length then .error .overflow
    else
      let (c, out) ← c.emmNewNASMsgSec P .integrityProtectedAndCiphered plain noLength
      let c := { c with s1BearersActive := true }
      (c.emmSetTimer .t3450 plain).ecmSendCtxtSUReq P env (some out) sessions

/-- `emm_attachAccept`: only one state has the operation. -/
def emmAttachAccept (esmMsg : List UInt8) (sessions : List Nat) : Outcome EMMCtx :=
  match c.stateName with
  | .specificProcedureInitiated => c.emmAttachAcceptSPI P env esmMsg sessions
  | _ => .error .nullCall

/-! ## What the ECM session is given -/

section Post

variable {P env c} {Q : EMMCtx → Prop}

theorem post_ecmSend {pdu : List UInt8} (h : ∀ ecm, Q (c.log (.ecmSend ecm c.sci pdu))) : Post (c.ecmSend env pdu) Q := by
  unfold ecmSend
  split
  · exact .ok (h _)
  · exact .of_bind fun _ => .ok (h _)

theorem post_ecmSendUEContextReleaseCommand {cause : ReleaseCause} (h : Q c)
    (hlog : ∀ id, Q (c.log (.ueContextRelease id cause))) : Post (c.ecmSendUEContextReleaseCommand env cause) Q := by
  unfold ecmSendUEContextReleaseCommand
  split
  · exact .ok h
  · exact .of_bind fun _ => .ok (hlog _)

/-- A context setup request takes its key from the context that the ECM session points to. -/
theorem post_ecmSendCtxtSUReq {pdu : Option (List UInt8)} {sessions : List Nat}
    (h : Q (pdu.elim c fun m => c.log (.ecmSend none c.sci m)))
    (hlog : ∀ e emm id (req : CtxtSUReq), c.derefEcm env = .ok e → c.ofEcm env e = .ok emm →
      req.nasPdu = pdu.filter (· ≠ []) → req.securityKey = emm.emmGetKeNB P →
      Q (c.log (.ctxtSUReq id c.sci emm.nasUlCountForSC req))) :
    Post (c.ecmSendCtxtSUReq P env pdu sessions) Q := by
  unfold ecmSendCtxtSUReq
  split
  · exact .ok h
  refine .bind_of_eq fun e he => .bind_of_eq fun emm hemm => ?_
  split
  · exact .error
  · exact .of_bind fun _ => .of_bind fun _ => .ok (hlog e emm _ _ he hemm rfl rfl)

end Post

end EMMCtx

end AaltoMME
