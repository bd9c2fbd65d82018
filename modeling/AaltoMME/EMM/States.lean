import AaltoMME.EMM.Common

/-!
# The EMM state machine

One section for each file `EMM_*.c`: what the state does with a plain message, with a security
protected one, with a Service Request and with the expiration of a timer.  The dispatch on the current
state is at the end.
-/

namespace AaltoMME

open Base NAS

namespace EMMCtx

variable (P : Prims) (env : Env) (c : EMMCtx)

/-- The case DetachRequest, which three states share. -/
def detachRequestCase (msg : GenericNASMsg) : Outcome EMMCtx := do
  let c ← c.processDetachReq msg
  if c.ksi ≠ c.msg.ksi then pure c else c.esmDetach env

/-- The case AttachRequest of a security protected message, after the sessions of an earlier attach
are gone. -/
def attachRequestCase (msg : GenericNASMsg) (isAuth : Bool) : Outcome EMMCtx := do
  let c ← c.getTAI env
  let c ← c.processAttach msg
  match c.emmSelectAttachType with
  | none => pure c
  | some c =>
    if !isAuth then c.emmTriggerAKAprocedure P env
    else
      let c := { c with nasUlCountForSC := nasGetLastCount c.parser .upLink }
      (c.emmChangeState .specificProcedureInitiated).emmProcessFirstESMmsg P env

/-! ## EMM_Deregistered -/

/-- `emmProcessMsg` of EMM_Deregistered. -/
def deregProcessMsg (msg : GenericNASMsg) : Outcome EMMCtx :=
  if msg.securityHeaderType ≠ 0 then .ok c
  else if msg.emmMessageType = attachRequest then do
    let c ← c.getTAI env
    let c ← c.processAttach msg
    match c.emmSelectAttachType with
    | none => pure c
    | some c => c.emmTriggerAKAprocedure P env
  else if msg.emmMessageType = trackingAreaUpdateRequest then c.emmSendTAUReject P env 0x0A
  else .ok c

/-- `emm_processSecMsg` of EMM_Deregistered; it reads the ECM session first. -/
def deregProcessSecMsg (buf : Mem) (size : UInt64) : Outcome EMMCtx := do
  let _ ← c.derefEcm env
  let (c, m) ← c.receiveSecMsg P c.sci buf size
  match m with
  | none => pure c
  | some (msg, isAuth) =>
    if msg.emmMessageType = attachRequest then c.attachRequestCase P env msg isAuth
    else if msg.emmMessageType = trackingAreaUpdateRequest then c.emmSendTAUReject P env 0x0A
    else if msg.emmMessageType = detachRequest then c.detachRequestCase env msg
    else pure c

/-- `emm_processSrvReq` of EMM_Deregistered. -/
def deregProcessSrvReq : Outcome EMMCtx := c.emmSendServiceReject P env 0x0A

/-! ## EMM_CommonProcedureInitiated -/

/-- `processAuthResp`. -/
def processAuthResp (msg : GenericNASMsg) : Outcome EMMCtx :=
  if msg 3 ≠ 8 then .ok c
  else do
    let sec ← c.firstAuthQuadruplet
    if msg.read 4 8 ≠ sec.xRES then c.sendAuthReject env
    else
      let c := c.emmSetSecurityQuadruplet sec
      let c := { c with parser := nasSetSecurity P c.parser .eia2 .eea0 c.kasme }
      (c.log (.authenticated (msg.read 4 8) sec)).emmSendSecurityModeCommand P env

/-- `processAuthFailure`; the cause 0x15 is a synch failure. -/
def processAuthFailure (msg : GenericNASMsg) : Outcome EMMCtx :=
  if msg 3 = 0x15 then c.s6aSynchAuthVector env
  else c.emmCtxRemoveFirstAuthQuadruplet.emmStop env

/-- `processIdentityRsp`. -/
def processIdentityRsp (msg : GenericNASMsg) : Outcome EMMCtx := do
  let id := msg.shift 4
  let c ←
    if mobileIdType id = 1 then do
      let imsi ← imsiOfMobileId id (msg 3)
      pure { c with imsi }
    else pure c
  c.emmCtxNewGUTI P env

/-- The cases that the plain and the protected handler share; `rest` is the rest of the switch. -/
def commonProcedureCases (msg : GenericNASMsg) (rest : Outcome EMMCtx) : Outcome EMMCtx :=
  if msg.emmMessageType = identityResponse then do
    let c ← (c.emmStopTimer .t3470).processIdentityRsp P env msg
    c.s6aGetAuthInformation P env
  else if msg.emmMessageType = authenticationResponse then
    (c.emmStopTimer .t3460).processAuthResp P env msg
  else if msg.emmMessageType = authenticationFailure then
    (c.emmStopTimer .t3460).processAuthFailure env msg
  else if msg.emmMessageType = securityModeReject then .ok (c.emmStopTimer .t3460)
  else rest

/-- `emmProcessMsg` of EMM_CommonProcedureInitiated. -/
def cpiProcessMsg (msg : GenericNASMsg) : Outcome EMMCtx :=
  if msg.securityHeaderType ≠ 0 then
    .error (.gError "NAS message with security is not processed here")
  else c.commonProcedureCases P env msg (.ok c)

/-- The case SecurityModeComplete.  Its guard `! s == 4` compares a truth value with 4, so it never
returns. -/
def securityModeCompleteCase (isAuth : Bool) : Outcome EMMCtx :=
  let c := c.emmStopTimer .t3460
  let c := { c with sci := true, nasUlCountForSC := nasGetLastCount c.parser .upLink }
  let c := c.log (.securityModeComplete c.parser isAuth)
  (c.emmChangeState .specificProcedureInitiated).s6aUpdateLocation P env

/-- `emm_processSecMsg` of EMM_CommonProcedureInitiated. -/
def cpiProcessSecMsg (s : SecurityHeaderType) (buf : Mem) (size : UInt64) : Outcome EMMCtx := do
  let (c, m) ← c.receiveSecMsg P
    (c.sci || s == .integrityProtectedAndCipheredWithNewEPSSecurityContext) buf size
  match m with
  | none => pure c
  | some (msg, isAuth) =>
    c.commonProcedureCases P env msg <|
      if msg.emmMessageType = securityModeComplete then c.securityModeCompleteCase P env isAuth
      else if !c.s1BearersActive || !c.attachStarted then
        c.ecmSendUEContextReleaseCommand env .normalRelease
      else pure c

/-- The cases TMOBILE_REACHABLE and TIMPLICIT_DETACH, which three states share. -/
def reachabilityTimeout (code : EMMTimerCode) : Outcome EMMCtx :=
  match code with
  | .tMobileReachable => .ok ((c.emmStopTimer .tMobileReachable).emmSetTimer .tImplicitDetach [])
  | .tImplicitDetach => (c.emmStopTimer .tImplicitDetach).emmStop env
  | _ => .ok c

/-- The message type that a timeout handler reads from the stored message, whose data is NULL if the
message is empty. -/
def storedType (buf : List UInt8) : Outcome UInt8 :=
  match buf with
  | [] => .error .nullDeref
  | _ :: rest => .ok (rest.headD env.junk)

/-- `emm_processTimeout` of EMM_CommonProcedureInitiated. -/
def cpiProcessTimeout (buf : List UInt8) (code : EMMTimerCode) : Outcome EMMCtx := do
  let type ← storedType env buf
  match code with
  | .t3460 =>
    if type = securityModeCommand then
      c.sendSec P env .integrityProtectedWithNewEPSSecurityContext buf zeroLength
    else c.sendIfSC P env buf zeroLength
  | .t3470 => c.ecmSend env buf
  | _ => c.reachabilityTimeout env code

/-- `emm_processTimeoutMax` of EMM_CommonProcedureInitiated.  For T3470 the context is freed and then
read. -/
def cpiProcessTimeoutMax (buf : List UInt8) (code : EMMTimerCode) : Outcome EMMCtx := do
  let _ ← storedType env buf
  match code with
  | .t3460 => c.emmStop env
  | .t3470 => do
    let _ ← c.emmStop env
    .error .useAfterFree
  | _ => pure c

/-! ## EMM_Registered -/

/-- `emmProcessMsg` of EMM_Registered. -/
def regProcessMsg (msg : GenericNASMsg) : Outcome EMMCtx :=
  if msg.emmMessageType = attachRequest then do
    let c ← c.esmErrorEMM env
    let c ← c.getTAI env
    let c ← c.processAttach msg
    match c.emmSelectAttachType with
    | none => pure c
    | some c => c.emmTriggerAKAprocedure P env
  else .ok c

/-- The case TrackingAreaUpdateRequest of EMM_Registered. -/
def tauRequestCase (msg : GenericNASMsg) (isAuth : Bool) : Outcome EMMCtx := do
  let c ← c.getTAI env
  let c ← c.emmProcessTAUReq msg
  match c.emmSelectUpdateType with
  | none => pure c
  | some c =>
    if !isAuth then c.emmTriggerAKAprocedure P env
    else
      let c := { c with nasUlCountForSC := nasGetLastCount c.parser .upLink }
      let c ← c.emmSendTAUAccept P env
      pure (c.emmChangeState .specificProcedureInitiated)

/-- Where the handlers of EMM_Registered and EMM_SpecificProcedureInitiated go on with a security
protected message: it is dropped, handed to `esm_processMsg`, or left to the switch on its type. -/
inductive SecMsgCase
  | drop
  | esm (msg : GenericNASMsg)
  | emm (msg : GenericNASMsg) (isAuth : Bool)

/-- The part of the two handlers before the switch; `p` is the protocol discriminator of the outer
header. -/
def secMsgCase (p : UInt8) (buf : Mem) (size : UInt64) : Outcome (EMMCtx × SecMsgCase) := do
  let (c, m) ← c.receiveSecMsg P true buf size
  match m with
  | none => pure (c, .drop)
  | some (msg, isAuth) =>
    if p = epsSessionManagementMessages || msg.protocolDiscriminator = epsSessionManagementMessages
    then pure (c, .esm msg)
    else pure (c, .emm msg isAuth)

/-- What the two states do with a security protected message; `emm` is the switch of the state. -/
def protectedMsg (p : UInt8) (buf : Mem) (size : UInt64)
    (emm : EMMCtx → GenericNASMsg → Bool → Outcome EMMCtx) : Outcome EMMCtx :=
  if !c.sci then .error (.gError "Wrong state to be with a security context")
  else do
    let (c, k) ← c.secMsgCase P p buf size
    match k with
    | .drop => pure c
    | .esm msg => c.esmProcessMsg P env msg
    | .emm msg isAuth => emm c msg isAuth

/-- The switch of `emm_processSecMsg` of EMM_Registered. -/
def regSecMsgCases (msg : GenericNASMsg) (isAuth : Bool) : Outcome EMMCtx :=
  if msg.emmMessageType = attachRequest then do
    let c ← c.esmErrorEMM env
    c.attachRequestCase P env msg isAuth
  else if msg.emmMessageType = detachRequest then c.detachRequestCase env msg
  else if msg.emmMessageType = trackingAreaUpdateRequest then c.tauRequestCase P env msg isAuth
  else if !c.s1BearersActive then c.ecmSendUEContextReleaseCommand env .normalRelease
  else .ok c

/-- `emm_processSecMsg` of EMM_Registered. -/
def regProcessSecMsg (p : UInt8) (buf : Mem) (size : UInt64) : Outcome EMMCtx :=
  c.protectedMsg P env p buf size fun c msg isAuth => c.regSecMsgCases P env msg isAuth

/-- `emm_processSrvReq` of EMM_Registered. -/
def regProcessSrvReq (p : UInt8) (buf : Mem) (size : UInt64) : Outcome EMMCtx :=
  if !c.sci then .error (.gError "Wrong state to be without a security context")
  else do
    let r ← nasAuthenticateMsg P c.parser buf size.toUInt32 .upLink
    let c := { c with parser := r.handler }
    if r.ret = 0 then .error (.gError "Received malformed NAS packet")
    else if r.ret = 2 then pure c
    else if p ≠ epsMobilityManagementMessages then pure c
    else
      let c := { c with msg.ksi := (buf 1 &&& 0xE0) >>> 5 }
      if c.ksi ≠ c.msg.ksi || !r.isAuth then pure c
      else
        let c := { c with
          nasUlCountForSC := nasGetLastCount c.parser .upLink
          s1BearersActive := true }
        c.ecmSendCtxtSUReq P env none (c.esmGetSessions env)

/-! ## EMM_SpecificProcedureInitiated -/

/-- `processAttachComplete`. -/
def processAttachComplete (msg : GenericNASMsg) : Outcome EMMCtx :=
  let esmMsg := (decNAS (msg.shift 5) (UInt64.ofNat (msg.read16 3))).2
  ({ c with attachStarted := false }.emmChangeState .registered).esmProcessMsg P env esmMsg

/-- The switch of `emm_processSecMsg` of EMM_SpecificProcedureInitiated. -/
def spiSecMsgCases (msg : GenericNASMsg) : Outcome EMMCtx :=
  if msg.emmMessageType = attachComplete then (c.emmStopTimer .t3450).processAttachComplete P env msg
  else if msg.emmMessageType = trackingAreaUpdateComplete then do
    let c := c.emmStopTimer .t3450
    let c ← if !c.s1BearersActive then c.ecmSendUEContextReleaseCommand env .normalRelease else pure c
    pure (c.emmChangeState .registered)
  else if msg.emmMessageType = detachRequest then (c.emmStopTimer .t3450).detachRequestCase env msg
  else if !c.s1BearersActive || !c.attachStarted then
    c.ecmSendUEContextReleaseCommand env .normalRelease
  else .ok c

/-- `emm_processSecMsg` of EMM_SpecificProcedureInitiated. -/
def spiProcessSecMsg (p : UInt8) (buf : Mem) (size : UInt64) : Outcome EMMCtx :=
  c.protectedMsg P env p buf size fun c msg _ => c.spiSecMsgCases P env msg

/-- `emm_processTimeout` of EMM_SpecificProcedureInitiated. -/
def spiProcessTimeout (buf : List UInt8) (code : EMMTimerCode) : Outcome EMMCtx := do
  let _ ← storedType env buf
  match code with
  | .t3450 =>
    if c.sci then c.sendSec P env .integrityProtectedAndCiphered buf zeroLength else pure c
  | _ => c.reachabilityTimeout env code

/-- `emm_processTimeoutMax` of EMM_SpecificProcedureInitiated; the stored message of an attach is an
Attach Accept, but it is compared with the type of an Attach Complete. -/
def spiProcessTimeoutMax (buf : List UInt8) (code : EMMTimerCode) : Outcome EMMCtx := do
  let type ← storedType env buf
  match code with
  | .t3450 =>
    let c ← if type = attachComplete then c.emmStop env else pure (c.emmChangeState .registered)
    c.ecmSendUEContextReleaseCommand env .normalRelease
  | _ => pure c

/-! ## Dispatch -/

/-- The operation `processMsg` of the current state. -/
def stateProcessMsg (msg : GenericNASMsg) : Outcome EMMCtx :=
  match c.stateName with
  | .deregistered => c.deregProcessMsg P env msg
  | .commonProcedureInitiated => c.cpiProcessMsg P env msg
  | .registered => c.regProcessMsg P env msg
  | .specificProcedureInitiated | .deregisteredInitiated => .ok c

/-- The operation `processSecMsg` of the current state. -/
def stateProcessSecMsg (s : SecurityHeaderType) (p : UInt8) (buf : Mem) (size : UInt64) :
    Outcome EMMCtx :=
  match c.stateName with
  | .deregistered => c.deregProcessSecMsg P env buf size
  | .commonProcedureInitiated => c.cpiProcessSecMsg P env s buf size
  | .registered => c.regProcessSecMsg P env p buf size
  | .specificProcedureInitiated => c.spiProcessSecMsg P env p buf size
  | .deregisteredInitiated => .ok c

/-- The operation `processSrvReq` of the current state. -/
def stateProcessSrvReq (p : UInt8) (buf : Mem) (size : UInt64) : Outcome EMMCtx :=
  match c.stateName with
  | .deregistered => c.deregProcessSrvReq P env
  | .registered => c.regProcessSrvReq P env p buf size
  | .specificProcedureInitiated => c.emmStop env
  | .commonProcedureInitiated | .deregisteredInitiated => .ok c

/-- `emm_processMsg`. -/
def emmProcessMsg (buf : Mem) (size : UInt64) : Outcome EMMCtx :=
  let c := c.emmStopTimer .tMobileReachable
  match nasGetHeader buf size.toUInt32 with
  | none => .error (.gError "Empty NAS message buffer")
  | some (s, p) =>
    if s = .plainNAS then c.stateProcessMsg P env (decNAS buf size).2
    else if s.isProtected then c.stateProcessSecMsg P env s p buf size
    else if s = .serviceRequest then c.stateProcessSrvReq P env p buf size
    else .ok c

/-- The operation `processTimeout` of the current state. -/
def stateProcessTimeout (buf : List UInt8) (code : EMMTimerCode) : Outcome EMMCtx :=
  match c.stateName with
  | .commonProcedureInitiated => c.cpiProcessTimeout P env buf code
  | .registered => c.reachabilityTimeout env code
  | .specificProcedureInitiated => c.spiProcessTimeout P env buf code
  | .deregistered | .deregisteredInitiated => .ok c

/-- The operation `processTimeoutMax` of the current state. -/
def stateProcessTimeoutMax (buf : List UInt8) (code : EMMTimerCode) : Outcome EMMCtx :=
  match c.stateName with
  | .commonProcedureInitiated => c.cpiProcessTimeoutMax env buf code
  | .specificProcedureInitiated => c.spiProcessTimeoutMax env buf code
  | .registered | .deregistered | .deregisteredInitiated => .ok c

/-- The expiration of a timer: `timermgr` counts it, and after the last one removes the timer. -/
def timerExpires (code : EMMTimerCode) : Outcome EMMCtx :=
  match c.activeTimers code with
  | none => .ok c
  | some t =>
    if t.rtx < emmRtx code then
      { c with activeTimers := Function.update c.activeTimers code (some ⟨t.msg, t.rtx + 1⟩) }
        |>.stateProcessTimeout P env t.msg code
    else do
      let c ← c.stateProcessTimeoutMax env t.msg code
      pure (c.emmStopTimer code)

end EMMCtx

end AaltoMME
