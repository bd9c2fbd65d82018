import AaltoMME.ESM.Session

/-!
# Procedures of the EMM layer

The functions of `NAS_EMM.c` that several EMM states share: reading the requests of the UE into the
context, stopping a context, the start of an authentication and key agreement run (AKA) with the
calls to the HSS, and the part of the security protected handlers that comes before the switch on the
message type.
-/

namespace AaltoMME

open Base NAS

/-- Memory that holds the given octets; what follows them is unspecified. -/
def Env.heap (env : Env) (l : List UInt8) : Mem := fun i => l.getD i env.junk

/-! ## Mobile identities -/

def mobileIdType (v : Mem) : UInt8 := v 0 &&& 0x07

/-- The loop that reads an IMSI.  Its bound is `l - 1`, which for an empty identity is the largest
unsigned integer. -/
def imsiOfMobileId (v : Mem) (l : UInt8) : Outcome UInt64 :=
  if l = 0 then .error .overread
  else
    let n := l.toNat - 1
    let digit (m : UInt64) (d : UInt8) : UInt64 := m * 10 + d.toUInt64
    let mobid := (List.range n).foldl (fun m i => digit (digit m (v i >>> 4)) (v (i + 1) &&& 0x0F)) 0
    .ok (if (v 0 >>> 3) &&& 1 = 1 then digit mobid (v n >>> 4) else mobid)

/-- `memcpy` of a value over the start of an array of `size` octets. -/
def copyInto (size : Nat) (dst v : List UInt8) : Outcome (List UInt8) :=
  if size < v.length then .error .overflow else .ok (v ++ dst.drop v.length)

namespace EMMCtx

variable (P : Prims) (env : Env) (c : EMMCtx)

/-! ## Requests of the UE -/

/-- The UE network capability, copied with its length. -/
def setUECapabilities (v : List UInt8) : Outcome EMMCtx := do
  let cap ← copyInto 15 c.ueCapabilities v
  pure { c with ueCapabilities := cap, ueCapabilitiesLen := v.length }

/-- The value of a TLV option of a message. -/
def tlvValue (msg : GenericNASMsg) (o : Nat) : List UInt8 := msg.read (o + 2) (msg (o + 1)).toNat

/-- The option 0x31, MS network capability. -/
def setMsNetCap (msg : GenericNASMsg) (optionals maxOpts : Nat) : Outcome EMMCtx :=
  match nasNASOptLookup msg optionals maxOpts 0x31 with
  | none => .ok c
  | some o => do
    let cap ← copyInto 10 c.msNetCap (tlvValue msg o)
    pure { c with msNetCap := cap, msNetCapLen := (tlvValue msg o).length }

/-- The option 0xF, additional update type. -/
def setAdditionalUpdateType (msg : GenericNASMsg) (optionals maxOpts : Nat) : EMMCtx :=
  match nasNASOptLookup msg optionals maxOpts 0xF with
  | none => c
  | some o =>
    { c with msg.additionalUpdateType := true, msg.smsOnly := msg o &&& 0x0F ≠ 0 }

/-- The mobile identity of an Attach Request. -/
def attachMobileId (msg : GenericNASMsg) : Outcome EMMCtx :=
  let id := msg.shift 6
  if mobileIdType id = 1 then do
    let imsi ← imsiOfMobileId id (msg 5)
    pure { c with imsi }
  else if mobileIdType id = 6 then .ok { c with msg.guti := .ofMem id 1 }
  else .ok c

/-- The capabilities and the options of an Attach Request. -/
def attachCapabilities (msg : GenericNASMsg) : Outcome EMMCtx := do
  let c ← c.setUECapabilities (msg.read 262 (msg 261).toNat)
  let c ← c.setMsNetCap msg attachRequestOptionals 17
  let c := { c with msg.additionalUpdateType := false }
  pure (c.setAdditionalUpdateType msg attachRequestOptionals 17)

/-- `processAttach`. -/
def processAttach (msg : GenericNASMsg) : Outcome EMMCtx := do
  let c := { c with
    attachStarted := true
    msg.attachType := msg 3 &&& 0x0F
    msg.ksi := (msg 4 >>> 4) &&& 0x07
    pendingESMmsg := c.pendingESMmsg ++ [msg.read 519 (msg.read16 517)] }
  let c ← c.attachMobileId msg
  c.attachCapabilities msg

/-- `emm_selectAttachType`: the context to go on with, or `none` to stop. -/
def emmSelectAttachType : Option EMMCtx :=
  if c.msg.attachType = 2 then some { c with attachResult := 2 }
  else if c.msg.attachType = 4 || c.msg.attachType = 7 then none
  else some { c with attachResult := 1 }

/-- `processDetachReq`.  An identity that does not match is only logged. -/
def processDetachReq (msg : GenericNASMsg) : Outcome EMMCtx := do
  let c := { c with msg.detachType := msg 3 &&& 0x0F, msg.ksi := msg 4 >>> 4 }
  let id := msg.shift 6
  if mobileIdType id = 1 then
    let _ ← imsiOfMobileId id (msg 5)
    pure c
  else pure c

/-- `emm_processTAUReq`. -/
def emmProcessTAUReq (msg : GenericNASMsg) : Outcome EMMCtx := do
  let opts := trackingAreaUpdateRequestOptionals
  let c := { c with
    msg.updateType := msg 3 &&& 0x07
    msg.activeFlag := msg 3 &&& 0x08 ≠ 0
    msg.ksi := (msg 4 >>> 4) &&& 0x07 }
  let id := msg.shift 6
  let c := if mobileIdType id = 6 then { c with msg.guti := .ofMem id 1 } else c
  let c ←
    match nasNASOptLookup msg opts 22 0x58 with
    | none => pure c
    | some o => c.setUECapabilities (tlvValue msg o)
  let c :=
    match nasNASOptLookup msg opts 22 0x57 with
    | none => { c with msg.bearerCtxI := false }
    | some o =>
      if msg (o + 1) = 2 then { c with msg.bearerCtxI := true, msg.bearerCtx := tlvValue msg o }
      else { c with msg.bearerCtxI := false }
  let c ← c.setMsNetCap msg opts 22
  pure (c.setAdditionalUpdateType msg opts 22)

/-- `emm_selectUpdateType`: the context to go on with, or `none` to stop. -/
def emmSelectUpdateType : Option EMMCtx :=
  if c.msg.updateType = 0 || c.msg.updateType = 3 || c.msg.updateType = 4 || c.msg.updateType = 5 then
    some { c with updateResult := 0 }
  else if c.msg.updateType = 1 || c.msg.updateType = 2 then some { c with updateResult := 1 }
  else none

/-- `ecmSession_getTAI` into the context. -/
def getTAI : Outcome EMMCtx := do
  let e ← c.derefEcm env
  pure { c with sn := e.sn, tac := e.tAC }

/-! ## Stopping -/

/-- `emm_stop`. -/
def emmStop : Outcome EMMCtx := do
  let c ← c.esmErrorEMM env
  pure ({ c with activeTimers := fun _ => none }.emmChangeState .deregistered)

/-- `emm_registerECM`. -/
def emmRegisterECM (ecm : Nat) : Outcome EMMCtx := do
  let c ← c.ecmSendUEContextReleaseCommand env .normalRelease
  pure { c with ecm := some ecm }

/-- `emm_deregister`. -/
def emmDeregister : EMMCtx :=
  let c := if c.stateName ≠ .deregistered then c.emmSetTimer .tMobileReachable [] else c
  { c with hop := .zero, ecm := none }

/-! ## Authentication and key agreement -/

/-- `emmCtx_setNewAuthQuadruplet`. -/
def emmCtxSetNewAuthQuadruplet (q : AuthQuadruplet) : EMMCtx :=
  { c with authQuadrs := c.authQuadrs ++ [q], authQuadrsLen := c.authQuadrsLen + 1 }

/-- `emmCtx_freeAuthQuadruplets`: the length is kept apart from the array, and GLib ignores a range
that is longer than the array. -/
def emmCtxFreeAuthQuadruplets : EMMCtx :=
  { c with
    authQuadrs := if c.authQuadrsLen.toNat ≤ c.authQuadrs.length
      then c.authQuadrs.drop c.authQuadrsLen.toNat else c.authQuadrs
    authQuadrsLen := 0 }

/-- `emmCtx_removeFirstAuthQuadruplet`: the length is decremented even if nothing is removed. -/
def emmCtxRemoveFirstAuthQuadruplet : EMMCtx :=
  { c with authQuadrs := c.authQuadrs.tail, authQuadrsLen := c.authQuadrsLen - 1 }

/-- `emm_setSecurityQuadruplet`. -/
def emmSetSecurityQuadruplet (sec : AuthQuadruplet) : EMMCtx :=
  { c with oldKasme := c.kasme, kasme := sec.kASME }.emmCtxRemoveFirstAuthQuadruplet

/-- `emm_processS6aError`, that is `processError` of the current state. -/
def emmProcessS6aError (unknownEPSSubscription : Bool) : Outcome EMMCtx :=
  match c.stateName with
  | .deregistered =>
    if unknownEPSSubscription && c.attachStarted then c.emmSendAttachReject P env 0x08 else .ok c
  | .commonProcedureInitiated => do
    let c ← if unknownEPSSubscription && c.attachStarted then c.emmSendAttachReject P env 0x08
      else pure c
    c.emmStop env
  | _ => .ok c

/-- `s6a_GetAuthInformation` with `emm_sendAuthRequest` and `emm_processS6aError` as callbacks. -/
def s6aGetAuthInformation : Outcome EMMCtx :=
  match env.hssAuth with
  | .noResult => .error .nullDeref
  | .noRows => c.emmProcessS6aError P env true
  | .manyRows => c.emmSendAuthRequest env
  | .vector q => do
    let _ ← c.derefEcm env
    (c.emmCtxSetNewAuthQuadruplet q).emmSendAuthRequest env

/-- `s6a_SynchAuthVector` with `emm_sendAuthRequest` and `syncError` as callbacks. -/
def s6aSynchAuthVector : Outcome EMMCtx :=
  match env.hssSync with
  | .noResult => .error (.gError "'mysql_store_result()' returned NULL")
  | .wrongRows => c.emmSendAuthRequest env
  | .invalidAuts => do
    let _ ← c.firstAuthQuadruplet
    c.emmSendAuthRequest env
  | .alreadySynchronized => do
    let _ ← c.firstAuthQuadruplet
    c.emmCtxFreeAuthQuadruplets.emmStop env
  | .vector q => do
    let _ ← c.firstAuthQuadruplet
    let _ ← c.derefEcm env
    (c.emmCtxFreeAuthQuadruplets.emmCtxSetNewAuthQuadruplet q).emmSendAuthRequest env

/-- `emm_removeCurrentSC`.  The NAS handler is not touched. -/
def emmRemoveCurrentSC : EMMCtx :=
  { c with oldKsi := c.ksi, ksi := 7, sci := false, hop := .zero, nasUlCountForSC := 0 }.log
    .removeCurrentSC

/-- `emm_triggerAKAprocedure`. -/
def emmTriggerAKAprocedure : Outcome EMMCtx := do
  let c := c.emmRemoveCurrentSC
  if c.imsi = 0 then
    let c ← c.emmSendIdentityReq env
    pure (c.emmChangeState .commonProcedureInitiated)
  else
    let c ← c.emmCtxNewGUTI P env
    if c.authQuadrsLen = 0 then c.s6aGetAuthInformation P env
    else if c.ksi = 7 || c.ksi ≠ c.msg.ksi then
      let c ← c.emmSendAuthRequest env
      pure (c.emmChangeState .commonProcedureInitiated)
    else .error (.gError "Authentication failure and not sending Auth Req?")

/-! ## After the authentication -/

/-- `emm_processFirstESMmsg`. -/
def emmProcessFirstESMmsg : Outcome EMMCtx :=
  match c.pendingESMmsg with
  | [] => .error .uninitialised
  | raw :: _ => do
    let msg := (decNAS (env.heap raw) (UInt64.ofNat raw.length)).2
    let c ← c.esmProcessMsg P env msg
    pure { c with pendingESMmsg := c.pendingESMmsg.tail }

/-- `emm_selectGateways`. -/
def emmSelectGateways : Outcome EMMCtx :=
  { c with sgwIP := some ⟨env.sgw, 2123⟩, pgwIP := some ⟨env.pgw, 2123⟩ }.emmProcessFirstESMmsg P env

/-- `s6a_UpdateLocation` with `emm_selectGateways` as callback. -/
def s6aUpdateLocation : Outcome EMMCtx :=
  match env.hssLocation with
  | .failed => c.emmSelectGateways P env
  | .noRow => .error .nullDeref
  | .profile msisdn subs => { c with msisdn, subs }.emmSelectGateways P env

/-! ## Security protected messages -/

/-- What the handlers of security protected messages do before they look at the message: authenticate
and decipher it, or only decode it, and drop it if it needs authentication and has none. -/
def receiveSecMsg (authenticate : Bool) (buf : Mem) (size : UInt64) :
    Outcome (EMMCtx × Option (GenericNASMsg × Bool)) := do
  if authenticate then
    let r ← nasAuthenticateMsg P c.parser buf size.toUInt32 .upLink
    let c := { c with parser := r.handler }
    if r.ret = 0 then .error (.gError "Received malformed NAS packet")
    else if r.ret = 2 then pure (c, none)
    else
      let (ok, msg) ← decSecNAS c.parser buf size
      if !ok then .error (.gError "NAS Decyphering Error")
      else if !r.isAuth && nasIsAuthRequired msg.emmMessageType then pure (c, none)
      else pure (c, some (msg, r.isAuth))
  else
    let msg := (decNAS (buf.shift 6) (size - 6)).2
    if nasIsAuthRequired msg.emmMessageType then pure (c, none) else pure (c, some (msg, false))

end EMMCtx

end AaltoMME
