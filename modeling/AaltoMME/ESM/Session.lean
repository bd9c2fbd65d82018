import AaltoMME.EMM.Send
import AaltoMME.ESM.APN

/-!
# EPS session management

`NAS_ESM.c`, `EPS_Session.c` and `ESM_BearerContext.c`: EPS sessions with their default bearers, the
ESM messages of the UE, and the callbacks that the S11 interface runs when a response arrives.  The
tables are hash tables, so "the first session" is the first one in an unspecified order.
-/

namespace AaltoMME

open Base NAS

/-- The item of an E-RAB list that the eNodeB sends: identity, GTP TEID and transport address. -/
structure ERABItem where
  eRABID : UInt8
  gTPTEID : List UInt8
  addrLen : Nat
  addr : List UInt8
  deriving DecidableEq, Repr

namespace EMMCtx

variable (P : Prims) (env : Env) (c : EMMCtx)

/-- The EPS sessions in the order of the hash table. -/
def esmGetSessions : List Nat := env.order (c.esm.sessions.map (·.id))

/-- `esm_errorEMM`: every session is detached at the serving gateway without a callback, and freed.
The table of bearers is not touched. -/
def esmErrorEMM : Outcome EMMCtx := do
  let c ← (c.esmGetSessions env).foldlM (fun c id => do
    let s ← c.session id
    c.s11Detach env s.s11 none) c
  pure { c with esm.sessions := [], esm.nextEbi := 5 }

/-! ## The default bearer -/

/-- `nasIe_lv_t4`; the length is a parameter of 8 bits. -/
def nasIeLvT4 (v : List UInt8) : List UInt8 := UInt8.ofNat v.length :: v.take (v.length % 256)

/-- The PDN address of the session as `struct PAA_t`, whose combined form starts with the IPv6 part. -/
def pdnAddress (s : EPSSession) : Outcome (List UInt8) :=
  if s.pdnAddrType = 1 then .ok (1 :: s.pdnAddr.take 4)
  else if s.pdnAddrType = 2 then .ok (2 :: s.pdnAddr.take 16)
  else if s.pdnAddrType = 3 then .ok (3 :: ((s.pdnAddr.drop 4).take 16 ++ s.pdnAddr.take 4))
  else .error (.gError "Wrong PDN address type")

/-- `ePSsession_sendActivateDefaultEPSBearerCtxtReq`, with 256 octets for the encoded APN and 356 for
the message. -/
def sendActivateDefaultEPSBearerCtxtReq (id : Nat) : Outcome EMMCtx := do
  let s ← c.session id
  let b ← c.bearer s.defaultBearer
  if 255 < c.subs.apn.length then .error .overflow
  else
    let paa ← pdnAddress s
    let msg := [(0x02 : UInt8) ||| (b.ebi <<< 4), s.currentPti, activateDefaultEPSBearerContextRequest]
      ++ nasIeLvT4 [c.subs.qci] ++ nasIeLvT4 (subsGetEncodedAPN c.subs.apn 150) ++ nasIeLvT4 paa
      ++ s.pco.elim [] (fun pco => 0x27 :: nasIeLvT4 pco)
    if 356 < msg.length then .error .overflow
    else c.emmAttachAccept P env msg [id]

/-- `ePSsession_activateDefault`. -/
def activateDefault (id : Nat) (infoTxRequired : Bool) : Outcome EMMCtx := do
  let s ← c.session id
  if infoTxRequired then c.emmSendESM P env [0x02, s.currentPti, esmInformationRequest]
  else
    let (c, u) ← c.s11NewUserAttach env id (.sendActivateDefault id)
    pure (c.setSession { s with s11 := some u })

/-- `esm_bc_init` and `ePSsession_init`: a new session with its default bearer, and its identifier. -/
def newSession (pti : UInt8) (pco : Option (List UInt8)) : EMMCtx × Nat :=
  let e := c.esm
  let b : BearerContext := ⟨e.fresh, e.nextEbi, .zero, .zero, .zero⟩
  let s : EPSSession :=
    { id := e.fresh + 1, defaultBearer := e.fresh, s11 := none, pdnAddrType := 0,
      pdnAddr := List.replicate 20 0, pco, currentPti := pti }
  ({ c with esm :=
      { e with
        nextEbi := e.nextEbi + 1
        bearers := e.bearers.insert e.nextEbi e.fresh
        contexts := b :: e.contexts
        sessions := s :: e.sessions
        fresh := e.fresh + 2 } },
    e.fresh + 1)

/-- The PDN Connectivity Request of `esm_processMsg`, with
`ePSsession_parsePDNConnectivityRequest`. -/
def processPDNConnectivityRequest (msg : GenericNASMsg) : Outcome EMMCtx :=
  let infoTx := (nasNASOptLookup msg pdnConnectivityRequestOptionals 4 0xD).elim false
    fun o => msg o &&& 0x0F ≠ 0
  let pco := (nasNASOptLookup msg pdnConnectivityRequestOptionals 4 0x27).map
    fun o => msg.read (o + 2) (msg (o + 1)).toNat
  let (c, id) := c.newSession (msg.esmProcedureTransactionIdentity) pco
  c.activateDefault P env id infoTx

/-- `esm_processMsg`.  The answers to requests of the network only reach `esm_bc_processMsg`, which
does nothing. -/
def esmProcessMsg (msg : GenericNASMsg) : Outcome EMMCtx :=
  let c := c.log (.esmMessage msg.esmMessageType msg.esmProcedureTransactionIdentity)
  if msg.protocolDiscriminator ≠ epsSessionManagementMessages then
    .error (.gAssert "protocolDiscriminator == EPSSessionManagementMessages")
  else if msg.esmMessageType = pdnConnectivityRequest then c.processPDNConnectivityRequest P env msg
  else if msg.esmMessageType = esmInformationResponse then
    match c.esmGetSessions env with
    | [] => .error .nullDeref
    | id :: _ => c.activateDefault P env id false
  else .ok c

/-! ## Callbacks -/

/-- `esm_deleteEPSSession`. -/
def esmDeleteEPSSession (id : Nat) : Outcome EMMCtx := do
  let s ← c.session id
  let b ← c.bearer s.defaultBearer
  let c := { c with
    esm.sessions := c.esm.sessions.filter (·.id ≠ id)
    esm.bearers := c.esm.bearers.remove b.ebi
    esm.nextEbi := 5 }
  if c.esm.cb then c.emmDetachAccept env else pure c

/-- `ecmSession_sendPathSwitchReqAck`. -/
def ecmSessionSendPathSwitchReqAck (ecm : Nat) : Outcome EMMCtx := do
  let e ← deref env.ecms (some ecm)
  let emm ← c.ofEcm env e
  match env.order (emm.esm.bearers.map (·.2)) with
  | [] => .error .nullDeref
  | first :: _ =>
    let b ← emm.bearer first
    let (nh, ncc, emm) := emm.emmGetNH P
    let c := if emm.self = c.self then { c with hop := emm.hop } else c
    pure (c.log (.pathSwitchReqAck ecm b.ebi (b.s1uSgw.take b.s1uSgw.len) nh ncc))

/-- `sendUEContextReleaseCommand`, with the cause that the ECM session has stored; nothing checks that there is
one. -/
def sendUEContextReleaseCommand (ecm : Nat) : Outcome EMMCtx := do
  let e ← deref env.ecms (some ecm)
  if e.causeRelease then pure (c.log (.ueContextReleaseStored ecm)) else .error .nullDeref

variable {env c} in
theorem post_sendUEContextReleaseCommand {ecm : Nat} {Q : EMMCtx → Prop} (h : Q (c.log (.ueContextReleaseStored ecm))) :
    Post (c.sendUEContextReleaseCommand env ecm) Q :=
  Post.of_bind fun _ => .ite (fun _ => .ok h) fun _ => .error

def runS11Cb : S11Cb → Outcome EMMCtx
  | .sendActivateDefault id => c.sendActivateDefaultEPSBearerCtxtReq P env id
  | .deleteEPSSession id => c.esmDeleteEPSSession env id
  | .sendUEContextReleaseCommand ecm => c.sendUEContextReleaseCommand env ecm
  | .sendPathSwitchReqAck ecm => c.ecmSessionSendPathSwitchReqAck P env ecm

/-- Run a callback unless it is NULL. -/
def runOptS11Cb (cb : Option S11Cb) : Outcome EMMCtx :=
  match cb with
  | none => .ok c
  | some cb => c.runS11Cb P env cb

/-! ## Requests of the lower layers -/

/-- `ePSsession_modifyE_RABList`; the list is NULL if the message does not have it. -/
def ePSsessionModifyERABList (s : EPSSession) (list : Option (List ERABItem)) (cb : Option S11Cb) :
    Outcome EMMCtx := do
  let b ← c.bearer s.defaultBearer
  match list with
  | none | some [] => .error .nullDeref
  | some (item :: _) =>
    if b.ebi ≠ item.eRABID then .ok c
    else
      -- S1U_eNB is the interface type 0, so only the flag of the IPv4 address is set.
      let fteid : Fteid := if item.addrLen = 32 then 0x80 :: item.gTPTEID ++ item.addr.take 4
        else 0 :: item.gTPTEID
      let c := c.setBearer { b with s1uEnb := b.s1uEnb.write fteid }
      c.s11AttachModifyBearerReq env s.s11 cb

/-- `emm_modifyE_RABList`. -/
def emmModifyERABList (list : Option (List ERABItem)) (cb : Option S11Cb) : Outcome EMMCtx :=
  match c.esmGetSessions env with
  | [] => c.runOptS11Cb P env cb
  | id :: _ => do
    let s ← c.session id
    c.ePSsessionModifyERABList env s list cb

/-- `emm_UEContextReleaseReq`. -/
def emmUEContextReleaseReq (cb : S11Cb) : Outcome EMMCtx :=
  let c := { c with s1BearersActive := false }
  match c.esmGetSessions env with
  | [] => c.runS11Cb P env cb
  | id :: _ => do
    let s ← c.session id
    c.s11ReleaseAccessBearers env s.s11 (some cb)

/-- `esm_detach` with the callback `emm_detachAccept`, the only one it is called with. -/
def esmDetach : Outcome EMMCtx :=
  let c := { c with esm.cb := true }
  match c.esmGetSessions env with
  | [] => c.emmDetachAccept env
  | id :: _ => do
    let s ← c.session id
    c.s11Detach env s.s11 (some (.deleteEPSSession id))

end EMMCtx

end AaltoMME
