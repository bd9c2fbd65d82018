import AaltoMME.Base.Table
import AaltoMME.NAS.Messages
import Mathlib.Logic.Function.Basic

/-!
# The context of a UE

`EMMCtx` is the state that the MME keeps for one UE: the EMM context itself with its NAS handler and
timers, the ESM with its EPS sessions and bearers, and the S11 users of those sessions.  A pointer is
an identifier of the object it points to; looking up an object that was freed is a use after free.

Three components are not part of the C structures.  `self` is the identifier of the context.  `s11`
is the state of the S11 stack, which all UEs share: it is threaded through every operation together
with the context.  `trace` records, newest first, what the operations hand to the lower layers, and
the security events that properties are stated about.
-/

namespace AaltoMME

open Base NAS

/-- `EMMState`. -/
inductive EMMState
  | deregistered
  | registered
  | specificProcedureInitiated
  | commonProcedureInitiated
  | deregisteredInitiated
  deriving DecidableEq, Repr

/-- The network side timers of `EMM_TimerCode`. -/
inductive EMMTimerCode
  | t3413 | t3422 | t3450 | t3460 | t3470 | tMobileReachable | tImplicitDetach
  deriving DecidableEq, Repr

/-- `EMM_rtx`, the number of expirations that are handed to `processTimeout`. -/
def emmRtx : EMMTimerCode → Nat
  | .tMobileReachable | .tImplicitDetach => 1
  | _ => 4

/-- `EMM_Timer`: the message to send again, and the expirations so far. -/
structure EMMTimer where
  msg : List UInt8
  rtx : Nat
  deriving DecidableEq, Repr

/-- `AuthQuadruplet`. -/
structure AuthQuadruplet where
  rAND : List UInt8
  xRES : List UInt8
  aUTN : List UInt8
  kASME : List UInt8
  deriving DecidableEq, Repr

/-- `guti_t`, in memory order. -/
structure Guti where
  tbcdPlmn : List UInt8
  mmegi : List UInt8
  mmec : UInt8
  mtmsi : UInt32
  deriving DecidableEq, Repr

/-- The four octets of a host integer, as stored in memory. -/
def hostOctets (n : UInt32) : List UInt8 :=
  [n.toUInt8, (n >>> 8).toUInt8, (n >>> 16).toUInt8, (n >>> 24).toUInt8]

/-- Read a host integer from memory. -/
def hostUInt32 (m : Mem) (i : Nat) : UInt32 :=
  (m i).toUInt32 ||| ((m (i + 1)).toUInt32 <<< 8) ||| ((m (i + 2)).toUInt32 <<< 16) |||
    ((m (i + 3)).toUInt32 <<< 24)

namespace Guti

def zero : Guti := ⟨[0, 0, 0], [0, 0], 0, 0⟩

/-- The GUTI stored at an offset of a message. -/
def ofMem (m : Mem) (i : Nat) : Guti := ⟨m.read i 3, m.read (i + 3) 2, m (i + 5), hostUInt32 m (i + 6)⟩

/-- The ten octets of the structure. -/
def octets (g : Guti) : List UInt8 := g.tbcdPlmn ++ g.mmegi ++ g.mmec :: hostOctets g.mtmsi

end Guti

/-- The part of `Subs_t` and its PDN context that the modelled code reads. -/
structure Subscription where
  ambrUl : UInt64
  ambrDl : UInt64
  qci : UInt8
  pdnType : UInt8
  apn : List UInt8
  deriving DecidableEq, Repr

/-- The message processing helpers of `EMMCtx_t`, the fields with the prefix `msg_`. -/
structure MsgHelpers where
  attachType : UInt8
  detachType : UInt8
  updateType : UInt8
  activeFlag : Bool
  ksi : UInt8
  guti : Guti
  additionalUpdateType : Bool
  smsOnly : Bool
  bearerCtxI : Bool
  bearerCtx : List UInt8
  deriving DecidableEq, Repr

/-- The next hop chain: `nh`, `ncc` and their previous values. -/
structure NextHop where
  nh : List UInt8
  ncc : UInt8
  oldNh : List UInt8
  oldNcc : UInt8
  deriving DecidableEq, Repr

/-- The chain after `bzero`. -/
def NextHop.zero : NextHop := ⟨List.replicate 32 0, 0, List.replicate 32 0, 0⟩

/-! ## Sessions and bearers -/

/-- `struct fteid_t`: a packed structure of 25 octets, of which the first holds the flags and the
interface type, the next four the TEID and the others the addresses. -/
abbrev Fteid : Type := List UInt8

namespace Fteid

def zero : Fteid := List.replicate 25 0

def iface (f : Fteid) : UInt8 := f.getD 0 0 &&& 0x3F

def ipv4 (f : Fteid) : Bool := f.getD 0 0 &&& 0x80 ≠ 0

def ipv6 (f : Fteid) : Bool := f.getD 0 0 &&& 0x40 ≠ 0

def teid (f : Fteid) : List UInt8 := (f.drop 1).take 4

/-- The length that the getters of the bearer context compute from the flags. -/
def len (f : Fteid) : Nat := 5 + (if f.ipv4 then 4 else 0) + (if f.ipv6 then 16 else 0)

def addr (f : Fteid) : List UInt8 := (f.take f.len).drop 5

/-- `memcpy` of a value over the start of the structure. -/
def write (f : Fteid) (v : List UInt8) : Fteid := v ++ f.drop v.length

end Fteid

/-- `ESM_BearerContext_t`. -/
structure BearerContext where
  id : Nat
  ebi : UInt8
  s1uSgw : Fteid
  s1uEnb : Fteid
  s5s8uPgw : Fteid
  deriving DecidableEq, Repr

/-- `EPS_Session_t`; `pco` is the option list while its first octet is the identifier `0x27`. -/
structure EPSSession where
  id : Nat
  defaultBearer : Nat
  s11 : Option Nat
  pdnAddrType : UInt8
  pdnAddr : List UInt8
  pco : Option (List UInt8)
  currentPti : UInt8
  deriving DecidableEq, Repr

/-- `ESM_t`.  `bearers` maps a bearer identity to a bearer context, `contexts` holds the allocated
ones; `cb` tells whether `emm_detachAccept` is registered. -/
structure ESM where
  nextEbi : UInt8
  bearers : Table UInt8 Nat
  contexts : List BearerContext
  sessions : List EPSSession
  cb : Bool
  fresh : Nat

/-! ## S11 users -/

/-- An IPv4 socket address. -/
structure SockAddr where
  addr : UInt32
  port : UInt16
  deriving DecidableEq, Repr

/-- The states of an S11 user. -/
inductive S11State
  | noCtx | wCtxRsp | ulCtx | wModBearerRsp | ctx | wDel
  deriving DecidableEq, Repr

/-- The callbacks that are handed to the S11 interface, with their argument. -/
inductive S11Cb
  /-- `ePSsession_sendActivateDefaultEPSBearerCtxtReq` of a session. -/
  | sendActivateDefault (session : Nat)
  /-- `esm_deleteEPSSession` of a session. -/
  | deleteEPSSession (session : Nat)
  /-- `sendUEContextReleaseCommand` of an ECM session. -/
  | sendUEContextReleaseCommand (ecm : Nat)
  /-- `ecmSession_sendPathSwitchReqAck` of an ECM session. -/
  | sendPathSwitchReqAck (ecm : Nat)
  deriving DecidableEq, Repr

/-- `S11_user_t`.  `trxns` is the table of transactions by sequence number, each with a flag that
tells whether the memory its key lies in is still allocated, and `loose` counts the records outside
the table. -/
structure S11User where
  id : Nat
  emm : Nat
  session : Nat
  lTEID : UInt32
  rTEID : UInt32
  rAddr : Option SockAddr
  state : S11State
  cb : Option S11Cb
  trxns : Table UInt32 Bool
  loose : Nat
  deriving DecidableEq, Repr

/-- `Peer_t`. -/
structure S11Peer where
  numSessions : UInt32
  restartCounter : UInt8
  restartValid : Bool
  deriving DecidableEq, Repr

/-- `S11_t`: the sequence number of 24 bits, the counter of `newTeid`, the users by local TEID and
the peers by address.  `fresh` is the identifier of the next user. -/
structure S11Stack where
  seq : UInt32
  nextTeid : UInt32
  users : Table UInt32 S11User
  peers : Table (Option SockAddr) S11Peer
  restartCounter : UInt8
  fresh : Nat

/-! ## ECM sessions -/

/-- `ECMSessionState`. -/
inductive ECMState
  | idle | connected
  deriving DecidableEq, Repr

/-- `ECMSession_t`; `emm` is NULL until the session is bound. -/
structure ECMSession where
  assoc : Nat
  emm : Option Nat
  stateName : ECMState
  rSidValid : Bool
  rSid : Nat
  mmeUEId : UInt32
  eNBUEId : UInt32
  sn : List UInt8
  tAC : List UInt8
  causeRelease : Bool
  deriving DecidableEq, Repr

/-! ## What the operations hand over -/

/-- The content of an InitialContextSetupRequest. -/
structure CtxtSUReq where
  ambrDl : UInt64
  ambrUl : UInt64
  nasPdu : Option (List UInt8)
  eRABId : UInt8
  transportLayerAddress : List UInt8
  gtpTEID : List UInt8
  encryptionAlgorithms : UInt16
  integrityProtectionAlgorithms : UInt16
  securityKey : List UInt8
  deriving DecidableEq, Repr

/-- What an S11 request carries, besides what every request does. -/
inductive S11Request
  | createSession (imsi msisdn : UInt64) (servingNetwork : List UInt8) (pgw : Option SockAddr)
      (subs : Subscription) (pco : Option (List UInt8)) (ebi : UInt8) (recovery : Option UInt8)
  | modifyBearer (ebi : UInt8) (s1uEnb : Fteid)
  | deleteSession (ebi : UInt8)
  | releaseAccessBearers
  | downlinkDataNotificationAck
  deriving DecidableEq, Repr

/-- The causes of a release that the EMM gives. -/
inductive ReleaseCause
  | normalRelease | detach
  deriving DecidableEq, Repr

/-- One entry of the trace.  A NAS PDU is recorded with the value of `sci` at the time it is handed
over and with the ECM session, if there is one.  The last three entries are the events of the security
context: its removal, an Authentication Response that was accepted, with the RES and the quadruplet it
was compared with, and a Security Mode Complete, with the NAS handler and the result of its
authentication. -/
inductive Act
  | ecmSend (ecm : Option Nat) (sci : Bool) (pdu : List UInt8)
  | ctxtSUReq (ecm : Nat) (sci : Bool) (ulCount : UInt32) (req : CtxtSUReq)
  | ueContextRelease (ecm : Nat) (cause : ReleaseCause)
  | ueContextReleaseStored (ecm : Nat)
  | pathSwitchReqAck (ecm : Nat) (ebi : UInt8) (s1uSgw : Fteid) (nh : List UInt8) (ncc : UInt8)
  | s11Send (lTEID rTEID : UInt32) (seq : UInt32) (req : S11Request)
  | paging
  | esmMessage (messageType procedureTransactionIdentity : UInt8)
  | registerEMMCtxt (emm : Nat) (mtmsi : UInt32)
  | removeCurrentSC
  | authenticated (res : List UInt8) (q : AuthQuadruplet)
  | securityModeComplete (h : NASHandler) (isAuth : Bool)

/-! ## The context -/

/-- `EMMCtx_t` with its ESM and S11 users. -/
structure EMMCtx where
  self : Nat
  ecm : Option Nat
  stateName : EMMState
  activeTimers : EMMTimerCode → Option EMMTimer
  imsi : UInt64
  msisdn : UInt64
  guti : Guti
  subs : Subscription
  sgwIP : Option SockAddr
  pgwIP : Option SockAddr
  t3412 : UInt8
  attachStarted : Bool
  s1BearersActive : Bool
  attachResult : UInt8
  updateResult : UInt8
  pendingESMmsg : List (List UInt8)
  msg : MsgHelpers
  sn : List UInt8
  tac : List UInt8
  ksi : UInt8
  oldKsi : UInt8
  parser : NASHandler
  sci : Bool
  nasUlCountForSC : UInt32
  kasme : List UInt8
  oldKasme : List UInt8
  authQuadrs : List AuthQuadruplet
  authQuadrsLen : UInt64
  hop : NextHop
  ueCapabilities : List UInt8
  ueCapabilitiesLen : Nat
  msNetCap : List UInt8
  msNetCapLen : Nat
  esm : ESM
  s11 : S11Stack
  trace : List Act

/-- `esm_init`. -/
def esmInit : ESM where
  nextEbi := 5
  bearers := []
  contexts := []
  sessions := []
  cb := false
  fresh := 0

/-- `emm_init`, for a context created by the given ECM session. -/
def emmInit (self ecm : Nat) (s11 : S11Stack) : EMMCtx where
  self
  ecm := some ecm
  stateName := .deregistered
  activeTimers := fun _ => none
  imsi := 0
  msisdn := 0
  guti := .zero
  subs := ⟨0, 0, 0, 0, []⟩
  sgwIP := none
  pgwIP := none
  t3412 := 0x49
  attachStarted := false
  s1BearersActive := false
  attachResult := 0
  updateResult := 0
  pendingESMmsg := []
  msg := ⟨0, 0, 0, false, 1, .zero, false, false, false, [0, 0]⟩
  sn := [0, 0, 0]
  tac := [0, 0]
  ksi := 7
  oldKsi := 0
  parser := nasNewHandler
  sci := false
  nasUlCountForSC := 0
  kasme := List.replicate 32 0
  oldKasme := List.replicate 32 0
  authQuadrs := []
  authQuadrsLen := 0
  hop := .zero
  ueCapabilities := List.replicate 15 0
  ueCapabilitiesLen := 0
  msNetCap := List.replicate 10 0
  msNetCapLen := 0
  esm := esmInit
  s11
  trace := []

/-! ## The environment of one event -/

/-- The answer of the HSS to the query for an authentication vector: no result, or a number of rows
other than one, or one row, from which the vector is computed. -/
inductive HssAuth
  | noResult
  | noRows
  | manyRows
  | vector (q : AuthQuadruplet)
  deriving DecidableEq, Repr, Inhabited

/-- The outcome of a resynchronisation with the HSS. -/
inductive HssSync
  | noResult
  | wrongRows
  | invalidAuts
  | alreadySynchronized
  | vector (q : AuthQuadruplet)
  deriving DecidableEq, Repr, Inhabited

/-- The outcome of the location update: a failed query changes nothing, a missing profile row is
dereferenced. -/
inductive HssLocation
  | failed
  | noRow
  | profile (msisdn : UInt64) (subs : Subscription)
  deriving DecidableEq, Repr, Inhabited

/-- What one event finds in its environment: the ECM sessions and the other EMM contexts, the answers
of the HSS, the gateways and GUMMEI of the configuration, the result of `rand`, the order of hash
table iterations, whether `sendto` succeeds, and what uninitialised locals hold: an octet, and the
IMSI of the ECM layer. -/
structure Env where
  ecms : Nat → Option ECMSession
  emms : Nat → Option EMMCtx
  hssAuth : HssAuth
  hssSync : HssSync
  hssLocation : HssLocation
  sgw : UInt32
  pgw : UInt32
  mmegi : List UInt8
  mmec : UInt8
  rand : UInt32
  order : HashOrder
  sendto : Bool
  junk : UInt8
  junkImsi : UInt64
  deriving Inhabited

/-! ## Pointers -/

/-- The object behind a pointer, given what is allocated. -/
def deref {α : Type} (heap : Nat → Option α) : Option Nat → Outcome α
  | none => .error .nullDeref
  | some p =>
    match heap p with
    | none => .error .useAfterFree
    | some x => .ok x

@[simp] theorem deref_eq_ok {α : Type} {heap : Nat → Option α} {p : Option Nat} {x : α} :
    deref heap p = .ok x ↔ ∃ q, p = some q ∧ heap q = some x := by
  rcases p with _ | q
  · simp [deref]
  · cases hq : heap q <;> simp [deref, hq]

namespace EMMCtx

def log (c : EMMCtx) (a : Act) : EMMCtx := { c with trace := a :: c.trace }

/-- The ECM session of the context, for the functions that read it without a check for NULL. -/
def derefEcm (env : Env) (c : EMMCtx) : Outcome ECMSession := deref env.ecms c.ecm

/-- The EMM context that an ECM session points to, seen from the context `c`. -/
def ofEcm (env : Env) (c : EMMCtx) (e : ECMSession) : Outcome EMMCtx :=
  if e.emm = some c.self then .ok c else deref env.emms e.emm

/-- The EPS session behind an identifier. -/
def session (c : EMMCtx) (id : Nat) : Outcome EPSSession :=
  deref (fun i => c.esm.sessions.find? (·.id == i)) (some id)

/-- The bearer context behind an identifier. -/
def bearer (c : EMMCtx) (id : Nat) : Outcome BearerContext :=
  deref (fun i => c.esm.contexts.find? (·.id == i)) (some id)

def setSession (c : EMMCtx) (s : EPSSession) : EMMCtx :=
  { c with esm.sessions := c.esm.sessions.map fun t => if t.id = s.id then s else t }

def setBearer (c : EMMCtx) (b : BearerContext) : EMMCtx :=
  { c with esm.contexts := c.esm.contexts.map fun t => if t.id = b.id then b else t }

/-- `emmChangeState`. -/
def emmChangeState (c : EMMCtx) (s : EMMState) : EMMCtx := { c with stateName := s }

/-- `emm_setTimer`: a timer that is active is stopped first. -/
def emmSetTimer (c : EMMCtx) (code : EMMTimerCode) (msg : List UInt8) : EMMCtx :=
  { c with activeTimers := Function.update c.activeTimers code (some ⟨msg, 0⟩) }

/-- `emm_stopTimer`. -/
def emmStopTimer (c : EMMCtx) (code : EMMTimerCode) : EMMCtx :=
  { c with activeTimers := Function.update c.activeTimers code none }

end EMMCtx

end AaltoMME
