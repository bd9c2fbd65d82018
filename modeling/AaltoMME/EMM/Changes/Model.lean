import AaltoMME.EMM.Step
import AaltoMME.S11.Session
import Mathlib.Logic.Relation

/-!
# Elementary changes of a context

Two views of a context.  `EMMView` is what the procedures of the EMM layer leave behind: its state, the messages
that its timers store, its identities, the ESM messages that wait, the quadruplets, and two kinds of entries of the
trace, the challenges that were sent and the registrations under an M-TMSI.  `SessionView` is what the sessions
leave behind: the EPS sessions with their default bearers and S11 users, the table of bearers, the users of the
S11 stack, and the Delete Session Requests that were sent.

`EMMChange` and `SessionChange` list the elementary changes that one event makes to the views.  Each of them says
what must be true of the event and of the context that the event found; most of the changes therefore happen at
most once in an event.  That the events of a context make no other changes is `EMMCtx.changes_step`.  Properties
of runs are then proved by looking at the elementary changes.
-/

namespace AaltoMME

open Base NAS Relation

/-! ## The views -/

/-- RAND, a length octet and AUTN of an Authentication Request. -/
def authRequestOf (pdu : List UInt8) : Option (List UInt8) :=
  if pdu.take 2 = [0x07, authenticationRequest] then some (pdu.drop 3) else none

/-- The same octets of a quadruplet. -/
def AuthQuadruplet.challenge (q : AuthQuadruplet) : List UInt8 := q.rAND ++ 16 :: q.aUTN

namespace Act

/-- The challenge that an entry of the trace sends. -/
def challenge : Act → Option (List UInt8)
  | .ecmSend _ _ pdu => authRequestOf pdu
  | _ => none

/-- The registration that an entry of the trace asks for. -/
def registration : Act → Option (Nat × UInt32)
  | .registerEMMCtxt emm mtmsi => some (emm, mtmsi)
  | _ => none

/-- The Delete Session Request that an entry of the trace sends: the TEID of its user and the bearer. -/
def deletion : Act → Option (UInt32 × UInt8)
  | .s11Send lTEID _ _ (.deleteSession ebi) => some (lTEID, ebi)
  | _ => none

end Act

/-- The messages that the context stores with a timer: the one that waits for its answer, or none. -/
def EMMTimerCode.Stores : EMMTimerCode → List UInt8 → Prop
  | .t3450, msg => msg[1]? = some attachAccept ∨ msg[1]? = some trackingAreaUpdateAccept
  | .t3460, msg => msg[1]? = some authenticationRequest ∨ msg[1]? = some securityModeCommand
  | .t3470, msg => msg[1]? = some identityRequest
  | .tMobileReachable, msg | .tImplicitDetach, msg => msg = []
  | .t3413, _ | .t3422, _ => False

/-- The part of a context that the procedures of the EMM layer are about. -/
structure EMMView where
  self : Nat
  ecm : Option Nat
  imsi : UInt64
  mtmsi : UInt32
  stateName : EMMState
  stored : EMMTimerCode → Option (List UInt8)
  pendingESMmsg : List (List UInt8)
  authQuadrs : List AuthQuadruplet
  authQuadrsLen : UInt64
  challenges : List (List UInt8)
  registrations : List (Nat × UInt32)

/-- An EPS session with its default bearer and its S11 user. -/
structure SessionRef where
  id : Nat
  bearer : Nat
  s11 : Option Nat
  deriving DecidableEq, Repr

def EPSSession.ref (s : EPSSession) : SessionRef := ⟨s.id, s.defaultBearer, s.s11⟩

/-- The part of a context that the sessions are about; `ebis` are the bearer contexts with their identities. -/
structure SessionView where
  self : Nat
  sessions : List SessionRef
  ebis : List (Nat × UInt8)
  bearers : Table UInt8 Nat
  nextEbi : UInt8
  fresh : Nat
  users : Table UInt32 S11User
  nextTeid : UInt32
  nextUser : Nat
  deletes : List (UInt32 × UInt8)

namespace EMMEvent

/-- The header type of an uplink message. -/
def headerType : EMMEvent → Option SecurityHeaderType
  | .uplink buf size => (nasGetHeader buf size.toUInt32).map (·.1)
  | _ => none

def timerCode : EMMEvent → Option EMMTimerCode
  | .timer code => some code
  | _ => none

/-- Whether the event is `emm_stop`. -/
def isStop : EMMEvent → Bool
  | .stop => true
  | _ => false

end EMMEvent

namespace EMMCtx

def emmView (c : EMMCtx) : EMMView where
  self := c.self
  ecm := c.ecm
  imsi := c.imsi
  mtmsi := c.guti.mtmsi
  stateName := c.stateName
  stored := fun code => (c.activeTimers code).map (·.msg)
  pendingESMmsg := c.pendingESMmsg
  authQuadrs := c.authQuadrs
  authQuadrsLen := c.authQuadrsLen
  challenges := c.trace.filterMap Act.challenge
  registrations := c.trace.filterMap Act.registration

def sessionView (c : EMMCtx) : SessionView where
  self := c.self
  sessions := c.esm.sessions.map EPSSession.ref
  ebis := c.esm.contexts.map fun b => (b.id, b.ebi)
  bearers := c.esm.bearers
  nextEbi := c.esm.nextEbi
  fresh := c.esm.fresh
  users := c.s11.users
  nextTeid := c.s11.nextTeid
  nextUser := c.s11.fresh
  deletes := c.trace.filterMap Act.deletion

def views (c : EMMCtx) : EMMView × SessionView := (c.emmView, c.sessionView)

/-! ## What an event is about -/

/-- Whether the current state authenticates a message with the given header type. -/
def authenticates (c : EMMCtx) (s : SecurityHeaderType) : Bool :=
  match c.stateName with
  | .deregistered => c.sci
  | .commonProcedureInitiated => c.sci || s == .integrityProtectedAndCipheredWithNewEPSSecurityContext
  | _ => true

/-- Whether the current state leaves a security protected message to the ESM layer. -/
def leavesToESM (c : EMMCtx) (p : UInt8) (msg : GenericNASMsg) : Bool :=
  match c.stateName with
  | .registered | .specificProcedureInitiated =>
    p = epsSessionManagementMessages || msg.protocolDiscriminator = epsSessionManagementMessages
  | _ => false

/-- The message that the EMM layer goes on with in the current state, and whether it was authenticated. -/
def takes (P : Prims) (c : EMMCtx) : Env × EMMEvent → Option (GenericNASMsg × Bool)
  | (_, .uplink buf size) =>
    match nasGetHeader buf size.toUInt32 with
    | none => none
    | some (s, p) =>
      if s = .plainNAS then some ((decNAS buf size).2, false)
      else if s.isProtected then
        match c.receiveSecMsg P (c.authenticates s) buf size with
        | .ok (_, m) => m.filter fun m => !c.leavesToESM p m.1
        | .error _ => none
      else none
  | _ => none

/-- The security protected message that is left to the ESM layer. -/
def leaves (P : Prims) (c : EMMCtx) : Env × EMMEvent → Option GenericNASMsg
  | (_, .uplink buf size) =>
    match nasGetHeader buf size.toUInt32 with
    | none => none
    | some (s, p) =>
      if s ≠ .plainNAS && s.isProtected then
        match c.receiveSecMsg P (c.authenticates s) buf size with
        | .ok (_, some m) => if c.leavesToESM p m.1 then some m.1 else none
        | _ => none
      else none
  | _ => none

/-- The timer expires, and it is not the last time. -/
def Expires (c : EMMCtx) (e : Env × EMMEvent) (code : EMMTimerCode) : Prop :=
  e.2.timerCode = some code ∧ ∃ t ∈ c.activeTimers code, t.rtx < emmRtx code

/-- The timer expires for the last time. -/
def Exhausts (c : EMMCtx) (e : Env × EMMEvent) (code : EMMTimerCode) : Prop :=
  e.2.timerCode = some code ∧ ∃ t ∈ c.activeTimers code, ¬ t.rtx < emmRtx code

/-- The current state goes on with a message of the given type. -/
def Handles (P : Prims) (c : EMMCtx) (e : Env × EMMEvent) (type : UInt8) : Prop :=
  ∃ m ∈ c.takes P e, m.1.emmMessageType = type

/-- A registered UE asks for a tracking area update, and the message is not authenticated. -/
def UpdatesUnauthenticated (P : Prims) (c : EMMCtx) (e : Env × EMMEvent) : Prop :=
  c.stateName = .registered ∧ ∃ m ∈ c.takes P e, m.1.emmMessageType = trackingAreaUpdateRequest ∧ m.2 = false

/-- The message starts an authentication, unless its type is not supported or an identity is missing. -/
def StartsAuth (P : Prims) (c : EMMCtx) (e : Env × EMMEvent) : Prop :=
  ((c.stateName = .deregistered ∨ c.stateName = .registered) ∧
      ∃ m ∈ c.takes P e, m.1.emmMessageType = attachRequest ∧ m.2 = false) ∨
    c.UpdatesUnauthenticated P e ∨
    c.stateName = .commonProcedureInitiated ∧ c.Handles P e identityResponse

def FailsAuth (P : Prims) (c : EMMCtx) (e : Env × EMMEvent) : Prop :=
  c.stateName = .commonProcedureInitiated ∧ c.Handles P e authenticationFailure

/-- The UE refuses a challenge because of its sequence number. -/
def FailsSynch (P : Prims) (c : EMMCtx) (e : Env × EMMEvent) : Prop :=
  c.stateName = .commonProcedureInitiated ∧
    ∃ m ∈ c.takes P e, m.1.emmMessageType = authenticationFailure ∧ m.1 3 = 0x15

/-- The message that T3450 has stored, if the event is its last expiration. -/
def lastT3450 (c : EMMCtx) : Env × EMMEvent → Option (List UInt8)
  | (_, .timer .t3450) =>
    match c.activeTimers .t3450 with
    | some t => if t.rtx < emmRtx .t3450 then none else some t.msg
    | none => none
  | _ => none

/-- The event completes a procedure of the state EMM_SpecificProcedureInitiated: an authenticated Attach
Complete or Tracking Area Update Complete, or the end of T3450. -/
def Completes (P : Prims) (c : EMMCtx) (e : Env × EMMEvent) : Prop :=
  c.stateName = .specificProcedureInitiated ∧
    ((∃ m ∈ c.takes P e, m.2 = true ∧
        (m.1.emmMessageType = attachComplete ∨ m.1.emmMessageType = trackingAreaUpdateComplete)) ∨
      ∃ buf, buf ∈ c.lastT3450 e)

/-- The IMSI that the message presents. -/
def presented (P : Prims) (c : EMMCtx) (e : Env × EMMEvent) : Option UInt64 :=
  (c.takes P e).bind fun m =>
    if m.1.emmMessageType = attachRequest then
      if mobileIdType (m.1.shift 6) = 1 then (imsiOfMobileId (m.1.shift 6) (m.1 5)).toOption else none
    else if m.1.emmMessageType = identityResponse then
      if mobileIdType (m.1.shift 4) = 1 then (imsiOfMobileId (m.1.shift 4) (m.1 3)).toOption else none
    else none

/-- The IMSI that the context then has. -/
def imsiAfter (P : Prims) (c : EMMCtx) (e : Env × EMMEvent) : UInt64 := (c.presented P e).getD c.imsi

/-- The event gives a GUTI to a context that has none: an authentication starts with a known IMSI, an identity was
asked for, or an attach is accepted. -/
def MayGetGUTI (P : Prims) (c : EMMCtx) (e : Env × EMMEvent) : Prop :=
  (c.StartsAuth P e ∧ (c.imsiAfter P e ≠ 0 ∨ c.stateName = .commonProcedureInitiated)) ∨
    c.stateName = .specificProcedureInitiated ∧ ∃ pkt, e.2 = .s11 pkt

/-- The ESM message container of an Attach Request. -/
def attachContainer (msg : GenericNASMsg) : List UInt8 := msg.read 519 (msg.read16 517)

def storedESM (env : Env) (raw : List UInt8) : GenericNASMsg := (decNAS (env.heap raw) (UInt64.ofNat raw.length)).2

/-- The ESM message that a message of the EMM layer leads to. -/
def esmOf (c : EMMCtx) (env : Env) (msg : GenericNASMsg) (isAuth : Bool) : Option GenericNASMsg :=
  match c.stateName with
  | .specificProcedureInitiated =>
    if msg.emmMessageType = attachComplete then some (decNAS (msg.shift 5) (UInt64.ofNat (msg.read16 3))).2 else none
  | .commonProcedureInitiated =>
    if msg.emmMessageType = securityModeComplete then c.pendingESMmsg.head?.map (storedESM env) else none
  | .deregistered | .registered =>
    if msg.emmMessageType = attachRequest && isAuth then
      (c.pendingESMmsg ++ [attachContainer msg]).head?.map (storedESM env)
    else none
  | .deregisteredInitiated => none

/-- The ESM message that the event hands to `esm_processMsg`. -/
def esmMsg (P : Prims) (c : EMMCtx) (e : Env × EMMEvent) : Option GenericNASMsg :=
  (c.leaves P e).or ((c.takes P e).bind fun m => c.esmOf e.1 m.1 m.2)

/-- The event hands over an ESM message of the given type. -/
def HandlesESM (P : Prims) (c : EMMCtx) (e : Env × EMMEvent) (type : UInt8) : Prop :=
  ∃ msg ∈ c.esmMsg P e, msg.esmMessageType = type

/-- The event makes `esm_errorEMM` free the sessions: a common procedure fails, a registered UE attaches again, a
Service Request meets another procedure, a timer ends, or the connection is reset. -/
def MayStop (P : Prims) (c : EMMCtx) (e : Env × EMMEvent) : Prop :=
  (c.FailsAuth P e ∧ (c.FailsSynch P e → e.1.hssSync = .alreadySynchronized)) ∨
    (c.stateName = .commonProcedureInitiated ∧ c.Handles P e identityResponse ∧ e.1.hssAuth = .noRows) ∨
    (c.stateName = .registered ∧ c.Handles P e attachRequest) ∨
    (c.stateName = .specificProcedureInitiated ∧ e.2.headerType = some .serviceRequest) ∨
    (c.stateName = .commonProcedureInitiated ∧ c.Exhausts e .t3460) ∨
    (c.stateName = .specificProcedureInitiated ∧ ∃ buf ∈ c.lastT3450 e, storedType e.1 buf = .ok attachComplete) ∨
    (c.stateName ≠ .deregistered ∧ c.Expires e .tImplicitDetach) ∨ e.2.isStop = true

def Detaches (P : Prims) (c : EMMCtx) (e : Env × EMMEvent) : Prop :=
  (c.stateName = .deregistered ∨ c.stateName = .registered ∨ c.stateName = .specificProcedureInitiated) ∧
    e.2.headerType ≠ some .plainNAS ∧ ∃ m ∈ c.takes P e, m.1.emmMessageType = detachRequest ∧ m.1 4 >>> 4 = c.ksi

section Decidable

variable (P : Prims) (c : EMMCtx) (e : Env × EMMEvent)

instance (type : UInt8) : Decidable (c.Handles P e type) :=
  inferInstanceAs (Decidable (∃ m ∈ c.takes P e, m.1.emmMessageType = type))

instance : Decidable (c.UpdatesUnauthenticated P e) :=
  inferInstanceAs (Decidable (_ ∧ ∃ m ∈ c.takes P e, m.1.emmMessageType = trackingAreaUpdateRequest ∧ m.2 = false))

instance : Decidable (c.StartsAuth P e) :=
  inferInstanceAs (Decidable (((c.stateName = .deregistered ∨ c.stateName = .registered) ∧
      ∃ m ∈ c.takes P e, m.1.emmMessageType = attachRequest ∧ m.2 = false) ∨
    c.UpdatesUnauthenticated P e ∨ c.stateName = .commonProcedureInitiated ∧ c.Handles P e identityResponse))

instance : Decidable (c.FailsAuth P e) :=
  inferInstanceAs (Decidable (c.stateName = .commonProcedureInitiated ∧ c.Handles P e authenticationFailure))

instance : Decidable (c.FailsSynch P e) :=
  inferInstanceAs (Decidable (c.stateName = .commonProcedureInitiated ∧
    ∃ m ∈ c.takes P e, m.1.emmMessageType = authenticationFailure ∧ m.1 3 = 0x15))

instance (code : EMMTimerCode) : Decidable (c.Expires e code) :=
  inferInstanceAs (Decidable (_ ∧ ∃ t ∈ c.activeTimers code, t.rtx < emmRtx code))

instance (code : EMMTimerCode) : Decidable (c.Exhausts e code) :=
  inferInstanceAs (Decidable (_ ∧ ∃ t ∈ c.activeTimers code, ¬ t.rtx < emmRtx code))

instance (type : UInt8) : Decidable (c.HandlesESM P e type) :=
  inferInstanceAs (Decidable (∃ msg ∈ c.esmMsg P e, msg.esmMessageType = type))

instance : Decidable (c.MayStop P e) := by
  unfold MayStop
  infer_instance

instance : (e : Env × EMMEvent) → Decidable (∃ pkt, e.2 = .s11 pkt)
  | (_, .s11 pkt) => .isTrue ⟨pkt, rfl⟩
  | (_, .uplink ..) | (_, .timer _) | (_, .registerECM _) | (_, .deregister) | (_, .stop) | (_, .modifyERABList ..)
  | (_, .ueContextReleaseReq _) | (_, .s11Stack _) => .isFalse nofun

instance : Decidable (c.MayGetGUTI P e) := by
  unfold MayGetGUTI
  infer_instance

instance : Decidable (c.Detaches P e) := by
  unfold Detaches
  infer_instance

end Decidable

/-! Of the context, a protected message reads and writes nothing but the NAS handler. -/

section Receive

variable {P : Prims} {c d : EMMCtx} {e : Env × EMMEvent} {buf : Mem} {size : UInt64}

theorem receiveSecMsg_congr (h : d.parser = c.parser) (b : Bool) :
    d.receiveSecMsg P b buf size =
      (c.receiveSecMsg P b buf size).map fun r => ({ d with parser := r.1.parser }, r.2) := by
  have hd : d = { d with parser := c.parser } := by rw [← h]
  unfold receiveSecMsg
  cases b with
  | false =>
    rw [if_neg Bool.false_ne_true, if_neg Bool.false_ne_true]
    dsimp only
    split
    · exact congrArg (fun d => (.ok (d, none) : Outcome _)) hd
    · exact congrArg (fun d => (.ok (d, some _) : Outcome _)) hd
  | true =>
    rw [if_pos rfl, h]
    dsimp only
    cases nasAuthenticateMsg P c.parser buf size.toUInt32 .upLink with
    | error => rfl
    | ok r =>
      rw [ok_bind, ok_bind]
      split
      · rfl
      split
      · rfl
      cases decSecNAS r.handler buf size with
      | error => rfl
      | ok m =>
        rw [ok_bind, ok_bind]
        split
        · rfl
        split <;> rfl

/-- The context with the handler that `nas_authenticateMsg` left, and a message that is authenticated or need not
be. -/
theorem receiveSecMsg_eq_ok {b : Bool} {m : Option (GenericNASMsg × Bool)}
    (h : c.receiveSecMsg P b buf size = .ok (d, m)) :
    (b = false ∧ d = c ∧ ∀ q ∈ m, q.2 = false ∧ nasIsAuthRequired q.1.emmMessageType = false) ∨
      b = true ∧ ∃ r, nasAuthenticateMsg P c.parser buf size.toUInt32 .upLink = .ok r ∧
        d = { c with parser := r.handler } ∧ ∀ q ∈ m, r.ret ≠ 0 ∧ r.ret ≠ 2 ∧ r.isAuth = q.2 ∧
          decSecNAS r.handler buf size = .ok (true, q.1) ∧
          (q.2 = false → nasIsAuthRequired q.1.emmMessageType = false) := by
  unfold receiveSecMsg at h
  cases b with
  | false =>
    refine .inl ⟨rfl, ?_⟩
    simp only [Bool.false_eq_true, if_false] at h
    split at h
    · cases h
      exact ⟨rfl, nofun⟩
    · rename_i hreq
      cases h
      refine ⟨rfl, ?_⟩
      rintro _ ⟨⟩
      exact ⟨rfl, by simpa using hreq⟩
  | true =>
    simp only [if_true] at h
    obtain ⟨r, hr, h⟩ := bind_eq_ok.mp h
    refine .inr ⟨rfl, r, hr, ?_⟩
    split at h
    · cases h
    rename_i h0
    split at h
    · cases h
      exact ⟨rfl, nofun⟩
    rename_i h2
    obtain ⟨⟨ok, msg⟩, hdec, h⟩ := bind_eq_ok.mp h
    split at h
    · cases h
    rename_i hok
    obtain rfl : ok = true := by simpa using hok
    split at h
    · cases h
      exact ⟨rfl, nofun⟩
    rename_i hreq
    cases h
    refine ⟨rfl, ?_⟩
    rintro _ ⟨⟩
    exact ⟨h0, h2, rfl, hdec, fun hn => by simpa [show r.isAuth = false from hn] using hreq⟩

theorem receiveSecMsg_eq_some {msg : GenericNASMsg} {isAuth : Bool}
    (h : c.receiveSecMsg P true buf size = .ok (d, some (msg, isAuth))) :
    ∃ r, nasAuthenticateMsg P c.parser buf size.toUInt32 .upLink = .ok r ∧ r.ret ≠ 0 ∧ r.ret ≠ 2 ∧
      r.isAuth = isAuth ∧ d = { c with parser := r.handler } ∧
      decSecNAS r.handler buf size = .ok (true, msg) ∧
      (isAuth = false → nasIsAuthRequired msg.emmMessageType = false) := by
  obtain ⟨hb, -⟩ | ⟨-, r, hr, hd, hm⟩ := receiveSecMsg_eq_ok h
  · cases hb
  · obtain ⟨h0, h2, ha, hdec, hreq⟩ := hm _ rfl
    exact ⟨r, hr, h0, h2, ha, hd, hdec, hreq⟩

theorem parser_of_receiveSecMsg {b : Bool} {m : Option (GenericNASMsg × Bool)}
    (h : c.receiveSecMsg P b buf size = .ok (d, m)) : ∃ parser, d = { c with parser } := by
  obtain ⟨-, rfl, -⟩ | ⟨-, r, -, rfl, -⟩ := receiveSecMsg_eq_ok h
  · exact ⟨d.parser, rfl⟩
  · exact ⟨r.handler, rfl⟩

theorem exists_receiveSecMsg (hp : d.parser = c.parser) {b : Bool} {f : EMMCtx} {m : Option (GenericNASMsg × Bool)}
    (h : d.receiveSecMsg P b buf size = .ok (f, m)) : ∃ g, c.receiveSecMsg P b buf size = .ok (g, m) := by
  rw [receiveSecMsg_congr hp] at h
  cases hr : c.receiveSecMsg P b buf size with
  | error => simp [hr, Except.map] at h
  | ok r =>
    simp only [hr, Except.map, Except.ok.injEq] at h
    exact ⟨r.1, by rw [← (Prod.mk.inj h).2]⟩

theorem takes_congr (hp : d.parser = c.parser) (hs : d.stateName = c.stateName) (hsci : d.sci = c.sci) :
    d.takes P e = c.takes P e := by
  obtain ⟨env, _ | _⟩ := e
  case uplink buf size =>
    simp only [takes, receiveSecMsg_congr hp, authenticates, leavesToESM, hs, hsci]
    split
    · rfl
    split
    · rfl
    split
    · cases c.receiveSecMsg P _ buf size <;> rfl
    · rfl
  all_goals rfl

theorem leaves_congr (hp : d.parser = c.parser) (hs : d.stateName = c.stateName) (hsci : d.sci = c.sci) :
    d.leaves P e = c.leaves P e := by
  obtain ⟨env, _ | _⟩ := e
  case uplink buf size =>
    simp only [leaves, receiveSecMsg_congr hp, authenticates, leavesToESM, hs, hsci]
    split
    · rfl
    split
    · rcases c.receiveSecMsg P _ buf size with _ | ⟨f, _ | m⟩ <;> rfl
    · rfl
  all_goals rfl

end Receive

/-! What an event is about depends neither on the ECM session nor on the S11 stack. -/

section Rebind

variable (P : Prims) (c : EMMCtx) (e : Env × EMMEvent) (s11 : S11Stack) (ecm : Option Nat) (trace : List Act)

theorem takes_rebind : { c with s11, ecm, trace }.takes P e = c.takes P e := takes_congr rfl rfl rfl

theorem leaves_rebind : { c with s11, ecm, trace }.leaves P e = c.leaves P e := leaves_congr rfl rfl rfl

theorem mayGetGUTI_rebind : { c with s11, ecm, trace }.MayGetGUTI P e ↔ c.MayGetGUTI P e := by
  simp only [MayGetGUTI, StartsAuth, UpdatesUnauthenticated, Handles, imsiAfter, presented, takes_rebind]

theorem imsiAfter_rebind : { c with s11, ecm, trace }.imsiAfter P e = c.imsiAfter P e := by
  simp only [imsiAfter, presented, takes_rebind]

theorem esmMsg_rebind : { c with s11, ecm, trace }.esmMsg P e = c.esmMsg P e := by
  simp only [esmMsg, leaves_rebind, takes_rebind]
  rfl

theorem mayStop_rebind : { c with s11, ecm, trace }.MayStop P e ↔ c.MayStop P e := by
  simp only [MayStop, FailsAuth, FailsSynch, Handles, takes_rebind]
  exact Iff.rfl

theorem detaches_rebind : { c with s11, ecm, trace }.Detaches P e ↔ c.Detaches P e := by
  simp only [Detaches, takes_rebind]

end Rebind

end EMMCtx

/-! ## Elementary changes of the EMM part -/

namespace EMMView

/-- The ECM session points back to the context. -/
def Bound (env : Env) (v : EMMView) : Prop :=
  ∀ id s, v.ecm = some id → env.ecms id = some s → s.emm = some v.self

/-- What `emmCtx_freeAuthQuadruplets` leaves of the quadruplets. -/
def freed (v : EMMView) : List AuthQuadruplet :=
  if v.authQuadrsLen.toNat ≤ v.authQuadrs.length then v.authQuadrs.drop v.authQuadrsLen.toNat else v.authQuadrs

end EMMView

/-- The elementary changes of an event that the context `c₀` finds. -/
inductive EMMChange (P : Prims) (c₀ : EMMCtx) (e : Env × EMMEvent) (v : EMMView) : EMMView → Prop
  /-- The context leaves whatever it was doing. -/
  | deregister : EMMChange P c₀ e v { v with stateName := .deregistered }
  /-- A common procedure starts for an Attach Request, whose ESM message waits, or for a Tracking Area Update
  Request, or goes on. -/
  | common :
      v.pendingESMmsg ≠ [] ∨ (c₀.UpdatesUnauthenticated P e ∧ v.pendingESMmsg = c₀.pendingESMmsg) ∨
        v.stateName = .commonProcedureInitiated →
      EMMChange P c₀ e v { v with stateName := .commonProcedureInitiated }
  | procedure : EMMChange P c₀ e v { v with stateName := .specificProcedureInitiated }
  | register : c₀.Completes P e → EMMChange P c₀ e v { v with stateName := .registered }
  /-- Timers start with a message of theirs, or end. -/
  | timers {stored : EMMTimerCode → Option (List UInt8)} :
      (∀ code msg, stored code = some msg → v.stored code = some msg ∨ code.Stores msg) →
      EMMChange P c₀ e v { v with stored }
  /-- A message tells the IMSI. -/
  | identify {i : UInt64} : c₀.presented P e = some i → EMMChange P c₀ e v { v with imsi := i }
  /-- A context without an M-TMSI gets one and is registered under it. -/
  | newGUTI {i : Nat} {m m' : UInt32} :
      v.mtmsi = 0 → c₀.MayGetGUTI P e → v.imsi = c₀.imsiAfter P e →
      (v.Bound e.1 → i = v.self ∧ m = P.gInt64Hash v.imsi ∧ m' = m) →
      EMMChange P c₀ e v { v with mtmsi := m, registrations := (i, m') :: v.registrations }
  /-- The container of an Attach Request is stored. -/
  | push {m : GenericNASMsg × Bool} :
      m ∈ c₀.takes P e → m.1.emmMessageType = attachRequest → v.pendingESMmsg = c₀.pendingESMmsg →
      EMMChange P c₀ e v { v with pendingESMmsg := v.pendingESMmsg ++ [EMMCtx.attachContainer m.1] }
  /-- The first container was processed. -/
  | pop : v.stateName = .specificProcedureInitiated →
      EMMChange P c₀ e v { v with pendingESMmsg := v.pendingESMmsg.tail }
  /-- A stored quadruplet is sent: the context had one when an authentication started, or the HSS did not
  give one although it reported no error. -/
  | challengeStored {q : AuthQuadruplet} {rest : List AuthQuadruplet} :
      v.authQuadrs = q :: rest → v.authQuadrs = c₀.authQuadrs →
      c₀.StartsAuth P e ∨ c₀.FailsSynch P e ∧ (e.1.hssSync = .wrongRows ∨ e.1.hssSync = .invalidAuts) →
      EMMChange P c₀ e v { v with challenges := q.challenge :: v.challenges }
  /-- The vector that the HSS gave is stored, and the first quadruplet is sent. -/
  | challengeNew {q first : AuthQuadruplet} {rest : List AuthQuadruplet} :
      e.1.hssAuth = .vector q → c₀.StartsAuth P e → v.authQuadrs = c₀.authQuadrs →
      v.authQuadrsLen = c₀.authQuadrsLen → v.authQuadrs ++ [q] = first :: rest →
      EMMChange P c₀ e v { v with
        authQuadrs := v.authQuadrs ++ [q]
        authQuadrsLen := v.authQuadrsLen + 1
        challenges := first.challenge :: v.challenges }
  /-- The vector of a resynchronisation takes the place of the stored quadruplets. -/
  | resync {q first : AuthQuadruplet} {rest : List AuthQuadruplet} :
      e.1.hssSync = .vector q → c₀.FailsSynch P e → v.authQuadrs = c₀.authQuadrs →
      v.authQuadrsLen = c₀.authQuadrsLen → v.freed ++ [q] = first :: rest →
      EMMChange P c₀ e v { v with
        authQuadrs := v.freed ++ [q]
        authQuadrsLen := 1
        challenges := first.challenge :: v.challenges }
  | forget : c₀.FailsSynch P e → v.authQuadrs = c₀.authQuadrs →
      v.authQuadrsLen = c₀.authQuadrsLen →
      EMMChange P c₀ e v { v with authQuadrs := v.freed, authQuadrsLen := 0 }
  /-- An answer uses up the first quadruplet. -/
  | consume : c₀.Handles P e authenticationResponse ∧ v.authQuadrs ≠ [] ∨ c₀.FailsAuth P e →
      v.authQuadrs = c₀.authQuadrs → v.authQuadrsLen = c₀.authQuadrsLen →
      EMMChange P c₀ e v { v with authQuadrs := v.authQuadrs.tail, authQuadrsLen := v.authQuadrsLen - 1 }
  /-- A timer sends its message again. -/
  | resend {r : List UInt8} {code : EMMTimerCode} : e.2 = .timer code →
      EMMChange P c₀ e v { v with challenges := r :: v.challenges }
  /-- Another ECM session, or none. -/
  | bind {ecm : Option Nat} : (∃ id, e.2 = .registerECM id) ∨ e.2 = .deregister →
      EMMChange P c₀ e v { v with ecm }

/-! ## Elementary changes of the sessions -/

/-- The same user of the same session. -/
structure S11User.SameOwner (u u' : S11User) : Prop where
  id : u'.id = u.id
  emm : u'.emm = u.emm
  session : u'.session = u.session
  lTEID : u'.lTEID = u.lTEID

namespace SessionView

variable (v : SessionView)

/-- The session behind an identifier. -/
def session (id : Nat) : Option SessionRef := v.sessions.find? (·.id == id)

/-- The identity of the bearer behind an identifier. -/
def ebi (id : Nat) : Option UInt8 := (v.ebis.find? (·.1 == id)).map (·.2)

def user (id : Nat) : Option S11User := (v.users.find? (·.2.id == id)).map (·.2)

/-- The first session in the order of the hash table. -/
def First (env : Env) (s : SessionRef) : Prop :=
  (env.order (v.sessions.map (·.id))).head? = some s.id ∧ v.session s.id = some s

/-- The sessions and the allocator are those that the event found, or there is no session any more. -/
def Kept (c₀ : EMMCtx) : Prop :=
  v.sessions = c₀.sessionView.sessions ∧ v.nextEbi = c₀.esm.nextEbi ∨ v.sessions = [] ∧ v.nextEbi = 5

/-- A new session with its default bearer. -/
def newSession : SessionView :=
  { v with
    nextEbi := v.nextEbi + 1
    bearers := v.bearers.insert v.nextEbi v.fresh
    ebis := (v.fresh, v.nextEbi) :: v.ebis
    sessions := ⟨v.fresh + 1, v.fresh, none⟩ :: v.sessions
    fresh := v.fresh + 2 }

def newUser (s : SessionRef) (u : S11User) : SessionView :=
  { v with
    users := v.users.insert v.nextTeid u
    sessions := v.sessions.map fun t => if t.id = s.id then { s with s11 := some v.nextUser } else t
    nextTeid := v.nextTeid + 1
    nextUser := v.nextUser + 1 }

/-- A session goes with its default bearer. -/
def dropSession (s : SessionRef) (ebi : UInt8) : SessionView :=
  { v with
    sessions := v.sessions.filter (·.id ≠ s.id)
    bearers := v.bearers.remove ebi
    nextEbi := 5 }

end SessionView

/-- The elementary changes of an event that the context `c₀` finds. -/
inductive SessionChange (P : Prims) (c₀ : EMMCtx) (e : Env × EMMEvent) (v : SessionView) : SessionView → Prop
  /-- `esm_errorEMM` frees the sessions, but neither their bearers nor their users. -/
  | error {users : Table UInt32 S11User} {deletes : List (UInt32 × UInt8)} :
      c₀.MayStop P e → v.sessions = c₀.sessionView.sessions →
      (v.sessions = [] → users = v.users ∧ deletes = v.deletes) →
      SessionChange P c₀ e v { v with sessions := [], nextEbi := 5, users, deletes }
  /-- A PDN Connectivity Request. -/
  | newSession : c₀.HandlesESM P e pdnConnectivityRequest → v.Kept c₀ → SessionChange P c₀ e v v.newSession
  /-- `S11_newUserAttach` for a session without a user, or for an ESM Information Response. -/
  | newUser {s : SessionRef} {u : S11User} : v.session s.id = some s →
      s.s11 = none ∨ (c₀.HandlesESM P e esmInformationResponse ∧ v.sessions = c₀.sessionView.sessions ∧ v.First e.1 s) →
      u.id = v.nextUser → u.emm = v.self → u.session = s.id → u.lTEID = v.nextTeid → u.state = .wCtxRsp →
      u.cb = some (.sendActivateDefault s.id) →
      SessionChange P c₀ e v (v.newUser s u)
  /-- `esm_detach`: the user of the first session is to delete it, if it is in a state for that. -/
  | detach {s : SessionRef} {i : Nat} {u u' : S11User} {deletes : List (UInt32 × UInt8)} :
      c₀.Detaches P e → v.sessions = c₀.sessionView.sessions → v.users = c₀.s11.users → v.First e.1 s →
      s.s11 = some i → v.user i = some u → u.SameOwner u' → u'.cb = some (.deleteEPSSession s.id) →
      ((u.state = .ulCtx ∨ u.state = .ctx) ∧ u'.state = .wDel ∧ deletes = (u.lTEID, 5) :: v.deletes ∨
        (u.state ≠ .ulCtx ∧ u.state ≠ .ctx) ∧ u'.state = u.state ∧ deletes = v.deletes) →
      SessionChange P c₀ e v { v with users := v.users.insert u.lTEID u', deletes }
  /-- Anything else that a user does: it keeps its callback, or gets one that deletes nothing. -/
  | touch {k : UInt32} {u u' : S11User} : (k, u) ∈ v.users → u.SameOwner u' →
      (u'.cb = u.cb ∨ ∀ id, u'.cb ≠ some (.deleteEPSSession id)) →
      (u'.state = u.state ∨ u.state ≠ .wDel ∧ u'.state ≠ .wDel) →
      SessionChange P c₀ e v { v with users := v.users.insert u.lTEID u' }
  /-- A Delete Session Response. -/
  | remove {pkt : GtpPacket} {u : S11User} : e.2 = .s11 pkt → c₀.s11.users.get pkt.tei = some u → u.emm = c₀.self →
      u.state = .wDel → SessionChange P c₀ e v { v with users := v.users.remove u.lTEID }
  /-- `esm_deleteEPSSession`, the callback of a user. -/
  | drop {pkt : GtpPacket} {u : S11User} {s : SessionRef} {ebi : UInt8} : e.2 = .s11 pkt →
      c₀.s11.users.get pkt.tei = some u → u.emm = c₀.self → u.cb = some (.deleteEPSSession s.id) →
      (u.state = .wDel → v.users.get u.lTEID = none) → v.session s.id = some s → v.ebi s.bearer = some ebi →
      SessionChange P c₀ e v (v.dropSession s ebi)
  /-- A session is written back. -/
  | write {s : SessionRef} : s ∈ v.sessions →
      SessionChange P c₀ e v { v with sessions := v.sessions.map fun t => if t.id = s.id then s else t }
  /-- A bearer context is written back. -/
  | writeBearer {b : Nat × UInt8} : b ∈ v.ebis →
      SessionChange P c₀ e v { v with ebis := v.ebis.map fun t => if t.1 = b.1 then b else t }
  /-- The stack was used for other contexts. -/
  | stack {s : S11Stack} : e.2 = .s11Stack s →
      SessionChange P c₀ e v { v with users := s.users, nextTeid := s.nextTeid, nextUser := s.fresh }

/-! ## Changes -/

/-- An elementary change of one of the views. -/
inductive Change (P : Prims) (c₀ : EMMCtx) (e : Env × EMMEvent) : EMMView × SessionView → EMMView × SessionView → Prop
  | emm {v w : EMMView} {s : SessionView} : EMMChange P c₀ e v w → Change P c₀ e (v, s) (w, s)
  | session {v : EMMView} {s t : SessionView} : SessionChange P c₀ e s t → Change P c₀ e (v, s) (v, t)

/-- The changes between two contexts. -/
def Changes (P : Prims) (c₀ : EMMCtx) (e : Env × EMMEvent) (c d : EMMCtx) : Prop :=
  ReflTransGen (Change P c₀ e) c.views d.views

/-- Nothing of the two views changes. -/
def Calm (c d : EMMCtx) : Prop := d.views = c.views

variable {P : Prims} {c₀ : EMMCtx} {e : Env × EMMEvent} {env : Env} {b c d : EMMCtx}

theorem EMMCtx.stored_emmSetTimer {code : EMMTimerCode} {msg : List UInt8} (h : code.Stores msg) (code' : EMMTimerCode)
    (msg' : List UInt8) (hmsg : (c.emmSetTimer code msg).emmView.stored code' = some msg') :
    c.emmView.stored code' = some msg' ∨ code'.Stores msg' := by
  by_cases hcode : code' = code
  · subst hcode
    have hmsg : msg = msg' := by simpa [emmView, emmSetTimer] using hmsg
    exact .inr (hmsg ▸ h)
  · exact .inl (by simpa [emmView, emmSetTimer, hcode] using hmsg)

namespace Calm

theorem refl : Calm c c := rfl

theorem trans (h : Calm b c) (h' : Calm c d) : Calm b d := Eq.trans h' h

theorem emm (h : Calm c d) : d.emmView = c.emmView := congrArg Prod.fst h

theorem session (h : Calm c d) : d.sessionView = c.sessionView := congrArg Prod.snd h

theorem changes (h : Calm c d) : Changes P c₀ e c d := by
  unfold Changes
  rw [h]

end Calm

namespace Changes

theorem of_emm (h : EMMChange P c₀ e c.emmView d.emmView) (hs : d.sessionView = c.sessionView) : Changes P c₀ e c d := by
  have hviews : d.views = (d.emmView, c.sessionView) := congrArg (Prod.mk _) hs
  unfold Changes
  rw [hviews]
  exact .single (.emm h)

theorem of_emms (h : ReflTransGen (EMMChange P c₀ e) c.emmView d.emmView) (hs : d.sessionView = c.sessionView) :
    Changes P c₀ e c d := by
  have hviews : d.views = (d.emmView, c.sessionView) := congrArg (Prod.mk _) hs
  unfold Changes
  rw [hviews]
  exact h.lift (·, c.sessionView) fun _ _ => .emm

theorem of_session (h : SessionChange P c₀ e c.sessionView d.sessionView) (hv : d.emmView = c.emmView) :
    Changes P c₀ e c d := by
  have hviews : d.views = (c.emmView, d.sessionView) := congrArg (Prod.mk · _) hv
  unfold Changes
  rw [hviews]
  exact .single (.session h)

theorem trans (h : Changes P c₀ e b c) (h' : Changes P c₀ e c d) : Changes P c₀ e b d := ReflTransGen.trans h h'

theorem of_sessions (h : ReflTransGen (SessionChange P c₀ e) c.sessionView d.sessionView) (hv : d.emmView = c.emmView) :
    Changes P c₀ e c d := by
  have hviews : d.views = (c.emmView, d.sessionView) := congrArg (Prod.mk · _) hv
  unfold Changes
  rw [hviews]
  exact h.lift (c.emmView, ·) fun _ _ => .session

/-- What the elementary changes keep of both views holds after the event. -/
theorem invariant_views {I : EMMView × SessionView → Prop} (h : Changes P c₀ e c d)
    (hstep : ∀ v w, I v → Change P c₀ e v w → I w) (hc : I c.views) : I d.views := by
  have hsteps : ∀ w, ReflTransGen (Change P c₀ e) c.views w → I w := by
    intro w hw
    induction hw with
    | refl => exact hc
    | tail _ hvw ih => exact hstep _ _ ih hvw
  exact hsteps _ h

/-- What the elementary changes of the EMM part keep holds after the event. -/
theorem invariant {I : EMMView → Prop} (h : Changes P c₀ e c d) (hstep : ∀ v w, I v → EMMChange P c₀ e v w → I w)
    (hc : I c.emmView) : I d.emmView := by
  refine h.invariant_views (I := fun v => I v.1) ?_ hc
  intro v w hv hw
  cases hw with
  | emm hw => exact hstep _ _ hv hw
  | session => exact hv

/-- What the elementary changes of the sessions keep holds after the event. -/
theorem invariant_session {I : SessionView → Prop} (h : Changes P c₀ e c d)
    (hstep : ∀ v w, I v → SessionChange P c₀ e v w → I w) (hc : I c.sessionView) : I d.sessionView := by
  refine h.invariant_views (I := fun v => I v.2) ?_ hc
  intro v w hv hw
  cases hw with
  | emm => exact hv
  | session hw => exact hstep _ _ hv hw

theorem emmSetTimer {code : EMMTimerCode} {msg : List UInt8} (h : code.Stores msg) :
    Changes P c₀ e c (c.emmSetTimer code msg) :=
  .of_emm (.timers (EMMCtx.stored_emmSetTimer h)) rfl

theorem emmStopTimer (code : EMMTimerCode) : Changes P c₀ e c (c.emmStopTimer code) := by
  refine .of_emm (.timers fun code' msg hmsg => .inl ?_) rfl
  by_cases hcode : code' = code
  · simp [EMMCtx.emmStopTimer, hcode] at hmsg
  · simpa [EMMCtx.emmView, EMMCtx.emmStopTimer, hcode] using hmsg

end Changes

end AaltoMME
