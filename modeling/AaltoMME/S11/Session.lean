import AaltoMME.Base.Run
import AaltoMME.S11.Responses
import Mathlib.Data.List.Find

/-!
# The session of one S11 user

What can happen to one S11 user: a call of one of its four operations, a packet that its TEID receives,
and anything else in the MME, which leaves the user alone.  The requests that were sent, the one that is
still pending and the callbacks to which control was returned are recorded beside the context.

The abstract machine `S11Step` says what such an event does to the state of the user, its callback and
the record, and `simulates` shows that it does nothing else.  What is proved about whole sessions is
proved about the abstract machine.
-/

namespace AaltoMME

open Base NAS

/-! ## Operations -/

/-- The operations of an S11 user. -/
inductive S11Op
  | attach | detach | modBearer | releaseAccess
  deriving DecidableEq, Repr

namespace S11Op

/-- Whether a state sends the request of the operation. -/
def accepts : S11Op → S11State → Bool
  | .attach, s => s == .noCtx
  | .detach, s | .modBearer, s => s == .ulCtx || s == .ctx
  | .releaseAccess, s => s == .ctx

/-- The state that waits for the response. -/
def next : S11Op → S11State
  | .attach => .wCtxRsp
  | .detach => .wDel
  | .modBearer | .releaseAccess => .wModBearerRsp

def answer : S11Op → UInt8
  | .attach => 33
  | .detach => 37
  | .modBearer => 35
  | .releaseAccess => 171

/-- The function that sends the request. -/
def send (env : Env) : S11Op → EMMCtx → S11User → Outcome (EMMCtx × S11User)
  | .attach => EMMCtx.sendCreateSessionReq env
  | .detach => EMMCtx.sendDeleteSessionReq env
  | .modBearer => EMMCtx.sendModifyBearerReq env
  | .releaseAccess => EMMCtx.sendReleaseAccessBearersReq env

def run (env : Env) (c : EMMCtx) (p : Option Nat) (cb : Option S11Cb) : S11Op → Outcome EMMCtx
  | .attach => c.s11Attach env p cb
  | .detach => c.s11Detach env p cb
  | .modBearer => c.s11AttachModifyBearerReq env p cb
  | .releaseAccess => c.s11ReleaseAccessBearers env p cb

theorem run_eq (env : Env) (c : EMMCtx) (p : Option Nat) (cb : Option S11Cb) (op : S11Op) :
    op.run env c p cb = c.s11Operation p cb op.accepts (op.send env) op.next := by
  cases op <;> rfl

end S11Op

/-- The operation that sends a request; an acknowledgement is not one. -/
def S11Request.op : S11Request → Option S11Op
  | .createSession .. => some .attach
  | .deleteSession _ => some .detach
  | .modifyBearer .. => some .modBearer
  | .releaseAccessBearers => some .releaseAccess
  | .downlinkDataNotificationAck => none

namespace S11State

/-- The states that wait for a response. -/
def waits (s : S11State) : Bool := s == .wCtxRsp || s == .wModBearerRsp || s == .wDel

/-- What follows if a state takes a response of the given type: another state, or the end of the
user. -/
def onResponse (s : S11State) (type : UInt8) : Option (Option S11State) :=
  match s with
  | .wCtxRsp => if type = 33 then some (some .ulCtx) else none
  | .wModBearerRsp =>
    if type = 35 then some (some .ctx) else if type = 171 then some (some .ulCtx) else none
  | .wDel => if type = 37 then some none else none
  | .noCtx | .ulCtx | .ctx => none

variable {s s' : S11State} {type : UInt8}

theorem waits_of_onResponse {r : Option S11State} (h : s.onResponse type = some r) : s.waits = true := by
  cases s <;> simp_all [onResponse, waits]

theorem not_waits_of_onResponse (h : s.onResponse type = some (some s')) : s'.waits = false := by
  cases s <;> simp only [onResponse] at h <;> (repeat' split at h) <;> cases h <;> rfl

theorem waits_next (op : S11Op) : op.next.waits = true := by cases op <;> rfl

theorem not_waits_of_accepts {op : S11Op} (h : op.accepts s = true) : s.waits = false := by
  cases op <;> cases s <;> first | rfl | cases h

/-- Two of the waiting states tell from the type of a response alone which operation it answers. -/
theorem answer_of_onResponse {op : S11Op} {r : Option S11State} (hne : op.next ≠ .wModBearerRsp)
    (h : op.next.onResponse type = some r) : op.answer = type := by
  cases op <;> simp_all [S11Op.next, S11Op.answer, onResponse]

end S11State

/-! ## Returning control -/

namespace EMMCtx

variable (P : Prims) (env : Env) (c : EMMCtx)

/-- `processMsg` of the state of a user up to `returnControl`, with the callback that is run if it gets
there. -/
def s11Dispatch (u : S11User) (pkt : GtpPacket) : Outcome (EMMCtx × Option (Option S11Cb)) :=
  match u.state with
  | .noCtx | .ctx => .ok (c, none)
  | .wCtxRsp =>
    if pkt.type = 33 then do
      let _ ← s11Accepted env pkt
      let (c, u) ← c.parseCtxRsp env u pkt
      pure (c.setUser { u with state := .ulCtx }, some u.cb)
    else .ok (c, none)
  | .ulCtx =>
    if pkt.type = 176 then do
      let c ← c.downlinkDataNotification env u pkt.seq
      pure (c, none)
    else .ok (c, none)
  | .wModBearerRsp =>
    if pkt.type = 35 then do
      let _ ← s11Accepted env pkt
      if ← c.parseModBearerRsp env u pkt then
        pure (c.setUser { u with state := .ctx }, some u.cb)
      else pure (c, none)
    else if pkt.type = 171 then do
      let _ ← s11Accepted env pkt
      pure (c.setUser { u with state := .ulCtx }, some u.cb)
    else .ok (c, none)
  | .wDel =>
    if pkt.type = 37 then do
      let _ ← s11Accepted env pkt
      let s ← { c.s11 with users := c.s11.users.remove u.lTEID }.unrefSession u.rAddr
      pure ({ c with s11 := s }, some u.cb)
    else .ok (c, none)

/-- `s11_accept` up to `returnControl`. -/
def s11Deliver (pkt : GtpPacket) : Outcome (EMMCtx × Option (Option S11Cb)) :=
  match c.s11.users.get pkt.tei with
  | none => .ok (c, none)
  | some u =>
    if u.emm = c.self then do
      let u ← findTrxn u pkt.seq
      let c := c.setUser u
      if u.rAddr ≠ pkt.peer then pure (c, none) else c.s11Dispatch env u pkt
    else .ok (c, none)

/-- `returnControl`, if it is reached. -/
def returnControl : EMMCtx × Option (Option S11Cb) → Outcome EMMCtx
  | (c, none) => .ok c
  | (c, some cb) => c.runOptS11Cb P env cb

variable {P env c}

theorem s11StateProcessMsg_eq (u : S11User) (pkt : GtpPacket) :
    c.s11StateProcessMsg P env u pkt = c.s11Dispatch env u pkt >>= returnControl P env := by
  cases hs : u.state with
  | noCtx | ctx => simp [s11StateProcessMsg, s11Dispatch, hs, returnControl]
  | wCtxRsp =>
    simp only [s11StateProcessMsg, s11Dispatch, hs]
    split <;> simp [returnControl]
  | ulCtx =>
    simp only [s11StateProcessMsg, s11Dispatch, hs]
    split
    · simp only [bind_assoc]
      exact (bind_pure _).symm
    · rfl
  | wModBearerRsp =>
    simp only [s11StateProcessMsg, s11Dispatch, hs]
    split
    · simp only [bind_assoc]
      refine bind_congr fun _ => bind_congr fun b => ?_
      cases b <;> rfl
    · split <;> simp [returnControl]
  | wDel =>
    simp only [s11StateProcessMsg, s11Dispatch, hs]
    split <;> simp [returnControl, returnControlAndRemoveSession]

/-- The code is the delivery of the packet followed by the callback. -/
theorem s11Accept_eq (pkt : GtpPacket) :
    c.s11Accept P env pkt = c.s11Deliver env pkt >>= returnControl P env := by
  cases hu : c.s11.users.get pkt.tei with
  | none => simp [s11Accept, s11Deliver, hu, returnControl]
  | some u =>
    simp only [s11Accept, s11Deliver, hu]
    split
    · simp only [s11ProcessMsg, s11StateProcessMsg_eq, bind_assoc]
      refine bind_congr fun u => ?_
      split <;> rfl
    · rfl

/-! ## What the callbacks leave alone -/

def SameS11 (c d : EMMCtx) : Prop := d.s11 = c.s11 ∧ d.self = c.self

theorem SameS11.refl : c.SameS11 c := ⟨rfl, rfl⟩

theorem SameS11.trans {c d e : EMMCtx} (h : c.SameS11 d) (h' : d.SameS11 e) : c.SameS11 e :=
  ⟨h'.1.trans h.1, h'.2.trans h.2⟩

theorem sameS11_emmCtxNewGUTI : Post (c.emmCtxNewGUTI P env) c.SameS11 := by
  unfold emmCtxNewGUTI
  split
  · exact .ok .refl
  · exact .of_bind fun _ => .of_bind fun _ => .ok ⟨rfl, rfl⟩

theorem sameS11_emmNewNASMsgSec (s : SecurityHeaderType) (plain : List UInt8)
    (unset : Outcome (List UInt8)) :
    Post (c.emmNewNASMsgSec P s plain unset) fun r => c.SameS11 r.1 := by
  refine .of_bind fun r => ?_
  cases r with
  | none => exact .of_bind fun _ => .ok .refl
  | some r => exact .ok ⟨rfl, rfl⟩

theorem sameS11_emmAttachAccept (msg : List UInt8) (sessions : List Nat) :
    Post (c.emmAttachAccept P env msg sessions) c.SameS11 := by
  unfold emmAttachAccept
  split
  · refine .ite (fun _ => .ok .refl) fun _ => .of_bind fun e => ?_
    refine sameS11_emmCtxNewGUTI.bind fun c₁ h₁ => .ite (fun _ => .error) fun _ => ?_
    refine (sameS11_emmNewNASMsgSec _ _ _).bind fun r h₂ => ?_
    exact post_ecmSendCtxtSUReq (SameS11.trans h₁ h₂) fun _ _ _ _ _ _ _ _ => SameS11.trans h₁ h₂
  · exact .error

theorem sameS11_emmDetachAccept : Post (c.emmDetachAccept env) c.SameS11 := by
  have hrelease : ∀ d, c.SameS11 d →
      Post ((d.emmChangeState .deregistered).ecmSendUEContextReleaseCommand env .detach) c.SameS11 :=
    fun d hd => post_ecmSendUEContextReleaseCommand hd fun _ => hd
  refine .ite (fun _ => ?_) fun _ => hrelease _ ⟨rfl, rfl⟩
  exact (post_ecmSend fun _ => ⟨rfl, rfl⟩).bind hrelease

theorem sameS11_runOptS11Cb (cb : Option S11Cb) : Post (c.runOptS11Cb P env cb) c.SameS11 := by
  rcases cb with _ | cb
  · exact .ok .refl
  cases cb with
  | sendActivateDefault id =>
    refine .of_bind fun _ => .of_bind fun _ => .ite (fun _ => .error) fun _ => ?_
    exact .of_bind fun _ => .ite (fun _ => .error) fun _ => sameS11_emmAttachAccept _ _
  | deleteEPSSession id =>
    refine .of_bind fun _ => .of_bind fun _ => ?_
    exact .ite (fun _ => sameS11_emmDetachAccept.mono fun _ h => h) fun _ => .ok ⟨rfl, rfl⟩
  | sendUEContextReleaseCommand ecm => exact post_sendUEContextReleaseCommand ⟨rfl, rfl⟩
  | sendPathSwitchReqAck ecm =>
    refine .of_bind fun _ => .of_bind fun _ => ?_
    split
    · exact .error
    · refine .of_bind fun _ => .ok ?_
      split <;> exact ⟨rfl, rfl⟩

theorem sameS11_returnControl (r : EMMCtx × Option (Option S11Cb)) :
    Post (returnControl P env r) r.1.SameS11 := by
  rcases r with ⟨c, _ | cb⟩
  · exact .ok .refl
  · exact sameS11_runOptS11Cb cb

/-! ## What an operation and a packet do -/

/-- The context after a request under the next sequence number. -/
def requested (c : EMMCtx) (u : S11User) (req : S11Request) (peers : Table (Option SockAddr) S11Peer) : EMMCtx :=
  { c with
    s11.seq := (c.s11.seq + 1) &&& 0xFFFFFF
    s11.peers := peers
    trace := .s11Send u.lTEID u.rTEID c.s11.seq req :: c.trace }

theorem post_s11Request (u : S11User) (req : S11Request) :
    Post (c.s11Request env u req) fun r => ∃ trxns, trxns = u.trxns.insert c.s11.seq (u.trxns.get c.s11.seq).isNone ∧
      r = (c.requested u req c.s11.peers, { u with trxns }) := by
  simp only [s11Request, S11Stack.newTrxn, s11Send]
  split
  · exact .error
  · split
    · exact .ok ⟨_, rfl, rfl⟩
    · exact .error

/-- The request of an operation; a Create Session Request is counted at the peer. -/
theorem post_send (op : S11Op) (u : S11User) :
    Post (op.send env c u) fun r => ∃ req peers trxns, S11Request.op req = some op ∧
      (∀ ebi, req = .deleteSession ebi → ebi = 5) ∧ (op ≠ .attach → peers = c.s11.peers) ∧
      trxns = u.trxns.insert c.s11.seq (u.trxns.get c.s11.seq).isNone ∧
      r = (c.requested u req peers, { u with trxns }) := by
  cases op with
  | attach =>
    refine .of_bind fun _ => .of_bind fun _ => .of_bind fun _ => ?_
    obtain ⟨peers, hpeers⟩ : ∃ peers, (c.s11.isFirstSession u.rAddr).2 = { c.s11 with peers } := by
      unfold S11Stack.isFirstSession
      split <;> exact ⟨_, rfl⟩
    dsimp only
    rw [hpeers]
    refine (post_s11Request u _).mono fun _ ⟨trxns, ht, hr⟩ => ⟨_, peers, trxns, rfl, ?_, (absurd rfl), ht, hr⟩
    rintro _ ⟨⟩
  | detach =>
    refine (post_s11Request u _).mono fun _ ⟨trxns, ht, hr⟩ => ⟨_, _, trxns, rfl, ?_, fun _ => rfl, ht, hr⟩
    rintro _ ⟨⟩
    rfl
  | modBearer =>
    refine .of_bind fun _ => .of_bind fun _ => ?_
    refine (post_s11Request u _).mono fun _ ⟨trxns, ht, hr⟩ => ⟨_, _, trxns, rfl, ?_, fun _ => rfl, ht, hr⟩
    rintro _ ⟨⟩
  | releaseAccess =>
    refine (post_s11Request u _).mono fun _ ⟨trxns, ht, hr⟩ => ⟨_, _, trxns, rfl, ?_, fun _ => rfl, ht, hr⟩
    rintro _ ⟨⟩

theorem checkPeerRestart_peers (s : S11Stack) (a : Option SockAddr) (n : UInt8) :
    s.checkPeerRestart a n = { s with peers := (s.checkPeerRestart a n).peers } := by
  unfold S11Stack.checkPeerRestart
  split <;> rfl

theorem unrefSession_peers {s t : S11Stack} {a : Option SockAddr} (h : s.unrefSession a = .ok t) :
    ∃ peers, t = { s with peers } := by
  unfold S11Stack.unrefSession at h
  split at h
  · cases h
  · exact ⟨_, (Except.ok.inj h).symm⟩

/-- An accepted Create Session Response only changes the session, the peer and the remote TEID. -/
theorem post_parseCtxRsp (u : S11User) (pkt : GtpPacket) :
    Post (c.parseCtxRsp env u pkt) fun r => ∃ esm peers rTEID,
      (peers = c.s11.peers ∨ ∃ n, peers = (c.s11.checkPeerRestart u.rAddr n).peers) ∧
        r = ({ c with esm, s11.peers := peers }, { u with rTEID }) := by
  have hfteid : Post (parseSgwFteid u pkt) fun r => ∃ rTEID, r.2 = { u with rTEID } := by
    unfold parseSgwFteid
    split
    · exact .ok ⟨_, rfl⟩
    · exact .ite (fun _ => .error) fun _ => .ok ⟨_, rfl⟩
  have hbearer : ∀ (d : EMMCtx) value s, Post (d.parseBearer env value s pkt) fun r => ∃ esm, r.1 = { d with esm } := by
    intro d value s
    unfold parseBearer
    split
    · exact .ok ⟨_, rfl⟩
    · exact .of_bind fun _ => .of_bind fun _ => .ok ⟨_, rfl⟩
  have hrecovery : ∀ (d : EMMCtx) value (v : S11User), ∃ peers,
      (peers = d.s11.peers ∨ ∃ n, peers = (d.s11.checkPeerRestart v.rAddr n).peers) ∧
        d.parseRecovery value v pkt = { d with s11.peers := peers } := by
    intro d value v
    unfold parseRecovery
    split
    · exact ⟨_, .inl rfl, rfl⟩
    · exact ⟨_, .inr ⟨_, rfl⟩, congrArg (fun s11 => { d with s11 }) (checkPeerRestart_peers _ _ _)⟩
  refine hfteid.bind fun ⟨value, v⟩ ⟨rTEID, hv⟩ => ?_
  obtain rfl := hv
  refine .of_bind fun value => .of_bind fun s => .of_bind fun p => .of_bind fun q => ?_
  refine (hbearer _ _ _).bind fun ⟨d, value, goOn⟩ ⟨esm, hd⟩ => .ok ?_
  obtain rfl := hd
  cases goOn with
  | false => exact ⟨esm, _, rTEID, .inl rfl, rfl⟩
  | true =>
    obtain ⟨peers, hpeers, hd⟩ := hrecovery { c with esm } value { u with rTEID }
    exact ⟨esm, peers, rTEID, hpeers, congrArg (·, _) hd⟩

/-- The user after the acknowledgement of a packet, which frees the record of the packet. -/
def acknowledged (u : S11User) (seq : UInt32) : S11User :=
  if (u.trxns.get seq).isSome then { u with trxns := u.trxns.insert seq false } else { u with loose := u.loose - 1 }

theorem acknowledged_eq (u : S11User) (seq : UInt32) : ∃ trxns loose, acknowledged u seq = { u with trxns, loose } := by
  unfold acknowledged
  split <;> exact ⟨_, _, rfl⟩

/-- What `processMsg` of a state does with a packet: nothing, the acknowledgement of a Downlink Data Notification,
a response that the user waited for, or the end of the user. -/
inductive Dispatched (env : Env) (c : EMMCtx) (u : S11User) (pkt : GtpPacket) :
    EMMCtx × Option (Option S11Cb) → Prop
  | ignored : ¬ (u.state = .ulCtx ∧ pkt.type = 176) → Dispatched env c u pkt (c, none)
  | notified : u.state = .ulCtx → pkt.type = 176 →
      Dispatched env c u pkt (((c.log (.s11Send u.lTEID u.rTEID pkt.seq .downlinkDataNotificationAck)).setUser
        (acknowledged u pkt.seq)).log .paging, none)
  | created {d : EMMCtx} {v : S11User} : u.state = .wCtxRsp → pkt.type = 33 → c.parseCtxRsp env u pkt = .ok (d, v) →
      Dispatched env c u pkt (d.setUser { v with state := .ulCtx }, some v.cb)
  | answered {s : S11State} : u.state = .wModBearerRsp → u.state.onResponse pkt.type = some (some s) →
      Dispatched env c u pkt (c.setUser { u with state := s }, some u.cb)
  | deleted {s : S11Stack} : u.state = .wDel → pkt.type = 37 →
      { c.s11 with users := c.s11.users.remove u.lTEID }.unrefSession u.rAddr = .ok s →
      Dispatched env c u pkt ({ c with s11 := s }, some u.cb)

theorem dispatched_s11Dispatch (u : S11User) (pkt : GtpPacket) :
    Post (c.s11Dispatch env u pkt) (Dispatched env c u pkt) := by
  unfold s11Dispatch
  split
  case h_1 hs | h_2 hs => exact .ok (.ignored (by simp [hs]))
  case h_3 hs =>
    refine .ite (fun htype => .of_bind fun _ => .bind_of_eq fun r hr => ?_) fun _ => .ok (.ignored (by simp [hs]))
    exact .ok (.created hs htype hr)
  case h_4 hs =>
    refine .ite (fun htype => ?_) fun htype => .ok (.ignored fun h => htype h.2)
    unfold downlinkDataNotification s11Send
    split
    · exact .ok (.notified hs htype)
    · exact .error
  case h_5 hs =>
    have hno : Dispatched env c u pkt (c, none) := .ignored (by simp [hs])
    refine .ite (fun htype => .of_bind fun _ => .of_bind fun b => .ite (fun _ => ?_) fun _ => .ok hno)
      fun _ => .ite (fun htype => .of_bind fun _ => ?_) fun _ => .ok hno
    · exact .ok (.answered hs (by simp [S11State.onResponse, hs, htype]))
    · exact .ok (.answered hs (by simp [S11State.onResponse, hs, htype]))
  case h_6 hs =>
    refine .ite (fun htype => .of_bind fun _ => .bind_of_eq fun s h => ?_) fun _ => .ok (.ignored (by simp [hs]))
    exact .ok (.deleted hs htype h)

/-- Finding the transaction of a packet changes at most the number of loose records. -/
theorem post_findTrxn (u : S11User) (seq : UInt32) :
    Post (findTrxn u seq) fun v => ∃ loose, v = { u with loose } := by
  unfold findTrxn
  split
  · exact .ok ⟨_, rfl⟩
  · exact .error
  · exact .ok ⟨_, rfl⟩

end EMMCtx

/-! ## Sessions -/

/-- A request that was sent, with the callback of the call that sent it. -/
structure S11Pending where
  seq : UInt32
  req : S11Request
  cb : Option S11Cb
  deriving DecidableEq, Repr

/-- What happens around one S11 user. -/
inductive S11Event
  /-- A call of an operation with a callback. -/
  | call (op : S11Op) (cb : Option S11Cb)
  /-- A packet for the TEID of the user. -/
  | packet (pkt : GtpPacket)
  /-- Whatever happens elsewhere in the MME. -/
  | rest (c : EMMCtx)

/-- A context with one of its S11 users, and the record of the session: the request whose response has
not been taken yet, all requests and all callbacks to which control was returned, newest first. -/
structure S11Session where
  ctx : EMMCtx
  id : Nat
  lTEID : UInt32
  pending : Option S11Pending
  sent : List S11Pending
  returned : List (Option S11Cb)

namespace S11Session

def start (c : EMMCtx) (session : Nat) : S11Session where
  ctx := (c.s11NewUser session).1
  id := c.s11.fresh
  lTEID := c.s11.nextTeid
  pending := none
  sent := []
  returned := []

variable (P : Prims) (t : S11Session)

def user : Option S11User := t.ctx.s11.users.get t.lTEID

/-- The request that was sent between two contexts. -/
def request (c d : EMMCtx) (cb : Option S11Cb) : Option S11Pending :=
  match d.trace.take (d.trace.length - c.trace.length) with
  | [.s11Send _ _ seq req] => some ⟨seq, req, cb⟩
  | _ => none

def step (t : S11Session) : Env × S11Event → Outcome S11Session
  | (env, .call op cb) => do
    let d ← op.run env t.ctx (some t.id) cb
    let new := request t.ctx d cb
    pure { t with ctx := d, pending := new.or t.pending, sent := new.toList ++ t.sent }
  | (env, .packet pkt) => do
    let (d, cb?) ← t.ctx.s11Deliver env pkt
    let d ← EMMCtx.returnControl P env (d, cb?)
    pure { t with
      ctx := d
      pending := if cb?.isSome then none else t.pending
      returned := cb?.toList ++ t.returned }
  | (_, .rest c) => .ok { t with ctx := c }

theorem ctx_step_packet (env : Env) (pkt : GtpPacket) :
    (t.step P (env, .packet pkt)).map ctx = t.ctx.s11Accept P env pkt := by
  rw [EMMCtx.s11Accept_eq]
  simp only [step]
  rcases t.ctx.s11Deliver env pkt with e | ⟨d, cb?⟩
  · rfl
  · cases hd : EMMCtx.returnControl P env (d, cb?) with
    | error e => simp [hd, Except.map]
    | ok d => simp [hd, Except.map]

/-- What the session is about: packets for the TEID of the user, and nothing elsewhere that touches
it. -/
def Allowed : Env × S11Event → Prop
  | (_, .call _ _) => True
  | (_, .packet pkt) => pkt.tei = t.lTEID
  | (_, .rest c) => c.self = t.ctx.self ∧ c.s11.users.get t.lTEID = t.user ∧
      ∀ e ∈ c.s11.users, e.2.id = t.id ↔ e.1 = t.lTEID

instance (e : Env × S11Event) : Decidable (t.Allowed e) :=
  match e with
  | (_, .call _ _) => inferInstanceAs (Decidable True)
  | (_, .packet _) => inferInstanceAs (Decidable (_ = _))
  | (_, .rest _) => inferInstanceAs (Decidable (_ ∧ _ ∧ _))

end S11Session

/-! ## The abstract machine -/

/-- What the properties of a session depend on; `state` is `none` once the user is freed. -/
structure S11View where
  state : Option S11State
  cb : Option S11Cb
  rAddr : Option SockAddr
  pending : Option S11Pending
  sent : List S11Pending
  returned : List (Option S11Cb)

/-- What an event can do. -/
inductive S11Step : S11View → S11Event → S11View → Prop
  /-- The state does not implement the operation, but the callback is stored. -/
  | refuse {v : S11View} {op : S11Op} {cb : Option S11Cb} {s : S11State} :
      v.state = some s → op.accepts s = false → S11Step v (.call op cb) { v with cb }
  /-- The request is sent. -/
  | request {v : S11View} {op : S11Op} {p : S11Pending} {s : S11State} :
      v.state = some s → op.accepts s = true → p.req.op = some op →
      S11Step v (.call op p.cb)
        { v with state := some op.next, cb := p.cb, pending := some p, sent := p :: v.sent }
  | ignore {v : S11View} {pkt : GtpPacket} : S11Step v (.packet pkt) v
  /-- A response is taken, whatever its sequence number. -/
  | complete {v : S11View} {pkt : GtpPacket} {s s' : S11State} :
      v.state = some s → pkt.peer = v.rAddr → s.onResponse pkt.type = some (some s') →
      S11Step v (.packet pkt)
        { v with state := some s', pending := none, returned := v.cb :: v.returned }
  /-- A Delete Session Response is taken, and the user is freed. -/
  | delete {v : S11View} {pkt : GtpPacket} {s : S11State} :
      v.state = some s → pkt.peer = v.rAddr → s.onResponse pkt.type = some none →
      S11Step v (.packet pkt)
        { v with state := none, cb := none, rAddr := none, pending := none,
                 returned := v.cb :: v.returned }
  | rest {v : S11View} {c : EMMCtx} : S11Step v (.rest c) v

namespace S11Session

variable {P : Prims} {t t' : S11Session} {env : Env}

/-- The view of a session. -/
def view (t : S11Session) : S11View where
  state := t.user.map (·.state)
  cb := t.user.bind (·.cb)
  rAddr := t.user.bind (·.rAddr)
  pending := t.pending
  sent := t.sent
  returned := t.returned

/-- The identifier of the user and its TEID lead to the same user. -/
structure Tracked (t : S11Session) : Prop where
  owned : ∀ u, t.user = some u → u.lTEID = t.lTEID ∧ u.emm = t.ctx.self
  only : ∀ e ∈ t.ctx.s11.users, e.2.id = t.id ↔ e.1 = t.lTEID

theorem tracked_start {c : EMMCtx} (h : ∀ e ∈ c.s11.users, e.2.id ≠ c.s11.fresh) (session : Nat) :
    (start c session).Tracked where
  owned u hu := by
    cases (Table.get_insert_self ..).symm.trans hu
    exact ⟨rfl, rfl⟩
  only e he := by
    rcases List.mem_cons.mp he with rfl | he
    · simp [start]
    · obtain ⟨hmem, hne⟩ := List.mem_filter.mp he
      exact iff_of_false (h e hmem) (of_decide_eq_true hne)

namespace Tracked

theorem user_eq_ok (ht : t.Tracked) {u : S11User} (h : t.ctx.s11.user (some t.id) = .ok u) :
    t.user = some u := by
  obtain ⟨i, hi, hu⟩ := deref_eq_ok.mp h
  cases hi
  have hpred : ∀ e ∈ t.ctx.s11.users, decide (e.1 = t.lTEID) = (e.2.id == t.id) := by
    intro e he
    exact decide_eq_decide.mpr (ht.only e he).symm
  rw [user, Table.get, List.find?_congr hpred, hu]

theorem insert (ht : t.Tracked) {u v : S11User} (hu : t.user = some u) (hid : v.id = u.id)
    (hl : v.lTEID = u.lTEID) (hemm : v.emm = u.emm) {d : EMMCtx} (hself : d.self = t.ctx.self)
    (hd : d.s11.users = t.ctx.s11.users.insert u.lTEID v) (p : Option S11Pending)
    (ps : List S11Pending) (r : List (Option S11Cb)) :
    Tracked ⟨d, t.id, t.lTEID, p, ps, r⟩ ∧ user ⟨d, t.id, t.lTEID, p, ps, r⟩ = some v := by
  obtain ⟨hlu, hemmu⟩ := ht.owned u hu
  have hmem : (t.lTEID, u) ∈ t.ctx.s11.users := by
    obtain ⟨⟨k, w⟩, hfind, rfl⟩ := Option.map_eq_some_iff.mp hu
    obtain rfl : k = t.lTEID := by simpa using List.find?_some hfind
    exact List.mem_of_find?_eq_some hfind
  have hget : user ⟨d, t.id, t.lTEID, p, ps, r⟩ = some v := by
    rw [user, hd, hlu, Table.get_insert_self]
  refine ⟨⟨fun w hw => ?_, fun e he => ?_⟩, hget⟩
  · cases hget.symm.trans hw
    exact ⟨hl.trans hlu, hemm.trans (hemmu.trans hself.symm)⟩
  · rw [hd, hlu] at he
    rcases List.mem_cons.mp he with rfl | he
    · exact iff_of_true (hid.trans ((ht.only _ hmem).mpr rfl)) rfl
    · exact ht.only e (List.mem_filter.mp he).1

theorem remove (ht : t.Tracked) {d : EMMCtx}
    (hd : d.s11.users = t.ctx.s11.users.remove t.lTEID) (p : Option S11Pending)
    (ps : List S11Pending) (r : List (Option S11Cb)) :
    Tracked ⟨d, t.id, t.lTEID, p, ps, r⟩ ∧ user ⟨d, t.id, t.lTEID, p, ps, r⟩ = none := by
  have hget : user ⟨d, t.id, t.lTEID, p, ps, r⟩ = none := by rw [user, hd, Table.get_remove_self]
  refine ⟨⟨fun w hw => ?_, fun e he => ?_⟩, hget⟩
  · cases hget.symm.trans hw
  · rw [hd] at he
    exact ht.only e (List.mem_filter.mp he).1

end Tracked

theorem simulates_call (ht : t.Tracked) (op : S11Op) (cb : Option S11Cb) :
    Post (t.step P (env, .call op cb)) fun t' => t'.Tracked ∧ S11Step t.view (.call op cb) t'.view := by
  rw [step, S11Op.run_eq]
  refine .bind_of_eq fun d hd => .ok ?_
  obtain ⟨u, hu, hd⟩ := bind_eq_ok.mp hd
  replace hu := ht.user_eq_ok hu
  dsimp only at hd
  have hstate : t.view.state = some u.state := by simp [view, hu]
  split at hd
  · rename_i hacc
    obtain ⟨r, hr, hd⟩ := bind_eq_ok.mp hd
    obtain ⟨req, peers, trxns, hop, -, -, -, rfl⟩ := EMMCtx.post_send op _ r hr
    cases hd
    have hnew : ∀ v, request t.ctx ((t.ctx.requested { u with cb } req peers).setUser v) cb =
        some ⟨t.ctx.s11.seq, req, cb⟩ := fun v => by simp [request, EMMCtx.setUser, EMMCtx.requested]
    obtain ⟨htr, huser⟩ := ht.insert hu (v := { u with cb, trxns, state := op.next }) rfl rfl rfl
      (d := (t.ctx.requested { u with cb } req peers).setUser { u with cb, trxns, state := op.next }) rfl rfl
      (some ⟨t.ctx.s11.seq, req, cb⟩) (⟨t.ctx.s11.seq, req, cb⟩ :: t.sent) t.returned
    simp only [hnew]
    refine ⟨htr, ?_⟩
    have hstep := S11Step.request (p := ⟨t.ctx.s11.seq, req, cb⟩) hstate hacc hop
    simpa [view, huser, hu] using hstep
  · rename_i hacc
    cases hd
    have hnew : request t.ctx (t.ctx.setUser { u with cb }) cb = none := by
      simp [request, EMMCtx.setUser]
    obtain ⟨htr, huser⟩ := ht.insert hu (v := { u with cb }) rfl rfl rfl
      (d := t.ctx.setUser { u with cb }) rfl rfl t.pending t.sent t.returned
    simp only [hnew, Option.none_or, Option.toList_none, List.nil_append]
    refine ⟨htr, ?_⟩
    have hstep : S11Step t.view (.call op cb) { t.view with cb } := .refuse hstate (by simpa using hacc)
    simpa [view, huser, hu] using hstep

theorem simulates_packet (ht : t.Tracked) {pkt : GtpPacket} (hpkt : pkt.tei = t.lTEID) :
    Post (t.step P (env, .packet pkt)) fun t' => t'.Tracked ∧ S11Step t.view (.packet pkt) t'.view := by
  cases hu : t.user with
  | none =>
    have hget : t.ctx.s11.users.get pkt.tei = none := hpkt ▸ hu
    simp only [step, EMMCtx.s11Deliver, hget]
    exact .ok ⟨⟨ht.owned, ht.only⟩, .ignore⟩
  | some u =>
    have hget : t.ctx.s11.users.get pkt.tei = some u := hpkt ▸ hu
    obtain ⟨hl, hemm⟩ := ht.owned u hu
    have hstate : t.view.state = some u.state := by simp [view, hu]
    have hrAddr : t.view.rAddr = u.rAddr := by simp [view, hu]
    simp only [step, EMMCtx.s11Deliver, hget, hemm, if_true, bind_assoc]
    refine (EMMCtx.post_findTrxn u pkt.seq).bind fun v hv => ?_
    obtain ⟨loose, rfl⟩ := hv
    have hput := ht.insert hu (v := { u with loose }) rfl rfl rfl
      (d := t.ctx.setUser { u with loose }) rfl rfl t.pending t.sent t.returned
    split
    · refine .ok ⟨hput.1, ?_⟩
      have hstep : S11Step t.view (.packet pkt) t.view := .ignore
      simpa [view, hput.2, hu] using hstep
    · rename_i haddr
      replace haddr := hrAddr ▸ (not_not.mp haddr).symm
      refine (EMMCtx.dispatched_s11Dispatch { u with loose } pkt).bind fun r hr => ?_
      refine (EMMCtx.sameS11_returnControl r).bind fun d' hd' => .ok ?_
      have husers' := congrArg S11Stack.users hd'.1
      cases hr with
      | ignored =>
        obtain ⟨htr, huser⟩ := ht.insert hu (v := { u with loose }) rfl rfl rfl hd'.2 husers' t.pending t.sent t.returned
        refine ⟨htr, ?_⟩
        have hstep : S11Step t.view (.packet pkt) t.view := .ignore
        simpa [view, huser, hu] using hstep
      | notified =>
        obtain ⟨trxns, loose', hack⟩ := EMMCtx.acknowledged_eq { u with loose } pkt.seq
        rw [hack] at husers' hd'
        obtain ⟨htr, huser⟩ := hput.1.insert hput.2 (v := { u with trxns, loose := loose' }) rfl rfl rfl
          hd'.2 husers' t.pending t.sent t.returned
        refine ⟨htr, ?_⟩
        have hstep : S11Step t.view (.packet pkt) t.view := .ignore
        simpa [view, huser, hu] using hstep
      | created hs htype hr =>
        replace hs : u.state = .wCtxRsp := hs
        obtain ⟨esm, peers, rTEID, -, hr⟩ := EMMCtx.post_parseCtxRsp _ pkt _ hr
        cases hr
        obtain ⟨htr, huser⟩ := hput.1.insert hput.2 (v := { u with loose, rTEID, state := .ulCtx }) rfl rfl rfl
          hd'.2 husers' none t.sent (u.cb :: t.returned)
        refine ⟨htr, ?_⟩
        have hstep := S11Step.complete hstate haddr (show _ = some (some .ulCtx) by simp [S11State.onResponse, hs, htype])
        simpa [view, huser, hu] using hstep
      | @answered s _ hs =>
        obtain ⟨htr, huser⟩ := hput.1.insert hput.2 (v := { u with loose, state := s }) rfl rfl rfl
          hd'.2 husers' none t.sent (u.cb :: t.returned)
        refine ⟨htr, ?_⟩
        have hstep := S11Step.complete hstate haddr hs
        simpa [view, huser, hu] using hstep
      | deleted hs htype hunref =>
        replace hs : u.state = .wDel := hs
        obtain ⟨peers, rfl⟩ := EMMCtx.unrefSession_peers hunref
        obtain ⟨htr, huser⟩ := hput.1.remove (by rw [husers', ← hl]) none t.sent (u.cb :: t.returned)
        refine ⟨htr, ?_⟩
        have hstep := S11Step.delete hstate haddr (by simp [S11State.onResponse, hs, htype])
        simpa [view, huser, hu] using hstep

theorem simulates (ht : t.Tracked) {e : Env × S11Event} (he : t.Allowed e) :
    Post (t.step P e) fun t' => t'.Tracked ∧ S11Step t.view e.2 t'.view := by
  obtain ⟨env, e⟩ := e
  cases e with
  | call op cb => exact simulates_call ht op cb
  | packet pkt => exact simulates_packet ht he
  | rest c =>
    obtain ⟨hself, hget, hids⟩ := he
    have huser : ({ t with ctx := c } : S11Session).user = t.user := hget
    refine .ok ⟨⟨fun u hu => ?_, hids⟩, ?_⟩
    · obtain ⟨hl, hemm⟩ := ht.owned u (huser ▸ hu)
      exact ⟨hl, hemm.trans hself.symm⟩
    · have hstep := S11Step.rest (v := t.view) (c := c)
      simpa [view, huser] using hstep

/-- The rule of invariants for sessions: what every step of the abstract machine keeps holds at the end
of every run of allowed events. -/
theorem run_invariant {Q : S11Session → Env × S11Event → Prop} {I : S11View → Prop}
    (hQ : ∀ t e, Q t e → t.Allowed e)
    (hI : ∀ t e w, I t.view → Q t e → S11Step t.view e.2 w → I w) {es : List (Env × S11Event)}
    (h : Run (step P) Q t es t') (ht : t.Tracked) (hi : I t.view) : t'.Tracked ∧ I t'.view := by
  refine h.invariant (I := fun t => t.Tracked ∧ I t.view) ?_ ⟨ht, hi⟩
  rintro t e u ⟨htr, hit⟩ hq hu
  obtain ⟨htr', hstep⟩ := simulates htr (hQ t e hq) u hu
  exact ⟨htr', hI t e _ hit hq hstep⟩

end S11Session

end AaltoMME
