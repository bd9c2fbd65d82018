import AaltoMME.EMM.Context

/-!
# S11 users: the requests to the serving gateway

The side of `S11_User.c` and of its states that the MME drives: creating a user and the four
operations `attach`, `detach`, `modBearer` and `releaseAccess`.  Each operation stores the callback
first and then asks the state of the user; a state that does not implement the operation only logs,
so the callback of the operation that is still pending is replaced all the same.
-/

namespace AaltoMME

open Base NAS

namespace S11Stack

def user (s : S11Stack) (p : Option Nat) : Outcome S11User :=
  deref (fun i => (s.users.find? (·.2.id == i)).map (·.2)) p

def setUser (s : S11Stack) (u : S11User) : S11Stack := { s with users := s.users.insert u.lTEID u }

/-- `s11peer_isFirstSession`: count a session of the peer, and tell whether it is the first. -/
def isFirstSession (s : S11Stack) (rAddr : Option SockAddr) : Bool × S11Stack :=
  match s.peers.get rAddr with
  | some p => (false, { s with peers := s.peers.insert rAddr { p with numSessions := p.numSessions + 1 } })
  | none => (true, { s with peers := s.peers.insert rAddr ⟨1, 0, false⟩ })

/-- `S11_unrefSession`; the missing peer is reported and then dereferenced. -/
def unrefSession (s : S11Stack) (rAddr : Option SockAddr) : Outcome S11Stack :=
  match s.peers.get rAddr with
  | none => .error .nullDeref
  | some p =>
    .ok { s with
      peers := if p.numSessions = 1 then s.peers.remove rAddr
        else s.peers.insert rAddr { p with numSessions := p.numSessions - 1 } }

/-- `s11u_newTrxn`: the sequence number has 24 bits.  The key of a transaction lies in its record.  If
the number is in use, the table frees the old record but keeps the old key, which then dangles. -/
def newTrxn (s : S11Stack) (u : S11User) : Outcome (S11Stack × S11User × UInt32) :=
  if u.trxns.get s.seq = some false then .error .useAfterFree
  else .ok ({ s with seq := (s.seq + 1) &&& 0xFFFFFF },
    { u with trxns := u.trxns.insert s.seq (u.trxns.get s.seq).isNone }, s.seq)

end S11Stack

namespace EMMCtx

variable (env : Env) (c : EMMCtx)

def setUser (u : S11User) : EMMCtx := { c with s11 := c.s11.setUser u }

/-- `s11_send`. -/
def s11Send (u : S11User) (seq : UInt32) (req : S11Request) : Outcome EMMCtx :=
  if env.sendto then .ok (c.log (.s11Send u.lTEID u.rTEID seq req))
  else .error (.gError "Error sendto")

/-- Start a transaction and send its request. -/
def s11Request (u : S11User) (req : S11Request) : Outcome (EMMCtx × S11User) := do
  let (s, u, seq) ← c.s11.newTrxn u
  let c ← s11Send env { c with s11 := s } u seq req
  pure (c, u)

/-- `sendCreateSessionReq`. -/
def sendCreateSessionReq (u : S11User) : Outcome (EMMCtx × S11User) := do
  let ecm ← c.derefEcm env
  let session ← c.session u.session
  let bearer ← c.bearer session.defaultBearer
  let (first, s) := c.s11.isFirstSession u.rAddr
  let recovery := if first then some s.restartCounter else none
  s11Request env { c with s11 := s } u
    (.createSession c.imsi c.msisdn ecm.sn c.pgwIP c.subs session.pco bearer.ebi recovery)

/-- `sendModifyBearerReq`. -/
def sendModifyBearerReq (u : S11User) : Outcome (EMMCtx × S11User) := do
  let session ← c.session u.session
  let bearer ← c.bearer session.defaultBearer
  s11Request env c u (.modifyBearer bearer.ebi (bearer.s1uEnb.take bearer.s1uEnb.len))

/-- `sendDeleteSessionReq`, always for the bearer identity 5. -/
def sendDeleteSessionReq (u : S11User) : Outcome (EMMCtx × S11User) :=
  s11Request env c u (.deleteSession 5)

/-- `sendReleaseAccessBearersReq`. -/
def sendReleaseAccessBearersReq (u : S11User) : Outcome (EMMCtx × S11User) :=
  s11Request env c u .releaseAccessBearers

/-- An operation on an S11 user: the callback is stored, and in the states `from?` the request is sent
and the user waits in the state `next` for the response. -/
def s11Operation (p : Option Nat) (cb : Option S11Cb) (from? : S11State → Bool)
    (send : EMMCtx → S11User → Outcome (EMMCtx × S11User)) (next : S11State) : Outcome EMMCtx := do
  let u ← c.s11.user p
  let u := { u with cb }
  if from? u.state then
    let (c, u) ← send c u
    pure (c.setUser { u with state := next })
  else
    pure (c.setUser u)

/-- `attach`. -/
def s11Attach (p : Option Nat) (cb : Option S11Cb) : Outcome EMMCtx :=
  s11Operation c p cb (· == .noCtx) (sendCreateSessionReq env) .wCtxRsp

/-- `S11_detach`. -/
def s11Detach (p : Option Nat) (cb : Option S11Cb) : Outcome EMMCtx :=
  s11Operation c p cb (fun s => s == .ulCtx || s == .ctx) (sendDeleteSessionReq env) .wDel

/-- `S11_Attach_ModifyBearerReq`. -/
def s11AttachModifyBearerReq (p : Option Nat) (cb : Option S11Cb) : Outcome EMMCtx :=
  s11Operation c p cb (fun s => s == .ulCtx || s == .ctx) (sendModifyBearerReq env) .wModBearerRsp

/-- `S11_ReleaseAccessBearers`. -/
def s11ReleaseAccessBearers (p : Option Nat) (cb : Option S11Cb) : Outcome EMMCtx :=
  s11Operation c p cb (· == .ctx) (sendReleaseAccessBearersReq env) .wModBearerRsp

/-- `s11u_newUser`, registered under a new TEID; a user that still has that TEID is freed. -/
def s11NewUser (session : Nat) : EMMCtx × Nat :=
  let s := c.s11
  let u : S11User :=
    { id := s.fresh, emm := c.self, session, lTEID := s.nextTeid, rTEID := 0, rAddr := c.sgwIP,
      state := .noCtx, cb := none, trxns := [], loose := 0 }
  ({ c with s11 := { s.setUser u with nextTeid := s.nextTeid + 1, fresh := s.fresh + 1 } }, s.fresh)

/-- `S11_newUserAttach`. -/
def s11NewUserAttach (session : Nat) (cb : S11Cb) : Outcome (EMMCtx × Nat) := do
  let (c, u) := c.s11NewUser session
  let c ← c.s11Attach env (some u) (some cb)
  pure (c, u)

end EMMCtx

end AaltoMME
