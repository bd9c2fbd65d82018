import AaltoMME.Base.Run
import AaltoMME.EMM.States
import AaltoMME.EMM.Step
import AaltoMME.S11.Responses
import AaltoMME.S11.Session

/-!
# Detaching

`esm_detach` asks the serving gateway to delete EPS sessions, and `emm_detachAccept` is to be called once
they are gone.  The Delete Session Requests that have no answer yet and the contexts in which
`emm_detachAccept` was called are recorded beside the context.  A detach is complete if the callback is
called once, in a context in which no session is left, whatever the order of the answers is.
-/

namespace AaltoMME

open Base NAS

namespace EMMCtx

/-! ## Requests and responses -/

section Requests

variable {x : Env} {c : EMMCtx} {u : S11User}

theorem s11Operation_eq {p : Option Nat} (hu : c.s11.user p = .ok u) {from? : S11State → Bool}
    (hst : from? u.state = true) (cb : Option S11Cb) (send : EMMCtx → S11User → Outcome (EMMCtx × S11User))
    (next : S11State) :
    s11Operation c p cb from? send next =
      send c { u with cb } >>= fun r => pure (r.1.setUser { r.2 with state := next }) := by
  simp only [s11Operation, hu, ok_bind, hst, if_true]

theorem s11Request_eq (hsend : x.sendto = true) (hseq : u.trxns.get c.s11.seq ≠ some false)
    (req : S11Request) : s11Request x c u req =
      .ok ({ c with s11 := { c.s11 with seq := (c.s11.seq + 1) &&& 0xFFFFFF } }.log
          (.s11Send u.lTEID u.rTEID c.s11.seq req),
        { u with trxns := u.trxns.insert c.s11.seq (u.trxns.get c.s11.seq).isNone }) := by
  simp only [s11Request, S11Stack.newTrxn, if_neg hseq, ok_bind, s11Send, hsend, if_true, pure_eq_ok]

theorem s11Request_reused (hseq : u.trxns.get c.s11.seq = some false) (req : S11Request) :
    s11Request x c u req = .error .useAfterFree := by
  simp only [s11Request, S11Stack.newTrxn, if_pos hseq, error_bind]

/-- A response with the cause "request accepted". -/
def AcceptedRsp (pkt : GtpPacket) : Prop :=
  ∃ v ∈ gtp2ieGettliv pkt.ies gtpv2cIECause 0, v.length = 2 ∧ v.head? = some 16

theorem s11Accepted_eq {pkt : GtpPacket} (h : AcceptedRsp pkt) : s11Accepted x pkt = .ok true := by
  obtain ⟨v, hcause, hlen, hhead⟩ := h
  have hcause : gtp2ieGettliv pkt.ies gtpv2cIECause 0 = some v := hcause
  simp [s11Accepted, hcause, hlen, hhead]

end Requests

variable (P : Prims) (x : Env) (c d : EMMCtx)

/-! ## Calls of the callback -/

/-- `esm_deleteEPSSession` up to the callback. -/
def removeEPSSession (id : Nat) : Outcome EMMCtx := do
  let s ← c.session id
  let b ← c.bearer s.defaultBearer
  pure { c with
    esm.sessions := c.esm.sessions.filter (·.id ≠ id)
    esm.bearers := c.esm.bearers.remove b.ebi
    esm.nextEbi := 5 }

theorem esmDeleteEPSSession_eq (id : Nat) :
    c.esmDeleteEPSSession x id =
      c.removeEPSSession id >>= fun d => if d.esm.cb then d.emmDetachAccept x else pure d := by
  simp only [esmDeleteEPSSession, removeEPSSession, bind_assoc, pure_bind]

/-- The context in which `esm_detach` calls `emm_detachAccept` at once. -/
def esmDetachCalls : List EMMCtx :=
  match c.esmGetSessions x with
  | [] => [{ c with esm.cb := true }]
  | _ => []

/-- The context in which a packet of the serving gateway leads to `emm_detachAccept`. -/
def s11AcceptCalls (pkt : GtpPacket) : List EMMCtx :=
  match c.s11Deliver x pkt with
  | .ok (d, some (some (.deleteEPSSession id))) =>
    match d.removeEPSSession id with
    | .ok d => if d.esm.cb then [d] else []
    | .error _ => []
  | _ => []

/-- A Delete Session Request: the TEID of the user and the sequence number. -/
def deleteRequest : Act → Option (UInt32 × UInt32)
  | .s11Send lTEID _ seq (.deleteSession _) => some (lTEID, seq)
  | _ => none

/-- The Delete Session Requests that were sent between two contexts. -/
def deleteRequests : List (UInt32 × UInt32) :=
  (d.trace.take (d.trace.length - c.trace.length)).filterMap deleteRequest

variable {c d}

theorem deleteRequests_eq {l : List Act} (h : d.trace = l ++ c.trace) :
    c.deleteRequests d = l.filterMap deleteRequest := by
  have hlen : d.trace.length - c.trace.length = l.length := by simp [h]
  rw [deleteRequests, hlen, h, List.take_left]

end EMMCtx

/-! ## Detaches in progress -/

/-- A context that is being detached, the requests without an answer and the calls so far. -/
structure Detaching where
  ctx : EMMCtx
  requests : List (UInt32 × UInt32)
  accepts : List EMMCtx

namespace Detaching

variable (P : Prims)

/-- `esm_detach`. -/
def start (x : Env) (c : EMMCtx) : Outcome Detaching := do
  let d ← c.esmDetach x
  pure ⟨d, c.deleteRequests d, c.esmDetachCalls x⟩

/-- A packet of the serving gateway. -/
def step (t : Detaching) (e : Env × GtpPacket) : Outcome Detaching := do
  let d ← t.ctx.s11Accept P e.1 e.2
  pure ⟨d, t.ctx.deleteRequests d ++ t.requests.erase (e.2.tei, e.2.seq), t.ctx.s11AcceptCalls e.1 e.2 ++ t.accepts⟩

/-- The packet accepts one of the requests that have no answer yet, and the ECM session is there. -/
structure Answers (t : Detaching) (e : Env × GtpPacket) : Prop where
  mem : (e.2.tei, e.2.seq) ∈ t.requests
  type : e.2.type = 37
  peer : ∀ u, t.ctx.s11.users.get e.2.tei = some u → e.2.peer = u.rAddr
  accepted : EMMCtx.AcceptedRsp e.2
  ecm : ∀ id, t.ctx.ecm = some id → ∃ s, e.1.ecms id = some s

end Detaching

namespace EMMCtx

/-- No session of the context `c` is left in `d`: its user is gone, which happens when the serving
gateway has answered the Delete Session Request, and so are its entries in the tables of the ESM. -/
structure Detached (c d : EMMCtx) : Prop where
  user : ∀ s ∈ c.esm.sessions, ∀ e ∈ d.s11.users, s.s11 ≠ some e.2.id
  session : ∀ s ∈ c.esm.sessions, ∀ s' ∈ d.esm.sessions, s'.id ≠ s.id
  bearer : ∀ s ∈ c.esm.sessions, ∀ b, c.bearer s.defaultBearer = .ok b → d.esm.bearers.get b.ebi = none

/-- Every answer is taken, all requests can be answered, and once they are `emm_detachAccept` was called
once, with nothing left of the sessions. -/
structure DetachCompletes (P : Prims) (x : Env) (c : EMMCtx) (t₀ : Detaching) : Prop where
  start : Detaching.start x c = .ok t₀
  progress : ∀ es t e, Run (Detaching.step P) Detaching.Answers t₀ es t → t.Answers e → ∃ t', t.step P e = .ok t'
  ends : ∃ es t, Run (Detaching.step P) Detaching.Answers t₀ es t ∧ t.requests = []
  once : ∀ es t, Run (Detaching.step P) Detaching.Answers t₀ es t → t.requests = [] →
    ∃ d, t.accepts = [d] ∧ c.Detached d

/-- A context whose sessions have an S11 user each that can be detached, with a peer that is known. -/
structure Detachable (x : Env) (c : EMMCtx) : Prop where
  sendto : x.sendto = true
  ecm : ∀ id, c.ecm = some id → ∃ s, x.ecms id = some s
  ids : (c.esm.sessions.map (·.id)).Nodup
  bearer : ∀ s ∈ c.esm.sessions, ∃ b, c.bearer s.defaultBearer = .ok b
  pointers : ∀ e ∈ c.s11.users, ∀ e' ∈ c.s11.users, e.2.id = e'.2.id → e = e'
  user : ∀ s ∈ c.esm.sessions, ∃ u, s.s11 = some u.id ∧ c.s11.users.get u.lTEID = some u ∧ u.emm = c.self ∧
    (u.state = .ulCtx ∨ u.state = .ctx) ∧ ∃ p, c.s11.peers.get u.rAddr = some p

variable {P : Prims} {x : Env} {c : EMMCtx} {u : S11User}

/-! ## One session -/

theorem session_of_mem (hn : (c.esm.sessions.map (·.id)).Nodup) {s : EPSSession} (hs : s ∈ c.esm.sessions) :
    c.session s.id = .ok s := by
  refine deref_eq_ok.mpr ⟨s.id, rfl, ?_⟩
  generalize c.esm.sessions = l at hn hs
  induction l with
  | nil => cases hs
  | cons t l ih =>
    obtain ⟨ht, hn⟩ := List.nodup_cons.mp hn
    rcases List.mem_cons.mp hs with rfl | hs
    · simp
    · have hne : t.id ≠ s.id := by
        intro heq
        exact ht (List.mem_map.mpr ⟨s, hs, heq.symm⟩)
      simpa [hne] using ih hn hs

theorem user_of_get (hp : ∀ e ∈ c.s11.users, ∀ e' ∈ c.s11.users, e.2.id = e'.2.id → e = e')
    (hget : c.s11.users.get u.lTEID = some u) : c.s11.user (some u.id) = .ok u := by
  have hmem := Table.mem_of_get hget
  refine deref_eq_ok.mpr ⟨u.id, rfl, Option.map_eq_some_iff.mpr ⟨(u.lTEID, u), ?_, rfl⟩⟩
  cases hfind : c.s11.users.find? (·.2.id == u.id) with
  | none => simpa using List.find?_eq_none.mp hfind _ hmem
  | some e =>
    have hid : e.2.id = u.id := by simpa using List.find?_some hfind
    rw [hp e (List.mem_of_find?_eq_some hfind) _ hmem hid]

/-- The user while its Delete Session Request is pending. -/
def leavingUser (c : EMMCtx) (u : S11User) (id : Nat) : S11User :=
  { u with
    cb := some (.deleteEPSSession id)
    trxns := u.trxns.insert c.s11.seq (u.trxns.get c.s11.seq).isNone
    state := .wDel }

/-- The context while the Delete Session Request of a user is pending. -/
def leaving (c : EMMCtx) (u : S11User) (id : Nat) : EMMCtx :=
  { c with
    esm.cb := true
    s11 := { c.s11 with seq := (c.s11.seq + 1) &&& 0xFFFFFF }.setUser (c.leavingUser u id)
    trace := [.s11Send u.lTEID u.rTEID c.s11.seq (.deleteSession 5)] ++ c.trace }

theorem esmDetach_eq_bind {id : Nat} {ids : List Nat} (hfirst : c.esmGetSessions x = id :: ids)
    {s : EPSSession} (hs : c.session id = .ok s) (hu : c.s11.user s.s11 = .ok u)
    (hst : u.state = .ulCtx ∨ u.state = .ctx) :
    c.esmDetach x = s11Request x { c with esm.cb := true } { u with cb := some (.deleteEPSSession id) } (.deleteSession 5) >>=
      fun r => pure (r.1.setUser { r.2 with state := .wDel }) := by
  have hfirst' : ({ c with esm.cb := true } : EMMCtx).esmGetSessions x = id :: ids := hfirst
  have hs' : ({ c with esm.cb := true } : EMMCtx).session id = .ok s := hs
  have hfrom : (u.state == .ulCtx || u.state == .ctx) = true := by
    rcases hst with h | h <;> rw [h] <;> rfl
  simp only [esmDetach, hfirst', hs', ok_bind, s11Detach]
  rw [s11Operation_eq (c := { c with esm.cb := true }) hu hfrom, sendDeleteSessionReq]

theorem esmDetach_eq (hsend : x.sendto = true) {id : Nat} {ids : List Nat} (hfirst : c.esmGetSessions x = id :: ids)
    {s : EPSSession} (hs : c.session id = .ok s) (hu : c.s11.user s.s11 = .ok u)
    (hst : u.state = .ulCtx ∨ u.state = .ctx) (hseq : u.trxns.get c.s11.seq ≠ some false) :
    c.esmDetach x = .ok (c.leaving u id) := by
  rw [esmDetach_eq_bind hfirst hs hu hst, s11Request_eq hsend]
  · rfl
  · exact hseq

theorem esmDetach_reused {id : Nat} {ids : List Nat} (hfirst : c.esmGetSessions x = id :: ids)
    {s : EPSSession} (hs : c.session id = .ok s) (hu : c.s11.user s.s11 = .ok u)
    (hst : u.state = .ulCtx ∨ u.state = .ctx) (hseq : u.trxns.get c.s11.seq = some false) :
    c.esmDetach x = .error .useAfterFree := by
  rw [esmDetach_eq_bind hfirst hs hu hst, s11Request_reused]
  · rfl
  · exact hseq

/-- What `emm_detachAccept` hands over is no request to the serving gateway. -/
theorem emmDetachAccept_eq (h : ∀ id, c.ecm = some id → ∃ s, x.ecms id = some s) :
    ∃ d l, c.emmDetachAccept x = .ok d ∧ d.trace = l ++ c.trace ∧ l.filterMap deleteRequest = [] := by
  have hsend : ∀ e : EMMCtx, e.ecm = c.ecm → ∀ pdu, ∃ a, e.ecmSend x pdu = .ok (e.log a) ∧ deleteRequest a = none := by
    intro e he pdu
    cases hecm : c.ecm with
    | none => exact ⟨.ecmSend none e.sci pdu, by simp only [ecmSend, he, hecm], rfl⟩
    | some id =>
      obtain ⟨s, hs⟩ := h id hecm
      have hderef : e.derefEcm x = .ok s := deref_eq_ok.mpr ⟨id, he.trans hecm, hs⟩
      exact ⟨.ecmSend (some id) e.sci pdu, by simp only [ecmSend, he, hecm, hderef, ok_bind, pure_eq_ok], rfl⟩
  have hrelease : ∀ e : EMMCtx, e.ecm = c.ecm → ∀ l, e.trace = l ++ c.trace → l.filterMap deleteRequest = [] →
      ∃ d l, e.ecmSendUEContextReleaseCommand x .detach = .ok d ∧ d.trace = l ++ c.trace ∧
        l.filterMap deleteRequest = [] := by
    intro e he l htr hl
    cases hecm : c.ecm with
    | none => exact ⟨e, l, by simp only [ecmSendUEContextReleaseCommand, he, hecm], htr, hl⟩
    | some id =>
      obtain ⟨s, hs⟩ := h id hecm
      have hderef : e.derefEcm x = .ok s := deref_eq_ok.mpr ⟨id, he.trans hecm, hs⟩
      refine ⟨e.log (.ueContextRelease id .detach), .ueContextRelease id .detach :: l, ?_, ?_, hl⟩
      · simp only [ecmSendUEContextReleaseCommand, he, hecm, hderef, ok_bind, pure_eq_ok]
      · rw [EMMCtx.log, htr, List.cons_append]
  by_cases hoff : c.msg.detachType &&& 0x8 ≠ 0x8
  · obtain ⟨a, ha, hnone⟩ := hsend { c with s1BearersActive := false } rfl [0x07, detachAccept]
    simp only [emmDetachAccept, if_pos hoff, ha]
    exact hrelease _ rfl [a] rfl (by simp [hnone])
  · simp only [emmDetachAccept, if_neg hoff]
    exact hrelease _ rfl [] rfl rfl

/-- The answer to the pending request removes the user and returns control to `esm_deleteEPSSession`. -/
theorem s11Deliver_leaving {id : Nat} (hnew : u.trxns.get c.s11.seq = none) (hemm : u.emm = c.self) {p : S11Peer} (hp : c.s11.peers.get u.rAddr = some p)
    {pkt : GtpPacket} (htei : pkt.tei = u.lTEID) (hseq : pkt.seq = c.s11.seq) (htype : pkt.type = 37)
    (hpeer : pkt.peer = u.rAddr) (hacc : AcceptedRsp pkt) :
    ∃ s : S11Stack, s.users = c.s11.users.remove u.lTEID ∧
      (c.leaving u id).s11Deliver x pkt = .ok ({ c.leaving u id with s11 := s }, some (some (.deleteEPSSession id))) := by
  have hget : (c.leaving u id).s11.users.get u.lTEID = some (c.leavingUser u id) := Table.get_insert_self ..
  have hself : (c.leavingUser u id).emm = (c.leaving u id).self := hemm
  have htrxn : (c.leavingUser u id).trxns.get c.s11.seq = some true := by
    rw [leavingUser, hnew]
    exact Table.get_insert_self ..
  have hfind : findTrxn (c.leavingUser u id) c.s11.seq = .ok (c.leavingUser u id) := by
    simp only [findTrxn, htrxn]
  have hrAddr : ¬ (c.leavingUser u id).rAddr ≠ u.rAddr := not_not.mpr rfl
  have hstate : (c.leavingUser u id).state = .wDel := rfl
  obtain ⟨s, hs, husers⟩ : ∃ s, S11Stack.unrefSession
      { ((c.leaving u id).setUser (c.leavingUser u id)).s11 with
        users := ((c.leaving u id).setUser (c.leavingUser u id)).s11.users.remove (c.leavingUser u id).lTEID }
      (c.leavingUser u id).rAddr = .ok s ∧ s.users = c.s11.users.remove u.lTEID := by
    have hpeers : ((c.leaving u id).setUser (c.leavingUser u id)).s11.peers.get (c.leavingUser u id).rAddr = some p := hp
    have hremove : ((c.leaving u id).setUser (c.leavingUser u id)).s11.users.remove (c.leavingUser u id).lTEID =
        c.s11.users.remove u.lTEID :=
      (Table.remove_insert_self ..).trans (Table.remove_insert_self ..)
    simp only [S11Stack.unrefSession, hpeers]
    exact ⟨_, rfl, hremove⟩
  refine ⟨s, husers, ?_⟩
  simp only [s11Deliver, htei, hget, if_pos hself, hseq, hfind, ok_bind, hpeer, if_neg hrAddr, s11Dispatch,
    if_pos htype, s11Accepted_eq hacc, hs]
  rfl

/-- If the number of the request was in use, its record was freed. -/
theorem s11Accept_leaving_reused {id : Nat} (hused : u.trxns.get c.s11.seq = some true) (hemm : u.emm = c.self)
    {pkt : GtpPacket} (htei : pkt.tei = u.lTEID) (hseq : pkt.seq = c.s11.seq) :
    (c.leaving u id).s11Accept P x pkt = .error .useAfterFree := by
  have hget : (c.leaving u id).s11.users.get u.lTEID = some (c.leavingUser u id) := Table.get_insert_self ..
  have hself : (c.leavingUser u id).emm = (c.leaving u id).self := hemm
  have htrxn : (c.leavingUser u id).trxns.get c.s11.seq = some false := by
    rw [leavingUser, hused]
    exact Table.get_insert_self ..
  simp only [s11Accept, htei, hget, if_pos hself, s11ProcessMsg, hseq, findTrxn, htrxn, error_bind]

theorem removeEPSSession_eq {id : Nat} {s : EPSSession} (hs : c.session id = .ok s) {b : BearerContext}
    (hb : c.bearer s.defaultBearer = .ok b) :
    c.removeEPSSession id = .ok { c with
      esm.sessions := c.esm.sessions.filter (·.id ≠ id)
      esm.bearers := c.esm.bearers.remove b.ebi
      esm.nextEbi := 5 } := by
  simp only [removeEPSSession, hs, hb, ok_bind, pure_eq_ok]

/-- The context when `emm_detachAccept` is called, with the stack that the answer leaves. -/
def left (c : EMMCtx) (u : S11User) (id : Nat) (b : BearerContext) (s : S11Stack) : EMMCtx :=
  { c.leaving u id with
    s11 := s
    esm.sessions := c.esm.sessions.filter (·.id ≠ id)
    esm.bearers := c.esm.bearers.remove b.ebi
    esm.nextEbi := 5 }

/-- What is left of the context `c` when `emm_detachAccept` is called for the session `s`. -/
structure Leaves (c : EMMCtx) (s : EPSSession) (u : S11User) (b : BearerContext) (d : EMMCtx) : Prop where
  users : d.s11.users = c.s11.users.remove u.lTEID
  sessions : d.esm.sessions = c.esm.sessions.filter (·.id ≠ s.id)
  bearers : d.esm.bearers = c.esm.bearers.remove b.ebi

/-- The session that `esm_detach` finds first, with its user and its default bearer. -/
structure FirstSession (x : Env) (c : EMMCtx) (s : EPSSession) (u : S11User) (b : BearerContext) : Prop where
  mem : s ∈ c.esm.sessions
  first : ∃ ids, c.esmGetSessions x = s.id :: ids
  session : c.session s.id = .ok s
  bearer : c.bearer s.defaultBearer = .ok b
  ptr : s.s11 = some u.id
  user : c.s11.user s.s11 = .ok u
  emm : u.emm = c.self
  state : u.state = .ulCtx ∨ u.state = .ctx
  get : c.s11.users.get u.lTEID = some u
  peer : ∃ p, c.s11.peers.get u.rAddr = some p

theorem Detachable.firstSession (h : c.Detachable x) (hne : c.esm.sessions ≠ []) : ∃ s u b, c.FirstSession x s u b := by
  obtain ⟨id, ids, hfirst⟩ : ∃ id ids, c.esmGetSessions x = id :: ids := by
    refine List.exists_cons_of_ne_nil fun hnil => hne ?_
    simpa [esmGetSessions] using hnil
  have hmem : id ∈ c.esmGetSessions x := by simp [hfirst]
  obtain ⟨s, hs, rfl⟩ : ∃ s ∈ c.esm.sessions, s.id = id := by simpa [esmGetSessions] using hmem
  obtain ⟨u, hptr, hget, hemm, hst, hp⟩ := h.user s hs
  obtain ⟨b, hb⟩ := h.bearer s hs
  have huser := hptr ▸ user_of_get h.pointers hget
  exact ⟨s, u, b, hs, ⟨ids, hfirst⟩, session_of_mem h.ids hs, hb, hptr, huser, hemm, hst, hget, hp⟩

namespace FirstSession

variable {s : EPSSession} {b : BearerContext}

/-- The detach of the first session in progress. -/
def begun (c : EMMCtx) (s : EPSSession) (u : S11User) : Detaching :=
  ⟨c.leaving u s.id, [(u.lTEID, c.s11.seq)], []⟩

theorem start_eq (h : c.FirstSession x s u b) (hsend : x.sendto = true) (hseq : u.trxns.get c.s11.seq ≠ some false) :
    Detaching.start x c = .ok (begun c s u) := by
  obtain ⟨ids, hfirst⟩ := h.first
  have hrequests : c.deleteRequests (c.leaving u s.id) = [(u.lTEID, c.s11.seq)] :=
    deleteRequests_eq (l := [.s11Send u.lTEID u.rTEID c.s11.seq (.deleteSession 5)]) rfl
  simp only [Detaching.start, esmDetach_eq hsend hfirst h.session h.user h.state hseq, ok_bind, pure_eq_ok,
    hrequests, esmDetachCalls, hfirst, begun]

theorem step_begun (h : c.FirstSession x s u b) (hnew : u.trxns.get c.s11.seq = none) {e : Env × GtpPacket} (he : (begun c s u).Answers e) :
    ∃ d d', (begun c s u).step P e = .ok ⟨d', [], [d]⟩ ∧ c.Leaves s u b d := by
  obtain ⟨x', pkt⟩ := e
  obtain ⟨htei, hseq⟩ : pkt.tei = u.lTEID ∧ pkt.seq = c.s11.seq := by
    simpa [begun] using he.mem
  have hget : (begun c s u).ctx.s11.users.get pkt.tei = some (c.leavingUser u s.id) :=
    htei ▸ Table.get_insert_self ..
  have hpeer := he.peer (c.leavingUser u s.id) hget
  obtain ⟨p, hp⟩ := h.peer
  obtain ⟨s', husers, hdeliver⟩ := s11Deliver_leaving hnew h.emm hp htei hseq he.type hpeer he.accepted
  have hremove := removeEPSSession_eq (c := { c.leaving u s.id with s11 := s' }) h.session h.bearer
  obtain ⟨d', l, haccept, htrace, hnone⟩ := emmDetachAccept_eq (c := c.left u s.id b s') he.ecm
  have hok : (c.leaving u s.id).s11Accept P x' pkt = .ok d' := by
    rw [s11Accept_eq, hdeliver]
    simp only [ok_bind, returnControl, runOptS11Cb, runS11Cb, esmDeleteEPSSession_eq, hremove]
    exact haccept
  have hrequests : (c.leaving u s.id).deleteRequests d' = [] := (deleteRequests_eq htrace).trans hnone
  refine ⟨c.left u s.id b s', d', ?_, husers, rfl, rfl⟩
  simp only [Detaching.step, begun, hok, ok_bind, s11AcceptCalls, hdeliver, hremove, hrequests, htei, hseq,
    List.erase_cons_head]
  rfl

/-- Before the answer nothing happens, and after it nothing more. -/
theorem run_begun (h : c.FirstSession x s u b) (hnew : u.trxns.get c.s11.seq = none) {es : List (Env × GtpPacket)} {t : Detaching}
    (hrun : Run (Detaching.step P) Detaching.Answers (begun c s u) es t) :
    t = begun c s u ∨ t.requests = [] ∧ ∃ d, t.accepts = [d] ∧ c.Leaves s u b d := by
  refine Run.invariant (I := fun t => t = begun c s u ∨ t.requests = [] ∧ ∃ d, t.accepts = [d] ∧ c.Leaves s u b d)
    ?_ hrun (.inl rfl)
  rintro t e t' (rfl | ⟨hnil, -⟩) he hstep
  · obtain ⟨d, d', hok, hd⟩ := h.step_begun hnew he
    cases hstep.symm.trans hok
    exact .inr ⟨rfl, d, rfl, hd⟩
  · have hmem := he.mem
    rw [hnil] at hmem
    cases hmem

theorem answers_begun (hecm : ∀ id, c.ecm = some id → ∃ s, x.ecms id = some s) :
    (begun c s u).Answers (x, ⟨u.rAddr, 37, u.lTEID, c.s11.seq, [⟨gtpv2cIECause, 0, [16, 0]⟩]⟩) where
  mem := List.mem_singleton_self _
  type := rfl
  peer v hv := by
    have hget : (begun c s u).ctx.s11.users.get u.lTEID = some (c.leavingUser u s.id) := Table.get_insert_self ..
    cases hget.symm.trans hv
    rfl
  accepted := ⟨[16, 0], rfl, rfl, rfl⟩
  ecm := hecm

theorem completes (h : c.FirstSession x s u b) (hnew : u.trxns.get c.s11.seq = none) (hc : c.Detachable x) (hone : c.esm.sessions = [s]) :
    DetachCompletes P x c (begun c s u) where
  start := h.start_eq hc.sendto (by simp [hnew])
  progress es t e hrun he := by
    rcases h.run_begun hnew hrun with rfl | ⟨hnil, -⟩
    · obtain ⟨d, d', hok, -⟩ := h.step_begun hnew he
      exact ⟨_, hok⟩
    · have hmem := he.mem
      rw [hnil] at hmem
      cases hmem
  ends := by
    have hanswer := answers_begun (s := s) (u := u) hc.ecm
    obtain ⟨d, d', hok, -⟩ := h.step_begun hnew hanswer
    exact ⟨_, _, .single hanswer hok, rfl⟩
  once es t hrun hnil := by
    obtain rfl | ⟨-, d, hd, hleft⟩ := h.run_begun hnew hrun
    · cases hnil
    · have hmem : ∀ s' ∈ c.esm.sessions, s' = s := fun s' hs' => by simpa [hone] using hs'
      refine ⟨d, hd, fun s' hs' e he hptr => ?_, fun s' hs' t ht hid => ?_, fun s' hs' b' hb' => ?_⟩
      · -- the only user that the session points to was removed
        obtain rfl := hmem s' hs'
        obtain ⟨he, hne⟩ := List.mem_filter.mp (hleft.users ▸ he)
        have hid : e.2.id = u.id := Option.some.inj (hptr.symm.trans h.ptr)
        have heq := hc.pointers e he _ (Table.mem_of_get h.get) hid
        simp [heq] at hne
      · rw [hleft.sessions, hone] at ht
        simp at ht
      · obtain rfl := hmem s' hs'
        cases h.bearer.symm.trans hb'
        rw [hleft.bearers]
        exact Table.get_remove_self ..

theorem new_of_completes (h : c.FirstSession x s u b) (hc : c.Detachable x) {t₀ : Detaching}
    (ht₀ : DetachCompletes P x c t₀) : u.trxns.get c.s11.seq = none := by
  rcases hseq : u.trxns.get c.s11.seq with _ | _ | _
  · rfl
  · obtain ⟨ids, hfirst⟩ := h.first
    have hstart := ht₀.start
    simp only [Detaching.start, esmDetach_reused hfirst h.session h.user h.state hseq] at hstart
    cases hstart
  · cases ht₀.start.symm.trans (h.start_eq hc.sendto (by simp [hseq]))
    obtain ⟨t', ht'⟩ := ht₀.progress [] _ _ .nil (answers_begun hc.ecm)
    have hfreed : (begun c s u).ctx.s11Accept P x ⟨u.rAddr, 37, u.lTEID, c.s11.seq, [⟨gtpv2cIECause, 0, [16, 0]⟩]⟩ =
        .error .useAfterFree := s11Accept_leaving_reused hseq h.emm rfl rfl
    simp only [Detaching.step, hfreed] at ht'
    cases ht'

/-- Any other session is still there when `emm_detachAccept` is called. -/
theorem eq_of_completes (h : c.FirstSession x s u b) (hnew : u.trxns.get c.s11.seq = none) (hc : DetachCompletes P x c (begun c s u)) {s' : EPSSession}
    (hs' : s' ∈ c.esm.sessions) : s'.id = s.id := by
  obtain ⟨es, t, hrun, hnil⟩ := hc.ends
  obtain ⟨d, hd, hdetached⟩ := hc.once es t hrun hnil
  obtain rfl | ⟨-, d', hd', hleft⟩ := h.run_begun hnew hrun
  · cases hnil
  · obtain rfl : d = d' := by simpa using hd.symm.trans hd'
    by_contra hne
    have hmem : s' ∈ d.esm.sessions := by
      rw [hleft.sessions]
      exact List.mem_filter.mpr ⟨hs', by simpa using hne⟩
    exact hdetached.session s' hs' s' hmem rfl

end FirstSession

theorem detachCompletes_of_nil (h : c.Detachable x) (hnil : c.esm.sessions = []) :
    ∃ t₀, DetachCompletes P x c t₀ := by
  have hsessions : ({ c with esm.cb := true } : EMMCtx).esmGetSessions x = [] := by
    simp [esmGetSessions, hnil]
  have hcalls : c.esmDetachCalls x = [{ c with esm.cb := true }] := by
    have : c.esmGetSessions x = [] := hsessions
    simp only [esmDetachCalls, this]
  obtain ⟨d, l, haccept, htrace, hnone⟩ := emmDetachAccept_eq (c := { c with esm.cb := true }) h.ecm
  have hrequests : c.deleteRequests d = [] := (deleteRequests_eq htrace).trans hnone
  have hstart : Detaching.start x c = .ok ⟨d, [], [{ c with esm.cb := true }]⟩ := by
    simp only [Detaching.start, esmDetach, hsessions, haccept, ok_bind, hrequests, hcalls, pure_eq_ok]
  have hrun : ∀ es t, Run (Detaching.step P) Detaching.Answers ⟨d, [], [{ c with esm.cb := true }]⟩ es t →
      t = ⟨d, [], [{ c with esm.cb := true }]⟩ := by
    intro es t hrun
    refine Run.invariant (I := fun t => t = ⟨d, [], [{ c with esm.cb := true }]⟩) ?_ hrun rfl
    rintro t e t' rfl he -
    cases he.mem
  refine ⟨_, hstart, fun es t e ht he => ?_, ⟨[], _, .nil, rfl⟩, fun es t ht _ => ?_⟩
  · obtain rfl := hrun es t ht
    cases he.mem
  · obtain rfl := hrun es t ht
    refine ⟨_, rfl, ?_, ?_, ?_⟩ <;> simp [hnil]

/-- A detach is complete exactly for a context without an EPS session, and for one with a single session if
the sequence number of its Delete Session Request is new for the S11 user.  `esm_detach` only asks for the
deletion of the session that it finds first, and `emm_detachAccept` follows the answer to that request. -/
theorem detach_completes_iff (h : c.Detachable x) :
    (∃ t₀, DetachCompletes P x c t₀) ↔ c.esm.sessions = [] ∨
      ∃ s, c.esm.sessions = [s] ∧ ∀ u, c.s11.user s.s11 = .ok u → u.trxns.get c.s11.seq = none := by
  by_cases hnil : c.esm.sessions = []
  · simp [detachCompletes_of_nil h hnil, hnil]
  obtain ⟨s, u, b, hfirst⟩ := h.firstSession hnil
  constructor
  · rintro ⟨t₀, ht₀⟩
    have hnew := hfirst.new_of_completes h ht₀
    cases ht₀.start.symm.trans (hfirst.start_eq h.sendto (by simp [hnew]))
    have heq : ∀ s' ∈ c.esm.sessions, s' = s := by
      intro s' hs'
      have hid : s'.id = s.id := hfirst.eq_of_completes hnew ht₀ hs'
      have hsession := session_of_mem h.ids hs'
      rw [hid] at hsession
      exact Except.ok.inj (hsession.symm.trans hfirst.session)
    have hone : c.esm.sessions = [s] := by
      -- two sessions would have the same identifier
      rcases hsessions : c.esm.sessions with _ | ⟨s₁, _ | ⟨s₂, l⟩⟩
      · exact absurd hsessions hnil
      · simp [heq s₁ (by simp [hsessions])]
      · have hids := h.ids
        rw [hsessions, heq s₁ (by simp [hsessions]), heq s₂ (by simp [hsessions])] at hids
        simp at hids
    refine .inr ⟨s, hone, fun u' hu' => ?_⟩
    cases hfirst.user.symm.trans hu'
    exact hnew
  · rintro (hempty | ⟨s', hone, hnew⟩)
    · exact absurd hempty hnil
    · obtain rfl : s = s' := by simpa [hone] using hfirst.mem
      exact ⟨_, hfirst.completes (hnew u hfirst.user) h hone⟩

namespace Sample

def gateway : Option SockAddr := some ⟨0x0a000001, 2123⟩

/-- A context with `n` EPS sessions, whose S11 users are in the state `ctx`. -/
def connected (n : Nat) : EMMCtx :=
  { emmInit 0 1
      { seq := 0
        nextTeid := UInt32.ofNat n + 1
        users := (List.range n).map fun i => (UInt32.ofNat i + 1,
          ⟨i, 0, 2 * i + 1, UInt32.ofNat i + 1, 9, gateway, .ctx, none, [], 0⟩)
        peers := [(gateway, ⟨UInt32.ofNat n, 0, false⟩)]
        restartCounter := 0
        fresh := n } with
    stateName := .registered
    esm :=
      { nextEbi := 5 + UInt8.ofNat n
        bearers := (List.range n).map fun i => (5 + UInt8.ofNat i, 2 * i)
        contexts := (List.range n).map fun i => ⟨2 * i, 5 + UInt8.ofNat i, .zero, .zero, .zero⟩
        sessions := (List.range n).map fun i => ⟨2 * i + 1, 2 * i, some i, 1, [10, 0, 0, 7], none, 1⟩
        cb := false
        fresh := 2 * n } }

/-- The environment of the UE: one ECM session. -/
def connection : Env where
  ecms i := if i = 1 then some ⟨0, some 0, .connected, true, 1, 1, 7, [0x02, 0xf8, 0x39], [0, 1], false⟩ else none
  emms _ := none
  hssAuth := .noResult
  hssSync := .noResult
  hssLocation := .failed
  sgw := 0x0a000001
  pgw := 0x0a000002
  mmegi := [0x80, 0x01]
  mmec := 1
  rand := 0
  order := default
  sendto := true
  junk := 0
  junkImsi := 0

theorem detachable_connected {n : Nat} (hn : n < 2 ^ 32) : (connected n).Detachable connection where
  sendto := rfl
  ecm := by
    rintro _ ⟨⟩
    exact ⟨_, rfl⟩
  ids := by
    have hids : (connected n).esm.sessions.map (·.id) = (List.range n).map (2 * · + 1) := by
      simp [connected]
    rw [hids]
    exact List.Nodup.map (fun i j h => by omega) List.nodup_range
  bearer s hs := by
    obtain ⟨i, hi, rfl⟩ := List.mem_map.mp hs
    cases hfind : (connected n).esm.contexts.find? (·.id == 2 * i) with
    | none => simpa using List.find?_eq_none.mp hfind _ (List.mem_map.mpr ⟨i, hi, rfl⟩)
    | some b => exact ⟨b, deref_eq_ok.mpr ⟨_, rfl, hfind⟩⟩
  pointers e he e' he' hid := by
    obtain ⟨i, -, rfl⟩ := List.mem_map.mp he
    obtain ⟨j, -, rfl⟩ := List.mem_map.mp he'
    obtain rfl : i = j := hid
    rfl
  user s hs := by
    obtain ⟨i, hi, rfl⟩ := List.mem_map.mp hs
    refine ⟨⟨i, 0, 2 * i + 1, UInt32.ofNat i + 1, 9, gateway, .ctx, none, [], 0⟩, rfl, ?_, rfl, .inr rfl, _, rfl⟩
    refine Table.get_of_mem ?_ (List.mem_map.mpr ⟨i, hi, rfl⟩)
    -- the TEIDs of different users differ
    have hkeys : (connected n).s11.users.map Prod.fst = (List.range n).map (UInt32.ofNat · + 1) := by
      simp [connected, emmInit]
    rw [hkeys]
    refine List.Nodup.map_on (fun i hi j hj h => ?_) List.nodup_range
    have hi := List.mem_range.mp hi
    have hj := List.mem_range.mp hj
    have heq := (UInt32.add_left_inj 1).mp h
    have hnat := congrArg UInt32.toNat heq
    rwa [UInt32.toNat_ofNat_of_lt' (hi.trans hn), UInt32.toNat_ofNat_of_lt' (hj.trans hn)] at hnat

end Sample

/-- A context with one session. -/
theorem detach_completes_iff_one :
    (Sample.connected 1).Detachable Sample.connection ∧ (Sample.connected 1).esm.sessions.length = 1 ∧
      ∃ t₀, DetachCompletes Prims.zeroKasme Sample.connection (Sample.connected 1) t₀ :=
  ⟨Sample.detachable_connected (by decide), rfl,
    (detach_completes_iff (Sample.detachable_connected (by decide))).mpr
      (.inr ⟨_, rfl, fun _ hu => Except.ok.inj hu ▸ rfl⟩)⟩

/-- With two sessions there is one Delete Session Request, and when it is answered `emm_detachAccept` is called
although the other session and its S11 user are still there. -/
theorem detach_incomplete :
    (Sample.connected 2).Detachable Sample.connection ∧
    (¬ ∃ t₀, DetachCompletes Prims.zeroKasme Sample.connection (Sample.connected 2) t₀) ∧
    ∃ t₀ t, Detaching.start Sample.connection (Sample.connected 2) = .ok t₀ ∧
      Run (Detaching.step Prims.zeroKasme) Detaching.Answers t₀
        [(Sample.connection, ⟨Sample.gateway, 37, 1, 0, [⟨gtpv2cIECause, 0, [16, 0]⟩]⟩)] t ∧
      t.requests = [] ∧ ∃ d, t.accepts = [d] ∧ d.esm.sessions.map (·.id) = [3] ∧
        d.s11.users.map (·.2.session) = [3] := by
  have hfirst : (Sample.connected 2).FirstSession Sample.connection ⟨1, 0, some 0, 1, [10, 0, 0, 7], none, 1⟩
      ⟨0, 0, 1, 1, 9, Sample.gateway, .ctx, none, [], 0⟩ ⟨0, 5, .zero, .zero, .zero⟩ :=
    ⟨by decide, ⟨[3], rfl⟩, rfl, rfl, rfl, rfl, rfl, .inr rfl, rfl, _, rfl⟩
  have hdetachable : (Sample.connected 2).Detachable Sample.connection := Sample.detachable_connected (by decide)
  obtain ⟨d, d', hstep, hleft⟩ := hfirst.step_begun rfl
    (FirstSession.answers_begun hdetachable.ecm)
  refine ⟨hdetachable, ?_, ?_⟩
  · rintro ⟨t₀, h⟩
    cases h.start.symm.trans (hfirst.start_eq rfl nofun)
    have hmem : (⟨3, 2, some 1, 1, [10, 0, 0, 7], none, 1⟩ : EPSSession) ∈ (Sample.connected 2).esm.sessions := by
      decide
    cases hfirst.eq_of_completes rfl h hmem
  exact ⟨_, _, hfirst.start_eq rfl nofun, .single (FirstSession.answers_begun hdetachable.ecm) hstep, rfl, d, rfl,
    hleft.sessions ▸ rfl, hleft.users ▸ rfl⟩

end EMMCtx

end AaltoMME
