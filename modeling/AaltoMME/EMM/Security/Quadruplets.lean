import AaltoMME.EMM.Security.Properties

/-!
# The quadruplets of a context

The HSS interface stores authentication quadruplets in a context, and the authentication run takes them out
again.  Their number is kept apart from the array.  Five functions read or remove the first quadruplet without
a look at the number: `emm_sendAuthRequest`, `processAuthResp`, `emm_setSecurityQuadruplet`,
`emmCtx_removeFirstAuthQuadruplet` and `HSS_syncAuthVec`.  What follows says in which contexts an event calls
one of them, and that the first quadruplet is there in the runs in which an answer of the UE comes only while
an Authentication Request is pending.
-/

namespace AaltoMME

open Base NAS

variable {P : Prims} {R : Risk} {v w : SecView}

/-! ## The invariant -/

/-- The number of quadruplets is the length of the array, and while an Authentication Request is pending there
is one. -/
structure SecView.Quadruplets (v : SecView) : Prop where
  len : v.authQuadrsLen = UInt64.ofNat v.authQuadrs.length
  pending : ∀ t, v.t3460 = some t → t.IsAuthRequest → v.authQuadrs ≠ []

/-- Taking the first quadruplet out, after its timer was stopped. -/
theorem SecView.Quadruplets.tail (hv : v.Quadruplets) (hne : v.authQuadrs ≠ []) (ht : w.t3460 = none)
    (hlist : w.authQuadrs = v.authQuadrs.tail) (hlen : w.authQuadrsLen = v.authQuadrsLen - 1) : w.Quadruplets := by
  refine ⟨?_, fun t h => ?_⟩
  · obtain ⟨q, rest, hcons⟩ := List.exists_cons_of_ne_nil hne
    rw [hlen, hlist, hv.len, hcons, List.length_cons, UInt64.ofNat_add]
    exact UInt64.add_sub_cancel _ _
  · rw [ht] at h
    cases h

/-- Unless a quadruplet may be removed when there is none, every change keeps the invariant. -/
theorem SecStep.quadruplets (hR : ¬ R.unanswered) (h : SecStep P R v w) (hv : v.Quadruplets) : w.Quadruplets := by
  cases h with
  | timer ht =>
    refine ⟨hv.len, fun t h htype => ?_⟩
    rcases ht t h htype with hne | ⟨u, hu, hmsg⟩
    · exact hne
    · refine hv.pending u hu ?_
      rwa [EMMTimer.IsAuthRequest, hmsg]
  | newQuadruplet =>
    refine ⟨?_, fun t h htype hnil => ?_⟩
    · rw [hv.len, List.length_append, UInt64.ofNat_add]
      rfl
    · exact List.cons_ne_nil _ _ (List.append_eq_nil_iff.mp hnil).2
  | removeQuadruplet ht hne => exact hv.tail (hne.resolve_right hR) ht rfl rfl
  | authenticate _ ht hhead =>
    refine hv.tail (fun hnil => ?_) ht rfl rfl
    rw [hnil] at hhead
    cases hhead
  | freeQuadruplets ht =>
    refine ⟨?_, fun t h => ?_⟩
    · -- the remainder is a multiple of the size of the counter
      have hmod : v.authQuadrsLen.toNat = v.authQuadrs.length % 2 ^ 64 := by
        rw [hv.len, UInt64.toNat_ofNat']
      have hle : v.authQuadrsLen.toNat ≤ v.authQuadrs.length := by
        rw [hmod]
        exact Nat.mod_le _ _
      rw [if_pos hle, List.length_drop, ← UInt64.toNat_inj, UInt64.toNat_ofNat']
      show 0 = _
      omega
    · have hnone := h
      rw [ht] at hnone
      cases hnone
  | _ => exact ⟨hv.len, hv.pending⟩

/-! ## Calls -/

/-- The contexts of the calls that come after a computation, if it returns. -/
def callsAfter {α : Type} (x : Outcome α) (calls : α → List EMMCtx) : List EMMCtx :=
  match x with
  | .ok a => calls a
  | .error _ => []

/-- In each of these contexts there is a quadruplet. -/
def Stored (calls : List EMMCtx) : Prop := ∀ d ∈ calls, d.authQuadrs ≠ []

instance : DecidablePred Stored := fun calls => inferInstanceAs (Decidable (∀ d ∈ calls, d.authQuadrs ≠ []))

theorem stored_nil : Stored [] := List.forall_mem_nil _

theorem stored_singleton {d : EMMCtx} (h : d.authQuadrs ≠ []) : Stored [d] := by
  intro e he
  rwa [List.mem_singleton.mp he]

theorem stored_cons {d : EMMCtx} {calls : List EMMCtx} (h : d.authQuadrs ≠ []) (hcalls : Stored calls) :
    Stored (d :: calls) :=
  List.forall_mem_cons.mpr ⟨h, hcalls⟩

theorem stored_callsAfter {α : Type} {x : Outcome α} {Q : α → Prop} {calls : α → List EMMCtx} (hx : Post x Q)
    (h : ∀ a, Q a → Stored (calls a)) : Stored (callsAfter x calls) := by
  cases hres : x with
  | ok a => exact h a (hx a hres)
  | error _ => exact stored_nil

theorem Stored.ite {p : Prop} [Decidable p] {calls calls' : List EMMCtx} (h : p → Stored calls)
    (h' : ¬ p → Stored calls') : Stored (if p then calls else calls') := by
  split
  · exact h ‹_›
  · exact h' ‹_›

namespace EMMCtx

section Calls

variable (P : Prims) (env : Env) (c : EMMCtx)

/-- The calls of `s6a_GetAuthInformation`: its callback is `emm_sendAuthRequest`. -/
def s6aGetAuthInformationCalls : List EMMCtx :=
  match env.hssAuth with
  | .noResult | .noRows => []
  | .manyRows => [c]
  | .vector q => [c.emmCtxSetNewAuthQuadruplet q]

/-- The calls of `s6a_SynchAuthVector`: `HSS_syncAuthVec`, and its callback `emm_sendAuthRequest`. -/
def s6aSynchAuthVectorCalls : List EMMCtx :=
  c :: match env.hssSync with
    | .noResult | .alreadySynchronized => []
    | .wrongRows | .invalidAuts => [c]
    | .vector q => [c.emmCtxFreeAuthQuadruplets.emmCtxSetNewAuthQuadruplet q]

/-- `processAuthResp` and the calls that it makes: `emm_setSecurityQuadruplet`, which calls
`emmCtx_removeFirstAuthQuadruplet`. -/
def processAuthRespCalls (msg : GenericNASMsg) : List EMMCtx :=
  c :: if msg 3 ≠ 8 then []
    else callsAfter c.firstAuthQuadruplet fun sec =>
      if msg.read 4 8 ≠ sec.xRES then [] else [c, { c with oldKasme := c.kasme, kasme := sec.kASME }]

/-- The calls of `processAuthFailure`. -/
def processAuthFailureCalls (msg : GenericNASMsg) : List EMMCtx :=
  if msg 3 = 0x15 then c.s6aSynchAuthVectorCalls env else [c]

/-- The calls of the switch of EMM_CommonProcedureInitiated. -/
def commonProcedureCalls (msg : GenericNASMsg) : List EMMCtx :=
  if msg.emmMessageType = identityResponse then
    callsAfter ((c.emmStopTimer .t3470).processIdentityRsp P env msg) fun c => c.s6aGetAuthInformationCalls env
  else if msg.emmMessageType = authenticationResponse then (c.emmStopTimer .t3460).processAuthRespCalls msg
  else if msg.emmMessageType = authenticationFailure then (c.emmStopTimer .t3460).processAuthFailureCalls env msg
  else []

/-- The calls of `emm_triggerAKAprocedure`. -/
def emmTriggerAKAprocedureCalls : List EMMCtx :=
  let c := c.emmRemoveCurrentSC
  if c.imsi = 0 then []
  else callsAfter (c.emmCtxNewGUTI P env) fun c =>
    if c.authQuadrsLen = 0 then c.s6aGetAuthInformationCalls env
    else if c.ksi = 7 || c.ksi ≠ c.msg.ksi then [c]
    else []

/-- The calls of the case AttachRequest. -/
def attachRequestCalls (msg : GenericNASMsg) (isAuth : Bool) : List EMMCtx :=
  callsAfter (c.getTAI env) fun c => callsAfter (c.processAttach msg) fun c =>
    match c.emmSelectAttachType with
    | none => []
    | some c => if !isAuth then c.emmTriggerAKAprocedureCalls P env else []

/-- The calls of the case TrackingAreaUpdateRequest. -/
def tauRequestCalls (msg : GenericNASMsg) (isAuth : Bool) : List EMMCtx :=
  callsAfter (c.getTAI env) fun c => callsAfter (c.emmProcessTAUReq msg) fun c =>
    match c.emmSelectUpdateType with
    | none => []
    | some c => if !isAuth then c.emmTriggerAKAprocedureCalls P env else []

def stateProcessMsgCalls (msg : GenericNASMsg) : List EMMCtx :=
  match c.stateName with
  | .deregistered =>
    if msg.securityHeaderType ≠ 0 then []
    else if msg.emmMessageType = attachRequest then c.attachRequestCalls P env msg false
    else []
  | .commonProcedureInitiated =>
    if msg.securityHeaderType ≠ 0 then [] else c.commonProcedureCalls P env msg
  | .registered =>
    if msg.emmMessageType = attachRequest then
      callsAfter (c.esmErrorEMM env) fun c => c.attachRequestCalls P env msg false
    else []
  | .specificProcedureInitiated | .deregisteredInitiated => []

/-- The calls for a security protected message. -/
def stateProcessSecMsgCalls (s : SecurityHeaderType) (p : UInt8) (buf : Mem) (size : UInt64) : List EMMCtx :=
  match c.stateName with
  | .deregistered =>
    callsAfter (c.receiveSecMsg P c.sci buf size) fun (c, m) =>
      match m with
      | some (msg, isAuth) =>
        if msg.emmMessageType = attachRequest then c.attachRequestCalls P env msg isAuth else []
      | none => []
  | .commonProcedureInitiated =>
    callsAfter (c.receiveSecMsg P (c.sci || s == .integrityProtectedAndCipheredWithNewEPSSecurityContext) buf size)
      fun (c, m) =>
        match m with
        | some (msg, _) => c.commonProcedureCalls P env msg
        | none => []
  | .registered =>
    if !c.sci then []
    else callsAfter (c.secMsgCase P p buf size) fun (c, k) =>
      match k with
      | .emm msg isAuth =>
        if msg.emmMessageType = attachRequest then
          callsAfter (c.esmErrorEMM env) fun c => c.attachRequestCalls P env msg isAuth
        else if msg.emmMessageType = detachRequest then []
        else if msg.emmMessageType = trackingAreaUpdateRequest then c.tauRequestCalls P env msg isAuth
        else []
      | .drop | .esm _ => []
  | .specificProcedureInitiated | .deregisteredInitiated => []

/-- The calls of `emm_processMsg`. -/
def emmProcessMsgCalls (buf : Mem) (size : UInt64) : List EMMCtx :=
  let c := c.emmStopTimer .tMobileReachable
  match nasGetHeader buf size.toUInt32 with
  | none => []
  | some (s, p) =>
    if s = .plainNAS then c.stateProcessMsgCalls P env (decNAS buf size).2
    else if s.isProtected then c.stateProcessSecMsgCalls P env s p buf size
    else []

/-- The contexts in which an event calls one of the five functions. -/
def quadrupletCalls : Env × EMMEvent → List EMMCtx
  | (env, .uplink buf size) => c.emmProcessMsgCalls P env buf size
  | _ => []

end Calls

/-! ## Where the first quadruplet is there -/

/-- An answer to an Authentication Request comes only while one is pending, and the HSS does not report several
subscribers with one IMSI while there is no quadruplet. -/
def AnswersPending (P : Prims) (c : EMMCtx) : Env × EMMEvent → Prop
  | (env, .uplink buf size) =>
    (c.stateName = .commonProcedureInitiated → ∀ msg ∈ c.commonMsg P buf size,
      msg.emmMessageType = authenticationResponse ∨ msg.emmMessageType = authenticationFailure →
        ∃ t ∈ c.activeTimers .t3460, t.IsAuthRequest) ∧
    (env.hssAuth = .manyRows → c.authQuadrs ≠ [])
  | _ => True

instance (P : Prims) (c : EMMCtx) (e : Env × EMMEvent) : Decidable (c.AnswersPending P e) := by
  obtain ⟨env, _ | _⟩ := e <;> unfold AnswersPending <;> infer_instance

variable {env : Env} {c d : EMMCtx}

theorem frame_processAttach (msg : GenericNASMsg) : Post (c.processAttach msg) (·.frame = c.frame) := by
  refine .bind ?_ fun _ h =>
    (reads_attachCapabilities msg).mono fun _ hr => hr.same.frame.trans h
  exact .ite (fun _ => .of_bind fun _ => .ok rfl) fun _ => .ite (fun _ => .ok rfl) fun _ => .ok rfl

theorem frame_emmCtxNewGUTI : Post (c.emmCtxNewGUTI P env) (·.frame = c.frame) :=
  (keeps_emmCtxNewGUTI (R := .any)).mono fun _ h => h.1.frame

theorem frame_processIdentityRsp (msg : GenericNASMsg) : Post (c.processIdentityRsp P env msg) (·.frame = c.frame) := by
  unfold processIdentityRsp
  dsimp only
  split
  · exact .of_bind fun imsi => frame_emmCtxNewGUTI
  · exact frame_emmCtxNewGUTI

theorem frame_receiveSecMsg (b : Bool) (buf : Mem) (size : UInt64) :
    Post (c.receiveSecMsg P b buf size) (·.1.frame = c.frame) := by
  intro q hq
  obtain ⟨parser, hd⟩ := parser_of_receiveSecMsg hq
  rw [hd]
  rfl

theorem frame_esmErrorEMM (P : Prims) : Post (c.esmErrorEMM env) (·.frame = c.frame) :=
  (cleared_esmErrorEMM (P := P) (R := .any)).mono fun _ h => h.keeps.frame

theorem stored_s6aGetAuthInformationCalls (h : env.hssAuth = .manyRows → c.authQuadrs ≠ []) :
    Stored (c.s6aGetAuthInformationCalls env) := by
  unfold s6aGetAuthInformationCalls
  split
  · exact stored_nil
  · exact stored_nil
  · exact stored_singleton (h ‹_›)
  · exact stored_singleton (List.append_ne_nil_of_right_ne_nil _ (List.cons_ne_nil _ _))

theorem stored_s6aSynchAuthVectorCalls (h : c.authQuadrs ≠ []) : Stored (c.s6aSynchAuthVectorCalls env) := by
  refine stored_cons h ?_
  split
  · exact stored_nil
  · exact stored_nil
  · exact stored_singleton h
  · exact stored_singleton h
  · exact stored_singleton (List.append_ne_nil_of_right_ne_nil _ (List.cons_ne_nil _ _))

theorem stored_processAuthRespCalls (h : c.authQuadrs ≠ []) (msg : GenericNASMsg) :
    Stored (c.processAuthRespCalls msg) := by
  refine stored_cons h (.ite (fun _ => stored_nil) fun _ => ?_)
  refine stored_callsAfter (fun _ _ => trivial) fun sec _ => .ite (fun _ => stored_nil) fun _ => ?_
  exact stored_cons h (stored_singleton h)

theorem stored_commonProcedureCalls {msg : GenericNASMsg} (hmany : env.hssAuth = .manyRows → c.authQuadrs ≠ [])
    (h : msg.emmMessageType = authenticationResponse ∨ msg.emmMessageType = authenticationFailure →
      c.authQuadrs ≠ []) : Stored (c.commonProcedureCalls P env msg) := by
  refine .ite (fun _ => ?_) fun _ => .ite (fun htype => ?_) fun _ => .ite (fun htype => ?_) fun _ => stored_nil
  · refine stored_callsAfter (frame_processIdentityRsp msg) fun d hd => ?_
    refine stored_s6aGetAuthInformationCalls fun hrows => ?_
    have hlist : d.authQuadrs = c.authQuadrs := congrArg Frame.authQuadrs hd
    rw [hlist]
    exact hmany hrows
  · exact stored_processAuthRespCalls (c := c.emmStopTimer .t3460) (h (.inl htype)) msg
  · have hne : (c.emmStopTimer .t3460).authQuadrs ≠ [] := h (.inr htype)
    exact .ite (fun _ => stored_s6aSynchAuthVectorCalls hne) fun _ => stored_singleton hne

theorem stored_emmTriggerAKAprocedureCalls (hlen : c.authQuadrsLen = UInt64.ofNat c.authQuadrs.length)
    (hmany : env.hssAuth = .manyRows → c.authQuadrs ≠ []) : Stored (c.emmTriggerAKAprocedureCalls P env) := by
  refine .ite (fun _ => stored_nil) fun _ => ?_
  refine stored_callsAfter frame_emmCtxNewGUTI fun d hd => ?_
  have hlist : d.authQuadrs = c.authQuadrs := congrArg Frame.authQuadrs hd
  have hnum : d.authQuadrsLen = c.authQuadrsLen := congrArg Frame.authQuadrsLen hd
  refine .ite (fun _ => ?_) fun hzero => .ite (fun _ => ?_) fun _ => stored_nil
  · refine stored_s6aGetAuthInformationCalls fun hrows => ?_
    rw [hlist]
    exact hmany hrows
  · refine stored_singleton fun hnil => hzero ?_
    rw [hnum, hlen, ← hlist, hnil]
    rfl

/-- The requests that start an authentication run unless they are authenticated. -/
theorem stored_requestCalls {isAuth : Bool} (hlen : c.authQuadrsLen = UInt64.ofNat c.authQuadrs.length)
    (hmany : env.hssAuth = .manyRows → c.authQuadrs ≠ []) (hd : KeptQuadruplets c d) :
    Stored (if !isAuth then d.emmTriggerAKAprocedureCalls P env else []) := by
  refine .ite (fun _ => stored_emmTriggerAKAprocedureCalls ?_ ?_) fun _ => stored_nil
  · rw [hd.2, hd.1]
    exact hlen
  · rw [hd.1]
    exact hmany

theorem stored_attachRequestCalls {isAuth : Bool} {msg : GenericNASMsg}
    (hlen : c.authQuadrsLen = UInt64.ofNat c.authQuadrs.length)
    (hmany : env.hssAuth = .manyRows → c.authQuadrs ≠ []) (hd : d.frame = c.frame) :
    Stored (d.attachRequestCalls P env msg isAuth) := by
  refine stored_callsAfter reads_getTAI fun e he => stored_callsAfter (frame_processAttach msg) fun f hf => ?_
  split
  · exact stored_nil
  · rename_i g hg
    refine stored_requestCalls hlen hmany (keptQuadruplets_of_frame ?_)
    rw [(reads_emmSelectAttachType hg).same.frame, hf, he.same.frame, hd]

theorem stored_tauRequestCalls {isAuth : Bool} {msg : GenericNASMsg}
    (hlen : c.authQuadrsLen = UInt64.ofNat c.authQuadrs.length)
    (hmany : env.hssAuth = .manyRows → c.authQuadrs ≠ []) (hd : d.frame = c.frame) :
    Stored (d.tauRequestCalls P env msg isAuth) := by
  refine stored_callsAfter reads_getTAI fun e he => stored_callsAfter (reads_emmProcessTAUReq msg) fun f hf => ?_
  split
  · exact stored_nil
  · rename_i g hg
    refine stored_requestCalls hlen hmany (keptQuadruplets_of_frame ?_)
    rw [(reads_emmSelectUpdateType hg).same.frame, hf.same.frame, he.same.frame, hd]

section Dispatch

variable (hlen : c.authQuadrsLen = UInt64.ofNat c.authQuadrs.length)
  (hmany : env.hssAuth = .manyRows → c.authQuadrs ≠ [])

include hlen hmany

theorem stored_stateProcessMsgCalls {msg : GenericNASMsg}
    (h : c.stateName = .commonProcedureInitiated →
      msg.emmMessageType = authenticationResponse ∨ msg.emmMessageType = authenticationFailure →
        c.authQuadrs ≠ []) : Stored (c.stateProcessMsgCalls P env msg) := by
  unfold stateProcessMsgCalls
  split
  · refine .ite (fun _ => stored_nil) fun _ => .ite (fun _ => ?_) fun _ => stored_nil
    exact stored_attachRequestCalls hlen hmany rfl
  · rename_i hs
    exact .ite (fun _ => stored_nil) fun _ => stored_commonProcedureCalls hmany (h hs)
  · refine .ite (fun _ => ?_) fun _ => stored_nil
    refine stored_callsAfter (frame_esmErrorEMM P) fun d hd => ?_
    exact stored_attachRequestCalls hlen hmany hd
  · exact stored_nil
  · exact stored_nil

theorem stored_stateProcessSecMsgCalls {s : SecurityHeaderType} {p : UInt8} {buf : Mem} {size : UInt64}
    (hhead : nasGetHeader buf size.toUInt32 = some (s, p)) (hs : s.isProtected = true)
    (h : c.stateName = .commonProcedureInitiated → ∀ msg ∈ c.commonMsg P buf size,
      msg.emmMessageType = authenticationResponse ∨ msg.emmMessageType = authenticationFailure →
        c.authQuadrs ≠ []) : Stored (c.stateProcessSecMsgCalls P env s p buf size) := by
  unfold stateProcessSecMsgCalls
  split
  · refine stored_callsAfter (frame_receiveSecMsg _ buf size) fun ⟨d, m⟩ hd => ?_
    cases m with
    | none => exact stored_nil
    | some m => exact .ite (fun _ => stored_attachRequestCalls hlen hmany hd) fun _ => stored_nil
  · rename_i hstate
    refine stored_callsAfter (fun q hq => And.intro hq (frame_receiveSecMsg _ buf size q hq))
      fun ⟨d, m⟩ ⟨hrecv, hd⟩ => ?_
    have hlist : d.authQuadrs = c.authQuadrs := congrArg Frame.authQuadrs hd
    cases m with
    | none => exact stored_nil
    | some m =>
      refine stored_commonProcedureCalls ?_ ?_
      · rw [hlist]
        exact hmany
      · rw [hlist]
        exact h hstate m.1 (mem_commonMsg hhead hs hrecv)
  · refine .ite (fun _ => stored_nil) fun _ => ?_
    refine stored_callsAfter (Q := fun q => q.1.frame = c.frame) ?_ fun ⟨d, k⟩ hd => ?_
    · refine .bind (frame_receiveSecMsg _ buf size) fun ⟨d, m⟩ hd => ?_
      cases m with
      | none => exact .ok hd
      | some m => exact .ite (fun _ => .ok hd) fun _ => .ok hd
    · cases k with
      | drop => exact stored_nil
      | esm => exact stored_nil
      | emm msg isAuth =>
        refine .ite (fun _ => ?_) fun _ => .ite (fun _ => stored_nil) fun _ => .ite (fun _ => ?_) fun _ => stored_nil
        · refine stored_callsAfter (frame_esmErrorEMM P) fun e he => ?_
          exact stored_attachRequestCalls hlen hmany (he.trans hd)
        · exact stored_tauRequestCalls hlen hmany hd
  · exact stored_nil
  · exact stored_nil

end Dispatch

/-- In a context with the invariant, every call of an event that answers a pending request finds a
quadruplet. -/
theorem stored_quadrupletCalls (hc : c.sec.Quadruplets) {e : Env × EMMEvent} (h : c.AnswersPending P e) :
    Stored (c.quadrupletCalls P e) := by
  obtain ⟨env, e⟩ := e
  cases e with
  | uplink buf size =>
    obtain ⟨hans, hmany⟩ := h
    have hne : c.stateName = .commonProcedureInitiated → ∀ msg ∈ c.commonMsg P buf size,
        msg.emmMessageType = authenticationResponse ∨ msg.emmMessageType = authenticationFailure →
          c.authQuadrs ≠ [] := by
      intro hs msg hmsg htype
      obtain ⟨t, ht, hreq⟩ := hans hs msg hmsg htype
      exact hc.pending t ht hreq
    unfold quadrupletCalls emmProcessMsgCalls
    dsimp only
    split
    · exact stored_nil
    · rename_i s p hhead
      refine .ite (fun hplain => ?_) fun _ => .ite (fun hprot => ?_) fun _ => stored_nil
      · refine stored_stateProcessMsgCalls (c := c.emmStopTimer .tMobileReachable) hc.len hmany
          fun hs => hne hs _ ?_
        simp [commonMsg, hhead, hplain]
      · refine stored_stateProcessSecMsgCalls (c := c.emmStopTimer .tMobileReachable) hc.len hmany hhead hprot
          fun hs msg hmsg => ?_
        rw [commonMsg_congr (d := c.emmStopTimer .tMobileReachable) (c := c) rfl rfl] at hmsg
        exact hne hs msg hmsg
  | _ => exact stored_nil

end EMMCtx

/-! ## Every run -/

theorem emmInit_quadruplets (self ecm : Nat) (s11 : S11Stack) : (emmInit self ecm s11).sec.Quadruplets :=
  ⟨rfl, nofun⟩

/-- In every run from `emm_init` in which the UE answers only pending requests, the number of quadruplets is the
one that is stored, and each call of the five functions in the next event finds a quadruplet. -/
theorem quadruplets_stored {self ecm : Nat} {s11 : S11Stack} {es : List (Env × EMMEvent)} {c : EMMCtx}
    (h : Run (EMMCtx.step P) (EMMCtx.AnswersPending P) (emmInit self ecm s11) es c) :
    c.authQuadrsLen = UInt64.ofNat c.authQuadrs.length ∧
      ∀ e, c.AnswersPending P e → ∀ d ∈ c.quadrupletCalls P e, d.authQuadrs ≠ [] := by
  let R : Risk := { Risk.any with unanswered := False }
  have hQ : ∀ (c : EMMCtx) e, c.sec.Coherent → c.sec.Quadruplets → c.AnswersPending P e → c.Allowed P R e := by
    rintro c ⟨env, _ | _⟩ - hc hq
    case uplink buf size =>
      refine { EMMCtx.UplinkAllowed.any (P := P) env c buf size with
        answers := fun hs msg hmsg htype => .inl ?_ }
      obtain ⟨t, ht, hreq⟩ := hq.1 hs msg hmsg (.inr htype)
      exact hc.pending t ht hreq
    all_goals first | exact trivial | exact ⟨fun _ => .inl (.inr trivial), nofun⟩
  obtain ⟨-, hc⟩ := EMMCtx.run_invariant hQ (fun _ _ _ hv hs => hs.quadruplets id hv) h
    (EMMCtx.emmInit_coherent _ _ _) (emmInit_quadruplets _ _ _)
  exact ⟨hc.len, fun e he => EMMCtx.stored_quadrupletCalls hc he⟩

/-- The UE answers its Authentication Request; when its Security Mode Complete comes, nothing reads a
quadruplet. -/
theorem quadruplets_stored_attach :
    ∃ c, Run (EMMCtx.step Prims.zeroKasme) (EMMCtx.AnswersPending Prims.zeroKasme) Sample.init
        [(Sample.env (.vector (Sample.quadruplet (List.replicate 32 0))), Sample.attachRequest)] c ∧
      c.authQuadrsLen = 1 ∧ c.authQuadrs.length = 1 ∧
      Stored (c.quadrupletCalls Prims.zeroKasme
        (Sample.env .manyRows, Sample.uplink [0x07, 0x53, 0x08, 1, 2, 3, 4, 5, 6, 7, 8])) := by
  refine Run.exists_of_exec (fun c => c.authQuadrs.length = 1 ∧ c.AnswersPending Prims.zeroKasme
    (Sample.env .manyRows, Sample.uplink [0x07, 0x53, 0x08, 1, 2, 3, 4, 5, 6, 7, 8])) (by decide +kernel) ?_
  rintro c hrun ⟨hnum, hans⟩
  obtain ⟨hlen, hstored⟩ := quadruplets_stored hrun
  refine ⟨?_, hnum, hstored _ hans⟩
  rw [hlen, hnum]
  rfl

/-- A repeated Authentication Response is processed when the only quadruplet was already used.  And an
Authentication Failure that comes while only an Identity Request is pending removes a quadruplet where there is
none: the number is `2 ^ 64 - 1` afterwards. -/
theorem quadruplets_not_stored :
    (∃ c, Run (EMMCtx.step Prims.zeroKasme) (fun _ _ => True) Sample.init
        [(Sample.env (.vector (Sample.quadruplet (List.replicate 32 0))), Sample.attachRequest),
          (Sample.env .manyRows, Sample.uplink [0x07, 0x53, 0x08, 1, 2, 3, 4, 5, 6, 7, 8])] c ∧
      ∃ d ∈ c.quadrupletCalls Prims.zeroKasme
        (Sample.env .manyRows, Sample.uplink [0x07, 0x53, 0x08, 1, 2, 3, 4, 5, 6, 7, 8]), d.authQuadrs = []) ∧
    ∃ c, Run (EMMCtx.step Prims.zeroKasme) (fun _ _ => True) Sample.init
        [(Sample.env .noRows, Sample.uplink [0x07, 0x41, 0x71, 0x0b, 0xf6, 0x02, 0xf8, 0x39, 0x80, 0x01, 0x01,
            0x00, 0x00, 0x00, 0x05, 0x02, 0xe0, 0xe0, 0x00, 0x04, 0x02, 0x01, 0xd0, 0x11]),
          (Sample.env .noRows, Sample.uplink [0x07, 0x5c, 0x14])] c ∧
      c.authQuadrs = [] ∧ c.authQuadrsLen.toNat = 2 ^ 64 - 1 :=
  ⟨Run.exists_of_exec _ (by decide +kernel) fun _ _ => id, Run.exists_of_exec _ (by decide +kernel) fun _ _ => id⟩

end AaltoMME
