import AaltoMME.EMM.Changes.Operations

/-!
# The requests of a UE and the authentication

What the states share: reading a request into the context, the authentication and key agreement, and the reception
of a protected message.
-/

namespace AaltoMME

open Base NAS Relation

variable {P : Prims} {R : Risk} {c₀ : EMMCtx} {e : Env × EMMEvent} {env : Env} {b c d : EMMCtx}

/-- An operation that changes neither the security part nor the frame. -/
structure Same (c d : EMMCtx) : Prop where
  sec : d.sec = c.sec
  frame : d.frame = c.frame

theorem Same.trans (h : Same b c) (h' : Same c d) : Same b d := ⟨h'.sec.trans h.sec, h'.frame.trans h.frame⟩

/-- The changes that end in EMM_CommonProcedureInitiated. -/
structure ToCommon (P : Prims) (R : Risk) (c d : EMMCtx) : Prop where
  steps : ∀ s, SecSteps P R (c.sec.inState s) (d.sec.inState s)
  stateName : d.stateName = .commonProcedureInitiated

namespace ToCommon

theorem of_keeps_trans (h : Keeps P R b c) (h' : ToCommon P R c d) : ToCommon P R b d :=
  ⟨fun s => (h.steps s).trans (h'.steps s), h'.stateName⟩

theorem sec_inState (h : ToCommon P R c d) : d.sec.inState .commonProcedureInitiated = d.sec := by
  rw [← h.stateName]
  rfl

theorem reach (h : ToCommon P R c d) (hc : c.stateName = .commonProcedureInitiated) :
    Reach P R c d := by
  have hs := h.steps .commonProcedureInitiated
  rw [h.sec_inState, ← hc] at hs
  exact hs

/-- After the removal of the security context, they are an authentication run. -/
theorem reach_of_removed (h : ToCommon P R c.emmRemoveCurrentSC d) : Reach P R c d := by
  have hs := h.steps .commonProcedureInitiated
  rw [h.sec_inState] at hs
  exact .head .aka hs

end ToCommon

namespace EMMCtx

/-! ## Reading a request -/

/-- The context without what it remembers of a request. -/
def besidesRequest (c : EMMCtx) : EMMCtx :=
  { c with
    msg := ⟨0, c.msg.detachType, 0, false, 0, .zero, false, false, false, []⟩
    attachResult := 0, updateResult := 0, sn := [], tac := []
    ueCapabilities := [], ueCapabilitiesLen := 0, msNetCap := [], msNetCapLen := 0 }

/-- Nothing changes but what the context remembers of a request. -/
def Reads (c d : EMMCtx) : Prop := d.besidesRequest = c.besidesRequest

theorem Reads.same (h : c.Reads d) : Same c d where
  sec := (congrArg EMMCtx.sec h : d.besidesRequest.sec = c.besidesRequest.sec)
  frame := (congrArg EMMCtx.frame h : d.besidesRequest.frame = c.besidesRequest.frame)

theorem Reads.calm (h : c.Reads d) : Calm c d :=
  (congrArg EMMCtx.views h : d.besidesRequest.views = c.besidesRequest.views)

theorem Reads.moves (h : c.Reads d) : Moves P R c₀ e c d := .of_eq h.same.sec h.calm

theorem reads_setUECapabilities (v : List UInt8) : Post (c.setUECapabilities v) c.Reads :=
  Post.of_bind fun _ => .ok rfl

theorem reads_setMsNetCap (msg : GenericNASMsg) (optionals maxOpts : Nat) :
    Post (c.setMsNetCap msg optionals maxOpts) c.Reads := by
  unfold setMsNetCap
  split
  · exact .ok rfl
  · exact .of_bind fun _ => .ok rfl

theorem reads_setAdditionalUpdateType (msg : GenericNASMsg) (optionals maxOpts : Nat) :
    c.Reads (c.setAdditionalUpdateType msg optionals maxOpts) := by
  unfold setAdditionalUpdateType
  split <;> rfl

theorem reads_attachCapabilities (msg : GenericNASMsg) : Post (c.attachCapabilities msg) c.Reads := by
  refine .bind (reads_setUECapabilities _) fun e he => ?_
  refine .bind (reads_setMsNetCap _ _ _) fun f hf => .ok ?_
  have hset : f.Reads ({ f with msg.additionalUpdateType := false }.setAdditionalUpdateType msg attachRequestOptionals 17) :=
    reads_setAdditionalUpdateType (c := { f with msg.additionalUpdateType := false }) _ _ _
  exact (hset.trans hf).trans he

theorem reads_emmProcessTAUReq (msg : GenericNASMsg) : Post (c.emmProcessTAUReq msg) c.Reads := by
  have htail : ∀ d : EMMCtx, c.Reads d → Post (do
      let d ← d.setMsNetCap msg trackingAreaUpdateRequestOptionals 22
      pure (d.setAdditionalUpdateType msg trackingAreaUpdateRequestOptionals 22)) c.Reads := fun d hd =>
    Post.bind (reads_setMsNetCap _ _ _) fun f hf =>
      Post.ok (((reads_setAdditionalUpdateType _ _ _).trans hf).trans hd)
  unfold emmProcessTAUReq
  dsimp only
  split
  · repeat' split
    all_goals exact htail _ rfl
  · refine .bind (reads_setUECapabilities _) fun d hd => ?_
    have hd' : c.Reads d := by
      refine Eq.trans hd ?_
      split <;> rfl
    repeat' split
    all_goals exact htail _ hd'

theorem reads_getTAI : Post (c.getTAI env) c.Reads := Post.of_bind fun _ => Post.ok rfl

theorem reads_emmSelectAttachType (h : c.emmSelectAttachType = some d) : c.Reads d := by
  unfold emmSelectAttachType at h
  split at h
  · cases h
    rfl
  · split at h
    · cases h
    · cases h
      rfl

theorem reads_emmSelectUpdateType (h : c.emmSelectUpdateType = some d) : c.Reads d := by
  unfold emmSelectUpdateType at h
  split at h
  · cases h
    rfl
  · split at h
    · cases h
      rfl
    · cases h

/-- The quadruplets are the ones that the event found. -/
def KeptQuadruplets (c₀ c : EMMCtx) : Prop := c.authQuadrs = c₀.authQuadrs ∧ c.authQuadrsLen = c₀.authQuadrsLen

theorem keptQuadruplets_of_frame (h : c.frame = c₀.frame) : KeptQuadruplets c₀ c :=
  ⟨congrArg Frame.authQuadrs h, congrArg Frame.authQuadrsLen h⟩

/-- No request was read since the event found the context. -/
structure Unread (c₀ c : EMMCtx) : Prop where
  frame : c.frame = c₀.frame
  pending : c.pendingESMmsg = c₀.pendingESMmsg
  imsi : c.imsi = c₀.imsi

theorem Unread.reads (h : Unread c₀ c) (hd : c.Reads d) : Unread c₀ d where
  frame := hd.same.frame.trans h.frame
  pending := (congrArg EMMView.pendingESMmsg hd.calm.emm).trans h.pending
  imsi := (congrArg EMMView.imsi hd.calm.emm).trans h.imsi

theorem Cleared.unread (h : Cleared P R c d) (hc : Unread c₀ c) : Unread c₀ d where
  frame := h.keeps.frame.trans hc.frame
  pending := (congrArg EMMView.pendingESMmsg h.emm).trans hc.pending
  imsi := (congrArg EMMView.imsi h.emm).trans hc.imsi

/-- An Attach Request was read into the context `c`: its container is stored, and it may tell an IMSI. -/
structure AttachRead (P : Prims) (c₀ : EMMCtx) (e : Env × EMMEvent) (msg : GenericNASMsg) (c d : EMMCtx) : Prop
    extends Same c d where
  changes : Changes P c₀ e c d
  pending : d.pendingESMmsg = c₀.pendingESMmsg ++ [attachContainer msg]
  imsi : d.imsi = c₀.imsiAfter P e
  session : d.sessionView = c.sessionView

theorem AttachRead.reads {msg : GenericNASMsg} {f : EMMCtx} (h : AttachRead P c₀ e msg c d) (hd : d.Reads f) :
    AttachRead P c₀ e msg c f where
  toSame := h.toSame.trans hd.same
  changes := h.changes.trans hd.calm.changes
  pending := (congrArg EMMView.pendingESMmsg hd.calm.emm).trans h.pending
  imsi := (congrArg EMMView.imsi hd.calm.emm).trans h.imsi
  session := hd.calm.session.trans h.session

theorem AttachRead.of_reads {msg : GenericNASMsg} (h : AttachRead P c₀ e msg c d) (hb : b.Reads c) :
    AttachRead P c₀ e msg b d where
  toSame := hb.same.trans h.toSame
  changes := hb.calm.changes.trans h.changes
  pending := h.pending
  imsi := h.imsi
  session := h.session.trans hb.calm.session

theorem AttachRead.moves {msg : GenericNASMsg} (h : AttachRead P c₀ e msg c d) : Moves P R c₀ e c d :=
  ⟨fun _ => .of_sec h.sec, h.changes⟩

theorem attachRead_processAttach {m : GenericNASMsg × Bool} (hm : m ∈ c₀.takes P e)
    (htype : m.1.emmMessageType = attachRequest) (hpending : c.pendingESMmsg = c₀.pendingESMmsg)
    (himsi : c.imsi = c₀.imsi) : Post (c.processAttach m.1) (AttachRead P c₀ e m.1 c) := by
  have hpresented : c₀.presented P e =
      if mobileIdType (m.1.shift 6) = 1 then (imsiOfMobileId (m.1.shift 6) (m.1 5)).toOption else none := by
    rw [presented, Option.mem_def.mp hm, Option.bind_some, if_pos htype]
  let d : EMMCtx := { c with
    attachStarted := true
    msg.attachType := m.1 3 &&& 0x0F
    msg.ksi := (m.1 4 >>> 4) &&& 0x07
    pendingESMmsg := c.pendingESMmsg ++ [m.1.read 519 (m.1.read16 517)] }
  have hpush : Changes P c₀ e c d := .of_emm (.push hm htype hpending) rfl
  have hstored : d.pendingESMmsg = c₀.pendingESMmsg ++ [attachContainer m.1] :=
    congrArg (· ++ [attachContainer m.1]) hpending
  have hkeep : mobileIdType (m.1.shift 6) ≠ 1 → c.imsi = c₀.imsiAfter P e := by
    intro hid
    rw [imsiAfter, hpresented, if_neg hid]
    exact himsi
  refine .bind (Q := AttachRead P c₀ e m.1 c) ?_ fun f hf =>
    (reads_attachCapabilities m.1).mono fun _ hg => hf.reads hg
  refine .ite (fun hid => .bind_of_eq fun i hi => .ok ?_) fun hid =>
    Post.ite (fun _ => .ok ?_) fun _ => .ok ?_
  · have hsome : c₀.presented P e = some i := by rw [hpresented, if_pos hid, hi, Except.toOption]
    refine ⟨⟨rfl, rfl⟩, hpush.trans (.of_emm (.identify hsome) rfl), hstored, ?_, rfl⟩
    rw [imsiAfter, hsome]
    rfl
  · exact ⟨⟨rfl, rfl⟩, hpush.trans (Calm.changes rfl), hstored, hkeep hid, rfl⟩
  · exact ⟨⟨rfl, rfl⟩, hpush, hstored, hkeep hid, rfl⟩

/-! ## Authentication and key agreement -/

/-- An Authentication Request was sent, and a common procedure has started. -/
structure AuthSent (c d : EMMCtx) : Prop where
  toCommon : c.sci = false → ∀ P R, ToCommon P R c d
  session : d.sessionView = c.sessionView
  emm : ∃ q rest stored, c.authQuadrs = q :: rest ∧
    (∀ code msg, stored code = some msg → c.emmView.stored code = some msg ∨ code.Stores msg) ∧
    d.emmView = { c.emmView with
      stateName := .commonProcedureInitiated
      stored
      challenges := q.challenge :: c.emmView.challenges }

theorem firstAuthQuadruplet_eq_ok {q : AuthQuadruplet} (h : c.firstAuthQuadruplet = .ok q) :
    ∃ rest, c.authQuadrs = q :: rest := by
  unfold firstAuthQuadruplet at h
  split at h
  · cases h
  · rename_i q' rest hlist
    cases h
    exact ⟨rest, hlist⟩

theorem authSent_emmSendAuthRequest : Post (c.emmSendAuthRequest env) (AuthSent c) := by
  refine .bind_of_eq fun q hq => ?_
  obtain ⟨rest, hlist⟩ := firstAuthQuadruplet_eq_ok hq
  have hne : c.authQuadrs ≠ [] := by simp [hlist]
  have hsend : ∀ (c : EMMCtx) pdu, Post (c.ecmSend env pdu) fun d => ∃ ecm, d = c.log (.ecmSend ecm c.sci pdu) :=
    fun c pdu => post_ecmSend fun ecm => ⟨ecm, rfl⟩
  refine .bind (hsend _ _) ?_
  rintro _ ⟨ecm, rfl⟩
  let msg := [0x07, authenticationRequest, emmGenerateNewKSI c.ksi c.msg.ksi &&& 0x0F] ++ q.rAND ++ 16 :: q.aUTN
  refine .ok ⟨fun hsci P R => ⟨fun s => ?_, rfl⟩, rfl, q, rest, (c.emmSetTimer .t3460 msg).emmView.stored, hlist,
    stored_emmSetTimer (.inl rfl), ?_⟩
  · exact .tail (.single (.sendPlain (.inl hsci))) (.timer fun _ _ _ => .inl hne)
  · rfl

/-- A common procedure can be entered or goes on. -/
def MayBeCommon (P : Prims) (c₀ : EMMCtx) (e : Env × EMMEvent) (c : EMMCtx) : Prop :=
  c.pendingESMmsg ≠ [] ∨ (c₀.UpdatesUnauthenticated P e ∧ c.pendingESMmsg = c₀.pendingESMmsg) ∨
    c.stateName = .commonProcedureInitiated

theorem MayBeCommon.congr (h : MayBeCommon P c₀ e c) (hpending : d.pendingESMmsg = c.pendingESMmsg)
    (hstate : d.stateName = c.stateName) : MayBeCommon P c₀ e d := by
  unfold MayBeCommon
  rw [hpending, hstate]
  exact h

/-- The changes of an Authentication Request, the first of which sends a challenge. -/
theorem AuthSent.changes (h : AuthSent c d) (hs : c.sessionView = b.sessionView) (hcommon : MayBeCommon P c₀ e c)
    (hfirst : ∀ q rest, c.authQuadrs = q :: rest →
      EMMChange P c₀ e b.emmView { c.emmView with challenges := q.challenge :: c.emmView.challenges }) :
    Changes P c₀ e b d := by
  obtain ⟨q, rest, stored, hlist, hstored, hview⟩ := h.emm
  refine .of_emms ?_ (h.session.trans hs)
  rw [hview]
  exact .tail (.tail (.single (hfirst q rest hlist)) (.timers hstored)) (.common hcommon)

theorem AuthSent.changes_stored (h : AuthSent c d) (hq : KeptQuadruplets c₀ c) (hcommon : MayBeCommon P c₀ e c)
    (hwhy : c₀.StartsAuth P e ∨
      c₀.FailsSynch P e ∧ (e.1.hssSync = .wrongRows ∨ e.1.hssSync = .invalidAuts)) : Changes P c₀ e c d :=
  h.changes rfl hcommon fun _ _ hlist => .challengeStored hlist hq.1 hwhy

/-- In the state EMM_CommonProcedureInitiated a failed request stops the context. -/
def StopsInCommon (P : Prims) (c₀ : EMMCtx) (e : Env × EMMEvent) (c : EMMCtx) : Prop :=
  c.stateName = .commonProcedureInitiated →
    (e.1.hssAuth = .noRows → c₀.MayStop P e) ∧ c.sessionView.sessions = c₀.sessionView.sessions

/-- The error of the HSS deregisters a UE in a common procedure, and is only logged otherwise. -/
theorem moves_emmProcessS6aError (hrows : e.1.hssAuth = .noRows) (hstop : StopsInCommon P c₀ e c)
    (unknownEPSSubscription : Bool) :
    Post (c.emmProcessS6aError P env unknownEPSSubscription) (Moves P R c₀ e c) := by
  unfold emmProcessS6aError
  split
  · exact .ite (fun _ => Quiet.post (quiet_emmSendAttachReject _)) fun _ => .ok .refl
  · rename_i hs
    obtain ⟨hmay, hsessions⟩ := hstop hs
    split
    · refine .bind (quiet_emmSendAttachReject _) fun d hd => Moves.post_trans ?_ hd.moves
      exact moves_emmStop (hmay hrows) ((congrArg SessionView.sessions hd.calm.session).trans hsessions)
    · exact moves_emmStop (hmay hrows) hsessions
  · exact .ok .refl

theorem post_s6aGetAuthInformation (hsci : c₀.Admits P R e → c.sci = false) (hstart : c₀.StartsAuth P e)
    (hq : KeptQuadruplets c₀ c) (hcommon : MayBeCommon P c₀ e c) (hstop : StopsInCommon P c₀ e c) :
    Post (c.s6aGetAuthInformation P e.1) fun d => Changes P c₀ e c d ∧
      (c₀.Admits P R e → ToCommon P R c d ∨ e.1.hssAuth = .noRows ∧ Reach P R c d) := by
  unfold s6aGetAuthInformation
  split
  · exact .error
  · rename_i hrows
    exact (moves_emmProcessS6aError hrows hstop _).mono fun d hd => ⟨hd.changes, fun ha => .inr ⟨hrows, hd.reach ha⟩⟩
  · refine authSent_emmSendAuthRequest.mono fun d hd => ⟨hd.changes_stored hq hcommon (.inl hstart), fun ha => .inl ?_⟩
    exact hd.toCommon (hsci ha) P R
  · rename_i q hvector
    refine .of_bind fun _ => authSent_emmSendAuthRequest.mono fun d hd => ⟨?_, fun ha => .inl ?_⟩
    · exact hd.changes rfl hcommon fun _ _ hlist => .challengeNew hvector hstart hq.1 hq.2 hlist
    · obtain ⟨hsteps, hstate⟩ := hd.toCommon (hsci ha) P R
      exact ⟨fun s => .head .newQuadruplet (hsteps s), hstate⟩

theorem moves_s6aSynchAuthVector (hfail : c₀.FailsSynch P e) (hq : KeptQuadruplets c₀ c)
    (hc : c.stateName = .commonProcedureInitiated) (hs : c.sessionView.sessions = c₀.sessionView.sessions)
    (hsci : c₀.Admits P R e → c.sci = false) (ht : c.activeTimers .t3460 = none) :
    Post (c.s6aSynchAuthVector e.1) (Moves P R c₀ e c) := by
  have hfree : Reach P R c c.emmCtxFreeAuthQuadruplets := .of_step (.freeQuadruplets ht)
  have hsend : ∀ d : EMMCtx, AuthSent c d → c₀.Admits P R e → Reach P R c d := fun d hd ha =>
    (hd.toCommon (hsci ha) P R).reach hc
  unfold s6aSynchAuthVector
  split
  · exact .error
  · rename_i hrows
    exact authSent_emmSendAuthRequest.mono fun d hd =>
      ⟨hsend d hd, hd.changes_stored hq (.inr (.inr hc)) (.inr ⟨hfail, .inl hrows⟩)⟩
  · rename_i hauts
    exact .of_bind fun _ => authSent_emmSendAuthRequest.mono fun d hd =>
      ⟨hsend d hd, hd.changes_stored hq (.inr (.inr hc)) (.inr ⟨hfail, .inr hauts⟩)⟩
  · rename_i hsync
    have ⟨hstate, m, hm, htype, _⟩ := hfail
    refine .of_bind fun _ => Moves.post_trans (moves_emmStop (.inl ⟨⟨hstate, m, hm, htype⟩, fun _ => hsync⟩) hs)
      ⟨fun _ => hfree, .of_emm ?_ rfl⟩
    exact .forget hfail hq.1 hq.2
  · rename_i q hvector
    refine .of_bind fun _ => .of_bind fun _ => authSent_emmSendAuthRequest.mono fun d hd => ⟨fun ha => ?_, ?_⟩
    · exact (hfree.trans (.of_step .newQuadruplet)).trans ((hd.toCommon (hsci ha) P R).reach hc)
    · exact hd.changes rfl (.inr (.inr hc)) fun _ _ hlist => .resync hvector hfail hq.1 hq.2 hlist

theorem AkaAllowed.of_frame (h : c.AkaAllowed R env) (hd : d.frame = c.frame) : d.AkaAllowed R env := by
  intro hlen hno
  have hstate : d.stateName = c.stateName := congrArg Frame.stateName hd
  rw [hstate]
  exact h ((congrArg Frame.authQuadrsLen hd).symm.trans hlen) hno

/-- An authentication run starts by dropping the security context.  It leaves the EMM state alone if
the HSS does not know the subscriber. -/
theorem moves_emmTriggerAKAprocedure (hstart : c₀.StartsAuth P e) (hq : KeptQuadruplets c₀ c)
    (hcommon : MayBeCommon P c₀ e c) (himsi : c.imsi = c₀.imsiAfter P e)
    (hs : c.stateName = .deregistered ∨ c.stateName = .registered) (haka : c₀.Admits P R e → c.AkaAllowed R e.1) :
    Post (c.emmTriggerAKAprocedure P e.1) (Moves P R c₀ e c) := by
  have hremove : Changes P c₀ e c c.emmRemoveCurrentSC := Calm.changes rfl
  refine .ite (fun _ => ?_) fun hne => ?_
  · refine .bind (post_emmSendIdentityReq P R c₀ e rfl) ?_
    rintro d ⟨hkeeps, hd, hpending⟩
    refine .ok ⟨fun _ => ?_, ?_⟩
    · exact ToCommon.reach_of_removed ⟨hkeeps.steps, rfl⟩
    · exact hremove.trans (hd.trans (.of_emm (.common (hcommon.congr hpending hkeeps.stateName)) rfl))
  · have hget : c₀.MayGetGUTI P e := .inl ⟨hstart, .inl (himsi ▸ hne)⟩
    have hguti : Post (c.emmRemoveCurrentSC.emmCtxNewGUTI P e.1) (Changes P c₀ e c.emmRemoveCurrentSC) :=
      changes_emmCtxNewGUTI hget himsi
    refine .bind (hguti.and (keeps_emmCtxNewGUTI (R := R))) ?_
    rintro d ⟨hd, hkeeps, hpending, -⟩
    have hstate : d.stateName = c.stateName := hkeeps.stateName
    have hq' : KeptQuadruplets c₀ d := by
      obtain ⟨hquad, hlen⟩ := keptQuadruplets_of_frame hkeeps.frame
      exact ⟨hquad.trans hq.1, hlen.trans hq.2⟩
    have hcommon' : MayBeCommon P c₀ e d := hcommon.congr hpending hstate
    have hstop : StopsInCommon P c₀ e d := by
      intro hc
      rw [← hstate, hc] at hs
      rcases hs with hs | hs <;> cases hs
    refine .ite (fun hlen => ?_) fun _ => .ite (fun _ => ?_) fun _ => .error
    · refine (post_s6aGetAuthInformation (R := R) (fun _ => hkeeps.sci) hstart hq' hcommon' hstop).mono ?_
      rintro f ⟨hf, hreach⟩
      refine ⟨fun ha => ?_, hremove.trans (hd.trans hf)⟩
      obtain hf | ⟨hno, hf⟩ := hreach ha
      · exact (ToCommon.of_keeps_trans hkeeps hf).reach_of_removed
      · have hzero : c.authQuadrsLen = 0 := (congrArg Frame.authQuadrsLen hkeeps.frame).symm.trans hlen
        have hspi : c.stateName ≠ .specificProcedureInitiated := by
          rcases hs with hs | hs <;> rw [hs] <;> exact nofun
        exact .head (.akaFailed hspi (haka ha hzero hno)) (hkeeps.secSteps.trans hf)
    · refine .bind authSent_emmSendAuthRequest fun f hf => .ok ⟨fun _ => ?_, ?_⟩
      · have hcommon : ToCommon P R d (f.emmChangeState .commonProcedureInitiated) :=
          ⟨(hf.toCommon hkeeps.sci P R).steps, rfl⟩
        exact (ToCommon.of_keeps_trans hkeeps hcommon).reach_of_removed
      · refine hremove.trans (hd.trans ((hf.changes_stored hq' hcommon' (.inl hstart)).trans (.of_emm (.common ?_) rfl)))
        obtain ⟨q, rest, stored, -, -, hview⟩ := hf.emm
        exact .inr (.inr (congrArg EMMView.stateName hview))

end EMMCtx

end AaltoMME
