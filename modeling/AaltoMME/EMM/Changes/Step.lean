import AaltoMME.EMM.Changes.Requests

/-!
# What the events of a context do

One lemma for every handler of the states, and from them `EMMCtx.moves_step`: an event of a context makes
elementary changes only, and so does an event that is allowed to the security part.
-/

namespace AaltoMME

open Base NAS Relation

variable {P : Prims} {R : Risk} {c₀ : EMMCtx} {e : Env × EMMEvent} {env : Env} {b c d : EMMCtx}

namespace EMMCtx

/-! ## The message of an event -/

theorem esmMsg_of_takes {m : GenericNASMsg × Bool} (hm : m ∈ c₀.takes P e) :
    c₀.esmMsg P e = c₀.esmOf e.1 m.1 m.2 := by
  have hleaves : c₀.leaves P e = none := by
    obtain ⟨env, ev⟩ := e
    cases ev with
    | uplink buf size =>
      cases hhead : nasGetHeader buf size.toUInt32 with
      | none => simp [leaves, hhead]
      | some sp =>
        cases hr : c₀.receiveSecMsg P (c₀.authenticates sp.1) buf size with
        | error => simp [leaves, hhead, hr]
        | ok r =>
          by_cases hs : sp.1 ≠ .plainNAS ∧ sp.1.isProtected = true
          · simp only [takes, hhead, hs.1, hs.2, hr, if_true, if_false] at hm
            obtain ⟨hm, hleft⟩ := Option.mem_filter_iff.mp hm
            have hr' : c₀.receiveSecMsg P (c₀.authenticates sp.1) buf size = .ok (r.1, some m) := by
              rw [hr, ← Option.mem_def.mp hm]
            simp [leaves, hhead, hs.1, hs.2, hr', (Bool.not_eq_true' _).mp hleft]
          · simp only [leaves, hhead, ne_eq, Bool.and_eq_true, decide_eq_true_eq, if_neg hs]
    | _ => rfl
  rw [esmMsg, hleaves, Option.none_or, Option.mem_def.mp hm, Option.bind_some]

/-- The context is as the event found it, but for its NAS handler and its timers. -/
def Found (c₀ c : EMMCtx) : Prop := ∃ parser activeTimers, c = { c₀ with parser, activeTimers }

namespace Found

theorem refl : Found c c := ⟨_, _, rfl⟩

theorem emmStopTimer (h : Found c₀ c) (code : EMMTimerCode) : Found c₀ (c.emmStopTimer code) := by
  obtain ⟨_, _, rfl⟩ := h
  exact ⟨_, _, rfl⟩

theorem unread (h : Found c₀ c) : Unread c₀ c := by
  obtain ⟨_, _, rfl⟩ := h
  exact ⟨rfl, rfl, rfl⟩

theorem stateName (h : Found c₀ c) : c.stateName = c₀.stateName := congrArg Frame.stateName h.unread.frame

theorem sci (h : Found c₀ c) : c.sci = c₀.sci := congrArg Frame.sci h.unread.frame

theorem session (h : Found c₀ c) : c.sessionView = c₀.sessionView := by
  obtain ⟨_, _, rfl⟩ := h
  rfl

theorem sessions (h : Found c₀ c) : c.sessionView.sessions = c₀.sessionView.sessions :=
  congrArg SessionView.sessions h.session

theorem kept (h : Found c₀ c) : c.sessionView.Kept c₀ := by
  rw [h.session]
  exact .inl ⟨rfl, rfl⟩

theorem receive (h : Found c₀ c) {b : Bool} {buf : Mem} {size : UInt64} {m : Option (GenericNASMsg × Bool)}
    (hr : c.receiveSecMsg P b buf size = .ok (d, m)) : Found c₀ d := by
  obtain ⟨parser, rfl⟩ := parser_of_receiveSecMsg hr
  obtain ⟨_, _, rfl⟩ := h
  exact ⟨_, _, rfl⟩

end Found

theorem quiet_receiveSecMsg {b : Bool} {buf : Mem} {size : UInt64} {m : Option (GenericNASMsg × Bool)}
    (hr : c.receiveSecMsg P b buf size = .ok (d, m)) : Quiet P R c₀ e c d := by
  obtain ⟨-, rfl, -⟩ | ⟨-, r, hauth, rfl, -⟩ := receiveSecMsg_eq_ok hr
  · exact .refl
  · exact ⟨fun _ => .of_step (fun _ => .receive hauth) rfl, rfl⟩

theorem sci_of_authenticates {s : SecurityHeaderType} (h : c.authenticates s = false) : c.sci = false := by
  unfold authenticates at h
  split at h
  · exact h
  · exact (Bool.or_eq_false_iff.mp h).1
  · cases h

/-- A security protected message that a handler is to receive. -/
structure Arrives (c₀ : EMMCtx) (e : Env × EMMEvent) (c : EMMCtx) (s : SecurityHeaderType) (p : UInt8) (buf : Mem)
    (size : UInt64) : Prop where
  event : e.2 = .uplink buf size
  head : nasGetHeader buf size.toUInt32 = some (s, p)
  isProtected : s.isProtected = true
  found : Found c₀ c
  parser : c.parser = c₀.parser

/-- What a handler knows of the message that it goes on with. -/
structure Received (P : Prims) (R : Risk) (c₀ : EMMCtx) (e : Env × EMMEvent) (d : EMMCtx) (m : GenericNASMsg × Bool) :
    Prop where
  found : Found c₀ d
  takes : m ∈ c₀.takes P e
  header : e.2.headerType ≠ some .plainNAS
  exempt : m.2 = false → nasIsAuthRequired m.1.emmMessageType = false
  sci : m.2 = true → c₀.stateName = .deregistered → c₀.sci = true
  accepted : c₀.Admits P R e → m.2 = true → c₀.stateName ≠ .specificProcedureInitiated →
    m.1.emmMessageType = attachRequest ∨ m.1.emmMessageType = trackingAreaUpdateRequest →
    R.accepted c₀.kasme (nasGetLastCount d.parser .upLink)
  detach : c₀.Admits P R e → m.1.emmMessageType = detachRequest →
    (c₀.sci = false ∨ R.plainSend) ∨ m.1 3 &&& 0x8 = 0x8

/-- A procedure starts with the COUNT of the message. -/
theorem Received.procedure {f : EMMCtx} {m : GenericNASMsg × Bool} (h : Received P R c₀ e d m) (ha : c₀.Admits P R e)
    (hauth : m.2 = true) (hs : c₀.stateName ≠ .specificProcedureInitiated)
    (htype : m.1.emmMessageType = attachRequest ∨ m.1.emmMessageType = trackingAreaUpdateRequest)
    (hf : f.frame = c₀.frame) (hparser : f.parser = d.parser) :
    Reach P R f { f with nasUlCountForSC := nasGetLastCount f.parser .upLink } ∧
      R.accepted f.kasme (nasGetLastCount f.parser .upLink) := by
  have hstate : f.stateName = c₀.stateName := congrArg Frame.stateName hf
  have hkasme : f.kasme = c₀.kasme := congrArg Frame.kasme hf
  refine ⟨.of_step (.snapshot fun h => hs (hstate.symm.trans h)), ?_⟩
  rw [hkasme, hparser]
  exact h.accepted ha hauth hs htype

namespace Arrives

variable {s : SecurityHeaderType} {p : UInt8} {buf : Mem} {size : UInt64} {m : GenericNASMsg × Bool}

theorem ne_plainNAS (h : Arrives c₀ e c s p buf size) : s ≠ .plainNAS := by
  rintro rfl
  cases h.isProtected

theorem leaves (h : Arrives c₀ e c s p buf size)
    (hr : c.receiveSecMsg P (c₀.authenticates s) buf size = .ok (d, some m)) (hesm : c₀.leavesToESM p m.1 = true) :
    m.1 ∈ c₀.leaves P e := by
  obtain ⟨env, ev⟩ := e
  obtain rfl : ev = .uplink buf size := h.event
  obtain ⟨g, hg⟩ := exists_receiveSecMsg h.parser hr
  simp [EMMCtx.leaves, h.head, h.ne_plainNAS, h.isProtected, hg, hesm]

theorem received (h : Arrives c₀ e c s p buf size)
    (hr : c.receiveSecMsg P (c₀.authenticates s) buf size = .ok (d, some m)) (hesm : c₀.leavesToESM p m.1 = false) :
    Received P R c₀ e d m := by
  obtain ⟨env, ev⟩ := e
  obtain rfl : ev = .uplink buf size := h.event
  obtain ⟨g, hg⟩ := exists_receiveSecMsg h.parser hr
  have htakes : m ∈ c₀.takes P (env, .uplink buf size) := by
    simp [EMMCtx.takes, h.head, h.ne_plainNAS, h.isProtected, hg, hesm]
  have hheader : (EMMEvent.uplink buf size).headerType ≠ some .plainNAS := by
    simp [EMMEvent.headerType, h.head, h.ne_plainNAS]
  obtain ⟨hb, -, hm⟩ | ⟨hb, r, hauth, hd, hm⟩ := receiveSecMsg_eq_ok hr
  · obtain ⟨hfalse, hexempt⟩ := hm m rfl
    refine ⟨h.found.receive hr, htakes, hheader, fun _ => hexempt, ?_, ?_, ?_⟩
    · exact fun h => absurd h (by simp [hfalse])
    · exact fun _ h => absurd h (by simp [hfalse])
    · exact fun _ _ => .inl (.inl (sci_of_authenticates hb))
  · obtain ⟨-, -, hisAuth, -, hexempt⟩ := hm m rfl
    rw [hb] at hg
    refine ⟨h.found.receive hr, htakes, hheader, hexempt, fun _ hs => ?_, fun ha hm' hs htype => ?_, fun ha htype => ?_⟩
    · rwa [authenticates, hs] at hb
    · rw [h.parser] at hauth
      rw [hd]
      exact (ha.allowed.accepted r hauth (hisAuth.trans hm')).1 hs ⟨m.1, mem_receivedMsg hg, .inr htype⟩
    · exact ha.allowed.detach m.1 (mem_receivedMsg hg) htype

end Arrives

/-! ## Cases that several states share -/

theorem moves_emmProcessFirstESMmsg (hc : c.stateName = .specificProcedureInitiated)
    (hmsg : ∀ raw ∈ c.pendingESMmsg.head?, storedESM e.1 raw ∈ c₀.esmMsg P e) (hkept : c.sessionView.Kept c₀) :
    Post (c.emmProcessFirstESMmsg P e.1) (Moves P R c₀ e c) := by
  unfold emmProcessFirstESMmsg
  split
  · exact .error
  · rename_i raw rest hpending
    have hraw : storedESM e.1 raw ∈ c₀.esmMsg P e := hmsg raw (by rw [hpending]; rfl)
    refine .bind (moves_esmProcessMsg hraw hkept) fun d hd => .ok (hd.moves.trans ⟨fun _ => .of_sec rfl, .of_emm (.pop ?_) rfl⟩)
    exact (congrArg EMMView.stateName hd.emm).trans hc

theorem moves_s6aUpdateLocation (hc : c.stateName = .specificProcedureInitiated)
    (hmsg : ∀ raw ∈ c.pendingESMmsg.head?, storedESM e.1 raw ∈ c₀.esmMsg P e) (hkept : c.sessionView.Kept c₀) :
    Post (c.s6aUpdateLocation P e.1) (Moves P R c₀ e c) := by
  have hgateways : ∀ msisdn subs, Post ({ c with msisdn, subs }.emmSelectGateways P e.1) (Moves P R c₀ e c) :=
    fun msisdn subs => Moves.post_trans (moves_emmProcessFirstESMmsg (c := { c with msisdn, subs, sgwIP := _, pgwIP := _ })
      hc hmsg hkept) (.of_eq rfl rfl)
  unfold s6aUpdateLocation
  split
  · exact hgateways c.msisdn c.subs
  · exact .error
  · exact hgateways _ _

theorem moves_attachFront {m : GenericNASMsg × Bool} (hm : m ∈ c₀.takes P e)
    (htype : m.1.emmMessageType = attachRequest) (hc : Unread c₀ c) {k : EMMCtx → Outcome EMMCtx}
    (hk : ∀ d, AttachRead P c₀ e m.1 c d → Post (k d) (Moves P R c₀ e d)) :
    Post (do
      let c ← c.getTAI env
      let c ← c.processAttach m.1
      match c.emmSelectAttachType with
      | none => pure c
      | some c => k c) (Moves P R c₀ e c) := by
  refine .bind reads_getTAI fun d hd => ?_
  have hu : Unread c₀ d := hc.reads hd
  refine .bind (attachRead_processAttach hm htype hu.pending hu.imsi) fun f hf => ?_
  have hread : AttachRead P c₀ e m.1 c f := hf.of_reads hd
  split
  · exact .ok hread.moves
  · rename_i g hg
    have hread' : AttachRead P c₀ e m.1 c g := hread.reads (reads_emmSelectAttachType hg)
    exact Moves.post_trans (hk g hread') hread'.moves

theorem moves_attachAKA {m : GenericNASMsg × Bool} (hm : m ∈ c₀.takes P e)
    (htype : m.1.emmMessageType = attachRequest) (hauth : m.2 = false)
    (hs : c₀.stateName = .deregistered ∨ c₀.stateName = .registered) (hc : Unread c₀ c)
    (hread : AttachRead P c₀ e m.1 c d) : Post (d.emmTriggerAKAprocedure P e.1) (Moves P R c₀ e d) := by
  have hframe : d.frame = c₀.frame := hread.frame.trans hc.frame
  have hstate : d.stateName = c₀.stateName := congrArg Frame.stateName hframe
  refine moves_emmTriggerAKAprocedure (.inl ⟨hs, m, hm, htype, hauth⟩) (keptQuadruplets_of_frame hframe) (.inl ?_)
    hread.imsi (hstate ▸ hs) fun ha => (ha.aka hm hs).of_frame hframe
  simp [hread.pending]

/-- The context `c` was left by the reception, or by `esm_errorEMM` after it. -/
theorem moves_attachRequestCase {m : GenericNASMsg × Bool} (hr : Received P R c₀ e d m)
    (htype : m.1.emmMessageType = attachRequest) (hs : c₀.stateName = .deregistered ∨ c₀.stateName = .registered)
    (hsci : m.2 = true → c₀.sci = true) (hc : Unread c₀ c) (hparser : c.parser = d.parser)
    (hkept : c.sessionView.Kept c₀) : Post (c.attachRequestCase P e.1 m.1 m.2) (Moves P R c₀ e c) := by
  refine moves_attachFront hr.takes htype hc fun f hread => .ite (fun hauth => ?_) fun hauth => ?_
  · exact moves_attachAKA hr.takes htype (by simpa using hauth) hs hc hread
  · have hauth' : m.2 = true := by simpa using hauth
    have hframe : f.frame = c₀.frame := hread.frame.trans hc.frame
    have hne : c₀.stateName ≠ .specificProcedureInitiated := by rcases hs with hs | hs <;> rw [hs] <;> exact nofun
    have hpending : ∀ raw ∈ f.pendingESMmsg.head?, storedESM e.1 raw ∈ c₀.esmMsg P e := by
      intro raw hraw
      rw [hread.pending, Option.mem_def] at hraw
      rw [esmMsg_of_takes hr.takes, esmOf]
      rcases hs with hs | hs <;> simp [hs, htype, hauth', hraw]
    have hkept' : f.sessionView.Kept c₀ := by
      rw [hread.session]
      exact hkept
    refine Moves.post_trans (moves_emmProcessFirstESMmsg rfl hpending hkept') ⟨fun ha => ?_, .of_emm .procedure rfl⟩
    obtain ⟨hsnap, haccepted⟩ :=
      hr.procedure ha hauth' hne (.inl htype) hframe ((congrArg SecView.parser hread.sec).trans hparser)
    exact hsnap.trans (.of_step (.procedure ((congrArg Frame.sci hframe).trans (hsci hauth')) haccepted))

theorem post_processDetachReq (msg : GenericNASMsg) : Post (c.processDetachReq msg) fun d =>
    Calm c d ∧ d.sec = c.sec ∧ d.ksi = c.ksi ∧ d.msg.ksi = msg 4 >>> 4 ∧ d.msg.detachType = msg 3 &&& 0x0F := by
  unfold processDetachReq
  dsimp only
  split
  · exact .of_bind fun _ => .ok ⟨rfl, rfl, rfl, rfl, rfl⟩
  · exact .ok ⟨rfl, rfl, rfl, rfl, rfl⟩

theorem moves_detachRequestCase {m : GenericNASMsg × Bool} (hr : Received P R c₀ e d m)
    (htype : m.1.emmMessageType = detachRequest)
    (hs : c₀.stateName = .deregistered ∨ c₀.stateName = .registered ∨ c₀.stateName = .specificProcedureInitiated)
    (hc : Found c₀ c) : Post (c.detachRequestCase e.1 m.1) (Moves P R c₀ e c) := by
  refine .bind (post_processDetachReq m.1) ?_
  rintro f ⟨hcalm, hsec, hksi, hmsg, hdetach⟩
  refine .ite (fun _ => .ok (.of_eq hsec hcalm)) fun heq => Moves.post_trans ?_ (.of_eq hsec hcalm)
  have hsession : f.sessionView = c₀.sessionView := hcalm.session.trans hc.session
  have hsame : m.1 4 >>> 4 = c₀.ksi := by
    obtain ⟨_, _, rfl⟩ := hc
    exact (hmsg.symm.trans (not_not.mp heq).symm).trans hksi
  refine moves_esmDetach (fun ha => ?_) ⟨hs, hr.header, m, hr.takes, htype, hsame⟩
    (congrArg SessionView.sessions hsession) (congrArg SessionView.users hsession)
  have hsci : f.sci = c₀.sci := (congrArg SecView.sci hsec).trans hc.sci
  refine (hr.detach ha htype).imp (Or.imp hsci.trans id) fun hoff => ?_
  rw [hdetach, UInt8.and_assoc]
  exact hoff

/-! ## EMM_Deregistered -/

theorem moves_deregProcessMsg {msg : GenericNASMsg} (hm : (msg, false) ∈ c₀.takes P e) (hc : Found c₀ c)
    (hs : c₀.stateName = .deregistered) : Post (c.deregProcessMsg P e.1 msg) (Moves P R c₀ e c) := by
  refine .ite (fun _ => .ok .refl) fun _ => .ite (fun htype => ?_) fun _ =>
    Post.ite (fun _ => moves_emmSendTAUReject _) fun _ => .ok .refl
  exact moves_attachFront hm htype hc.unread fun d hread => moves_attachAKA hm htype rfl (.inl hs) hc.unread hread

theorem moves_deregProcessSecMsg {s : SecurityHeaderType} {p : UInt8} {buf : Mem} {size : UInt64}
    (h : Arrives c₀ e c s p buf size) (hs : c₀.stateName = .deregistered) :
    Post (c.deregProcessSecMsg P e.1 buf size) (Moves P R c₀ e c) := by
  have hauth : c₀.authenticates s = c.sci := by rw [authenticates, hs, h.found.sci]
  refine .of_bind fun _ => .bind_of_eq fun q hp => ?_
  obtain ⟨d, m⟩ := q
  refine Moves.post_trans (d := d) ?_ (quiet_receiveSecMsg hp).moves
  rcases m with _ | m
  · exact .ok .refl
  have hr : Received P R c₀ e d m := h.received (hauth ▸ hp) (by simp [leavesToESM, hs])
  refine .ite (fun htype => ?_) fun _ => .ite (fun _ => moves_emmSendTAUReject _) fun _ =>
    Post.ite (fun htype => ?_) fun _ => .ok .refl
  · exact moves_attachRequestCase hr htype (.inl hs) (fun ha => hr.sci ha hs) hr.found.unread rfl hr.found.kept
  · exact moves_detachRequestCase hr htype (.inl hs) hr.found

/-! ## EMM_CommonProcedureInitiated -/

theorem moves_processAuthResp (hresp : c₀.Handles P e authenticationResponse) (hq : KeptQuadruplets c₀ c)
    (hc : c.stateName = .commonProcedureInitiated) (hsci : c₀.Admits P R e → c.sci = false)
    (ht : c.activeTimers .t3460 = none) (msg : GenericNASMsg) :
    Post (c.processAuthResp P env msg) (Moves P R c₀ e c) := by
  refine .ite (fun _ => .ok .refl) fun _ => .bind_of_eq fun q hfirst => ?_
  refine .ite (fun _ => moves_sendAuthReject hsci) fun hres => ?_
  obtain ⟨rest, hlist⟩ := firstAuthQuadruplet_eq_ok hfirst
  have hne : c.authQuadrs ≠ [] := by simp [hlist]
  have hhead : c.authQuadrs.head? = some q := by rw [hlist, List.head?_cons]
  refine Moves.post_trans (moves_emmSendSecurityModeCommand ?_) ⟨fun _ => .of_step ?_, .of_emm ?_ rfl⟩
  · exact hc
  · exact .authenticate hc ht hhead (not_not.mp hres)
  · exact .consume (.inl ⟨hresp, hne⟩) hq.1 hq.2

theorem moves_processAuthFailure {m : GenericNASMsg × Bool} (hm : m ∈ c₀.takes P e)
    (htype : m.1.emmMessageType = authenticationFailure) (hs : c₀.stateName = .commonProcedureInitiated)
    (hc : Found c₀ c) (ht : c.activeTimers .t3460 = none) :
    Post (c.processAuthFailure e.1 m.1) (Moves P R c₀ e c) := by
  have hq : KeptQuadruplets c₀ c := keptQuadruplets_of_frame hc.unread.frame
  refine .ite (fun hsynch => moves_s6aSynchAuthVector ⟨hs, m, hm, htype, hsynch⟩ hq (hc.stateName.trans hs) hc.sessions
    (fun ha => hc.sci.trans (ha.coherent.common hs)) ht) fun hcause => ?_
  have hnosynch : ¬ c₀.FailsSynch P e := by
    rintro ⟨-, m', hm', -, hcause'⟩
    obtain rfl : m = m' := Option.mem_unique hm hm'
    exact hcause hcause'
  have hstop : c₀.MayStop P e := .inl ⟨⟨hs, m, hm, htype⟩, fun h => absurd h hnosynch⟩
  refine Moves.post_trans (moves_emmStop (c := c.emmCtxRemoveFirstAuthQuadruplet) hstop hc.sessions)
    ⟨fun ha => .of_step (.removeQuadruplet ht ?_), .of_emm ?_ rfl⟩
  · show c.authQuadrs ≠ [] ∨ _
    rw [hq.1]
    exact ha.answers hm hs htype
  · exact .consume (.inr ⟨hs, m, hm, htype⟩) hq.1 hq.2

/-- An Identity Response may tell an IMSI, and the context gets a GUTI. -/
theorem post_processIdentityRsp {m : GenericNASMsg × Bool} (hm : m ∈ c₀.takes P e)
    (htype : m.1.emmMessageType = identityResponse) (hs : c₀.stateName = .commonProcedureInitiated)
    (himsi : c.imsi = c₀.imsi) :
    Post (c.processIdentityRsp P e.1 m.1) fun d =>
      Keeps P R c d ∧ Changes P c₀ e c d ∧ d.sessionView = c.sessionView := by
  have hpresented : c₀.presented P e =
      if mobileIdType (m.1.shift 4) = 1 then (imsiOfMobileId (m.1.shift 4) (m.1 3)).toOption else none := by
    have hne : m.1.emmMessageType ≠ attachRequest := by
      rw [htype]
      decide
    rw [presented, Option.mem_def.mp hm, Option.bind_some, if_neg hne, if_pos htype]
  have hget : c₀.MayGetGUTI P e := .inl ⟨.inr (.inr ⟨hs, m, hm, htype⟩), .inr hs⟩
  have hguti : ∀ imsi : UInt64, Changes P c₀ e c { c with imsi } → imsi = c₀.imsiAfter P e →
      Post ({ c with imsi }.emmCtxNewGUTI P e.1) fun f =>
        Keeps P R c f ∧ Changes P c₀ e c f ∧ f.sessionView = c.sessionView := by
    intro imsi hc hi
    have hnew : Post ({ c with imsi }.emmCtxNewGUTI P e.1) (Changes P c₀ e { c with imsi }) := changes_emmCtxNewGUTI hget hi
    refine ((keeps_emmCtxNewGUTI (R := R)).and hnew).mono ?_
    rintro f ⟨⟨hk, -, hv⟩, hf⟩
    exact ⟨.trans (c := { c with imsi }) (.of_sec rfl rfl) hk, hc.trans hf, hv⟩
  unfold processIdentityRsp
  dsimp only
  split
  · rename_i hid
    refine .bind_of_eq fun i hi => ?_
    have hsome : c₀.presented P e = some i := by rw [hpresented, if_pos hid, hi, Except.toOption]
    refine hguti i (.of_emm (.identify hsome) rfl) ?_
    rw [imsiAfter, hsome]
    rfl
  · rename_i hid
    refine hguti c.imsi Calm.refl.changes ?_
    rw [imsiAfter, hpresented, if_neg hid]
    exact himsi

/-- What the context did since `b`; `rest` is the rest of the switch. -/
theorem moves_commonProcedureCases {m : GenericNASMsg × Bool} (hm : m ∈ c₀.takes P e) (hc : Found c₀ c)
    (hs : c₀.stateName = .commonProcedureInitiated) (hb : Moves P R c₀ e b c) {rest : Outcome EMMCtx}
    (hrest : Post rest (Moves P R c₀ e b)) : Post (c.commonProcedureCases P e.1 m.1 rest) (Moves P R c₀ e b) := by
  have hst := hc.stateName.trans hs
  have hsci : c₀.Admits P R e → c.sci = false := fun ha => hc.sci.trans (ha.coherent.common hs)
  have hq := keptQuadruplets_of_frame hc.unread.frame
  have hstop : ∀ t, Moves P R c₀ e b (c.emmStopTimer t) := fun t => hb.trans (.emmStopTimer t)
  refine .ite (fun htype => ?_) fun _ => .ite (fun htype => ?_) fun _ => .ite (fun htype => ?_) fun _ =>
    Post.ite (fun _ => .ok (hstop .t3460)) fun _ => hrest
  · refine .bind (post_processIdentityRsp (R := R) hm htype hs hc.unread.imsi) ?_
    rintro d ⟨hkeeps, hd, hsession⟩
    have hstop' : StopsInCommon P c₀ e d := fun _ =>
      ⟨fun hrows => .inr (.inl ⟨hs, ⟨m, hm, htype⟩, hrows⟩), congrArg SessionView.sessions (hsession.trans hc.session)⟩
    have hst' := hkeeps.stateName.trans hst
    have hframe := hkeeps.frame.trans hc.unread.frame
    refine (post_s6aGetAuthInformation (fun ha => hkeeps.sci.trans (hsci ha)) (.inr (.inr ⟨hs, m, hm, htype⟩))
      (keptQuadruplets_of_frame hframe) (.inr (.inr hst')) hstop').mono ?_
    rintro f ⟨hf, hreach⟩
    refine (hstop .t3470).trans (Moves.trans ⟨fun _ => hkeeps.secSteps, hd⟩ ⟨fun ha => ?_, hf⟩)
    exact (hreach ha).elim (fun h => h.reach hst') And.right
  · exact Moves.post_trans (moves_processAuthResp (c := c.emmStopTimer .t3460) ⟨m, hm, htype⟩ hq hst hsci rfl _) (hstop _)
  · exact Moves.post_trans (moves_processAuthFailure hm htype hs (hc.emmStopTimer .t3460) rfl) (hstop _)

theorem moves_cpiProcessMsg {msg : GenericNASMsg} (hm : (msg, false) ∈ c₀.takes P e) (hc : Found c₀ c)
    (hs : c₀.stateName = .commonProcedureInitiated) : Post (c.cpiProcessMsg P e.1 msg) (Moves P R c₀ e c) :=
  Post.ite (fun _ => .error) fun _ => moves_commonProcedureCases hm hc hs .refl (.ok .refl)

section SecurityMode

variable {s : SecurityHeaderType} {p : UInt8} {buf : Mem} {size : UInt64}

/-- The security part goes from the context before the reception to the new security context at once. -/
theorem moves_securityModeCompleteCase {m : GenericNASMsg × Bool} (h : Arrives c₀ e c s p buf size)
    (hs : c₀.stateName = .commonProcedureInitiated)
    (hp : c.receiveSecMsg P (c₀.authenticates s) buf size = .ok (d, some m))
    (htype : m.1.emmMessageType = securityModeComplete) :
    Post (d.securityModeCompleteCase P e.1 m.2) (Moves P R c₀ e c) := by
  have hr : Received P R c₀ e d m := h.received hp (by simp [leavesToESM, hs])
  have hauth : m.2 = true := by
    by_contra hauth
    have hreq := hr.exempt (Bool.eq_false_iff.mpr hauth)
    rw [htype] at hreq
    cases hreq
  have hmsg : ∀ raw ∈ d.pendingESMmsg.head?, storedESM e.1 raw ∈ c₀.esmMsg P e := by
    intro raw hraw
    rw [hr.found.unread.pending, Option.mem_def] at hraw
    rw [esmMsg_of_takes hr.takes, esmOf]
    simp [hs, htype, hraw]
  refine Moves.post_trans (moves_s6aUpdateLocation rfl hmsg hr.found.kept) ⟨fun ha => ?_, ?_⟩
  · have hallowed := ha.uplink h.event
    have hsci : c₀.sci = false := ha.coherent.common hs
    obtain ⟨hb, -, hm⟩ | ⟨hb, r, hret, rfl, hm⟩ := receiveSecMsg_eq_ok hp
    · exact absurd (hm m rfl).1 (by simp [hauth])
    have hisAuth : r.isAuth = true := (hm m rfl).2.2.1.trans hauth
    have hnew : s = .integrityProtectedAndCipheredWithNewEPSSecurityContext := by
      simpa [authenticates, hs, hsci] using hb
    obtain ⟨g, hg⟩ := exists_receiveSecMsg h.parser hp
    have hreceived : m.1 ∈ c₀.receivedMsg P buf size := mem_receivedMsg (hb ▸ hg)
    have hkeyed := hallowed.stale hs ⟨by rw [h.head, hnew]; rfl, m.1, hreceived, htype⟩
    have haccepted := (hallowed.accepted r (h.parser ▸ hret) hisAuth).1 (by rw [hs]; decide) ⟨m.1, hreceived, .inl htype⟩
    obtain ⟨parser, activeTimers, rfl⟩ := h.found
    rw [hauth]
    exact ((Moves.emmStopTimer .t3460).reach ha).trans (.of_step (.securityModeComplete hs hkeyed hret hisAuth haccepted))
  · exact (quiet_receiveSecMsg (R := R) hp).moves.changes.trans (.trans (.emmStopTimer .t3460) (.of_emm .procedure rfl))

theorem moves_cpiProcessSecMsg (h : Arrives c₀ e c s p buf size) (hs : c₀.stateName = .commonProcedureInitiated) :
    Post (c.cpiProcessSecMsg P e.1 s buf size) (Moves P R c₀ e c) := by
  have hauth : c₀.authenticates s = (c.sci || s == .integrityProtectedAndCipheredWithNewEPSSecurityContext) := by
    rw [authenticates, hs, h.found.sci]
  refine .bind_of_eq fun q hp => ?_
  obtain ⟨d, m⟩ := q
  have hd : Moves P R c₀ e c d := (quiet_receiveSecMsg hp).moves
  rcases m with _ | m
  · exact .ok hd
  have hr : Received P R c₀ e d m := h.received (hauth ▸ hp) (by simp [leavesToESM, hs])
  refine moves_commonProcedureCases hr.takes hr.found hs hd (.ite (fun htype => ?_) fun _ => ?_)
  · exact moves_securityModeCompleteCase h hs (hauth ▸ hp) htype
  · exact .ite (fun _ => Moves.post_trans (Quiet.post (quiet_ecmSendUEContextReleaseCommand _)) hd) fun _ => .ok hd

end SecurityMode

/-! ## EMM_Registered and EMM_SpecificProcedureInitiated -/

theorem moves_regProcessMsg {msg : GenericNASMsg} (hm : (msg, false) ∈ c₀.takes P e) (hc : Found c₀ c)
    (hs : c₀.stateName = .registered) : Post (c.regProcessMsg P e.1 msg) (Moves P R c₀ e c) := by
  refine .ite (fun htype => ?_) fun _ => .ok .refl
  have hstop : c₀.MayStop P e := .inr (.inr (.inl ⟨hs, _, hm, htype⟩))
  refine .bind (cleared_esmErrorEMM (P := P) (R := R)) fun d hd => ?_
  have hu : Unread c₀ d := hd.unread hc.unread
  refine Moves.post_trans (moves_attachFront hm htype hu fun f hread => ?_) (hd.moves hstop hc.sessions)
  exact moves_attachAKA hm htype rfl (.inr hs) hu hread

theorem moves_tauRequestCase {m : GenericNASMsg × Bool} (hr : Received P R c₀ e c m)
    (htype : m.1.emmMessageType = trackingAreaUpdateRequest) (hs : c₀.stateName = .registered) (hsci : c₀.sci = true) :
    Post (c.tauRequestCase P e.1 m.1 m.2) (Moves P R c₀ e c) := by
  refine .bind reads_getTAI fun d hd => .bind (reads_emmProcessTAUReq m.1) fun f hf => ?_
  have hcf : c.Reads f := hf.trans hd
  split
  · exact .ok hcf.moves
  rename_i g hg
  have hcg : c.Reads g := (reads_emmSelectUpdateType hg).trans hcf
  have hu : Unread c₀ g := hr.found.unread.reads hcg
  refine Moves.post_trans (.ite (fun hauth => ?_) fun hauth => ?_) hcg.moves
  · have htau : c₀.UpdatesUnauthenticated P e := ⟨hs, m, hr.takes, htype, by simpa using hauth⟩
    have hnone : c₀.presented P e = none := by
      rw [presented, Option.mem_def.mp hr.takes, Option.bind_some, htype]
      rfl
    refine moves_emmTriggerAKAprocedure (.inr (.inl htau)) (keptQuadruplets_of_frame hu.frame) (.inr (.inl ⟨htau, hu.pending⟩))
      ?_ (.inr ((congrArg Frame.stateName hu.frame).trans hs)) fun ha => (ha.aka hr.takes (.inr hs)).of_frame hu.frame
    rw [imsiAfter, hnone]
    exact hu.imsi
  · have hauth' : m.2 = true := by simpa using hauth
    have hne : c₀.stateName ≠ .specificProcedureInitiated := by
      rw [hs]
      decide
    refine .bind (post_emmSendTAUAccept P R c₀ e) ?_
    rintro f ⟨hkeeps, hchanges⟩
    refine .ok ⟨fun ha => ?_, .trans (c := { g with nasUlCountForSC := _ }) (Calm.changes rfl)
      (hchanges.trans (.of_emm .procedure rfl))⟩
    obtain ⟨hsnap, haccepted⟩ := hr.procedure ha hauth' hne (.inr htype) hu.frame (congrArg SecView.parser hcg.same.sec)
    refine (hsnap.trans hkeeps.secSteps).trans (.of_step (.procedure ?_ ?_))
    · exact hkeeps.sci.trans ((congrArg Frame.sci hu.frame).trans hsci)
    · have hcount : f.nasUlCountForSC = nasGetLastCount g.parser .upLink := congrArg Frame.nasUlCountForSC hkeeps.frame
      have hkasme : f.kasme = g.kasme := congrArg Frame.kasme hkeeps.frame
      show R.accepted f.kasme f.nasUlCountForSC
      rwa [hcount, hkasme]

section Protected

variable {s : SecurityHeaderType} {p : UInt8} {buf : Mem} {size : UInt64}

/-- The protected handlers of the two states; `emm` is the switch of the state. -/
theorem moves_protectedMsg (h : Arrives c₀ e c s p buf size)
    (hs : c₀.stateName = .registered ∨ c₀.stateName = .specificProcedureInitiated)
    {emm : EMMCtx → GenericNASMsg → Bool → Outcome EMMCtx}
    (hemm : ∀ d m, Received P R c₀ e d m → c₀.sci = true → Post (emm d m.1 m.2) (Moves P R c₀ e d)) :
    Post (c.protectedMsg P e.1 p buf size emm) (Moves P R c₀ e c) := by
  have hauth : c₀.authenticates s = true := by
    unfold authenticates
    rcases hs with hs | hs <;> rw [hs]
  refine .ite (fun _ => .error) fun hsci => .bind_of_eq fun ⟨f, k⟩ hk => ?_
  obtain ⟨⟨d, m⟩, hp, hm⟩ := bind_eq_ok.mp hk
  refine Moves.post_trans (d := d) ?_ (quiet_receiveSecMsg hp).moves
  rcases m with _ | m
  · cases hm
    exact .ok .refl
  have hleaves : c₀.leavesToESM p m.1 =
      (p = epsSessionManagementMessages || m.1.protocolDiscriminator = epsSessionManagementMessages) := by
    unfold leavesToESM
    rcases hs with hs | hs <;> rw [hs]
  have hp' : c.receiveSecMsg P (c₀.authenticates s) buf size = .ok (d, some m) := hauth ▸ hp
  dsimp only at hm
  split at hm
  · rename_i hesm
    cases hm
    have hmsg : m.1 ∈ c₀.esmMsg P e := by
      rw [esmMsg, Option.mem_def.mp (h.leaves hp' (hleaves.trans hesm)), Option.some_or]
      rfl
    exact SessionMoves.post (moves_esmProcessMsg hmsg (h.found.receive hp).kept)
  · rename_i hesm
    cases hm
    exact hemm _ m (h.received hp' (hleaves.trans (Bool.eq_false_iff.mpr hesm)))
      (h.found.sci.symm.trans (by simpa using hsci))

theorem moves_regProcessSecMsg (h : Arrives c₀ e c s p buf size) (hs : c₀.stateName = .registered) :
    Post (c.regProcessSecMsg P e.1 p buf size) (Moves P R c₀ e c) := by
  refine moves_protectedMsg h (.inl hs) fun d m hr hsci => ?_
  refine .ite (fun htype => ?_) fun _ => .ite (fun htype => ?_) fun _ =>
    Post.ite (fun htype => moves_tauRequestCase hr htype hs hsci) fun _ =>
    Post.ite (fun _ => Quiet.post (quiet_ecmSendUEContextReleaseCommand _)) fun _ => .ok .refl
  · have hstop : c₀.MayStop P e := .inr (.inr (.inl ⟨hs, m, hr.takes, htype⟩))
    refine .bind (cleared_esmErrorEMM (P := P) (R := R)) fun f hf => ?_
    exact Moves.post_trans (moves_attachRequestCase hr htype (.inr hs) (fun _ => hsci) (hf.unread hr.found.unread) hf.parser
      hf.kept) (hf.moves hstop hr.found.sessions)
  · exact moves_detachRequestCase hr htype (.inr (.inl hs)) hr.found

theorem moves_spiProcessSecMsg (h : Arrives c₀ e c s p buf size) (hs : c₀.stateName = .specificProcedureInitiated) :
    Post (c.spiProcessSecMsg P e.1 p buf size) (Moves P R c₀ e c) := by
  refine moves_protectedMsg h (.inr hs) fun d m hr _ => ?_
  have hstop : Moves P R c₀ e d (d.emmStopTimer .t3450) := .emmStopTimer _
  -- neither of the two messages is exempt from the authentication
  have hregister : m.1.emmMessageType = attachComplete ∨ m.1.emmMessageType = trackingAreaUpdateComplete →
      ∀ f : EMMCtx, f.stateName = .specificProcedureInitiated → Moves P R c₀ e f (f.emmChangeState .registered) := by
    intro htype f hf
    refine ⟨fun _ => .of_step (.register (.inr (.inr hf))), .of_emm (.register ⟨hs, .inl ⟨m, hr.takes, ?_, htype⟩⟩) rfl⟩
    by_contra hauth
    have hreq := hr.exempt (Bool.eq_false_iff.mpr hauth)
    rcases htype with htype | htype <;> rw [htype] at hreq <;> cases hreq
  have hst : d.stateName = .specificProcedureInitiated := hr.found.stateName.trans hs
  refine .ite (fun htype => Moves.post_trans ?_ hstop) fun _ => .ite (fun htype => Moves.post_trans ?_ hstop)
    fun _ => .ite (fun htype => Moves.post_trans ?_ hstop) fun _ =>
    Post.ite (fun _ => Quiet.post (quiet_ecmSendUEContextReleaseCommand _)) fun _ => .ok .refl
  · have hmsg : (decNAS (m.1.shift 5) (UInt64.ofNat (m.1.read16 3))).2 ∈ c₀.esmMsg P e := by
      rw [esmMsg_of_takes hr.takes, esmOf]
      simp [hs, htype]
    refine Moves.post_trans (SessionMoves.post (moves_esmProcessMsg hmsg hr.found.kept)) ?_
    exact .trans (c := { d.emmStopTimer .t3450 with attachStarted := false }) (.of_eq rfl rfl) (hregister (.inl htype) _ hst)
  · dsimp only
    split
    · refine .bind (quiet_ecmSendUEContextReleaseCommand _) fun f hf => .ok (hf.moves.trans (hregister (.inr htype) f ?_))
      exact (congrArg EMMView.stateName hf.calm.emm).trans hst
    · exact .ok (hregister (.inr htype) _ hst)
  · exact moves_detachRequestCase hr htype (.inr (.inr hs)) (hr.found.emmStopTimer _)

theorem moves_regProcessSrvReq (he : e.2 = .uplink buf size)
    (hhead : nasGetHeader buf size.toUInt32 = some (.serviceRequest, p)) (hs : c₀.stateName = .registered)
    (hc : Found c₀ c) (hparser : c.parser = c₀.parser) :
    Post (c.regProcessSrvReq P e.1 p buf size) (Moves P R c₀ e c) := by
  refine .ite (fun _ => .error) fun _ => .bind_of_eq fun r hr => ?_
  have hrecv : Moves P R c₀ e c { c with parser := r.handler } := ⟨fun _ => .of_step (.receive hr), Calm.changes rfl⟩
  refine .ite (fun _ => .error) fun _ => .ite (fun _ => .ok hrecv) fun _ => .ite (fun _ => .ok hrecv) fun _ => ?_
  have hksi : Moves P R c₀ e c { c with parser := r.handler, msg.ksi := (buf 1 &&& 0xE0) >>> 5 } := hrecv.trans (.of_eq rfl rfl)
  refine .ite (fun _ => .ok hksi) fun hauth => ?_
  have hisAuth : r.isAuth = true := by
    rw [Bool.or_eq_true, not_or] at hauth
    simpa using hauth.2
  have hst : c.stateName = .registered := hc.stateName.trans hs
  have hkasme : c.kasme = c₀.kasme := congrArg Frame.kasme hc.unread.frame
  refine Moves.post_trans (moves_ecmSendCtxtSUReq_none ?_ (fun ha => ⟨fun hb => ?_, ?_⟩) _)
    (hksi.trans ⟨fun _ => .of_step (.snapshot ?_), Calm.changes rfl⟩)
  · exact hst
  · exact ((ha.uplink he).bound hb).of_frame (d := c) hc.unread.frame
  · have hservice := ((ha.uplink he).accepted r (hparser ▸ hr) hisAuth).2 hs (by rw [IsServiceRequest, hhead]; rfl)
    rwa [← hkasme] at hservice
  · intro hspi
    cases hst.symm.trans hspi

end Protected

/-! ## Uplink messages -/

theorem takes_plain {buf : Mem} {size : UInt64} {p : UInt8}
    (hhead : nasGetHeader buf size.toUInt32 = some (.plainNAS, p)) :
    ((decNAS buf size).2, false) ∈ c.takes P (env, .uplink buf size) := by
  simp [takes, hhead]

theorem moves_stateProcessMsg {msg : GenericNASMsg} (hm : (msg, false) ∈ c₀.takes P e) (hc : Found c₀ c) :
    Post (c.stateProcessMsg P e.1 msg) (Moves P R c₀ e c) := by
  unfold stateProcessMsg
  rw [hc.stateName]
  split
  · exact moves_deregProcessMsg hm hc ‹_›
  · exact moves_cpiProcessMsg hm hc ‹_›
  · exact moves_regProcessMsg hm hc ‹_›
  · exact .ok .refl
  · exact .ok .refl

theorem moves_stateProcessSecMsg {s : SecurityHeaderType} {p : UInt8} {buf : Mem} {size : UInt64}
    (h : Arrives c₀ e c s p buf size) : Post (c.stateProcessSecMsg P e.1 s p buf size) (Moves P R c₀ e c) := by
  unfold stateProcessSecMsg
  rw [h.found.stateName]
  split
  · exact moves_deregProcessSecMsg h ‹_›
  · exact moves_cpiProcessSecMsg h ‹_›
  · exact moves_regProcessSecMsg h ‹_›
  · exact moves_spiProcessSecMsg h ‹_›
  · exact .ok .refl

theorem moves_stateProcessSrvReq {buf : Mem} {size : UInt64} {p : UInt8} (he : e.2 = .uplink buf size)
    (hhead : nasGetHeader buf size.toUInt32 = some (.serviceRequest, p)) (hc : Found c₀ c)
    (hparser : c.parser = c₀.parser) : Post (c.stateProcessSrvReq P e.1 p buf size) (Moves P R c₀ e c) := by
  unfold stateProcessSrvReq
  rw [hc.stateName]
  split
  · exact moves_emmSendServiceReject _
  · exact moves_regProcessSrvReq he hhead ‹_› hc hparser
  · rename_i hs
    refine moves_emmStop (.inr (.inr (.inr (.inl ⟨hs, ?_⟩)))) hc.sessions
    rw [he, EMMEvent.headerType, hhead]
    rfl
  · exact .ok .refl
  · exact .ok .refl

theorem moves_emmProcessMsg (buf : Mem) (size : UInt64) :
    Post (c.emmProcessMsg P env buf size) (Moves P R c (env, .uplink buf size) c) := by
  have hfound : Found c (c.emmStopTimer .tMobileReachable) := Found.refl.emmStopTimer _
  refine Moves.post_trans (d := c.emmStopTimer .tMobileReachable) ?_ (.emmStopTimer _)
  unfold emmProcessMsg
  split
  · exact .error
  rename_i s p hhead
  refine .ite (fun hs => ?_) fun _ => .ite (fun hs => ?_) fun _ => .ite (fun hs => ?_) fun _ => .ok .refl
  · exact moves_stateProcessMsg (e := (env, .uplink buf size)) (takes_plain (hs ▸ hhead)) hfound
  · exact moves_stateProcessSecMsg (e := (env, .uplink buf size)) ⟨rfl, hhead, hs, hfound, rfl⟩
  · exact moves_stateProcessSrvReq (e := (env, .uplink buf size)) rfl (hs ▸ hhead) hfound rfl

/-! ## Timers -/

theorem moves_ecmSend {code : EMMTimerCode} (h : e.2 = .timer code) (hsci : c₀.Admits P R e → c.sci = false)
    (pdu : List UInt8) : Post (c.ecmSend env pdu) (Moves P R c₀ e c) := by
  refine post_ecmSend fun ecm => ⟨fun ha => .of_step (.sendPlain (.inl (hsci ha))), ?_⟩
  cases hr : authRequestOf pdu with
  | none => exact (calm_log_ecmSend hr _ _).changes
  | some r =>
    have hview : (c.log (.ecmSend ecm c.sci pdu)).emmView =
        { c.emmView with challenges := r :: c.emmView.challenges } := by
      simp only [emmView, EMMCtx.log, List.filterMap_cons, Act.challenge, Act.registration, hr]
    refine .of_emm ?_ rfl
    rw [hview]
    exact .resend h

theorem moves_reachabilityTimeout {code : EMMTimerCode} (hstop : code = .tImplicitDetach → c₀.MayStop P e)
    (hs : c.sessionView.sessions = c₀.sessionView.sessions) :
    Post (c.reachabilityTimeout env code) (Moves P R c₀ e c) := by
  unfold reachabilityTimeout
  split
  · exact .ok (.trans (.emmStopTimer _) ⟨fun _ => .of_sec rfl, .emmSetTimer rfl⟩)
  · exact Moves.post_trans (moves_emmStop (c := c.emmStopTimer .tImplicitDetach) (hstop rfl) hs) (.emmStopTimer _)
  · exact .ok .refl

theorem moves_stateProcessTimeout {code : EMMTimerCode} (h : e.2 = .timer code) (hst : c.stateName = c₀.stateName)
    (hsci : c.sci = c₀.sci) (hstop : c.stateName ≠ .deregistered → code = .tImplicitDetach → c₀.MayStop P e)
    (hs : c.sessionView.sessions = c₀.sessionView.sessions) (buf : List UInt8) :
    Post (c.stateProcessTimeout P env buf code) (Moves P R c₀ e c) := by
  have hreach : c.stateName ≠ .deregistered → Post (c.reachabilityTimeout env code) (Moves P R c₀ e c) := fun hne =>
    moves_reachabilityTimeout (hstop hne) hs
  unfold stateProcessTimeout
  split
  · rename_i hcommon
    have hplain : c₀.Admits P R e → c.sci = false := fun ha => hsci.trans (ha.coherent.common (hst.symm.trans hcommon))
    refine .of_bind fun type => ?_
    split
    · refine .ite (fun _ => Quiet.post (quiet_sendSec rfl (.inr rfl) _)) fun _ => ?_
      exact .ite (fun _ => Quiet.post (quiet_sendSec rfl (.inr rfl) _)) fun _ => moves_ecmSend h hplain _
    · exact moves_ecmSend h hplain _
    · exact hreach (by rw [hcommon]; exact nofun)
  · rename_i hreg
    exact hreach (by rw [hreg]; exact nofun)
  · rename_i hspi
    refine .of_bind fun _ => ?_
    split
    · exact .ite (fun _ => Quiet.post (quiet_sendSec rfl (.inr rfl) _)) fun _ => .ok .refl
    · exact hreach (by rw [hspi]; exact nofun)
  · exact .ok .refl
  · exact .ok .refl

theorem moves_stateProcessTimeoutMax {t : EMMTimer} {code : EMMTimerCode} (ht : c.activeTimers code = some t)
    (hlast : ¬ t.rtx < emmRtx code) :
    Post (c.stateProcessTimeoutMax env t.msg code) (Moves P R c (env, .timer code) c) := by
  unfold stateProcessTimeoutMax
  split
  · rename_i hs
    refine .of_bind fun _ => ?_
    split
    · exact moves_emmStop (.inr (.inr (.inr (.inr (.inl ⟨hs, rfl, t, ht, hlast⟩))))) rfl
    · exact .of_bind fun _ => .error
    · exact .ok .refl
  · rename_i hs
    refine .bind_of_eq fun type htype => ?_
    split
    · have hstored : t.msg ∈ c.lastT3450 (env, .timer .t3450) := by simp [lastT3450, ht, hlast]
      split
      · rename_i hcomplete
        have hstop : c.MayStop P (env, .timer .t3450) :=
          .inr (.inr (.inr (.inr (.inr (.inl ⟨hs, t.msg, hstored, htype.trans (congrArg _ hcomplete)⟩)))))
        exact Moves.bind (moves_emmStop hstop rfl) fun _ _ => Quiet.post (quiet_ecmSendUEContextReleaseCommand _)
      · refine Moves.post_trans (Quiet.post (quiet_ecmSendUEContextReleaseCommand _))
          ⟨fun _ => .of_step (.register (.inr (.inr hs))), .of_emm (.register ?_) rfl⟩
        exact ⟨hs, .inr ⟨_, hstored⟩⟩
    · exact .ok .refl
  · exact .ok .refl
  · exact .ok .refl
  · exact .ok .refl

theorem moves_timerExpires (code : EMMTimerCode) :
    Post (c.timerExpires P env code) (Moves P R c (env, .timer code) c) := by
  unfold timerExpires
  split
  · exact .ok .refl
  rename_i t ht
  refine .ite (fun hrtx => ?_) fun hlast => ?_
  · -- the timer that is counted keeps its message
    have hmsg : ∀ code' u, Function.update c.activeTimers code (some ⟨t.msg, t.rtx + 1⟩) code' = some u →
        ∃ w, c.activeTimers code' = some w ∧ w.msg = u.msg := by
      intro code' u hu
      rw [Function.update_apply] at hu
      split at hu
      · rename_i hcode
        cases hu
        exact ⟨t, hcode ▸ ht, rfl⟩
      · exact ⟨u, hu, rfl⟩
    refine Moves.post_trans (moves_stateProcessTimeout (e := (env, .timer code)) rfl (by rfl) (by rfl) ?_ (by rfl) _)
      ⟨fun _ => .timers (hmsg .t3460), .of_emm (.timers fun code' msg h => .inl ?_) rfl⟩
    · rintro hne rfl
      exact .inr (.inr (.inr (.inr (.inr (.inr (.inl ⟨hne, rfl, t, ht, hrtx⟩))))))
    · obtain ⟨u, hu, rfl⟩ := Option.map_eq_some_iff.mp h
      obtain ⟨w, hw, hw'⟩ := hmsg code' u hu
      exact Option.map_eq_some_iff.mpr ⟨w, hw, hw'⟩
  · exact Moves.bind (moves_stateProcessTimeoutMax ht hlast) fun _ _ => .ok (.emmStopTimer _)

/-! ## Responses of the serving gateway -/

theorem quiet_ecmSessionSendPathSwitchReqAck (ecm : Nat) :
    Post (c.ecmSessionSendPathSwitchReqAck P env ecm) (Quiet P R c₀ e c) := by
  refine .of_bind fun s => .of_bind fun emm => ?_
  split
  · exact .error
  · refine .of_bind fun b => .ok ?_
    split
    · exact ⟨fun _ => .of_step (fun _ => .log (a := .pathSwitchReqAck _ _ _ _ _) trivial) rfl, rfl⟩
    · exact ⟨fun _ => .of_step (fun _ => .log trivial) rfl, rfl⟩

theorem quiet_sendUEContextReleaseCommand (ecm : Nat) : Post (c.sendUEContextReleaseCommand env ecm) (Quiet P R c₀ e c) :=
  post_sendUEContextReleaseCommand ⟨fun _ => .of_step (fun _ => .log trivial) rfl, rfl⟩

/-- The callback of a packet to a user, after the packet was delivered. -/
theorem moves_returned {pkt : GtpPacket} {u : S11User} (hpkt : e.2 = .s11 pkt)
    (hu : c₀.s11.users.get pkt.tei = some u) (hown : u.emm = c₀.self) (hc : SessionMoves P R c₀ e c₀ c)
    (hgone : u.state = .wDel → c.s11.users.get u.lTEID = none) :
    Post (c.runOptS11Cb P e.1 u.cb) (Moves P R c₀ e c) := by
  unfold runOptS11Cb
  split
  · exact .ok .refl
  rename_i cb hcb
  cases cb with
  | sendActivateDefault id =>
    refine .of_bind fun s => .of_bind fun b => .ite (fun _ => .error) fun _ => ?_
    refine .of_bind fun _ => .ite (fun _ => .error) fun _ => ?_
    refine moves_emmAttachAccept hpkt (congrArg EMMView.stateName hc.emm) (congrArg EMMView.imsi hc.emm) (fun ha hb => ?_) _ _
    exact ((ha.s11 hpkt).bound hb).of_frame (hc.keeps ha).frame
  | deleteEPSSession id =>
    refine .bind_of_eq fun s hs => .bind_of_eq fun b hb => ?_
    obtain ⟨rfl, -, href⟩ := session_of_eq hs
    obtain ⟨-, -, hebi⟩ := bearer_of_eq hb
    have hdrop : Moves P R c₀ e c { c with
        esm.sessions := c.esm.sessions.filter (·.id ≠ s.id)
        esm.bearers := c.esm.bearers.remove b.ebi
        esm.nextEbi := 5 } := by
      refine ⟨fun _ => .of_sec rfl, .of_session ?_ rfl⟩
      have hfilter : (c.esm.sessions.filter (·.id ≠ s.id)).map EPSSession.ref =
          (c.esm.sessions.map EPSSession.ref).filter (·.id ≠ s.id) := by
        rw [List.filter_map]
        rfl
      have hview : ({ c with
          esm.sessions := c.esm.sessions.filter (·.id ≠ s.id)
          esm.bearers := c.esm.bearers.remove b.ebi
          esm.nextEbi := 5 } : EMMCtx).sessionView = c.sessionView.dropSession s.ref b.ebi :=
        congrArg (fun sessions => { c.sessionView.dropSession s.ref b.ebi with sessions }) hfilter
      rw [hview]
      exact .drop hpkt hu hown hcb hgone href hebi
    refine .ite (fun hcb => Moves.post_trans (moves_emmDetachAccept fun ha => ?_) hdrop) fun _ => .ok hdrop
    have hframe := (hc.keeps ha).frame
    have hcb' : c.esm.cb = c₀.esm.cb := congrArg Frame.cb hframe
    have hsci : c.sci = c₀.sci := congrArg Frame.sci hframe
    have htype : c.msg.detachType = c₀.msg.detachType := congrArg Frame.detachType hframe
    show (c.sci = false ∨ R.plainSend) ∨ c.msg.detachType &&& 0x8 = 0x8
    rw [hsci, htype]
    exact (ha.s11 hpkt).accept (hcb'.symm.trans hcb)
  | sendUEContextReleaseCommand ecm => exact Quiet.post (quiet_sendUEContextReleaseCommand ecm)
  | sendPathSwitchReqAck ecm => exact Quiet.post (quiet_ecmSessionSendPathSwitchReqAck ecm)

theorem moves_setUser {k : UInt32} {u u' : S11User} (hu : (k, u) ∈ c.s11.users) (howner : u.SameOwner u')
    (hcb : u'.cb = u.cb) (hstate : u'.state = u.state ∨ u.state ≠ .wDel ∧ u'.state ≠ .wDel) :
    SessionMoves P R c₀ e c (c.setUser u') := by
  refine .of_change ?_ rfl (.of_sec rfl rfl)
  have hview : (c.setUser u').sessionView = { c.sessionView with users := c.s11.users.insert u.lTEID u' } := by
    rw [← howner.lTEID]
    rfl
  rw [hview]
  exact .touch hu howner (.inl hcb) hstate

theorem moves_setBearer {b b' : BearerContext} (hb : b ∈ c.esm.contexts) (hid : b'.id = b.id) (hebi : b'.ebi = b.ebi) :
    SessionMoves P R c₀ e c (c.setBearer b') := by
  have hmem : (b.id, b.ebi) ∈ c.sessionView.ebis := List.mem_map_of_mem hb
  refine .of_change ?_ rfl (.of_sec rfl rfl)
  rw [sessions_setBearer, hid, hebi]
  exact .writeBearer hmem

theorem moves_setSession {s s' : EPSSession} (hs : s ∈ c.esm.sessions) (href : s'.ref = s.ref) :
    SessionMoves P R c₀ e c (c.setSession s') := by
  refine .of_change ?_ rfl (.of_sec rfl rfl)
  have hid : s'.id = s.ref.id := congrArg SessionRef.id href
  have hmem : s.ref ∈ c.sessionView.sessions := List.mem_map_of_mem hs
  rw [sessions_setSession, href, hid]
  exact .write hmem

theorem ref_parseInto {set : EPSSession → List UInt8 → Outcome EPSSession} (hset : ∀ s v, Post (set s v) (·.ref = s.ref))
    (t : UInt8) (value : Mem) (s : EPSSession) (pkt : GtpPacket) :
    Post (parseInto set t value s pkt) (·.2.ref = s.ref) := by
  unfold parseInto
  split
  · exact .ok rfl
  · exact .bind (hset _ _) fun _ h => .ok h

theorem ref_setPDNAddress (s : EPSSession) (paa : List UInt8) : Post (setPDNAddress s paa) (·.ref = s.ref) :=
  Post.ite (fun _ => .error) fun _ => .ok rfl

theorem ref_setPCO (s : EPSSession) (pco : List UInt8) : Post (setPCO s pco) (·.ref = s.ref) :=
  Post.ite (fun _ => .error) fun _ => .ok rfl

theorem ebi_parseBearerCtx (b : BearerContext) (value : Mem) (len : Nat) :
    Post (parseBearerCtx env b value len) fun r => r.1.id = b.id ∧ r.1.ebi = b.ebi := by
  unfold parseBearerCtx
  dsimp only
  refine .ite (fun _ => .ok ⟨rfl, rfl⟩) fun _ => ?_
  split
  · rw [pure_bind]
    split
    · exact .ok ⟨rfl, rfl⟩
    · exact .of_bind fun _ => .ok ⟨rfl, rfl⟩
  · refine .of_bind fun _ => ?_
    rw [pure_bind]
    split
    · exact .ok ⟨rfl, rfl⟩
    · exact .of_bind fun _ => .ok ⟨rfl, rfl⟩

theorem moves_parseBearer (value : Mem) (s : EPSSession) (pkt : GtpPacket) :
    Post (c.parseBearer env value s pkt) fun r => SessionMoves P R c₀ e c r.1 := by
  unfold parseBearer
  split
  · exact .ok Quiet.refl.session
  · refine .bind_of_eq fun b hb => .bind (ebi_parseBearerCtx b _ _) fun r ⟨hid, hebi⟩ => .ok ?_
    obtain ⟨-, hmem, -⟩ := bearer_of_eq hb
    exact moves_setBearer hmem hid hebi

theorem quiet_parseRecovery (value : Mem) (u : S11User) (pkt : GtpPacket) :
    Quiet P R c₀ e c (c.parseRecovery value u pkt) := by
  unfold parseRecovery
  split
  · exact .refl
  · unfold S11Stack.checkPeerRestart
    split <;> exact .of_eq rfl rfl rfl

theorem moves_parseCtxRsp (u : S11User) (pkt : GtpPacket) :
    Post (c.parseCtxRsp env u pkt) fun r => SessionMoves P R c₀ e c r.1 := by
  refine .of_bind fun _ => .of_bind fun _ => .bind_of_eq fun s hs => ?_
  obtain ⟨-, hmem, -⟩ := session_of_eq hs
  refine .bind (ref_parseInto ref_setPDNAddress _ _ _ _) fun p hp => ?_
  refine .bind (ref_parseInto ref_setPCO _ _ _ _) fun q hq => ?_
  have hset : SessionMoves P R c₀ e c (c.setSession q.2) := moves_setSession hmem (hq.trans hp)
  refine .bind (moves_parseBearer _ _ _) fun ⟨d, value, goOn⟩ hd => .ok (hset.trans (hd.trans ?_))
  cases goOn with
  | false => exact Quiet.refl.session
  | true => exact (quiet_parseRecovery _ _ _).session

theorem moves_dispatched {u : S11User} (hu : (u.lTEID, u) ∈ c.s11.users) {pkt : GtpPacket} (hpkt : e.2 = .s11 pkt)
    {u₀ : S11User} (hu₀ : c₀.s11.users.get pkt.tei = some u₀) (hown : u₀.emm = c₀.self) (hstate : u₀.state = u.state)
    (hteid : u₀.lTEID = u.lTEID) {r : EMMCtx × Option (Option S11Cb)} (h : Dispatched env c u pkt r) :
    SessionMoves P R c₀ e c r.1 ∧ ∀ cb ∈ r.2, cb = u.cb ∧ (u.state = .wDel → r.1.s11.users.get u.lTEID = none) := by
  cases h with
  | ignored => exact ⟨Quiet.refl.session, by simp⟩
  | notified =>
    obtain ⟨trxns, loose, hack⟩ := acknowledged_eq u pkt.seq
    have hlog : ∀ (d : EMMCtx) (a : Act), a.Neutral → Calm d (d.log a) → SessionMoves P R c₀ e d (d.log a) :=
      fun d a ha hcalm => Quiet.session ⟨fun _ => .of_step (fun _ => .log ha) rfl, hcalm⟩
    refine ⟨(hlog c (.s11Send u.lTEID u.rTEID pkt.seq .downlinkDataNotificationAck) trivial rfl).trans
      (SessionMoves.trans ?_ (hlog _ .paging trivial rfl)), by simp⟩
    rw [hack]
    exact moves_setUser hu ⟨rfl, rfl, rfl, rfl⟩ rfl (.inl rfl)
  | created hs _ hp =>
    have hne : u.state ≠ .wDel := by
      rw [hs]
      decide
    have hd : SessionMoves P R c₀ e c _ := moves_parseCtxRsp u pkt _ hp
    obtain ⟨esm, peers, rTEID, -, hr⟩ := post_parseCtxRsp u pkt _ hp
    obtain ⟨rfl, rfl⟩ := Prod.mk.inj hr
    refine ⟨hd.trans (moves_setUser (u := u) hu ⟨rfl, rfl, rfl, rfl⟩ rfl (.inr ⟨hne, by rintro ⟨⟩⟩)), ?_⟩
    rintro cb ⟨⟩
    exact ⟨rfl, fun h => absurd h hne⟩
  | @answered s hs hnext =>
    have hne : u.state ≠ .wDel := by
      rw [hs]
      decide
    have hs' : s ≠ .wDel := by
      rintro rfl
      simp only [S11State.onResponse, hs] at hnext
      split_ifs at hnext <;> cases hnext
    refine ⟨moves_setUser hu ⟨rfl, rfl, rfl, rfl⟩ rfl (.inr ⟨hne, hs'⟩), ?_⟩
    rintro cb ⟨⟩
    exact ⟨rfl, fun h => absurd h hne⟩
  | deleted hs _ hunref =>
    obtain ⟨peers, rfl⟩ := unrefSession_peers hunref
    refine ⟨.of_change ?_ rfl (.of_sec rfl rfl), ?_⟩
    · rw [← hteid]
      exact .remove hpkt hu₀ hown (hstate.trans hs)
    · rintro cb ⟨⟩
      exact ⟨rfl, fun _ => Table.get_remove_self _ _⟩

/-- A packet from the serving gateway, up to the callback of its user. -/
theorem moves_s11Deliver (pkt : GtpPacket) :
    Post (c.s11Deliver env pkt) fun r => SessionMoves P R c (env, .s11 pkt) c r.1 ∧
      ∀ cb ∈ r.2, ∃ u, c.s11.users.get pkt.tei = some u ∧ u.emm = c.self ∧ cb = u.cb ∧
        (u.state = .wDel → r.1.s11.users.get u.lTEID = none) := by
  unfold s11Deliver
  split
  · exact .ok ⟨Quiet.refl.session, by simp⟩
  · rename_i u hu
    refine .ite (fun hown => ?_) fun _ => .ok ⟨Quiet.refl.session, by simp⟩
    refine .bind (post_findTrxn u pkt.seq) ?_
    rintro v ⟨loose, rfl⟩
    have hset : SessionMoves P R c (env, .s11 pkt) c (c.setUser { u with loose }) :=
      moves_setUser (Table.mem_of_get hu) ⟨rfl, rfl, rfl, rfl⟩ rfl (.inl rfl)
    refine .ite (fun _ => .ok ⟨hset, by simp⟩) fun _ => ?_
    have hmem : (u.lTEID, { u with loose }) ∈ (c.setUser { u with loose }).s11.users := List.mem_cons_self
    refine (dispatched_s11Dispatch _ _).mono fun r hr => ?_
    obtain ⟨hmoves, hcb⟩ := moves_dispatched (P := P) (R := R) (u := { u with loose }) (e := (env, .s11 pkt)) hmem rfl hu
      hown rfl rfl hr
    exact ⟨hset.trans hmoves, fun cb h => ⟨u, hu, hown, (hcb cb h).1, (hcb cb h).2⟩⟩

theorem moves_s11Accept (pkt : GtpPacket) : Post (c.s11Accept P env pkt) (Moves P R c (env, .s11 pkt) c) := by
  rw [s11Accept_eq]
  refine .bind (moves_s11Deliver (P := P) (R := R) pkt) ?_
  rintro ⟨d, cb?⟩ ⟨hd, hcb⟩
  cases cb? with
  | none => exact .ok hd.moves
  | some cb =>
    obtain ⟨u, hu, hown, rfl, hgone⟩ := hcb cb rfl
    exact Moves.post_trans (moves_returned (e := (env, .s11 pkt)) rfl hu hown hd hgone) hd.moves

/-! ## Requests of the lower layers -/

theorem moves_emmModifyERABList (list : Option (List ERABItem)) (pathSwitch : Option Nat) :
    Post (c.emmModifyERABList P env list (pathSwitch.map .sendPathSwitchReqAck)) (Moves P R c₀ e c) := by
  have hcb : ∀ id, pathSwitch.map S11Cb.sendPathSwitchReqAck ≠ some (.deleteEPSSession id) := by
    cases pathSwitch <;> exact nofun
  unfold emmModifyERABList
  split
  · cases pathSwitch with
    | none => exact .ok .refl
    | some ecm => exact Quiet.post (quiet_ecmSessionSendPathSwitchReqAck ecm)
  · refine .of_bind fun s => .bind_of_eq fun b hb => ?_
    obtain ⟨-, hmem, -⟩ := bearer_of_eq hb
    split
    · exact .error
    · exact .error
    · refine .ite (fun _ => .ok .refl) fun _ => ?_
      exact Moves.post_trans (moves_run (show S11Op.modBearer ≠ .detach by decide) _ hcb) (moves_setBearer hmem (by rfl) (by rfl)).moves

theorem moves_emmUEContextReleaseReq (ecm : Nat) :
    Post (c.emmUEContextReleaseReq P env (.sendUEContextReleaseCommand ecm)) (Moves P R c₀ e c) := by
  have hset : Moves P R c₀ e c { c with s1BearersActive := false } := .of_eq rfl rfl
  unfold emmUEContextReleaseReq
  dsimp only
  split
  · exact Moves.post_trans (Quiet.post (quiet_sendUEContextReleaseCommand ecm)) hset
  · exact .of_bind fun s => Moves.post_trans (moves_run (show S11Op.releaseAccess ≠ .detach by decide) _ fun id => nofun) hset

theorem moves_emmRegisterECM (ecm : Nat) :
    Post (c.emmRegisterECM env ecm) (Moves P R c (env, .registerECM ecm) c) := by
  refine .bind (quiet_ecmSendUEContextReleaseCommand _) fun d hd => .ok (hd.moves.trans ⟨fun ha => ?_, ?_⟩)
  · exact .of_step (.bind ha.allowed)
  · exact .of_emm (.bind (.inl ⟨ecm, rfl⟩)) rfl

theorem moves_emmDeregister : Moves P R c (env, .deregister) c c.emmDeregister := by
  have hbind : ∀ d : EMMCtx, Moves P R c (env, .deregister) d { d with ecm := none, hop := .zero } := fun d =>
    ⟨fun ha => .of_step (.bind ha.allowed), .of_emm (.bind (.inr rfl)) rfl⟩
  unfold emmDeregister
  split
  · exact .trans (c := c.emmSetTimer .tMobileReachable []) ⟨fun _ => .of_sec rfl, .emmSetTimer (by rfl)⟩
      (hbind (c.emmSetTimer .tMobileReachable []))
  · exact hbind c

/-! ## Every event -/

theorem moves_step (c : EMMCtx) (e : Env × EMMEvent) : Post (c.step P e) (Moves P R c e c) := by
  obtain ⟨env, ev⟩ := e
  cases ev with
  | uplink buf size => exact moves_emmProcessMsg buf size
  | timer code => exact moves_timerExpires code
  | s11 pkt => exact moves_s11Accept pkt
  | registerECM ecm => exact moves_emmRegisterECM ecm
  | deregister => exact .ok moves_emmDeregister
  | stop => exact moves_emmStop (.inr (.inr (.inr (.inr (.inr (.inr (.inr rfl))))))) rfl
  | modifyERABList list pathSwitch => exact moves_emmModifyERABList list pathSwitch
  | ueContextReleaseReq ecm => exact moves_emmUEContextReleaseReq ecm
  | s11Stack s => exact .ok ⟨fun _ => .of_sec rfl, .of_session (.stack rfl) rfl⟩

theorem reach_step (hc : c.sec.Coherent) (h : c.Allowed P R e) : Post (c.step P e) (Reach P R c) :=
  (moves_step c e).mono fun _ hd => hd.reach ⟨hc, h⟩

theorem changes_step (c : EMMCtx) (e : Env × EMMEvent) : Post (c.step P e) (Changes P c e c) :=
  (moves_step (R := .any) c e).mono fun _ => Moves.changes

end EMMCtx

end AaltoMME
