import AaltoMME.EMM.Abort
import AaltoMME.NAS.Decoding

/-!
# The uplink messages that abort the MME

For a context that a run from `emm_init` reaches, the uplink PDUs on which `emm_processMsg` ends in a
`g_error` or a failed `g_assert` are exactly those with an `AbortCause`.  Most of them need no keys: a
sequence number in the window is enough for a PDU that does not decode, because the handlers decode a
message before they look at the result of its authentication.
-/

namespace AaltoMME

open Base NAS

variable {P : Prims} {env : Env} {c d : EMMCtx} {s : SecurityHeaderType} {p : UInt8} {buf : Mem}
  {size : UInt64}

/-! ## Receiving a protected message -/

namespace NAS

/-- Decoding depends on the handler only through its validity and its ciphering algorithm. -/
theorem decSecNAS_congr {h h' : NASHandler} (hv : h'.isValid = h.isValid) (he : h'.e = h.e) (buf : Mem)
    (size : UInt64) : decSecNAS h' buf size = decSecNAS h buf size := by
  unfold decSecNAS
  rw [hv, he]

/-- With a valid EIA2 handler, a PDU in the window is processed, authenticated or not. -/
theorem nasAuthenticateMsg_of_window {h : NASHandler} {size : UInt32} (hv : h.isValid = true)
    (hi : h.i = .eia2) (hhead : nasGetHeader buf size = some (s, p)) (hs : s.isProtected = true)
    (hw : nasCheckCOUNT (h.nasCount .upLink) (buf 5) = true) :
    ∃ r, nasAuthenticateMsg P h buf size .upLink = .ok r ∧ r.ret = 1 ∧ r.handler.isValid = h.isValid ∧
      r.handler.e = h.e := by
  obtain ⟨mac, hmac⟩ := eia2_eq_ok (P := P) h.ikey (octets32 (h.rcvCOUNT .upLink (buf 5))) 0
    NASDirection.upLink.octet (buf.shift 5) ((size - 5) * 8).toNat
  simp only [nasAuthenticateMsg, hv, hhead, hs, authenticateProtected, hw, hi, eiaCb, hmac,
    Bool.not_true, Bool.false_eq_true, if_false, if_true, ok_bind]
  split
  · exact ⟨_, rfl, rfl, hv, rfl⟩
  · exact ⟨_, rfl, rfl, hv, rfl⟩

theorem nasAuthenticateMsg_of_not_window {h : NASHandler} {size : UInt32} (hv : h.isValid = true)
    (hhead : nasGetHeader buf size = some (s, p)) (hs : s.isProtected = true)
    (hw : nasCheckCOUNT (h.nasCount .upLink) (buf 5) = false) :
    nasAuthenticateMsg P h buf size .upLink = .ok ⟨2, false, h⟩ := by
  simp [nasAuthenticateMsg, hv, hhead, hs, authenticateProtected, hw]

/-- With a valid handler, a Service Request is never reported as malformed. -/
theorem nasAuthenticateMsg_serviceRequest {h : NASHandler} {size : UInt32} (hv : h.isValid = true)
    (hhead : nasGetHeader buf size = some (.serviceRequest, p)) :
    Post (nasAuthenticateMsg P h buf size .upLink) fun r => r.ret ≠ 0 := by
  have hnp : SecurityHeaderType.serviceRequest.isProtected = false := rfl
  simp only [nasAuthenticateMsg, hv, hhead, hnp, Bool.not_true, Bool.false_eq_true, if_false, if_true]
  refine .ite (fun _ => .ok two_ne_zero) fun _ => .of_bind fun _ => ?_
  exact .ite (fun _ => .ok one_ne_zero) fun _ => .ok one_ne_zero

end NAS

namespace EMMCtx

/-- The sequence number is in the window, and `dec_secNAS` reports an error. -/
def Undecipherable (c : EMMCtx) (buf : Mem) (size : UInt64) : Prop :=
  nasCheckCOUNT (c.parser.nasCount .upLink) (buf 5) = true ∧
    ∃ msg, decSecNAS c.parser buf size = .ok (false, msg)

/-- What the proofs need of a context with a NAS handler in use. -/
structure Keyed (c : EMMCtx) : Prop where
  isValid : c.parser.isValid = true
  eia2 : c.parser.i = .eia2

theorem noAbort_receiveSecMsg_iff (hk : c.Keyed)
    (hhead : nasGetHeader buf size.toUInt32 = some (s, p)) (hs : s.isProtected = true) :
    NoAbort (c.receiveSecMsg P true buf size) ↔ ¬ c.Undecipherable buf size := by
  unfold Undecipherable receiveSecMsg
  cases hw : nasCheckCOUNT (c.parser.nasCount .upLink) (buf 5) with
  | false =>
    rw [nasAuthenticateMsg_of_not_window hk.isValid hhead hs hw]
    simp
  | true =>
    obtain ⟨r, hr, hret, hval, he⟩ := nasAuthenticateMsg_of_window hk.isValid hk.eia2 hhead hs hw
    rw [hr]
    have hne : ¬ (1 = 2) := by decide
    simp only [if_true, ok_bind, hret, Nat.one_ne_zero, hne, if_false, decSecNAS_congr hval he]
    have hdec := noAbort_decSecNAS c.parser buf size
    generalize decSecNAS c.parser buf size = x at hdec ⊢
    rcases x with e | ⟨_ | _, msg⟩
    · refine iff_of_true (avoids_error.mpr (avoids_error.mp hdec)) (by simp)
    · simp
    · refine iff_of_true ?_ (by simp)
      exact .ite (fun _ => .ok) fun _ => .ok

theorem noAbort_receiveSecMsg_false : NoAbort (c.receiveSecMsg P false buf size) := by
  unfold receiveSecMsg
  simp only [Bool.false_eq_true, if_false]
  exact .ite (fun _ => .ok) fun _ => .ok

/-! ## Attach Requests -/

/-- The ESM message container of an Attach Request. -/
def esmContainer (msg : GenericNASMsg) : List UInt8 := msg.read 519 (msg.read16 517)

/-- The Attach Request is read without overrunning anything and is of a type that goes on. -/
structure AttachReadable (msg : GenericNASMsg) : Prop where
  mobileId : mobileIdType (msg.shift 6) = 1 → msg 5 ≠ 0
  ueCapabilities : (msg 261).toNat ≤ 15
  msNetCap : ∀ o ∈ nasNASOptLookup msg attachRequestOptionals 17 0x31, (msg (o + 1)).toNat ≤ 10
  attachType : msg 3 &&& 0x0F ≠ 4 ∧ msg 3 &&& 0x0F ≠ 7

theorem copyInto_eq_ok {n : Nat} {dst v l : List UInt8} :
    copyInto n dst v = .ok l ↔ v.length ≤ n ∧ l = v ++ dst.drop v.length := by
  unfold copyInto
  split
  · simp
    omega
  · simp [eq_comm]
    omega

theorem attachMobileId_isOk {msg : GenericNASMsg} :
    (∃ d, c.attachMobileId msg = .ok d) ↔ (mobileIdType (msg.shift 6) = 1 → msg 5 ≠ 0) := by
  unfold attachMobileId imsiOfMobileId
  dsimp only
  split
  · split
    · simp_all
    · simp_all
  · rename_i hid
    split <;> simp [hid]

theorem post_attachMobileId (msg : GenericNASMsg) : Post (c.attachMobileId msg) fun d =>
    d.pendingESMmsg = c.pendingESMmsg ∧ d.msg.attachType = c.msg.attachType :=
  Post.ite (fun _ => .of_bind fun _ => .ok ⟨rfl, rfl⟩) fun _ =>
    Post.ite (fun _ => .ok ⟨rfl, rfl⟩) fun _ => .ok ⟨rfl, rfl⟩

theorem setMsNetCap_isOk {msg : GenericNASMsg} {optionals maxOpts : Nat} :
    (∃ d, c.setMsNetCap msg optionals maxOpts = .ok d) ↔
      ∀ o ∈ nasNASOptLookup msg optionals maxOpts 0x31, (msg (o + 1)).toNat ≤ 10 := by
  unfold setMsNetCap
  split
  · simp [*]
  · rename_i o ho
    simp [ho, bind_eq_ok, copyInto_eq_ok, tlvValue]

theorem post_setMsNetCap (msg : GenericNASMsg) (optionals maxOpts : Nat) :
    Post (c.setMsNetCap msg optionals maxOpts) fun d =>
      d.pendingESMmsg = c.pendingESMmsg ∧ d.msg = c.msg := by
  unfold setMsNetCap
  split
  · exact .ok ⟨rfl, rfl⟩
  · exact .of_bind fun _ => .ok ⟨rfl, rfl⟩

theorem attachCapabilities_isOk {msg : GenericNASMsg} :
    (∃ d, c.attachCapabilities msg = .ok d) ↔ (msg 261).toNat ≤ 15 ∧
      ∀ o ∈ nasNASOptLookup msg attachRequestOptionals 17 0x31, (msg (o + 1)).toNat ≤ 10 := by
  simp only [attachCapabilities, setUECapabilities, bind_eq_ok, copyInto_eq_ok, Mem.length_read]
  constructor
  · rintro ⟨d, e, ⟨cap, ⟨hlen, -⟩, -⟩, f, hf, -⟩
    exact ⟨hlen, setMsNetCap_isOk.mp ⟨f, hf⟩⟩
  · rintro ⟨hlen, hopt⟩
    obtain ⟨f, hf⟩ := setMsNetCap_isOk.mpr hopt
    exact ⟨_, _, ⟨_, ⟨hlen, rfl⟩, rfl⟩, f, hf, rfl⟩

theorem post_attachCapabilities (msg : GenericNASMsg) : Post (c.attachCapabilities msg) fun d =>
    d.pendingESMmsg = c.pendingESMmsg ∧ d.msg.attachType = c.msg.attachType := by
  refine .bind (Q := fun d => d.pendingESMmsg = c.pendingESMmsg ∧ d.msg = c.msg) ?_ fun d hd => ?_
  · exact .of_bind fun _ => .ok ⟨rfl, rfl⟩
  refine .bind (post_setMsNetCap _ _ _) fun e he => .ok ?_
  have hpend : e.pendingESMmsg = c.pendingESMmsg := he.1.trans hd.1
  have htype : e.msg.attachType = c.msg.attachType :=
    congrArg MsgHelpers.attachType (he.2.trans hd.2)
  unfold setAdditionalUpdateType
  split <;> exact ⟨hpend, htype⟩

theorem processAttach_isOk {msg : GenericNASMsg} :
    (∃ d, c.processAttach msg = .ok d) ↔ (mobileIdType (msg.shift 6) = 1 → msg 5 ≠ 0) ∧
      (msg 261).toNat ≤ 15 ∧
      ∀ o ∈ nasNASOptLookup msg attachRequestOptionals 17 0x31, (msg (o + 1)).toNat ≤ 10 := by
  simp only [processAttach, bind_eq_ok]
  constructor
  · rintro ⟨d, e, he, hd⟩
    exact ⟨attachMobileId_isOk.mp ⟨e, he⟩, attachCapabilities_isOk.mp ⟨d, hd⟩⟩
  · rintro ⟨hid, hcap⟩
    obtain ⟨e, he⟩ := attachMobileId_isOk.mpr hid
    obtain ⟨d, hd⟩ := attachCapabilities_isOk.mpr hcap
    exact ⟨d, e, he, hd⟩

/-- What `processAttach` does with the containers and the attach type. -/
theorem post_processAttach (msg : GenericNASMsg) : Post (c.processAttach msg) fun d =>
    d.pendingESMmsg = c.pendingESMmsg ++ [esmContainer msg] ∧ d.msg.attachType = msg 3 &&& 0x0F := by
  refine .bind (post_attachMobileId msg) fun d hd => ?_
  exact (post_attachCapabilities msg).mono fun e he => ⟨he.1.trans hd.1, he.2.trans hd.2⟩

/-- The front of the handlers of an Attach Request aborts if what comes after it does, where it is
reached. -/
theorem noAbort_attachFront_iff {msg : GenericNASMsg} {k : EMMCtx → Outcome EMMCtx} :
    NoAbort (do
      let c ← c.getTAI env
      let c ← c.processAttach msg
      match c.emmSelectAttachType with
      | none => pure c
      | some c => k c) ↔
    ∀ d e f, c.getTAI env = .ok d → d.processAttach msg = .ok e → e.emmSelectAttachType = some f →
      NoAbort (k f) := by
  simp only [avoids_bind, noAbort_getTAI, noAbort_processAttach, true_and]
  constructor
  · intro h d e f hd he hf
    simpa [hf] using h d hd e he
  · intro h d hd e he
    cases hf : e.emmSelectAttachType with
    | none => exact .ok
    | some f => exact h d e f hd he hf

theorem emmSelectAttachType_isSome :
    (∃ f, c.emmSelectAttachType = some f) ↔ c.msg.attachType ≠ 4 ∧ c.msg.attachType ≠ 7 := by
  unfold emmSelectAttachType
  split
  · simp [*]
  · split
    · simp_all
      tauto
    · simp_all

theorem emmSelectAttachType_pendingESMmsg (h : c.emmSelectAttachType = some d) :
    d.pendingESMmsg = c.pendingESMmsg := by
  unfold emmSelectAttachType at h
  split at h
  · cases h
    rfl
  · split at h
    · cases h
    · cases h
      rfl

/-- The Attach Request is readable, and the first ESM message that is pending after it, which is that
of an earlier attach if there is one, does not carry the discriminator of ESM. -/
def AttachAborts (env : Env) (c : EMMCtx) (msg : GenericNASMsg) : Prop :=
  (∃ e, c.derefEcm env = .ok e) ∧ AttachReadable msg ∧
    ∃ raw ∈ (c.pendingESMmsg ++ [esmContainer msg]).head?, ¬ ContainsESM env raw

theorem noAbort_attachRequestCase_iff (hsend : env.sendto = true) {msg : GenericNASMsg} {isAuth : Bool} :
    NoAbort (c.attachRequestCase P env msg isAuth) ↔ ¬ (isAuth = true ∧ c.AttachAborts env msg) := by
  refine noAbort_attachFront_iff.trans ?_
  cases isAuth with
  | false =>
    refine iff_of_true (fun d e f _ _ _ => ?_) (by simp)
    exact noAbort_emmTriggerAKAprocedure hsend
  | true =>
    simp only [Bool.not_true, Bool.false_eq_true, if_false, true_and,
      noAbort_emmProcessFirstESMmsg_iff hsend]
    constructor
    · rintro h ⟨⟨e, he⟩, ⟨hid, hcap, hopt, htype⟩, raw, hraw, hbad⟩
      obtain ⟨e', he'⟩ := processAttach_isOk (c := { c with sn := e.sn, tac := e.tAC }).mpr
        ⟨hid, hcap, hopt⟩
      obtain ⟨hpend, hatt⟩ := post_processAttach msg e' he'
      obtain ⟨f, hf⟩ := emmSelectAttachType_isSome.mpr (hatt ▸ htype)
      refine hbad (h _ e' f ?_ he' hf raw ?_)
      · simp [getTAI, he]
      · have hfpend : f.pendingESMmsg = c.pendingESMmsg ++ [esmContainer msg] :=
          (emmSelectAttachType_pendingESMmsg hf).trans hpend
        rw [← hfpend] at hraw
        exact hraw
    · intro h d e f hd he hf raw hraw
      obtain ⟨x, hx, hd⟩ := bind_eq_ok.mp hd
      cases hd
      obtain ⟨hpend, hatt⟩ := post_processAttach msg e he
      obtain ⟨hid, hcap, hopt⟩ := processAttach_isOk.mp ⟨e, he⟩
      by_contra hbad
      refine h ⟨⟨x, hx⟩, ⟨hid, hcap, hopt, hatt ▸ emmSelectAttachType_isSome.mp ⟨f, hf⟩⟩, raw, ?_, hbad⟩
      have hfpend : f.pendingESMmsg = c.pendingESMmsg ++ [esmContainer msg] :=
        (emmSelectAttachType_pendingESMmsg hf).trans hpend
      rw [← hfpend]
      exact hraw

/-! ## EMM_Deregistered -/

theorem isAuth_iff_authenticates {msg : GenericNASMsg} {isAuth : Bool}
    (h : c.receiveSecMsg P true buf size = .ok (d, some (msg, isAuth))) :
    isAuth = true ↔ c.Authenticates P buf size := by
  obtain ⟨r, hr, -, -, hra, -⟩ := receiveSecMsg_eq_some h
  constructor
  · intro ha
    exact ⟨r, hr, hra.trans ha⟩
  · rintro ⟨r', hr', ha⟩
    rw [hr] at hr'
    cases hr'
    exact hra.symm.trans ha

theorem mem_receivedMsg_iff {msg : GenericNASMsg} : msg ∈ c.receivedMsg P buf size ↔
    ∃ d isAuth, c.receiveSecMsg P true buf size = .ok (d, some (msg, isAuth)) := by
  constructor
  · unfold receivedMsg
    split
    · rename_i d msg' isAuth heq
      intro h
      cases h
      exact ⟨d, isAuth, heq⟩
    · nofun
  · rintro ⟨d, isAuth, h⟩
    exact mem_receivedMsg h

/-- The front of the protected handlers aborts on what does not decode, and otherwise where the switch
does; `E` says when. -/
theorem noAbort_received_iff (hk : c.Keyed) (hhead : nasGetHeader buf size.toUInt32 = some (s, p))
    (hs : s.isProtected = true) {k : EMMCtx × Option (GenericNASMsg × Bool) → Outcome EMMCtx}
    (hnone : ∀ d, NoAbort (k (d, none))) {E : GenericNASMsg → Prop}
    (hmsg : ∀ d msg isAuth, c.receiveSecMsg P true buf size = .ok (d, some (msg, isAuth)) →
      (NoAbort (k (d, some (msg, isAuth))) ↔ ¬ E msg)) :
    NoAbort (c.receiveSecMsg P true buf size >>= k) ↔
      ¬ (c.Undecipherable buf size ∨ ∃ msg ∈ c.receivedMsg P buf size, E msg) := by
  rw [not_or]
  refine avoids_bind.trans (and_congr (noAbort_receiveSecMsg_iff hk hhead hs) ⟨?_, ?_⟩)
  · rintro h ⟨msg, hmem, hE⟩
    obtain ⟨d, isAuth, hd⟩ := mem_receivedMsg_iff.mp hmem
    exact (hmsg d msg isAuth hd).mp (h _ hd) hE
  · rintro h ⟨d, _ | ⟨msg, isAuth⟩⟩ hd
    · exact hnone d
    · exact (hmsg d msg isAuth hd).mpr fun hE => h ⟨msg, mem_receivedMsg hd, hE⟩

theorem noAbort_deregProcessMsg (hsend : env.sendto = true) (msg : GenericNASMsg) :
    NoAbort (c.deregProcessMsg P env msg) := by
  refine .ite (fun _ => .ok) fun _ => .ite (fun _ => ?_) fun _ => ?_
  · exact noAbort_attachFront_iff.mpr fun _ _ _ _ _ _ => noAbort_emmTriggerAKAprocedure hsend
  · exact .ite (fun _ => noAbort_emmSendTAUReject _) fun _ => .ok

theorem noAbort_deregProcessSecMsg_iff (hsend : env.sendto = true) (hk : c.sci = true → c.Keyed)
    (hhead : nasGetHeader buf size.toUInt32 = some (s, p)) (hs : s.isProtected = true) :
    NoAbort (c.deregProcessSecMsg P env buf size) ↔
      ¬ (c.sci = true ∧ (∃ e, c.derefEcm env = .ok e) ∧ (c.Undecipherable buf size ∨
        ∃ msg ∈ c.receivedMsg P buf size, msg.emmMessageType = attachRequest ∧
          c.Authenticates P buf size ∧ c.AttachAborts env msg)) := by
  have hswitch : ∀ (d : EMMCtx) (msg : GenericNASMsg) (isAuth : Bool),
      NoAbort (if msg.emmMessageType = attachRequest then d.attachRequestCase P env msg isAuth
        else if msg.emmMessageType = trackingAreaUpdateRequest then d.emmSendTAUReject P env 0x0A
        else if msg.emmMessageType = detachRequest then d.detachRequestCase env msg
        else pure d) ↔ ¬ (msg.emmMessageType = attachRequest ∧ isAuth = true ∧ d.AttachAborts env msg) := by
    intro d msg isAuth
    by_cases htype : msg.emmMessageType = attachRequest
    · rw [if_pos htype, noAbort_attachRequestCase_iff hsend, and_iff_right htype]
    · rw [if_neg htype]
      refine iff_of_true (.ite (fun _ => noAbort_emmSendTAUReject _) fun _ => ?_) fun h => htype h.1
      exact .ite (fun _ => noAbort_detachRequestCase hsend msg) fun _ => .ok
  refine avoids_bind.trans ?_
  cases hsci : c.sci with
  | false =>
    refine iff_of_true ⟨avoids_deref, fun e _ => avoids_bind.mpr ⟨noAbort_receiveSecMsg_false, ?_⟩⟩ (by simp)
    rintro ⟨d, _ | ⟨msg, isAuth⟩⟩ hd
    · exact .ok
    · obtain ⟨-, -, hm⟩ | ⟨hb, -⟩ := receiveSecMsg_eq_ok hd
      · exact (hswitch d msg isAuth).mpr fun h => absurd (hm _ rfl).1 (by simp [h.2.1])
      · cases hb
  | true =>
    have hderef : NoAbort (c.derefEcm env) := avoids_deref
    rw [and_iff_right hderef, and_iff_right rfl, not_and, forall_exists_index]
    refine forall₂_congr fun e he => noAbort_received_iff (hk hsci) hhead hs (by exact fun _ => .ok) fun d msg isAuth hd => ?_
    refine (hswitch d msg isAuth).trans ?_
    rw [isAuth_iff_authenticates hd]
    obtain ⟨r, -, -, -, -, rfl, -⟩ := receiveSecMsg_eq_some hd
    rfl

/-! ## EMM_CommonProcedureInitiated -/

theorem noAbort_commonProcedureCases (hsend : env.sendto = true) (hsync : env.hssSync ≠ .noResult)
    {msg : GenericNASMsg} {rest : Outcome EMMCtx} (hrest : NoAbort rest) :
    NoAbort (c.commonProcedureCases P env msg rest) := by
  refine .ite (fun _ => ?_) fun _ => .ite (fun _ => ?_) fun _ => .ite (fun _ => ?_) fun _ =>
    Avoids.ite (fun _ => .ok) fun _ => hrest
  · refine .bind ?_ fun _ => noAbort_s6aGetAuthInformation hsend
    unfold processIdentityRsp
    dsimp only
    split
    · exact (noAbort_imsiOfMobileId _ _).bind fun _ => Avoids.ok.bind fun _ => avoids_emmCtxNewGUTI
    · exact avoids_emmCtxNewGUTI
  · refine .ite (fun _ => .ok) fun _ => noAbort_firstAuthQuadruplet.bind fun _ =>
      Avoids.ite (fun _ => ?_) fun _ => noAbort_emmSendSecurityModeCommand
    exact (avoids_ecmSend _).bind fun _ => .ok
  · exact .ite (fun _ => noAbort_s6aSynchAuthVector hsend hsync) fun _ => noAbort_emmStop hsend

theorem commonProcedureCases_of_securityModeComplete {msg : GenericNASMsg} {rest : Outcome EMMCtx}
    (h : msg.emmMessageType = securityModeComplete) :
    c.commonProcedureCases P env msg rest = rest := by
  have hid : ¬ securityModeComplete = identityResponse := by decide
  have hrsp : ¬ securityModeComplete = authenticationResponse := by decide
  have hfail : ¬ securityModeComplete = authenticationFailure := by decide
  have hrej : ¬ securityModeComplete = securityModeReject := by decide
  simp only [commonProcedureCases, h, hid, hrsp, hfail, hrej, if_false]

/-- The plain handler asserts that its message has no security header, which `emm_processMsg` has
checked. -/
theorem noAbort_cpiProcessMsg (hsend : env.sendto = true) (hsync : env.hssSync ≠ .noResult)
    (hhead : nasGetHeader buf size.toUInt32 = some (.plainNAS, p)) :
    NoAbort (c.cpiProcessMsg P env (decNAS buf size).2) := by
  have hplain : (decNAS buf size).2.securityHeaderType = 0 := by
    unfold GenericNASMsg.securityHeaderType
    rw [(decNAS_header hhead).2]
    rfl
  unfold cpiProcessMsg
  rw [if_neg (not_not.mpr hplain)]
  exact noAbort_commonProcedureCases hsend hsync Avoids.ok

/-- What aborts in EMM_CommonProcedureInitiated: the header type of a Security Mode Complete makes the
handler authenticate before there are keys, or the ESM message of the attach is not one. -/
def CommonAborts (P : Prims) (env : Env) (c : EMMCtx) (s : SecurityHeaderType) (buf : Mem)
    (size : UInt64) : Prop :=
  s = .integrityProtectedAndCipheredWithNewEPSSecurityContext ∧
    (c.parser.isValid = false ∨ c.Undecipherable buf size ∨
      c.IsSecurityModeComplete P buf size ∧ env.hssLocation ≠ .noRow ∧
        ∃ raw ∈ c.pendingESMmsg.head?, ¬ ContainsESM env raw)

theorem noAbort_securityModeCompleteCase_iff (hsend : env.sendto = true) {isAuth : Bool} :
    NoAbort (c.securityModeCompleteCase P env isAuth) ↔
      (env.hssLocation ≠ .noRow → ∀ raw ∈ c.pendingESMmsg.head?, ContainsESM env raw) :=
  noAbort_s6aUpdateLocation_iff hsend

theorem noAbort_cpiProcessSecMsg_iff (hsend : env.sendto = true) (hsync : env.hssSync ≠ .noResult)
    (hsci : c.sci = false) (hk : c.parser.isValid = true → c.Keyed)
    (hhead : nasGetHeader buf size.toUInt32 = some (s, p)) (hs : s.isProtected = true) :
    NoAbort (c.cpiProcessSecMsg P env s buf size) ↔ ¬ c.CommonAborts P env s buf size := by
  have hswitch : ∀ (d : EMMCtx) (msg : GenericNASMsg) (isAuth : Bool),
      NoAbort (d.commonProcedureCases P env msg <|
        if msg.emmMessageType = securityModeComplete then d.securityModeCompleteCase P env isAuth
        else if !d.s1BearersActive || !d.attachStarted then
          d.ecmSendUEContextReleaseCommand env .normalRelease
        else pure d) ↔ ¬ (msg.emmMessageType = securityModeComplete ∧ env.hssLocation ≠ .noRow ∧
          ∃ raw ∈ d.pendingESMmsg.head?, ¬ ContainsESM env raw) := by
    intro d msg isAuth
    by_cases htype : msg.emmMessageType = securityModeComplete
    · rw [commonProcedureCases_of_securityModeComplete htype, if_pos htype, noAbort_securityModeCompleteCase_iff hsend]
      simp [htype]
    · refine iff_of_true (noAbort_commonProcedureCases hsend hsync ?_) fun h => htype h.1
      rw [if_neg htype]
      exact .ite (fun _ => noAbort_ecmSendUEContextReleaseCommand _) fun _ => .ok
  unfold cpiProcessSecMsg
  rw [hsci, Bool.false_or]
  by_cases h4 : s = .integrityProtectedAndCipheredWithNewEPSSecurityContext
  case neg =>
    refine iff_of_true (avoids_bind.mpr ⟨?_, ?_⟩) fun h => h4 h.1
    · rw [beq_eq_false_iff_ne.mpr h4]
      exact noAbort_receiveSecMsg_false
    · rintro ⟨d, _ | ⟨msg, isAuth⟩⟩ hd
      · exact .ok
      · -- a Security Mode Complete is not read without being authenticated
        refine (hswitch d msg isAuth).mpr fun ⟨htype, _⟩ => ?_
        obtain ⟨-, -, hm⟩ | ⟨hb, -⟩ := receiveSecMsg_eq_ok hd
        · have hreq : nasIsAuthRequired msg.emmMessageType = false := (hm _ rfl).2
          rw [htype] at hreq
          cases hreq
        · exact absurd hb (by simpa using h4)
  case pos =>
    rw [beq_iff_eq.mpr h4]
    cases hv : c.parser.isValid with
    | false =>
      refine iff_of_false (fun h => ?_) fun h => h ⟨h4, .inl hv⟩
      have hfront := (avoids_bind.mp h).1
      simp [receiveSecMsg, nasAuthenticateMsg, hv] at hfront
    | true =>
      refine (noAbort_received_iff (P := P) (E := fun msg => msg.emmMessageType = securityModeComplete ∧
        env.hssLocation ≠ .noRow ∧ ∃ raw ∈ c.pendingESMmsg.head?, ¬ ContainsESM env raw) (hk hv) hhead hs
        (by exact fun _ => .ok) fun d msg isAuth hd => ?_).trans (not_congr ?_)
      · obtain ⟨r, -, -, -, -, rfl, -⟩ := receiveSecMsg_eq_some hd
        exact hswitch _ msg isAuth
      · simp [CommonAborts, h4, hv, IsSecurityModeComplete, hhead, ← and_assoc, exists_and_right]

/-! ## The states with a security context -/

/-- Deleting the sessions looks neither at the NAS handler nor at the timers. -/
theorem s11Detach_frame (h : NASHandler) (t : EMMTimerCode → Option EMMTimer) (q : Option Nat)
    (cb : Option S11Cb) : { c with parser := h, activeTimers := t }.s11Detach env q cb =
      (c.s11Detach env q cb).map ({ · with parser := h, activeTimers := t }) := by
  unfold s11Detach s11Operation sendDeleteSessionReq s11Request s11Send
  cases c.s11.user q with
  | error => rfl
  | ok u =>
    simp only [ok_bind]
    split
    · cases c.s11.newTrxn _ with
      | error => rfl
      | ok t =>
        split <;> rfl
    · rfl

theorem esmErrorEMM_frame (h : NASHandler) (t : EMMTimerCode → Option EMMTimer) :
    { c with parser := h, activeTimers := t }.esmErrorEMM env =
      (c.esmErrorEMM env).map ({ · with parser := h, activeTimers := t }) := by
  unfold esmErrorEMM
  have hfold := foldlM_map (g := fun d : EMMCtx => { d with parser := h, activeTimers := t })
    (f := fun d id => (do
      let s ← d.session id
      d.s11Detach env s.s11 none : Outcome EMMCtx)) ?_ (c.esmGetSessions env) c
  · refine (congrArg (· >>= _) hfold).trans ?_
    generalize (List.foldlM _ _ _ : Outcome EMMCtx) = x
    cases x <;> rfl
  · intro d id
    have hs : { d with parser := h, activeTimers := t }.session id = d.session id := rfl
    rw [hs]
    cases d.session id with
    | error => rfl
    | ok s => exact s11Detach_frame h t s.s11 none

theorem esmErrorEMM_isOk_frame (h : NASHandler) (t : EMMTimerCode → Option EMMTimer) :
    (∃ e, { c with parser := h, activeTimers := t }.esmErrorEMM env = .ok e) ↔
      ∃ e, c.esmErrorEMM env = .ok e := by
  rw [esmErrorEMM_frame]
  cases c.esmErrorEMM env <;> simp [Except.map]

/-- The handlers of the states with a security context, without the intermediate case. -/
theorem protectedMsg_of_sci (hsci : c.sci = true)
    {emm : EMMCtx → GenericNASMsg → Bool → Outcome EMMCtx} :
    c.protectedMsg P env p buf size emm = c.receiveSecMsg P true buf size >>= fun x =>
      match x.2 with
      | none => .ok x.1
      | some (msg, isAuth) =>
        if p = epsSessionManagementMessages ||
          msg.protocolDiscriminator = epsSessionManagementMessages
        then x.1.esmProcessMsg P env msg else emm x.1 msg isAuth := by
  unfold protectedMsg secMsgCase
  simp only [hsci, Bool.not_true, Bool.false_eq_true, if_false]
  rcases c.receiveSecMsg P true buf size with e | ⟨d, _ | ⟨msg, isAuth⟩⟩
  · rfl
  · rfl
  · simp only [ok_bind]
    split <;> rfl

/-- What a protected message aborts in the states with a security context; `E` says when the switch on
the type does. -/
def ProtectedAborts (P : Prims) (c : EMMCtx) (p : UInt8) (buf : Mem) (size : UInt64)
    (E : GenericNASMsg → Prop) : Prop :=
  c.sci = false ∨ c.Undecipherable buf size ∨ ∃ msg ∈ c.receivedMsg P buf size,
    msg.protocolDiscriminator ≠ epsSessionManagementMessages ∧ (p = epsSessionManagementMessages ∨ E msg)

theorem noAbort_protectedMsg_iff (hsend : env.sendto = true) (hk : c.sci = true → c.Keyed)
    (hhead : nasGetHeader buf size.toUInt32 = some (s, p)) (hs : s.isProtected = true)
    {emm : EMMCtx → GenericNASMsg → Bool → Outcome EMMCtx} {E : GenericNASMsg → Prop}
    (hemm : ∀ d msg isAuth, c.receiveSecMsg P true buf size = .ok (d, some (msg, isAuth)) →
      (NoAbort (emm d msg isAuth) ↔ ¬ E msg)) :
    NoAbort (c.protectedMsg P env p buf size emm) ↔ ¬ c.ProtectedAborts P p buf size E := by
  cases hsci : c.sci with
  | false =>
    refine iff_of_false (fun h => ?_) fun h => h (.inl hsci)
    simp [protectedMsg, hsci] at h
  | true =>
    rw [protectedMsg_of_sci hsci]
    refine (noAbort_received_iff (hk hsci) hhead hs (by exact fun _ => .ok) fun d msg isAuth hd => ?_).trans
      (not_congr (or_iff_right (by simp [hsci])).symm)
    by_cases hpd : msg.protocolDiscriminator = epsSessionManagementMessages
    · simp [hpd, noAbort_esmProcessMsg_iff hsend]
    · by_cases hp : p = epsSessionManagementMessages
      · simp [hp, hpd, noAbort_esmProcessMsg_iff hsend]
      · simp [hp, hpd, hemm d msg isAuth hd]

/-! ## EMM_Registered -/

/-- Nothing but the S11 stack, the sessions and the history differs. -/
def SessionsOnly (c d : EMMCtx) : Prop := ∃ s11 esm trace, d = { c with s11, esm, trace }

theorem sessionsOnly_s11Detach (q : Option Nat) (cb : Option S11Cb) :
    Post (c.s11Detach env q cb) c.SessionsOnly := by
  refine .of_bind fun u => .ite (fun _ => ?_) fun _ => .ok ⟨_, _, _, rfl⟩
  refine .bind (Q := fun x => c.SessionsOnly x.1) ?_ ?_
  · refine .of_bind fun ⟨s, u, seq⟩ => ?_
    refine .bind ?_ fun d hd => .ok hd
    exact .ite (fun _ => .ok ⟨_, _, _, rfl⟩) fun _ => .error
  · rintro ⟨_, u⟩ ⟨s11, esm, trace, rfl⟩
    exact .ok ⟨_, _, _, rfl⟩

theorem sessionsOnly_esmErrorEMM : Post (c.esmErrorEMM env) c.SessionsOnly := by
  refine .bind (.foldlM (I := c.SessionsOnly) ?_ _ ⟨_, _, _, rfl⟩) ?_
  · rintro _ id ⟨s11, esm, trace, rfl⟩
    refine .of_bind fun s => (sessionsOnly_s11Detach _ _).mono ?_
    rintro _ ⟨s11', esm', trace', rfl⟩
    exact ⟨_, _, _, rfl⟩
  · rintro _ ⟨s11, esm, trace, rfl⟩
    exact .ok ⟨_, _, _, rfl⟩

/-- The sessions of an earlier attach are deleted, and then the Attach Request aborts. -/
def ReattachAborts (P : Prims) (env : Env) (c : EMMCtx) (buf : Mem) (size : UInt64)
    (msg : GenericNASMsg) : Prop :=
  msg.emmMessageType = attachRequest ∧ c.Authenticates P buf size ∧
    (∃ e, c.esmErrorEMM env = .ok e) ∧ c.AttachAborts env msg

theorem noAbort_regSecMsgCases_iff (hsend : env.sendto = true) {msg : GenericNASMsg} {isAuth : Bool}
    (hd : c.receiveSecMsg P true buf size = .ok (d, some (msg, isAuth))) :
    NoAbort (d.regSecMsgCases P env msg isAuth) ↔ ¬ c.ReattachAborts P env buf size msg := by
  unfold regSecMsgCases ReattachAborts
  rw [← isAuth_iff_authenticates hd]
  obtain ⟨r, -, -, -, -, rfl, -⟩ := receiveSecMsg_eq_some hd
  split
  · rename_i htype
    refine avoids_bind.trans ?_
    rw [esmErrorEMM_frame r.handler c.activeTimers]
    have herr := noAbort_esmErrorEMM (c := c) hsend
    have hframe : Post (c.esmErrorEMM env) c.SessionsOnly := sessionsOnly_esmErrorEMM
    generalize c.esmErrorEMM env = x at herr hframe
    cases x with
    | error f =>
      refine iff_of_true ⟨avoids_error.mpr (avoids_error.mp herr), ?_⟩ ?_
      · rintro a ⟨⟩
      · rintro ⟨-, -, ⟨e, ⟨⟩⟩, -⟩
    | ok e =>
      obtain ⟨s11, esm, trace, rfl⟩ := hframe e rfl
      constructor
      · rintro ⟨-, h⟩ ⟨-, ha, -, hab⟩
        exact (noAbort_attachRequestCase_iff hsend).mp (h _ rfl) ⟨ha, hab⟩
      · intro h
        refine ⟨.ok, ?_⟩
        rintro _ ⟨⟩
        exact (noAbort_attachRequestCase_iff hsend).mpr fun ⟨ha, hab⟩ => h ⟨htype, ha, ⟨_, rfl⟩, hab⟩
  · rename_i htype
    refine iff_of_true ?_ fun h => htype h.1
    refine .ite (fun _ => noAbort_detachRequestCase hsend msg) fun _ => .ite (fun _ => ?_) fun _ =>
      Avoids.ite (fun _ => noAbort_ecmSendUEContextReleaseCommand _) fun _ => .ok
    refine noAbort_getTAI.bind fun _ => (noAbort_emmProcessTAUReq msg).bind fun e => ?_
    split
    · exact .ok
    · exact .ite (fun _ => noAbort_emmTriggerAKAprocedure hsend) fun _ =>
        noAbort_emmSendTAUAccept.bind fun _ => .ok

theorem noAbort_regProcessMsg (hsend : env.sendto = true) (msg : GenericNASMsg) :
    NoAbort (c.regProcessMsg P env msg) := by
  refine .ite (fun _ => (noAbort_esmErrorEMM hsend).bind fun d => ?_) fun _ => .ok
  exact noAbort_attachFront_iff.mpr fun _ _ _ _ _ _ => noAbort_emmTriggerAKAprocedure hsend

theorem noAbort_regProcessSrvReq_iff (hk : c.sci = true → c.Keyed)
    (hhead : nasGetHeader buf size.toUInt32 = some (.serviceRequest, p)) :
    NoAbort (c.regProcessSrvReq P env p buf size) ↔ c.sci = true := by
  unfold regProcessSrvReq
  cases hsci : c.sci with
  | false => simp
  | true =>
    refine iff_of_true ?_ rfl
    refine avoids_bind.mpr ⟨noAbort_nasAuthenticateMsg _ _ _ _, fun r hr => ?_⟩
    have hret : r.ret ≠ 0 := nasAuthenticateMsg_serviceRequest (hk hsci).isValid hhead r hr
    refine .ite (fun h => absurd h hret) fun _ => .ite (fun _ => .ok) fun _ =>
      Avoids.ite (fun _ => .ok) fun _ => .ite (fun _ => .ok) fun _ => ?_
    exact avoids_ecmSendCtxtSUReq _ _

/-! ## EMM_SpecificProcedureInitiated -/

/-- The container of an Attach Complete does not carry the discriminator of ESM. -/
def AttachCompleteAborts (msg : GenericNASMsg) : Prop :=
  msg.emmMessageType = attachComplete ∧
    (decNAS (msg.shift 5) (UInt64.ofNat (msg.read16 3))).2.protocolDiscriminator ≠
      epsSessionManagementMessages

theorem noAbort_spiSecMsgCases_iff (hsend : env.sendto = true) (msg : GenericNASMsg) :
    NoAbort (c.spiSecMsgCases P env msg) ↔ ¬ AttachCompleteAborts msg := by
  unfold spiSecMsgCases AttachCompleteAborts
  split
  · rename_i htype
    refine (noAbort_esmProcessMsg_iff hsend _).trans ?_
    simp [htype]
  · rename_i htype
    refine iff_of_true ?_ fun h => htype h.1
    refine .ite (fun _ => ?_) fun _ => .ite (fun _ => noAbort_detachRequestCase hsend msg) fun _ =>
      Avoids.ite (fun _ => noAbort_ecmSendUEContextReleaseCommand _) fun _ => .ok
    dsimp only
    split
    · exact (noAbort_ecmSendUEContextReleaseCommand _).bind fun _ => .ok
    · exact .ok


/-! ## Every state -/

/-- The uplink PDUs with security header type `s` and protocol discriminator `p` that abort the MME. -/
def AbortCause (P : Prims) (env : Env) (c : EMMCtx) (s : SecurityHeaderType) (p : UInt8) (buf : Mem)
    (size : UInt64) : Prop :=
  match c.stateName with
  | .deregistered => s.isProtected = true ∧ c.sci = true ∧ (∃ e, c.derefEcm env = .ok e) ∧
      (c.Undecipherable buf size ∨ ∃ msg ∈ c.receivedMsg P buf size,
        msg.emmMessageType = attachRequest ∧ c.Authenticates P buf size ∧ c.AttachAborts env msg)
  | .commonProcedureInitiated => c.CommonAborts P env s buf size
  | .registered => s.isProtected = true ∧
        c.ProtectedAborts P p buf size (c.ReattachAborts P env buf size) ∨
      s = .serviceRequest ∧ c.sci = false
  | .specificProcedureInitiated =>
      s.isProtected = true ∧ c.ProtectedAborts P p buf size AttachCompleteAborts
  | .deregisteredInitiated => False

/-- What the proofs need of a context: no security context during an authentication run, and a NAS
handler in use that can authenticate. -/
structure Sound (c : EMMCtx) : Prop where
  common : c.stateName = .commonProcedureInitiated → c.sci = false
  keyed : c.sci = true → c.Keyed
  eia2 : c.parser.isValid = true → c.Keyed

section Dispatch

variable (hc : c.Sound) (hsend : env.sendto = true) (hsync : env.hssSync ≠ .noResult)

include hsend hsync in
theorem noAbort_stateProcessMsg (hhead : nasGetHeader buf size.toUInt32 = some (.plainNAS, p)) :
    NoAbort (c.stateProcessMsg P env (decNAS buf size).2) := by
  unfold stateProcessMsg
  split
  · exact noAbort_deregProcessMsg hsend _
  · exact noAbort_cpiProcessMsg hsend hsync hhead
  · exact noAbort_regProcessMsg hsend _
  · exact .ok
  · exact .ok

include hc hsend hsync in
theorem noAbort_stateProcessSecMsg_iff (hhead : nasGetHeader buf size.toUInt32 = some (s, p))
    (hs : s.isProtected = true) :
    NoAbort (c.stateProcessSecMsg P env s p buf size) ↔ ¬ c.AbortCause P env s p buf size := by
  unfold stateProcessSecMsg AbortCause
  cases hst : c.stateName with
  | deregistered =>
    simp only [hs, true_and]
    exact noAbort_deregProcessSecMsg_iff hsend hc.keyed hhead hs
  | commonProcedureInitiated =>
    exact noAbort_cpiProcessSecMsg_iff hsend hsync (hc.common hst) hc.eia2 hhead hs
  | registered =>
    have hne : s ≠ .serviceRequest := by
      rintro rfl
      cases hs
    simp only [hs, hne, true_and, false_and, or_false]
    exact noAbort_protectedMsg_iff hsend hc.keyed hhead hs fun d msg isAuth hd =>
      noAbort_regSecMsgCases_iff hsend hd
  | specificProcedureInitiated =>
    simp only [hs, true_and]
    exact noAbort_protectedMsg_iff hsend hc.keyed hhead hs fun d msg isAuth hd =>
      noAbort_spiSecMsgCases_iff hsend msg
  | deregisteredInitiated => simp

include hc hsend in
theorem noAbort_stateProcessSrvReq_iff
    (hhead : nasGetHeader buf size.toUInt32 = some (.serviceRequest, p)) :
    NoAbort (c.stateProcessSrvReq P env p buf size) ↔
      ¬ c.AbortCause P env .serviceRequest p buf size := by
  have hs : SecurityHeaderType.serviceRequest.isProtected = false := rfl
  unfold stateProcessSrvReq AbortCause
  cases hst : c.stateName with
  | deregistered => simp [hs, deregProcessSrvReq, noAbort_emmSendServiceReject]
  | commonProcedureInitiated => simp [CommonAborts]
  | registered =>
    simp only [hs, Bool.false_eq_true, false_and, false_or, true_and, Bool.not_eq_false]
    exact noAbort_regProcessSrvReq_iff hc.keyed hhead
  | specificProcedureInitiated => simp [hs, noAbort_emmStop hsend]
  | deregisteredInitiated => simp

theorem not_abortCause_of_not_isProtected (hs : s.isProtected = false) (hne : s ≠ .serviceRequest) :
    ¬ c.AbortCause P env s p buf size := by
  have h4 : s ≠ .integrityProtectedAndCipheredWithNewEPSSecurityContext := by
    rintro rfl
    cases hs
  unfold AbortCause
  split <;> simp [hs, hne, CommonAborts, h4]

theorem abortCause_emmStopTimer (code : EMMTimerCode) :
    (c.emmStopTimer code).AbortCause P env s p buf size ↔ c.AbortCause P env s p buf size := by
  have hre : (c.emmStopTimer code).ReattachAborts P env buf size = c.ReattachAborts P env buf size := by
    funext msg
    exact propext (and_congr_right fun _ => and_congr_right fun _ =>
      and_congr_left fun _ => esmErrorEMM_isOk_frame c.parser _)
  have hst : (c.emmStopTimer code).stateName = c.stateName := rfl
  unfold AbortCause CommonAborts ProtectedAborts IsSecurityModeComplete
  rw [receivedMsg_congr (c := c) (d := c.emmStopTimer code) rfl, hre]
  rfl

include hc hsend hsync in
theorem noAbort_emmProcessMsg_iff (hhead : nasGetHeader buf size.toUInt32 = some (s, p)) :
    NoAbort (c.emmProcessMsg P env buf size) ↔ ¬ c.AbortCause P env s p buf size := by
  have hc' : (c.emmStopTimer .tMobileReachable).Sound :=
    ⟨hc.common, fun h => ⟨(hc.keyed h).1, (hc.keyed h).2⟩, fun h => ⟨(hc.eia2 h).1, (hc.eia2 h).2⟩⟩
  rw [← abortCause_emmStopTimer .tMobileReachable]
  unfold emmProcessMsg
  simp only [hhead]
  by_cases hp : s = .plainNAS
  · subst hp
    refine iff_of_true ?_ (not_abortCause_of_not_isProtected rfl (by decide))
    exact noAbort_stateProcessMsg hsend hsync hhead
  rw [if_neg hp]
  by_cases hs : s.isProtected = true
  · rw [if_pos hs]
    exact noAbort_stateProcessSecMsg_iff hc' hsend hsync hhead hs
  rw [if_neg hs]
  by_cases hsr : s = .serviceRequest
  · subst hsr
    exact noAbort_stateProcessSrvReq_iff hc' hsend hhead
  · rw [if_neg hsr]
    exact iff_of_true Avoids.ok (not_abortCause_of_not_isProtected (by simpa using hs) hsr)

end Dispatch

/-! ## Every run -/

theorem sound_of_run {self ecm : Nat} {s11 : S11Stack} {es : List (Env × EMMEvent)}
    (h : Run (step P) (fun _ _ => True) (emmInit self ecm s11) es c) : c.Sound := by
  obtain ⟨⟨hcommon, hvalid⟩, heia2⟩ := run_invariant (I := fun v => v.parser.isValid = true → v.parser.i = .eia2)
    (fun c e _ _ _ => allowed_any c e) (fun _ _ _ hv hs => hs.eia2 hv) h (emmInit_coherent _ _ _) nofun
  exact ⟨hcommon, fun hs => ⟨hvalid hs, heia2 (hvalid hs)⟩, fun hv => ⟨hv, heia2 hv⟩⟩

end EMMCtx

end AaltoMME
