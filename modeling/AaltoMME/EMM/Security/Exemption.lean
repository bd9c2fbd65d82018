import AaltoMME.EMM.Security.Properties

/-!
# The exemption from integrity protection

`nas_isAuthRequired` exempts some EMM message types from the authentication.  The handlers ask it about
`plain.eMM.messageType`, which in an ESM message is the octet of the procedure transaction identity, so
the sender of an ESM message chooses whether it is exempt.  The result of this module says for exactly
which messages of EMM_Registered and EMM_SpecificProcedureInitiated this makes a difference.
-/

namespace AaltoMME

open Base NAS

variable {P : Prims} {env : Env} {c : EMMCtx} {s : SecurityHeaderType} {p : UInt8} {buf : Mem}
  {size : UInt64}

namespace NAS

/-- The MAC of an uplink PDU is the one that the handler computes for its sequence number. -/
def MacMatches (P : Prims) (h : NASHandler) (buf : Mem) (size : UInt32) : Prop :=
  (eiaCb P h.i h.ikey (octets32 (h.rcvCOUNT .upLink (buf 5))) 0 NASDirection.upLink.octet (buf.shift 5)
    ((size - 5) * 8).toNat).toOption = some (buf.read 1 4)

instance (P : Prims) (h : NASHandler) (buf : Mem) (size : UInt32) : Decidable (MacMatches P h buf size) :=
  inferInstanceAs (Decidable (_ = _))

/-- A PDU in the window with another MAC is processed, but not authenticated. -/
theorem nasAuthenticateMsg_of_not_macMatches {h : NASHandler} {size : UInt32} (hv : h.isValid = true)
    (hi : h.i = .eia2) (hhead : nasGetHeader buf size = some (s, p)) (hs : s.isProtected = true)
    (hw : nasCheckCOUNT (h.nasCount .upLink) (buf 5) = true) (hm : ¬ MacMatches P h buf size) :
    nasAuthenticateMsg P h buf size .upLink = .ok ⟨1, false, h⟩ := by
  obtain ⟨mac, hmac⟩ := eia2_eq_ok (P := P) h.ikey (octets32 (h.rcvCOUNT .upLink (buf 5))) 0
    NASDirection.upLink.octet (buf.shift 5) ((size - 5) * 8).toNat
  have hne : buf.read 1 4 ≠ mac := by
    rintro hread
    apply hm
    simp only [MacMatches, hi, eiaCb, hmac, hread]
    rfl
  simp only [nasAuthenticateMsg, hv, hhead, hs, authenticateProtected, hw, hi, eiaCb, hmac, hne,
    Bool.not_true, Bool.false_eq_true, if_false, if_true, ok_bind, false_or, reduceCtorEq]

/-- What is processed without being authenticated is in the window and has another MAC. -/
theorem not_macMatches_of_nasAuthenticateMsg {h : NASHandler} {size : UInt32} (hv : h.isValid = true)
    (hi : h.i = .eia2) (hhead : nasGetHeader buf size = some (s, p)) (hs : s.isProtected = true)
    {r : AuthResult} (hr : nasAuthenticateMsg P h buf size .upLink = .ok r) (h2 : r.ret ≠ 2)
    (ha : r.isAuth = false) :
    nasCheckCOUNT (h.nasCount .upLink) (buf 5) = true ∧ ¬ MacMatches P h buf size := by
  obtain ⟨mac, hmac⟩ := eia2_eq_ok (P := P) h.ikey (octets32 (h.rcvCOUNT .upLink (buf 5))) 0
    NASDirection.upLink.octet (buf.shift 5) ((size - 5) * 8).toNat
  simp only [nasAuthenticateMsg, hv, hhead, hs, authenticateProtected, hi, eiaCb, hmac, Bool.not_true,
    Bool.false_eq_true, if_false, if_true, ok_bind] at hr
  split at hr
  · cases hr
    exact absurd rfl h2
  rename_i hw
  refine ⟨by simpa using hw, fun hm => ?_⟩
  have hread : buf.read 1 4 = mac := by
    simp only [MacMatches, hi, eiaCb, hmac] at hm
    exact (Option.some.inj hm).symm
  simp only [hread, true_or, if_true] at hr
  cases hr
  cases ha

/-- The message of a PDU for which `dec_secNAS` reports no error. -/
def decodedMsg (h : NASHandler) (buf : Mem) (size : UInt64) : Option GenericNASMsg :=
  match decSecNAS h buf size with
  | .ok (true, msg) => some msg
  | _ => none

theorem mem_decodedMsg {h : NASHandler} {msg : GenericNASMsg} :
    msg ∈ decodedMsg h buf size ↔ decSecNAS h buf size = .ok (true, msg) := by
  unfold decodedMsg
  split
  · rename_i msg' heq
    simp [heq]
  · rename_i hne
    constructor
    · nofun
    · exact fun heq => absurd heq (hne msg)

end NAS

namespace EMMCtx

/-- An ESM message, by its outer or its inner protocol discriminator, that is in the window, decodes,
does not have the MAC of the handler, and whose procedure transaction identity is one of the message
types that `nas_isAuthRequired` exempts. -/
def ExemptESM (P : Prims) (c : EMMCtx) (p : UInt8) (buf : Mem) (size : UInt64) : Prop :=
  nasCheckCOUNT (c.parser.nasCount .upLink) (buf 5) = true ∧ ¬ MacMatches P c.parser buf size.toUInt32 ∧
    ∃ msg ∈ decodedMsg c.parser buf size,
      nasIsAuthRequired msg.esmProcedureTransactionIdentity = false ∧
      (p = epsSessionManagementMessages ∨ msg.protocolDiscriminator = epsSessionManagementMessages)

instance (P : Prims) (c : EMMCtx) (p : UInt8) (buf : Mem) (size : UInt64) :
    Decidable (c.ExemptESM P p buf size) :=
  inferInstanceAs (Decidable (_ ∧ _ ∧ _))

/-- The protected handler of the state hands an ESM message to `esm_processMsg`: as the message itself,
or, if it returns, in any other way. -/
def HandsESM (P : Prims) (env : Env) (c : EMMCtx) (s : SecurityHeaderType) (p : UInt8) (buf : Mem)
    (size : UInt64) : Prop :=
  (c.sci = true ∧ ∃ d msg, c.secMsgCase P p buf size = .ok (d, .esm msg)) ∨
    ∃ d, c.stateProcessSecMsg P env s p buf size = .ok d ∧
      d.trace.filter Act.isESM ≠ c.trace.filter Act.isESM

theorem secMsgCase_of_exemptESM (hv : c.parser.isValid = true) (hi : c.parser.i = .eia2)
    (hhead : nasGetHeader buf size.toUInt32 = some (s, p)) (hs : s.isProtected = true)
    (h : c.ExemptESM P p buf size) :
    (∃ d msg, c.secMsgCase P p buf size = .ok (d, .esm msg)) ∧ ¬ c.Authenticates P buf size := by
  obtain ⟨hw, hm, msg, hdec, hreq, hesm⟩ := h
  have hr := nasAuthenticateMsg_of_not_macMatches hv hi hhead hs hw hm
  constructor
  · have hrecv : c.receiveSecMsg P true buf size = .ok (c, some (msg, false)) := by
      have hreq' : nasIsAuthRequired msg.emmMessageType = false := hreq
      simp [receiveSecMsg, hr, mem_decodedMsg.mp hdec, hreq']
    refine ⟨c, msg, ?_⟩
    simp [secMsgCase, hrecv, hesm]
  · rintro ⟨r, hr', ha⟩
    rw [hr] at hr'
    cases hr'
    cases ha

/-- A message that is handed over without being authenticated is exempt. -/
theorem exemptESM_of_secMsgCase (hv : c.parser.isValid = true) (hi : c.parser.i = .eia2)
    (hhead : nasGetHeader buf size.toUInt32 = some (s, p)) (hs : s.isProtected = true) {d : EMMCtx}
    {msg : GenericNASMsg} (h : c.secMsgCase P p buf size = .ok (d, .esm msg)) :
    c.Authenticates P buf size ∨ c.ExemptESM P p buf size := by
  obtain ⟨⟨e, m⟩, hrecv, h⟩ := bind_eq_ok.mp h
  rcases m with _ | ⟨msg', isAuth⟩
  · cases h
  obtain ⟨r, hr, -, h2, hra, -, hdec, hreq⟩ := receiveSecMsg_eq_some hrecv
  dsimp only at h
  split at h
  · rename_i hesm
    cases h
    cases isAuth with
    | true => exact .inl ⟨r, hr, hra⟩
    | false =>
      obtain ⟨hw, hm⟩ := not_macMatches_of_nasAuthenticateMsg hv hi hhead hs hr h2 hra
      obtain ⟨-, hh⟩ | ⟨ha, -⟩ := nasAuthenticateMsg_shape hr
      · rw [hh] at hdec
        refine .inr ⟨hw, hm, msg, mem_decodedMsg.mpr hdec, hreq rfl, ?_⟩
        simpa using hesm
      · rw [hra] at ha
        cases ha
  · cases h

/-- The two states hand over the message itself, the container of an authenticated Attach Request, or the one of an
Attach Complete, which is not exempt. -/
theorem authenticates_of_esmMsg (hst : c.stateName = .registered ∨ c.stateName = .specificProcedureInitiated)
    (hhead : nasGetHeader buf size.toUInt32 = some (s, p)) (hs : s.isProtected = true)
    (hdirect : ∀ d msg, c.secMsgCase P p buf size = .ok (d, .esm msg) → c.Authenticates P buf size)
    {msg : GenericNASMsg} (hmsg : msg ∈ c.esmMsg P (env, .uplink buf size)) : c.Authenticates P buf size := by
  have hne : s ≠ .plainNAS := by
    rintro rfl
    cases hs
  have hauth : c.authenticates s = true := by
    unfold authenticates
    rcases hst with hst | hst <;> rw [hst]
  cases hrecv : c.receiveSecMsg P true buf size with
  | error => simp [esmMsg, leaves, takes, hhead, hne, hauth, hrecv] at hmsg
  | ok r =>
    obtain ⟨d, _ | m⟩ := r
    · simp [esmMsg, leaves, takes, hhead, hne, hauth, hrecv] at hmsg
    obtain ⟨r, hr, -, -, hisAuth, -, -, hexempt⟩ := receiveSecMsg_eq_some hrecv
    by_cases hleaves : p = epsSessionManagementMessages ∨ m.1.protocolDiscriminator = epsSessionManagementMessages
    · exact hdirect d m.1 (by simp [secMsgCase, hrecv, hleaves])
    obtain ⟨hp, hd⟩ := not_or.mp hleaves
    refine ⟨r, hr, hisAuth.trans ?_⟩
    rcases hst with hst | hst <;> simp [esmMsg, leaves, takes, esmOf, leavesToESM, hst, hhead, hne, hs, hauth, hrecv, hp,
      hd, Option.filter_some] at hmsg
    · exact hmsg.1.2
    · by_contra hnot
      have hreq := hexempt (Bool.eq_false_iff.mpr hnot)
      rw [hmsg.1] at hreq
      cases hreq

/-- In EMM_Registered and EMM_SpecificProcedureInitiated with an EIA2 security context, the protected
handler hands an ESM message to `esm_processMsg` only if `nas_authenticateMsg` set `isAuth`, exactly if
the message is not an exempt ESM message. -/
theorem esm_authenticated_iff
    (hst : c.stateName = .registered ∨ c.stateName = .specificProcedureInitiated)
    (hsci : c.sci = true) (hv : c.parser.isValid = true) (hi : c.parser.i = .eia2)
    (hhead : nasGetHeader buf size.toUInt32 = some (s, p)) (hs : s.isProtected = true) :
    (c.HandsESM P env s p buf size → c.Authenticates P buf size) ↔ ¬ c.ExemptESM P p buf size := by
  constructor
  · intro h hex
    obtain ⟨hcase, hna⟩ := secMsgCase_of_exemptESM hv hi hhead hs hex
    exact hna (h (.inl ⟨hsci, hcase⟩))
  · intro hex h
    have hdirect : ∀ d msg, c.secMsgCase P p buf size = .ok (d, .esm msg) → c.Authenticates P buf size :=
      fun d msg hcase => (exemptESM_of_secMsgCase hv hi hhead hs hcase).resolve_right hex
    obtain ⟨-, d, msg, hcase⟩ | ⟨d, hd, hne⟩ := h
    · exact hdirect d msg hcase
    by_contra hna
    let R : Risk := { Risk.any with esm := c.Authenticates P buf size }
    have hallowed : UplinkAllowed P R env c buf size := { UplinkAllowed.any env c buf size with
      esm := fun ⟨_, hmsg⟩ => authenticates_of_esmMsg hst hhead hs hdirect hmsg }
    have hadmits : c.Admits P R (env, .uplink buf size) := by
      refine ⟨⟨fun hc => ?_, fun _ => hv⟩, hallowed⟩
      rcases hst with hst | hst <;> cases hst.symm.trans hc
    have hreach : Reach P R c d :=
      (moves_stateProcessSecMsg ⟨rfl, hhead, hs, .refl, rfl⟩ d hd).reach hadmits
    exact hne (SecSteps.filter_isESM hna hreach)

/-- The registered UE asks for a second PDN connection in a message with the right MAC. -/
theorem esm_authenticated_iff_genuine :
    ∃ c, Run (step Prims.zeroKasme) (fun _ _ => True) Sample.init
        (Sample.authentication ++ Sample.activation) c ∧
      (c.HandsESM Prims.zeroKasme (Sample.env .manyRows) .integrityProtectedAndCiphered 7
          (.ofList [0x27, 0xd3, 0x91, 0x09, 0x6c, 0x02, 0x02, 0x02, 0xd0, 0x11]) 10 →
        c.Authenticates Prims.zeroKasme
          (.ofList [0x27, 0xd3, 0x91, 0x09, 0x6c, 0x02, 0x02, 0x02, 0xd0, 0x11]) 10) := by
  refine Run.exists_of_exec (fun c => c.stateName = .registered ∧ c.sci = true ∧ c.parser.isValid = true ∧
    c.parser.i = .eia2 ∧ ¬ c.ExemptESM Prims.zeroKasme 7
      (.ofList [0x27, 0xd3, 0x91, 0x09, 0x6c, 0x02, 0x02, 0x02, 0xd0, 0x11]) 10) (by decide +kernel) ?_
  rintro c - ⟨hst, hsci, hv, hi, hex⟩
  exact (esm_authenticated_iff (.inl hst) hsci hv hi rfl rfl).mpr hex

/-- A PDN Connectivity Request with the procedure transaction identity 0x41, the type of an Attach
Request, is processed although its MAC is wrong. -/
theorem unauthenticated_esm_processed :
    ∃ c, Run (step Prims.zeroKasme) (fun _ _ => True) Sample.init
        (Sample.authentication ++ Sample.activation) c ∧
      (c.stateName = .registered ∧ c.sci = true ∧ c.parser.isValid = true ∧ c.parser.i = .eia2) ∧
      c.HandsESM Prims.zeroKasme (Sample.env .manyRows) .integrityProtectedAndCiphered 7
        (.ofList [0x27, 0, 0, 0, 0, 0x02, 0x02, 0x41, 0xd0, 0x11]) 10 ∧
      ¬ c.Authenticates Prims.zeroKasme (.ofList [0x27, 0, 0, 0, 0, 0x02, 0x02, 0x41, 0xd0, 0x11]) 10 := by
  refine Run.exists_of_exec (fun c => (c.stateName = .registered ∧ c.sci = true ∧ c.parser.isValid = true ∧
      c.parser.i = .eia2) ∧
    c.ExemptESM Prims.zeroKasme 7 (.ofList [0x27, 0, 0, 0, 0, 0x02, 0x02, 0x41, 0xd0, 0x11]) 10) (by decide +kernel) ?_
  rintro c - ⟨⟨hst, hsci, hv, hi⟩, hex⟩
  obtain ⟨hcase, hna⟩ := secMsgCase_of_exemptESM (s := .integrityProtectedAndCiphered) hv hi rfl rfl hex
  exact ⟨⟨hst, hsci, hv, hi⟩, .inl ⟨hsci, hcase⟩, hna⟩

end EMMCtx

end AaltoMME
