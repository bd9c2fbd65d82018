import AaltoMME.EMM.AbortCauses
import AaltoMME.EMM.Security.Properties

/-!
# Fixed buffers and uninitialised memory

The decoders accept any length octet, and the EMM layer copies what they give it into arrays of fixed size: the
capabilities of the UE into the context and, in a later procedure, into the Security Mode Command, and the ESM message of
a session, with a name and options of up to 255 octets, into the Attach Accept.  The messages to the UE are built in
local variables; one of them is never written.
-/

namespace AaltoMME

open Base NAS

/-! ## Fixed buffers -/

/-- A write past the end of an array, or a loop that runs past the end of its input. -/
@[simp] def Fault.IsOverrun : Fault → Prop
  | .overflow | .overread => True
  | _ => False

instance : Fault.Sparing Fault.IsOverrun := ⟨not_false, not_false, not_false, not_false⟩

abbrev Within {α : Type} (x : Outcome α) : Prop := Avoids Fault.IsOverrun x

namespace EMMCtx

variable {P : Prims} {env : Env} {c d : EMMCtx} {msg : GenericNASMsg}

/-- What `dec_EMM` makes of a message of this type; `dec_NAS` has cleared the memory. -/
def Decoded (type : UInt8) (msg : GenericNASMsg) : Prop :=
  ∃ header buf size, (∀ i, 2 ≤ i → header i = 0) ∧ buf 0 = type ∧ msg = decEMM header buf size

/-- What fills the fixed buffers: three messages of the UE, and three messages to it.  The Attach Accept is sent for the
default bearer of a session. -/
inductive BufferUse
  | attachRequest (msg : GenericNASMsg) (h : Decoded NAS.attachRequest msg)
  | trackingAreaUpdateRequest (msg : GenericNASMsg) (h : Decoded NAS.trackingAreaUpdateRequest msg)
  | identityResponse (msg : GenericNASMsg) (h : Decoded NAS.identityResponse msg)
  | securityModeCommand
  | attachAccept (session : Nat)
  | attachReject (cause : UInt8)

def BufferUse.run (P : Prims) (env : Env) (c : EMMCtx) : BufferUse → Outcome EMMCtx
  | .attachRequest msg _ => c.processAttach msg
  | .trackingAreaUpdateRequest msg _ => c.emmProcessTAUReq msg
  | .identityResponse msg _ => c.processIdentityRsp P env msg
  | .securityModeCommand => c.emmSendSecurityModeCommand P env
  | .attachAccept id => c.sendActivateDefaultEPSBearerCtxtReq P env id
  | .attachReject cause => c.emmSendAttachReject P env cause

/-- The length of an option of a message is at most `n`. -/
def OptionFits (msg : GenericNASMsg) (optionals maxOpts : Nat) (type : UInt8) (n : Nat) : Prop :=
  ∀ o ∈ nasNASOptLookup msg optionals maxOpts type, (msg (o + 1)).toNat ≤ n

/-- The octets of the PDN address. -/
def addressLength (s : EPSSession) : Option Nat :=
  if s.pdnAddrType = 1 then some 5 else if s.pdnAddrType = 2 then some 17 else if s.pdnAddrType = 3 then some 21 else none

/-- The octets of an Activate Default EPS Bearer Context Request with an address of `n` octets. -/
def activateDefaultLength (c : EMMCtx) (s : EPSSession) (n : Nat) : Nat :=
  7 + (c.subs.apn.length + 1) % 256 + n + s.pco.elim 0 (·.length + 2)

/-- The octets of an Attach Accept with an ESM message of `n` octets. -/
def attachAcceptLength (c : EMMCtx) (n : Nat) : Nat :=
  26 + n + if c.attachResult = 2 then
    (if c.msg.additionalUpdateType && c.msg.smsOnly then 0 else 13) + if c.msg.additionalUpdateType then 1 else 0
  else 0

/-- The context has a GUTI, or gets one on its connection. -/
def HasGUTI (env : Env) (c : EMMCtx) (e : ECMSession) : Prop :=
  c.guti.mtmsi ≠ 0 ∨ e.emm = some c.self ∨ ∃ emm, deref env.emms e.emm = .ok emm

/-- The context is at the point where it answers an Attach Request. -/
structure Accepts (env : Env) (c : EMMCtx) : Prop where
  stateName : c.stateName = .specificProcedureInitiated
  attachStarted : c.attachStarted = true
  ecm : ∃ e, c.derefEcm env = .ok e ∧ c.HasGUTI env e

/-- The name, the address and the options of the session fit into the buffers of the ESM message, and this message into
the Attach Accept. -/
def AcceptFits (env : Env) (c : EMMCtx) (s : EPSSession) : Prop :=
  c.subs.apn.length ≤ 255 ∧ ∀ n ∈ addressLength s, c.activateDefaultLength s n ≤ 356 ∧
    (c.Accepts env → c.attachAcceptLength (c.activateDefaultLength s n) ≤ 250)

def BufferUse.Fits (env : Env) (c : EMMCtx) : BufferUse → Prop
  | .attachRequest msg _ => (msg 261).toNat ≤ 15 ∧ OptionFits msg attachRequestOptionals 17 0x31 10
  | .trackingAreaUpdateRequest msg _ => OptionFits msg trackingAreaUpdateRequestOptionals 22 0x58 15 ∧
      OptionFits msg trackingAreaUpdateRequestOptionals 22 0x31 10
  | .identityResponse _ _ => True
  | .securityModeCommand => c.ueCapabilitiesLen ≤ 5
  | .attachAccept id => ∀ s b, c.session id = .ok s → c.bearer s.defaultBearer = .ok b → c.AcceptFits env s
  | .attachReject _ => True

/-- The sizes that the arrays of C have. -/
structure Sized (env : Env) (c : EMMCtx) : Prop where
  ecm : ∀ e, c.derefEcm env = .ok e → e.sn.length = 3 ∧ e.tAC.length = 2
  guti : c.guti.tbcdPlmn.length = 3 ∧ c.guti.mmegi.length = 2
  mmegi : env.mmegi.length = 2
  session : ∀ s ∈ c.esm.sessions, s.pdnAddr.length = 20 ∧ ∀ pco ∈ s.pco, pco.length ≤ 255

/-! ### Requests -/

theorem decoded_decNAS {buf : Mem} {size : UInt64} {type : UInt8} (h : (decNAS buf size).1 = true)
    (hp : buf 0 &&& 0x0F = epsMobilityManagementMessages) (htype : buf 1 = type) : Decoded type (decNAS buf size).2 := by
  have hheader : ∀ i, 2 ≤ i → (Mem.zero.set 0 (buf 0 &&& 0x0F)).set 1 0 i = 0 := fun i hi => by
    rw [Mem.set_of_ne _ _ _ _ (by omega), Mem.set_of_ne _ _ _ _ (by omega), Mem.zero_apply]
  obtain ⟨hsize, hnibble⟩ := decNAS_fst_iff.mp h
  refine ⟨_, buf.shift 1, size - 1, hheader, htype, ?_⟩
  simp only [decNAS, nasGetHeader, if_neg hsize, ofNibble_eq_plainNAS_iff.mpr hnibble, hp]
  rfl

theorem decLv_empty {m : GenericNASMsg} {buf : Mem} {off pos : Nat} (h : decLv m buf off pos off = 0) :
    decLv m buf off pos (off + 1) = m (off + 1) := by
  rw [decLv, Mem.copy_of_lt _ _ _ _ _ (by omega), Mem.set_self] at h
  rw [decLv, h, Mem.copy_of_le _ _ _ _ _ (by exact le_rfl), Mem.set_of_ne _ _ _ _ (by omega)]

/-- An identity without octets has no type, so it is not taken for an IMSI. -/
theorem Decoded.attachRequest (h : Decoded attachRequest msg) : mobileIdType (msg.shift 6) = 1 → msg 5 ≠ 0 := by
  obtain ⟨header, buf, size, hheader, htype, rfl⟩ := h
  intro hid hl
  have hmandatory : ∀ i, i < 261 → decEMM header buf size i =
      decLv (((header.set 2 attachRequest).setLow 3 (buf 1 &&& 0x0F)).setHigh 4 ((buf 1 &&& 0xF0) >>> 4)) (buf.shift 1) 5 1 i := by
    intro i hi
    rw [decEMM, htype, if_pos rfl, decAttachRequest_of_lt (by unfold attachRequestOptionals; omega), attachRequestMandatory,
      decLvE_of_lt (by omega), decLv_of_lt (by omega)]
    rfl
  rw [hmandatory 5 (by decide)] at hl
  have hempty := decLv_empty hl
  rw [Mem.setHigh_of_ne _ _ _ _ (by decide), Mem.setLow_of_ne _ _ _ _ (by decide), Mem.set_of_ne _ _ _ _ (by decide),
    hheader 6 (by decide)] at hempty
  rw [mobileIdType, Mem.shift_apply, hmandatory 6 (by decide), hempty] at hid
  exact absurd hid (by decide)

theorem Decoded.identityResponse (h : Decoded identityResponse msg) : mobileIdType (msg.shift 4) = 1 → msg 3 ≠ 0 := by
  obtain ⟨header, buf, size, hheader, htype, rfl⟩ := h
  intro hid hl
  have hdec : decEMM header buf size = decLv (header.set 2 identityResponse) (buf.shift 1) 3 0 := by
    rw [decEMM, htype]
    rfl
  rw [hdec] at hid hl
  have hempty := decLv_empty hl
  rw [Mem.set_of_ne _ _ _ _ (by decide), hheader 4 (by decide)] at hempty
  rw [mobileIdType, Mem.shift_apply, hempty] at hid
  cases hid

theorem within_imsiOfMobileId {v : Mem} {l : UInt8} : Within (imsiOfMobileId v l) ↔ l ≠ 0 := by
  by_cases hl : l = 0
  · simp [imsiOfMobileId, hl]
  · simp [imsiOfMobileId, hl]

theorem within_copyInto {size : Nat} {dst v : List UInt8} : Within (copyInto size dst v) ↔ v.length ≤ size := by
  by_cases hlen : size < v.length
  · simp [copyInto, hlen]
  · simp [copyInto, hlen, not_lt.mp hlen]

/-- The first part returns where it stays within its buffers, and the second does not depend on what it returns. -/
theorem within_bind {α β : Type} {x : Outcome α} {f : α → Outcome β} {p q : Prop} (hx : Within x ↔ p)
    (hok : p → ∃ a, x = .ok a) (hf : ∀ a, Within (f a) ↔ q) : Within (x >>= f) ↔ p ∧ q := by
  refine avoids_bind.trans (and_congr_left' hx |>.trans (and_congr_right fun hp => ?_))
  obtain ⟨a, ha⟩ := hok hp
  exact ⟨fun h => (hf a).mp (h a ha), fun hq b _ => (hf b).mpr hq⟩

theorem within_setUECapabilities {v : List UInt8} : Within (c.setUECapabilities v) ↔ v.length ≤ 15 :=
  avoids_bind.trans ((and_iff_left fun _ _ => .ok).trans within_copyInto)

theorem setUECapabilities_isOk {v : List UInt8} (h : v.length ≤ 15) : ∃ d, c.setUECapabilities v = .ok d := by
  rw [setUECapabilities, copyInto_eq_ok.mpr ⟨h, rfl⟩]
  exact ⟨_, rfl⟩

theorem within_setMsNetCap {optionals maxOpts : Nat} :
    Within (c.setMsNetCap msg optionals maxOpts) ↔ OptionFits msg optionals maxOpts 0x31 10 := by
  rw [setMsNetCap, OptionFits]
  cases ho : nasNASOptLookup msg optionals maxOpts 0x31 with
  | none => simp
  | some o =>
    refine avoids_bind.trans ((and_iff_left fun _ _ => .ok).trans (within_copyInto.trans ?_))
    simp [tlvValue]

/-- The options that an Attach Request and a Tracking Area Update Request have in common. -/
theorem within_options {optionals maxOpts : Nat} {g : EMMCtx → EMMCtx} :
    Within (c.setMsNetCap msg optionals maxOpts >>= fun d => pure (g d)) ↔ OptionFits msg optionals maxOpts 0x31 10 :=
  avoids_bind.trans ((and_iff_left fun _ _ => .ok).trans within_setMsNetCap)

theorem within_attachMobileId :
    Within (c.attachMobileId msg) ↔ (mobileIdType (msg.shift 6) = 1 → msg 5 ≠ 0) := by
  rw [attachMobileId]
  by_cases hid : mobileIdType (msg.shift 6) = 1
  · simp only [hid, forall_const]
    exact avoids_bind.trans ((and_iff_left fun _ _ => .ok).trans within_imsiOfMobileId)
  · simp only [hid, if_false, false_implies, iff_true]
    exact .ite (fun _ => .ok) fun _ => .ok

theorem within_processAttach (h : Decoded attachRequest msg) : Within (c.processAttach msg) ↔
    (msg 261).toNat ≤ 15 ∧ OptionFits msg attachRequestOptionals 17 0x31 10 := by
  have hcap : ∀ d : EMMCtx, Within (d.attachCapabilities msg) ↔
      (msg 261).toNat ≤ 15 ∧ OptionFits msg attachRequestOptionals 17 0x31 10 := fun d => by
    refine (within_bind within_setUECapabilities setUECapabilities_isOk fun e => within_options).trans ?_
    rw [Mem.length_read]
  exact (within_bind within_attachMobileId attachMobileId_isOk.mpr hcap).trans (and_iff_right h.attachRequest)

theorem within_emmProcessTAUReq : Within (c.emmProcessTAUReq msg) ↔
    OptionFits msg trackingAreaUpdateRequestOptionals 22 0x58 15 ∧
      OptionFits msg trackingAreaUpdateRequestOptionals 22 0x31 10 := by
  simp only [emmProcessTAUReq]
  cases ho : nasNASOptLookup msg trackingAreaUpdateRequestOptionals 22 0x58 with
  | none =>
    rw [OptionFits, ho]
    simpa using within_options
  | some o =>
    refine (within_bind within_setUECapabilities setUECapabilities_isOk fun e => within_options).trans ?_
    simp [OptionFits, ho, tlvValue]

theorem within_processIdentityRsp (h : Decoded identityResponse msg) : Within (c.processIdentityRsp P env msg) := by
  simp only [processIdentityRsp]
  by_cases hid : mobileIdType (msg.shift 4) = 1
  · simp only [hid]
    exact (within_imsiOfMobileId.mpr (h.identityResponse hid)).bind fun _ => avoids_emmCtxNewGUTI
  · simp only [hid]
    exact avoids_emmCtxNewGUTI

theorem within_emmSendSecurityModeCommand :
    Within (c.emmSendSecurityModeCommand P env) ↔ c.ueCapabilitiesLen ≤ 5 := by
  refine avoids_bind.trans ?_
  refine Iff.trans (and_iff_left fun _ _ => (avoids_sendSec _ _ avoids_noLength).bind fun _ => .ok) ?_
  by_cases hlen : 5 < c.ueCapabilitiesLen
  · simp [replayedCapabilities, hlen]
  · simp [replayedCapabilities, hlen, not_lt.mp hlen]

/-! ### The Attach Accept -/

theorem length_nasIeLvT4 (v : List UInt8) : (nasIeLvT4 v).length = 1 + v.length % 256 := by
  rw [nasIeLvT4, List.length_cons, List.length_take, Nat.min_eq_left (Nat.mod_le _ _), Nat.add_comm]

theorem length_combinedResult {lAI mtmsi : List UInt8} (hlai : lAI.length = 5) (hmtmsi : mtmsi.length = 4) :
    (c.combinedResult lAI mtmsi).length =
      (if c.msg.additionalUpdateType && c.msg.smsOnly then 0 else 13) + if c.msg.additionalUpdateType then 1 else 0 := by
  rw [combinedResult, List.length_append]
  refine congrArg₂ _ ?_ ?_
  · split
    · rfl
    · simp [hlai, hmtmsi]
  · split <;> rfl

theorem length_attachAcceptPlain {e : ECMSession} (he : e.sn.length = 3 ∧ e.tAC.length = 2)
    (hguti : c.guti.octets.length = 10) (esmMsg : List UInt8) :
    (c.attachAcceptPlain env e esmMsg).length = c.attachAcceptLength esmMsg.length := by
  have hlai : (e.sn ++ e.tAC).length = 5 := by rw [List.length_append, he.1, he.2]
  have hcombined := length_combinedResult (c := c) hlai (List.length_replicate (a := env.junk))
  rw [attachAcceptPlain, attachAcceptLength, List.length_append, ← hcombined]
  have hfront : ∀ n, ([0x07, attachAccept, c.attachResult &&& 0x0F, c.t3412, 6] ++ tAIlist e
      ++ octetsOfNat 2 n ++ esmMsg ++ [0x50, 11, 0xF6] ++ c.guti.octets).length = 26 + esmMsg.length := by
    simp [tAIlist, octetsOfNat]
    omega
  rw [hfront]
  split <;> rfl

theorem emmCtxNewGUTI_isOk {e : ECMSession} (he : c.derefEcm env = .ok e) :
    (∃ d, c.emmCtxNewGUTI P env = .ok d) ↔ c.HasGUTI env e := by
  rw [emmCtxNewGUTI, HasGUTI]
  by_cases hguti : c.guti.mtmsi = 0
  · by_cases hself : e.emm = some c.self
    · simp [hguti, he, ofEcm, hself]
    · simp [hguti, he, bind_eq_ok, ofEcm, hself]
  · simp [hguti]

theorem post_emmCtxNewGUTI (h : c.Sized env) : Post (c.emmCtxNewGUTI P env) fun d =>
    d.guti.octets.length = 10 ∧ d.attachResult = c.attachResult ∧ d.msg = c.msg := by
  have hlength : ∀ g : Guti, g.tbcdPlmn.length = 3 ∧ g.mmegi.length = 2 → g.octets.length = 10 := fun g hg => by
    simp [Guti.octets, hg.1, hg.2, hostOctets]
  refine .ite (fun _ => .ok ⟨hlength _ h.guti, rfl, rfl⟩) fun _ => ?_
  refine .bind_of_eq fun e he => .of_bind fun emm => .ok ⟨?_, rfl, rfl⟩
  exact hlength _ ⟨(h.ecm e he).1, h.mmegi⟩

theorem within_emmAttachAcceptSPI (h : c.Sized env) (hstart : c.attachStarted = true) (esmMsg : List UInt8)
    (sessions : List Nat) : Within (c.emmAttachAcceptSPI P env esmMsg sessions) ↔
      ∀ e, c.derefEcm env = .ok e → c.HasGUTI env e → c.attachAcceptLength esmMsg.length ≤ 250 := by
  simp only [emmAttachAcceptSPI, hstart, Bool.not_true, Bool.false_eq_true, if_false]
  refine avoids_bind.trans ((and_iff_right avoids_deref).trans (forall₂_congr fun e he => ?_))
  have hguti : (∃ d, { c with attachStarted := false }.emmCtxNewGUTI P env = .ok d) ↔ c.HasGUTI env e :=
    emmCtxNewGUTI_isOk he
  refine avoids_bind.trans ((and_iff_right avoids_emmCtxNewGUTI).trans ?_)
  rw [← hguti, forall_exists_index]
  refine forall₂_congr fun d hd => ?_
  have hsized : Sized env { c with attachStarted := false } := ⟨h.ecm, h.guti, h.mmegi, h.session⟩
  obtain ⟨hoctets, hresult, hmsg⟩ := post_emmCtxNewGUTI hsized d hd
  have hlength : (d.attachAcceptPlain env e esmMsg).length = c.attachAcceptLength esmMsg.length := by
    rw [length_attachAcceptPlain (h.ecm e he) hoctets, attachAcceptLength, attachAcceptLength, hresult, hmsg]
  rw [← hlength]
  by_cases hlong : 250 < (d.attachAcceptPlain env e esmMsg).length
  · simp [hlong]
  · simp only [hlong]
    refine iff_of_true ?_ (not_lt.mp hlong)
    exact (avoids_emmNewNASMsgSec _ _ avoids_noLength).bind fun _ => avoids_ecmSendCtxtSUReq _ _

theorem within_emmAttachAccept (h : c.Sized env) (esmMsg : List UInt8) (sessions : List Nat) :
    Within (c.emmAttachAccept P env esmMsg sessions) ↔
      (c.Accepts env → c.attachAcceptLength esmMsg.length ≤ 250) := by
  by_cases hstate : c.stateName = .specificProcedureInitiated
  · have hspi : c.emmAttachAccept P env esmMsg sessions = c.emmAttachAcceptSPI P env esmMsg sessions := by
      rw [emmAttachAccept, hstate]
    rw [hspi]
    by_cases hstart : c.attachStarted = true
    · refine (within_emmAttachAcceptSPI h hstart esmMsg sessions).trans ⟨fun hlen hacc => ?_, fun hlen e he hg => ?_⟩
      · obtain ⟨e, he, hg⟩ := hacc.ecm
        exact hlen e he hg
      · exact hlen ⟨hstate, hstart, e, he, hg⟩
    · refine iff_of_true ?_ fun hacc => absurd hacc.attachStarted hstart
      simp [emmAttachAcceptSPI, hstart]
  · refine iff_of_true ?_ fun hacc => absurd hacc.stateName hstate
    cases hs : c.stateName with
    | specificProcedureInitiated => exact absurd hs hstate
    | _ =>
      rw [emmAttachAccept, hs]
      exact avoids_error.mpr not_false

theorem pdnAddress_cases {s : EPSSession} (h : s.pdnAddr.length = 20) :
    (∃ paa, pdnAddress s = .ok paa ∧ addressLength s = some paa.length ∧ paa.length ≤ 21) ∨
      (∃ text, pdnAddress s = .error (.gError text)) ∧ addressLength s = none := by
  rw [pdnAddress, addressLength]
  by_cases h1 : s.pdnAddrType = 1
  · exact .inl ⟨_, if_pos h1, by simp [h1, h], by simp⟩
  by_cases h2 : s.pdnAddrType = 2
  · exact .inl ⟨_, by rw [if_neg h1, if_pos h2], by simp [h2, h], by simp⟩
  by_cases h3 : s.pdnAddrType = 3
  · exact .inl ⟨_, by rw [if_neg h1, if_neg h2, if_pos h3], by simp [h3, h], by simp [h]⟩
  · exact .inr ⟨⟨_, by rw [if_neg h1, if_neg h2, if_neg h3]⟩, by rw [if_neg h1, if_neg h2, if_neg h3]⟩

theorem length_activateDefault {s : EPSSession} {front paa : List UInt8} (hfront : front.length = 3)
    (hpaa : paa.length ≤ 21) (hpco : ∀ pco ∈ s.pco, pco.length ≤ 255) :
    (front ++ nasIeLvT4 [c.subs.qci] ++ nasIeLvT4 (subsGetEncodedAPN c.subs.apn 150) ++ nasIeLvT4 paa
      ++ s.pco.elim [] fun pco => 0x27 :: nasIeLvT4 pco).length = c.activateDefaultLength s paa.length := by
  have hopts : (s.pco.elim [] fun pco => 0x27 :: nasIeLvT4 pco).length = s.pco.elim 0 (·.length + 2) := by
    cases hp : s.pco with
    | none => rfl
    | some pco =>
      have hle := hpco pco hp
      simp only [Option.elim_some, List.length_cons, length_nasIeLvT4]
      omega
  rw [activateDefaultLength]
  simp only [List.length_append, length_nasIeLvT4, length_subsGetEncodedAPN, List.length_cons, List.length_nil]
  omega

theorem within_sendActivateDefault_of {id : Nat} {s : EPSSession} {b : BearerContext} (h : c.Sized env)
    (hs : c.session id = .ok s) (hb : c.bearer s.defaultBearer = .ok b) :
    Within (c.sendActivateDefaultEPSBearerCtxtReq P env id) ↔ c.AcceptFits env s := by
  obtain ⟨_, -, hfind⟩ := deref_eq_ok.mp hs
  obtain ⟨hpdn, hpco⟩ := h.session s (List.mem_of_find?_eq_some hfind)
  rw [sendActivateDefaultEPSBearerCtxtReq, hs, ok_bind, hb, ok_bind, AcceptFits]
  by_cases hapn : 255 < c.subs.apn.length
  · simp [hapn, Nat.not_le.mpr hapn]
  rw [if_neg hapn, and_iff_right (Nat.not_lt.mp hapn)]
  rcases pdnAddress_cases hpdn with ⟨paa, hpaa, hlen, hle⟩ | ⟨⟨text, hpaa⟩, hlen⟩
  · simp only [hpaa, ok_bind, hlen, Option.mem_some, forall_eq']
    generalize hm : (_ ++ _ : List UInt8) = m
    have hlength : m.length = c.activateDefaultLength s paa.length := by
      rw [← hm]
      exact length_activateDefault rfl hle hpco
    rw [← hlength]
    by_cases hlong : 356 < m.length
    · simp [hlong, Nat.not_le.mpr hlong]
    · rw [if_neg hlong, within_emmAttachAccept h]
      exact (and_iff_right (Nat.not_lt.mp hlong)).symm
  · simp [hpaa, hlen]

theorem within_sendActivateDefault (h : c.Sized env) (id : Nat) :
    Within (c.sendActivateDefaultEPSBearerCtxtReq P env id) ↔ (BufferUse.attachAccept id).Fits env c := by
  constructor
  · intro hw s b hs hb
    exact (within_sendActivateDefault_of h hs hb).mp hw
  · intro hfits
    refine avoids_bind.mpr ⟨avoids_deref, fun s hs => avoids_bind.mpr ⟨avoids_deref, fun b hb => ?_⟩⟩
    have hw := (within_sendActivateDefault_of (P := P) h hs hb).mpr (hfits s b hs hb)
    rw [sendActivateDefaultEPSBearerCtxtReq, hs, ok_bind, hb] at hw
    exact hw

/-- Whether the buffers are large enough. -/
theorem within_iff (h : c.Sized env) (use : BufferUse) : Within (use.run P env c) ↔ use.Fits env c := by
  cases use with
  | attachRequest msg hmsg => exact within_processAttach hmsg
  | trackingAreaUpdateRequest msg _ => exact within_emmProcessTAUReq
  | identityResponse msg hmsg => exact iff_of_true (within_processIdentityRsp hmsg) trivial
  | securityModeCommand => exact within_emmSendSecurityModeCommand
  | attachAccept id => exact within_sendActivateDefault h id
  | attachReject cause => exact iff_of_true (avoids_emmSendAttachReject cause) trivial

/-- An Attach Request of the sample UE with a UE network capability of `n` octets. -/
def Sample.attachWith (n : Nat) : List UInt8 :=
  [0x07, 0x41, 0x71, 0x08, 0x29, 0x80, 0x39, 0x00, 0x00, 0x00, 0x00, 0x10, UInt8.ofNat n] ++ List.replicate n 0xe0 ++
    [0x00, 0x04, 0x02, 0x01, 0xd0, 0x11]

/-- Six octets are stored by the attach and overrun the field of the Security Mode Command; 16 overrun the context. -/
theorem not_within :
    (∃ c, Run (step Prims.zeroKasme) (fun _ _ => True) Sample.init
        [(Sample.env (.vector (Sample.quadruplet (List.replicate 32 0))), Sample.uplink (Sample.attachWith 6))] c ∧
      ¬ Within (BufferUse.securityModeCommand.run Prims.zeroKasme (Sample.env .manyRows) c)) ∧
    ∃ h, ¬ Within ((BufferUse.attachRequest (decNAS (.ofList (Sample.attachWith 16)) 35).2 h).run Prims.zeroKasme
      (Sample.env .manyRows) Sample.init) := by
  have hdecoded : Decoded attachRequest (decNAS (.ofList (Sample.attachWith 16)) 35).2 := decoded_decNAS rfl rfl rfl
  refine ⟨Run.exists_of_exec (·.ueCapabilitiesLen = 6) (by decide +kernel) fun c _ hlen h => ?_, hdecoded, fun h => ?_⟩
  · have hle := within_emmSendSecurityModeCommand.mp h
    omega
  · exact absurd ((within_processAttach hdecoded).mp h).1 (by decide +kernel)

/-- The two octets of the sample UE are stored. -/
theorem within_iff_attach :
    ∃ h, Within ((BufferUse.attachRequest (decNAS (.ofList (Sample.attachWith 2)) 21).2 h).run Prims.zeroKasme
      (Sample.env .manyRows) Sample.init) := by
  have hsized : Sample.init.Sized (Sample.env .manyRows) := by
    refine ⟨fun e he => ?_, ⟨rfl, rfl⟩, rfl, fun s hs => absurd hs List.not_mem_nil⟩
    cases he
    exact ⟨rfl, rfl⟩
  refine ⟨decoded_decNAS rfl rfl rfl, (within_iff hsized _).mpr ⟨by decide +kernel, fun o ho => ?_⟩⟩
  have hnone : nasNASOptLookup (decNAS (.ofList (Sample.attachWith 2)) 21).2 attachRequestOptionals 17 0x31 = none := by
    decide +kernel
  rw [hnone] at ho
  cases ho

/-! ## Uninitialised memory -/

/-- The plain message that is kept for retransmission. -/
def accepted (c : EMMCtx) : Option (List UInt8) := (c.activeTimers .t3450).map (·.msg)

/-- The M-TMSI of the GUTI in an Attach Accept with an ESM message of `n` octets. -/
def gutiMtmsi (n : Nat) (m : List UInt8) : List UInt8 := (m.drop (22 + n)).take 4

/-- The M-TMSI of the MS identity, if there is one. -/
def msIdentityMtmsi (n : Nat) (m : List UInt8) : Option (List UInt8) :=
  if (m.drop (32 + n)).take 3 = [0x23, 5, 0xF4] then some ((m.drop (35 + n)).take 4) else none

/-- The plain message is kept with T3450. -/
theorem post_emmAttachAcceptSPI {e : ECMSession} {b : EMMCtx} (hstart : c.attachStarted = true)
    (he : c.derefEcm env = .ok e) (hb : { c with attachStarted := false }.emmCtxNewGUTI P env = .ok b) (esmMsg : List UInt8)
    (sessions : List Nat) : Post (c.emmAttachAcceptSPI P env esmMsg sessions) fun d =>
      d.accepted = some (b.attachAcceptPlain env e esmMsg) := by
  have he' : { c with attachStarted := false }.derefEcm env = .ok e := he
  simp only [emmAttachAcceptSPI, hstart, Bool.not_true, Bool.false_eq_true, if_false, he', ok_bind, hb]
  refine .ite (fun _ => .error) fun _ => .of_bind fun r => ?_
  have haccepted : (emmSetTimer r.1 .t3450 (b.attachAcceptPlain env e esmMsg)).accepted =
      some (b.attachAcceptPlain env e esmMsg) := by simp [accepted, emmSetTimer]
  exact post_ecmSendCtxtSUReq haccepted fun _ _ _ _ _ _ _ _ => haccepted

/-- The Attach Accept has no MS identity. -/
def NoMsIdentity (c : EMMCtx) : Prop := c.attachResult ≠ 2 ∨ (c.msg.additionalUpdateType && c.msg.smsOnly) = true

theorem attachAcceptPlain_of_noMsIdentity (h : c.NoMsIdentity) (env env' : Env) (e : ECMSession) (esmMsg : List UInt8) :
    c.attachAcceptPlain env e esmMsg = c.attachAcceptPlain env' e esmMsg := by
  rw [attachAcceptPlain, attachAcceptPlain]
  rcases h with hresult | hsms
  · rw [if_neg hresult, if_neg hresult]
  · rw [combinedResult, combinedResult, if_pos hsms, if_pos hsms]

theorem attachAcceptPlain_ne (h : ¬ c.NoMsIdentity) {env env' : Env} (hjunk : env.junk ≠ env'.junk) (e : ECMSession)
    (esmMsg : List UInt8) : c.attachAcceptPlain env e esmMsg ≠ c.attachAcceptPlain env' e esmMsg := by
  rw [NoMsIdentity, not_or, not_not] at h
  intro heq
  rw [attachAcceptPlain, attachAcceptPlain, if_pos h.1, if_pos h.1] at heq
  replace heq := List.append_cancel_left heq
  simp only [combinedResult, h.2] at heq
  replace heq := List.append_cancel_left (List.append_cancel_right heq)
  exact hjunk (List.cons.inj heq).1

theorem msIdentityMtmsi_of_noMsIdentity (h : c.NoMsIdentity) {e : ECMSession} (he : e.sn.length = 3 ∧ e.tAC.length = 2)
    (hguti : c.guti.octets.length = 10) (esmMsg : List UInt8) :
    msIdentityMtmsi esmMsg.length (c.attachAcceptPlain env e esmMsg) = none := by
  have hlength : (c.attachAcceptPlain env e esmMsg).length ≤ 32 + esmMsg.length := by
    rw [length_attachAcceptPlain he hguti, attachAcceptLength]
    rcases h with hresult | hsms
    · rw [if_neg hresult]
      omega
    · split_ifs <;> omega
  rw [msIdentityMtmsi, List.drop_eq_nil_of_le hlength]
  rfl

/-- An MS identity is filled with what was on the stack; nothing else is. -/
theorem downlink_content_iff (hsized : c.Sized env) (hstart : c.attachStarted = true) {esmMsg : List UInt8}
    {sessions : List Nat} (hok : ∀ junk, ∃ d, c.emmAttachAcceptSPI P { env with junk } esmMsg sessions = .ok d)
    (cause : UInt8) :
    ((∀ junk junk' d d', c.emmAttachAcceptSPI P { env with junk } esmMsg sessions = .ok d →
        c.emmAttachAcceptSPI P { env with junk := junk' } esmMsg sessions = .ok d' → d.accepted = d'.accepted) ∧
      (∀ junk d, c.emmAttachAcceptSPI P { env with junk } esmMsg sessions = .ok d → ∀ m ∈ d.accepted,
        ∀ mtmsi ∈ msIdentityMtmsi esmMsg.length m, mtmsi = gutiMtmsi esmMsg.length m) ∧
      ∀ junk, c.emmSendTAUAccept P { env with junk } = c.emmSendTAUAccept P env ∧
        c.emmSendAttachReject P { env with junk } cause = c.emmSendAttachReject P env cause ∧
        c.emmDetachAccept { env with junk } = c.emmDetachAccept env ∧
        c.sendAuthReject { env with junk } = c.sendAuthReject env) ↔ c.NoMsIdentity := by
  obtain ⟨e, he, b, hb⟩ : ∃ e, c.derefEcm env = .ok e ∧
      ∃ b, { c with attachStarted := false }.emmCtxNewGUTI P env = .ok b := by
    obtain ⟨d, hd⟩ := hok env.junk
    simp only [emmAttachAcceptSPI, hstart, Bool.not_true, Bool.false_eq_true, if_false] at hd
    obtain ⟨e, he, hd⟩ := bind_eq_ok.mp hd
    obtain ⟨b, hb, -⟩ := bind_eq_ok.mp hd
    exact ⟨e, he, b, hb⟩
  have haccepted : ∀ junk d, c.emmAttachAcceptSPI P { env with junk } esmMsg sessions = .ok d →
      d.accepted = some (b.attachAcceptPlain { env with junk } e esmMsg) := by
    intro junk
    have he' : c.derefEcm { env with junk } = .ok e := he
    exact post_emmAttachAcceptSPI hstart he' hb esmMsg sessions
  have hsized' : Sized env { c with attachStarted := false } := ⟨hsized.ecm, hsized.guti, hsized.mmegi, hsized.session⟩
  obtain ⟨hoctets, hresult, hmsg⟩ := post_emmCtxNewGUTI hsized' b hb
  have hiff : b.NoMsIdentity ↔ c.NoMsIdentity := by rw [NoMsIdentity, hresult, hmsg, NoMsIdentity]
  constructor
  · rintro ⟨hequal, -⟩
    by_contra hno
    obtain ⟨d, hd⟩ := hok 0
    obtain ⟨d', hd'⟩ := hok 1
    have heq := hequal 0 1 d d' hd hd'
    rw [haccepted 0 d hd, haccepted 1 d' hd'] at heq
    exact attachAcceptPlain_ne (mt hiff.mp hno) (show (0 : UInt8) ≠ 1 by decide) e esmMsg (Option.some.inj heq)
  · intro hno
    refine ⟨fun junk junk' d d' hd hd' => ?_, fun junk d hd m hm mtmsi hmtmsi => ?_, fun _ => ⟨rfl, rfl, rfl, rfl⟩⟩
    · rw [haccepted junk d hd, haccepted junk' d' hd']
      exact congrArg some (attachAcceptPlain_of_noMsIdentity (hiff.mpr hno) _ _ e esmMsg)
    · rw [haccepted junk d hd] at hm
      cases hm
      rw [msIdentityMtmsi_of_noMsIdentity (hiff.mpr hno) (hsized.ecm e he) hoctets] at hmtmsi
      cases hmtmsi

def Sample.createSessionResponse : EMMEvent :=
  Sample.s11 33 0 [⟨87, 0, [0x8b, 0, 0, 0, 9, 10, 0, 0, 1]⟩, ⟨79, 0, [1, 10, 0, 0, 7]⟩,
    ⟨93, 0, [73, 0, 1, 0, 5, 87, 0, 9, 0, 0x81, 0, 0, 0, 3, 10, 0, 0, 1]⟩]

/-- The authentication of the sample UE in a combined attach. -/
def Sample.combinedAttach : List (Env × EMMEvent) :=
  (Sample.env (.vector (Sample.quadruplet (List.replicate 32 0))),
    Sample.uplink [0x07, 0x41, 0x72, 0x08, 0x29, 0x80, 0x39, 0x00, 0x00, 0x00, 0x00, 0x10, 0x02, 0xe0, 0xe0, 0x00,
      0x04, 0x02, 0x01, 0xd0, 0x11]) :: Sample.authentication.tail

/-- The sample UE asks for a combined attach, and the Attach Accept has four octets of the stack in it. -/
theorem not_downlink_content :
    ∃ c, Run (step Prims.zeroKasme) (fun _ _ => True) Sample.init Sample.combinedAttach c ∧
      ((c.step Prims.zeroKasme ({ Sample.env .manyRows with junk := 0 }, Sample.createSessionResponse)).toOption.bind
        accepted) ≠
      ((c.step Prims.zeroKasme ({ Sample.env .manyRows with junk := 1 }, Sample.createSessionResponse)).toOption.bind
        accepted) :=
  Run.exists_of_exec _ (by decide +kernel) fun _ _ => id

/-- A combined attach for SMS only, with the null integrity algorithm. -/
def Sample.smsOnly : EMMCtx :=
  { (Sample.init.newSession 1 none).1 with
    stateName := .specificProcedureInitiated
    attachStarted := true
    attachResult := 2
    msg.additionalUpdateType := true
    msg.smsOnly := true
    parser := nasSetSecurity Prims.zeroKasme nasNewHandler .eia0 .eea0 (List.replicate 32 0)
    sci := true }

theorem downlink_content_smsOnly :
    ∃ d d', Sample.smsOnly.emmAttachAcceptSPI Prims.zeroKasme { Sample.env .manyRows with junk := 0 } [] [1] = .ok d ∧
      Sample.smsOnly.emmAttachAcceptSPI Prims.zeroKasme { Sample.env .manyRows with junk := 1 } [] [1] = .ok d' ∧
        d.accepted = d'.accepted := by
  have hsized : Sample.smsOnly.Sized (Sample.env .manyRows) := by
    refine ⟨fun e he => ?_, ⟨rfl, rfl⟩, rfl, fun s hs => ?_⟩
    · cases he
      exact ⟨rfl, rfl⟩
    · rw [List.mem_singleton.mp hs]
      refine ⟨rfl, fun _ hpco => ?_⟩
      cases hpco
  have hok : ∀ junk, ∃ d,
      Sample.smsOnly.emmAttachAcceptSPI Prims.zeroKasme { Sample.env .manyRows with junk } [] [1] = .ok d :=
    fun junk => ⟨_, rfl⟩
  obtain ⟨d, hd⟩ := hok 0
  obtain ⟨d', hd'⟩ := hok 1
  exact ⟨d, d', hd, hd', ((downlink_content_iff hsized rfl hok 0).mpr (.inr rfl)).1 0 1 d d' hd hd'⟩

end EMMCtx

end AaltoMME
