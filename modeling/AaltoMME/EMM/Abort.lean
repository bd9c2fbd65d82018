import AaltoMME.EMM.Security.Exemption

/-!
# What aborts the MME

`g_error` and a failed `g_assert` end the process, with every UE in it.  This module follows an uplink
PDU through `emm_processMsg` and collects the conditions under which it gets to one of them.  The
functions below the state handlers never do, apart from `esm_processMsg`, which asserts the protocol
discriminator of the message, and from failures of the network and of the database, which the
hypotheses `hsend` and `hsync` exclude: they are not the doing of a UE.
-/

namespace AaltoMME

open Base NAS

/-- The computation does not end in a `g_error` or a failed `g_assert`. -/
abbrev NoAbort {α : Type} (x : Outcome α) : Prop := Avoids Fault.IsAbort x

/-- Failures other than the use of a bad pointer and of an unset variable. -/
class Fault.Sparing (B : Fault → Prop) : Prop where
  nullDeref : ¬ B .nullDeref
  nullCall : ¬ B .nullCall
  useAfterFree : ¬ B .useAfterFree
  uninitialised : ¬ B .uninitialised

instance : Fault.Sparing Fault.IsAbort := ⟨not_false, not_false, not_false, not_false⟩

variable {P : Prims} {env : Env} {c d : EMMCtx} {B : Fault → Prop} [Fault.Sparing B]

theorem avoids_deref {α : Type} {heap : Nat → Option α} {q : Option Nat} : Avoids B (deref heap q) := by
  unfold deref
  split
  · exact avoids_error.mpr Fault.Sparing.nullDeref
  · split
    · exact avoids_error.mpr Fault.Sparing.useAfterFree
    · exact .ok

/-! ## The NAS library -/

namespace NAS

theorem avoids_eiaCb (i : NASEIA) (k count : List UInt8) (bearer direction : UInt8) (msg : Mem)
    (mLen : Nat) : Avoids B (eiaCb P i k count bearer direction msg mLen) := by
  cases i with
  | eia2 =>
    obtain ⟨mac, hmac⟩ := eia2_eq_ok (P := P) k count bearer direction msg mLen
    simp [eiaCb, hmac]
  | eia0 => exact .ok
  | _ => exact avoids_error.mpr Fault.Sparing.nullCall

theorem avoids_eeaCb (e : NASEEA) (text : Mem) : Avoids B (eeaCb e text) := by
  cases e with
  | eea0 => exact .ok
  | _ => exact avoids_error.mpr Fault.Sparing.nullCall

theorem avoids_newNASMsgSec (h : NASHandler) (p : UInt8) (s : SecurityHeaderType)
    (direction : NASDirection) (plain : List UInt8) : Avoids B (newNASMsgSec P h p s direction plain) := by
  have hmac : ∀ count buf mLen, Avoids B (do
      let mac ← eiaCb P h.i h.ikey count 0 direction.octet (Mem.ofList buf) mLen
      Except.ok (some (nasIncrementNASCount h .downLink,
        ((p &&& (0x0F : UInt8)) ||| (s.octet <<< 4)) :: (mac ++ buf.take ((plain.length + 1) % 256))))) := fun _ _ _ =>
    (avoids_eiaCb _ _ _ _ _ _ _).bind fun _ => .ok
  refine .ite (fun _ => .ok) fun _ => .ite (fun _ => .ok) fun _ => ?_
  split
  · refine .bind ?_ fun _ => hmac _ _ _
    exact (avoids_eeaCb _ _).bind fun _ => .ok
  · exact hmac _ _ _

theorem noAbort_nasAuthenticateMsg (h : NASHandler) (buf : Mem) (size : UInt32)
    (direction : NASDirection) : NoAbort (nasAuthenticateMsg P h buf size direction) := by
  refine .ite (fun _ => .ok) fun _ => ?_
  split
  · simp
  refine .ite (fun _ => ?_) fun _ => .ite (fun _ => ?_) fun _ => .ok
  · refine .ite (fun _ => .ok) fun _ => (avoids_eiaCb _ _ _ _ _ _ _).bind fun _ => ?_
    exact .ite (fun _ => .ok) fun _ => .ok
  · refine .ite (fun _ => .ok) fun _ => (avoids_eiaCb _ _ _ _ _ _ _).bind fun _ => ?_
    exact .ite (fun _ => .ok) fun _ => .ok

theorem noAbort_decSecNAS (h : NASHandler) (buf : Mem) (size : UInt64) :
    NoAbort (decSecNAS h buf size) := by
  unfold decSecNAS
  split
  · simp
  refine .ite (fun _ => .ok) fun _ => .ite (fun _ => .ok) fun _ =>
    Avoids.ite (fun _ => .ok) fun _ => .ite (fun _ => by simp) fun _ => ?_
  exact (avoids_eeaCb _ _).bind fun _ => .ok

end NAS

/-! ## Requests to the serving gateway -/

namespace EMMCtx

section Sending

variable (hsend : env.sendto = true)

include hsend

theorem noAbort_s11Request (u : S11User) (req : S11Request) : NoAbort (c.s11Request env u req) := by
  refine .bind ?_ fun ⟨s, u, seq⟩ => .bind ?_ fun _ => .ok
  · exact .ite (fun _ => by simp) fun _ => .ok
  · simp [s11Send, hsend]

theorem noAbort_sendCreateSessionReq (u : S11User) : NoAbort (c.sendCreateSessionReq env u) := by
  refine avoids_deref.bind fun ecm => avoids_deref.bind fun session => avoids_deref.bind fun bearer => ?_
  cases c.s11.isFirstSession u.rAddr
  exact noAbort_s11Request hsend _ _

omit hsend in
theorem noAbort_s11Operation {p : Option Nat} {cb : Option S11Cb} {from? : S11State → Bool}
    {send : EMMCtx → S11User → Outcome (EMMCtx × S11User)} {next : S11State}
    (h : ∀ u, NoAbort (send c u)) : NoAbort (c.s11Operation p cb from? send next) := by
  refine avoids_deref.bind fun u => .ite (fun _ => ?_) fun _ => .ok
  exact (h _).bind fun _ => .ok

theorem noAbort_s11Detach (p : Option Nat) (cb : Option S11Cb) : NoAbort (c.s11Detach env p cb) :=
  noAbort_s11Operation (noAbort_s11Request hsend · _)

theorem noAbort_s11NewUserAttach (session : Nat) (cb : S11Cb) :
    NoAbort (c.s11NewUserAttach env session cb) := by
  refine .bind ?_ fun _ => .ok
  exact noAbort_s11Operation (noAbort_sendCreateSessionReq hsend)

theorem noAbort_esmErrorEMM : NoAbort (c.esmErrorEMM env) := by
  refine (Avoids.foldlM (fun d id => ?_) _ _).bind fun _ => Avoids.ok
  exact avoids_deref.bind fun s => noAbort_s11Detach hsend _ _

theorem noAbort_emmStop : NoAbort (c.emmStop env) :=
  (noAbort_esmErrorEMM hsend).bind fun _ => .ok

end Sending

/-! ## Downlink messages -/

theorem avoids_ecmSend (pdu : List UInt8) : Avoids B (c.ecmSend env pdu) := by
  unfold ecmSend
  split
  · exact .ok
  · exact avoids_deref.bind fun _ => .ok

theorem noAbort_ecmSendUEContextReleaseCommand (cause : ReleaseCause) :
    NoAbort (c.ecmSendUEContextReleaseCommand env cause) := by
  unfold ecmSendUEContextReleaseCommand
  split
  · exact .ok
  · exact avoids_deref.bind fun _ => .ok

theorem avoids_ofEcm (e : ECMSession) : Avoids B (c.ofEcm env e) :=
  Avoids.ite (fun _ => .ok) fun _ => avoids_deref

theorem avoids_emmCtxNewGUTI : Avoids B (c.emmCtxNewGUTI P env) :=
  Avoids.ite (fun _ => .ok) fun _ =>
    avoids_deref.bind fun e => (avoids_ofEcm e).bind fun _ => .ok

theorem avoids_ecmSendCtxtSUReq (pdu : Option (List UInt8)) (sessions : List Nat) :
    Avoids B (c.ecmSendCtxtSUReq P env pdu sessions) := by
  unfold ecmSendCtxtSUReq
  split
  · exact .ok
  refine avoids_deref.bind fun e => (avoids_ofEcm e).bind fun emm => ?_
  cases sessions with
  | nil => exact avoids_error.mpr Fault.Sparing.nullDeref
  | cons first _ => exact avoids_deref.bind fun _ => avoids_deref.bind fun _ => .ok

theorem avoids_emmNewNASMsgSec (s : SecurityHeaderType) (plain : List UInt8)
    {unset : Outcome (List UInt8)} (hu : Avoids B unset) :
    Avoids B (c.emmNewNASMsgSec P s plain unset) := by
  refine (avoids_newNASMsgSec _ _ _ _ _).bind fun o => ?_
  rcases o with _ | ⟨h, out⟩
  · exact hu.bind fun _ => .ok
  · exact .ok

theorem avoids_noLength : Avoids B noLength := avoids_error.mpr Fault.Sparing.uninitialised

theorem avoids_sendSec (s : SecurityHeaderType) (plain : List UInt8) {unset : Outcome (List UInt8)}
    (hu : Avoids B unset) : Avoids B (c.sendSec P env s plain unset) :=
  (avoids_emmNewNASMsgSec s plain hu).bind fun _ => avoids_ecmSend _

theorem avoids_sendIfSC (plain : List UInt8) {unset : Outcome (List UInt8)} (hu : Avoids B unset) :
    Avoids B (c.sendIfSC P env plain unset) :=
  Avoids.ite (fun _ => avoids_sendSec _ _ hu) fun _ => avoids_ecmSend _

theorem avoids_emmSendAttachReject (cause : UInt8) : Avoids B (c.emmSendAttachReject P env cause) :=
  Avoids.ite (fun _ => .ok) fun _ => avoids_sendIfSC _ avoids_noLength

theorem noAbort_emmSendServiceReject (cause : UInt8) : NoAbort (c.emmSendServiceReject P env cause) :=
  (avoids_sendIfSC _ avoids_noLength).bind fun _ => .ok

theorem noAbort_emmSendTAUReject (cause : UInt8) : NoAbort (c.emmSendTAUReject P env cause) :=
  avoids_sendIfSC _ Avoids.ok

theorem noAbort_emmSendESM (msg : List UInt8) : NoAbort (c.emmSendESM P env msg) := by
  unfold emmSendESM
  split
  · exact avoids_sendIfSC _ avoids_noLength
  · exact avoids_sendIfSC _ avoids_noLength
  · simp

theorem noAbort_firstAuthQuadruplet : NoAbort c.firstAuthQuadruplet := by
  unfold firstAuthQuadruplet
  split <;> simp

theorem noAbort_emmSendAuthRequest : NoAbort (c.emmSendAuthRequest env) :=
  noAbort_firstAuthQuadruplet.bind fun _ => (avoids_ecmSend _).bind fun _ => .ok

theorem noAbort_emmSendSecurityModeCommand : NoAbort (c.emmSendSecurityModeCommand P env) := by
  refine .bind ?_ fun _ => (avoids_sendSec _ _ avoids_noLength).bind fun _ => .ok
  exact .ite (fun _ => by simp) fun _ => .ok

theorem noAbort_emmSendTAUAccept : NoAbort (c.emmSendTAUAccept P env) :=
  avoids_deref.bind fun _ =>
    (avoids_emmNewNASMsgSec _ _ Avoids.ok).bind fun _ => avoids_ecmSend _

theorem noAbort_emmDetachAccept : NoAbort (c.emmDetachAccept env) := by
  unfold emmDetachAccept
  dsimp only
  split
  · exact (avoids_ecmSend _).bind fun _ => noAbort_ecmSendUEContextReleaseCommand _
  · exact noAbort_ecmSendUEContextReleaseCommand _

/-! ## Reading a request -/

theorem noAbort_imsiOfMobileId (v : Mem) (l : UInt8) : NoAbort (imsiOfMobileId v l) :=
  Avoids.ite (fun _ => by simp) fun _ => .ok

theorem noAbort_copyInto (size : Nat) (dst v : List UInt8) : NoAbort (copyInto size dst v) :=
  Avoids.ite (fun _ => by simp) fun _ => .ok

theorem noAbort_setUECapabilities (v : List UInt8) : NoAbort (c.setUECapabilities v) :=
  (noAbort_copyInto _ _ _).bind fun _ => .ok

theorem noAbort_setMsNetCap (msg : GenericNASMsg) (optionals maxOpts : Nat) :
    NoAbort (c.setMsNetCap msg optionals maxOpts) := by
  unfold setMsNetCap
  split
  · exact .ok
  · exact (noAbort_copyInto _ _ _).bind fun _ => .ok

theorem noAbort_getTAI : NoAbort (c.getTAI env) := avoids_deref.bind fun _ => Avoids.ok

theorem noAbort_processAttach (msg : GenericNASMsg) : NoAbort (c.processAttach msg) := by
  refine .bind ?_ fun d => ?_
  · exact .ite (fun _ => (noAbort_imsiOfMobileId _ _).bind fun _ => .ok) fun _ =>
      Avoids.ite (fun _ => .ok) fun _ => .ok
  · exact (noAbort_setUECapabilities _).bind fun _ => (noAbort_setMsNetCap _ _ _).bind fun _ => .ok

theorem noAbort_processDetachReq (msg : GenericNASMsg) : NoAbort (c.processDetachReq msg) := by
  unfold processDetachReq
  dsimp only
  split
  · exact (noAbort_imsiOfMobileId _ _).bind fun _ => .ok
  · exact .ok

theorem noAbort_emmProcessTAUReq (msg : GenericNASMsg) : NoAbort (c.emmProcessTAUReq msg) := by
  have htail : ∀ e : EMMCtx, NoAbort (do
      let e ← e.setMsNetCap msg trackingAreaUpdateRequestOptionals 22
      pure (e.setAdditionalUpdateType msg trackingAreaUpdateRequestOptionals 22)) := fun e =>
    (noAbort_setMsNetCap _ _ _).bind fun _ => .ok
  unfold emmProcessTAUReq
  dsimp only
  split
  · exact htail _
  · exact (noAbort_setUECapabilities _).bind fun _ => htail _

/-! ## Sessions -/

section Sessions

variable (hsend : env.sendto = true)

include hsend

theorem noAbort_activateDefault (id : Nat) (infoTxRequired : Bool) :
    NoAbort (c.activateDefault P env id infoTxRequired) := by
  refine avoids_deref.bind fun s => .ite (fun _ => noAbort_emmSendESM _) fun _ => ?_
  exact (noAbort_s11NewUserAttach hsend _ _).bind fun _ => .ok

/-- `esm_processMsg` asserts the protocol discriminator, and nothing else in it aborts. -/
theorem noAbort_esmProcessMsg_iff (msg : GenericNASMsg) :
    NoAbort (c.esmProcessMsg P env msg) ↔ msg.protocolDiscriminator = epsSessionManagementMessages := by
  unfold esmProcessMsg
  split
  · rename_i hne
    exact iff_of_false (fun h => (avoids_error.mp h) trivial) hne
  · rename_i heq
    refine iff_of_true (.ite (fun _ => noAbort_activateDefault hsend _ _) fun _ =>
      Avoids.ite (fun _ => ?_) fun _ => .ok) (not_not.mp heq)
    split
    · simp
    · exact noAbort_activateDefault hsend _ _

theorem noAbort_esmDetach : NoAbort (c.esmDetach env) := by
  unfold esmDetach
  dsimp only
  split
  · exact noAbort_emmDetachAccept
  · exact avoids_deref.bind fun s => noAbort_s11Detach hsend _ _

theorem noAbort_detachRequestCase (msg : GenericNASMsg) : NoAbort (c.detachRequestCase env msg) :=
  (noAbort_processDetachReq msg).bind fun _ =>
    Avoids.ite (fun _ => .ok) fun _ => noAbort_esmDetach hsend

/-! ## Authentication and key agreement -/

theorem noAbort_emmProcessS6aError (unknownEPSSubscription : Bool) :
    NoAbort (c.emmProcessS6aError P env unknownEPSSubscription) := by
  unfold emmProcessS6aError
  split
  · exact .ite (fun _ => avoids_emmSendAttachReject _) fun _ => .ok
  · split
    · exact (avoids_emmSendAttachReject _).bind fun _ => noAbort_emmStop hsend
    · exact noAbort_emmStop hsend
  · exact .ok

theorem noAbort_s6aGetAuthInformation : NoAbort (c.s6aGetAuthInformation P env) := by
  unfold s6aGetAuthInformation
  split
  · simp
  · exact noAbort_emmProcessS6aError hsend _
  · exact noAbort_emmSendAuthRequest
  · exact avoids_deref.bind fun _ => noAbort_emmSendAuthRequest

omit hsend in
theorem emmCtxNewGUTI_ksi : Post (c.emmCtxNewGUTI P env) fun d => d.ksi = c.ksi :=
  Post.ite (fun _ => .ok rfl) fun _ => .of_bind fun _ => .of_bind fun _ => .ok rfl

/-- The `g_error` at the end of `emm_triggerAKAprocedure` is not reached, since the key set identifier
was reset before. -/
theorem noAbort_emmTriggerAKAprocedure : NoAbort (c.emmTriggerAKAprocedure P env) := by
  refine .ite (fun _ => (avoids_ecmSend _).bind fun _ => .ok) fun _ => ?_
  refine avoids_bind.mpr ⟨avoids_emmCtxNewGUTI, fun d hd => ?_⟩
  have hksi : d.ksi = 7 := emmCtxNewGUTI_ksi d hd
  refine .ite (fun _ => noAbort_s6aGetAuthInformation hsend) fun _ => .ite (fun _ => ?_) fun hn => ?_
  · exact noAbort_emmSendAuthRequest.bind fun _ => .ok
  · simp [hksi] at hn

end Sessions

theorem noAbort_s6aSynchAuthVector (hsend : env.sendto = true) (hsync : env.hssSync ≠ .noResult) :
    NoAbort (c.s6aSynchAuthVector env) := by
  unfold s6aSynchAuthVector
  split
  · rename_i hno
    exact absurd hno hsync
  · exact noAbort_emmSendAuthRequest
  · exact noAbort_firstAuthQuadruplet.bind fun _ => noAbort_emmSendAuthRequest
  · exact noAbort_firstAuthQuadruplet.bind fun _ => noAbort_emmStop hsend
  · exact noAbort_firstAuthQuadruplet.bind fun _ => avoids_deref.bind fun _ => noAbort_emmSendAuthRequest

/-! ## The first ESM message -/

/-- The octets of an ESM message container decode to a message with the discriminator of ESM. -/
def ContainsESM (env : Env) (raw : List UInt8) : Prop :=
  (decNAS (env.heap raw) (UInt64.ofNat raw.length)).2.protocolDiscriminator =
    epsSessionManagementMessages

instance (env : Env) (raw : List UInt8) : Decidable (ContainsESM env raw) :=
  inferInstanceAs (Decidable (_ = _))

theorem noAbort_emmProcessFirstESMmsg_iff (hsend : env.sendto = true) :
    NoAbort (c.emmProcessFirstESMmsg P env) ↔ ∀ raw ∈ c.pendingESMmsg.head?, ContainsESM env raw := by
  unfold emmProcessFirstESMmsg
  split
  · rename_i hnil
    simp [hnil]
  · rename_i raw rest hcons
    simp only [avoids_bind, noAbort_esmProcessMsg_iff hsend]
    simp [hcons, ContainsESM]

theorem noAbort_s6aUpdateLocation_iff (hsend : env.sendto = true) :
    NoAbort (c.s6aUpdateLocation P env) ↔
      (env.hssLocation ≠ .noRow → ∀ raw ∈ c.pendingESMmsg.head?, ContainsESM env raw) := by
  unfold s6aUpdateLocation
  split
  · rename_i hl
    simp [hl, emmSelectGateways, noAbort_emmProcessFirstESMmsg_iff hsend]
  · rename_i hl
    simp [hl]
  · rename_i hl
    simp [hl, emmSelectGateways, noAbort_emmProcessFirstESMmsg_iff hsend]

end EMMCtx

end AaltoMME
