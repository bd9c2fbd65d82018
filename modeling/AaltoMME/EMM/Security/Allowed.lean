import AaltoMME.EMM.Changes.Model
import AaltoMME.EMM.Security.Model

/-!
# What an event may do

`Allowed` says of an event and of the context that it finds what is needed for the doubtful changes of the
security part: an event that is allowed makes only those that `R` permits.
-/

namespace AaltoMME

open Base NAS

variable {P : Prims} {R : Risk} {env : Env} {c d : EMMCtx}

namespace EMMCtx

/-! ## The messages that the states go on with -/

/-- `nas_authenticateMsg` sets `isAuth` for the PDU. -/
def Authenticates (P : Prims) (c : EMMCtx) (buf : Mem) (size : UInt64) : Prop :=
  ∃ r, nasAuthenticateMsg P c.parser buf size.toUInt32 .upLink = .ok r ∧ r.isAuth = true

/-- The message that the handlers of the states with a security context go on with. -/
def receivedMsg (P : Prims) (c : EMMCtx) (buf : Mem) (size : UInt64) : Option GenericNASMsg :=
  match c.receiveSecMsg P true buf size with
  | .ok (_, some (msg, _)) => some msg
  | _ => none

theorem mem_receivedMsg {buf : Mem} {size : UInt64} {msg : GenericNASMsg} {isAuth : Bool}
    (h : c.receiveSecMsg P true buf size = .ok (d, some (msg, isAuth))) :
    msg ∈ c.receivedMsg P buf size := by
  simp [receivedMsg, h]

theorem receivedMsg_congr (h : d.parser = c.parser) (buf : Mem) (size : UInt64) :
    d.receivedMsg P buf size = c.receivedMsg P buf size := by
  unfold receivedMsg
  rw [receiveSecMsg_congr h]
  rcases c.receiveSecMsg P true buf size with e | ⟨d, _ | _⟩ <;> rfl

/-- A PDU with the header type of a Security Mode Complete authenticates and is one. -/
def IsSecurityModeComplete (P : Prims) (c : EMMCtx) (buf : Mem) (size : UInt64) : Prop :=
  (nasGetHeader buf size.toUInt32).map Prod.fst =
      some .integrityProtectedAndCipheredWithNewEPSSecurityContext ∧
    ∃ msg ∈ c.receivedMsg P buf size, msg.emmMessageType = securityModeComplete

instance (P : Prims) (c : EMMCtx) (buf : Mem) (size : UInt64) :
    Decidable (c.IsSecurityModeComplete P buf size) :=
  inferInstanceAs (Decidable (_ ∧ _))

/-- The message that EMM_CommonProcedureInitiated goes on with. -/
def commonMsg (P : Prims) (c : EMMCtx) (buf : Mem) (size : UInt64) : Option GenericNASMsg :=
  match nasGetHeader buf size.toUInt32 with
  | none => none
  | some (s, _) =>
    if s = .plainNAS then some (decNAS buf size).2
    else if s.isProtected then
      match c.receiveSecMsg P (c.sci || s == .integrityProtectedAndCipheredWithNewEPSSecurityContext) buf size with
      | .ok (_, some (msg, _)) => some msg
      | _ => none
    else none

theorem mem_commonMsg {s : SecurityHeaderType} {p : UInt8} {buf : Mem} {size : UInt64} {msg : GenericNASMsg}
    {isAuth : Bool} (hhead : nasGetHeader buf size.toUInt32 = some (s, p)) (hs : s.isProtected = true)
    (h : c.receiveSecMsg P (c.sci || s == .integrityProtectedAndCipheredWithNewEPSSecurityContext) buf size =
      .ok (d, some (msg, isAuth))) : msg ∈ c.commonMsg P buf size := by
  have hne : s ≠ .plainNAS := by
    rintro rfl
    cases hs
  simp [commonMsg, hhead, hne, hs, h]

theorem commonMsg_congr (h : d.parser = c.parser) (hsci : d.sci = c.sci) (buf : Mem) (size : UInt64) :
    d.commonMsg P buf size = c.commonMsg P buf size := by
  unfold commonMsg
  cases nasGetHeader buf size.toUInt32 with
  | none => rfl
  | some sp =>
    simp only [receiveSecMsg_congr h, hsci]
    split
    · rfl
    · rcases c.receiveSecMsg P (c.sci || sp.1 == _) buf size with e | ⟨d, _ | _⟩ <;> rfl

/-- A message that starts a procedure of a UE with a security context, or ends the one that set it up. -/
def Starts (P : Prims) (c : EMMCtx) (buf : Mem) (size : UInt64) : Prop :=
  ∃ msg ∈ c.receivedMsg P buf size, msg.emmMessageType = securityModeComplete ∨
    msg.emmMessageType = attachRequest ∨ msg.emmMessageType = trackingAreaUpdateRequest

/-- A message with the header of a Service Request. -/
def IsServiceRequest (buf : Mem) (size : UInt64) : Prop :=
  (nasGetHeader buf size.toUInt32).map Prod.fst = some .serviceRequest

/-! ## Uplink messages -/

/-- The ECM session of a context points back to it. -/
def Bound (env : Env) (c : EMMCtx) : Prop := ∀ id e, c.ecm = some id → env.ecms id = some e → e.emm = some c.self

/-- An authentication run does not leave a served UE without a security context, unless `R` allows
it. -/
def AkaAllowed (R : Risk) (env : Env) (c : EMMCtx) : Prop :=
  c.authQuadrsLen = 0 → env.hssAuth = .noRows → c.stateName = .deregistered ∨ R.stay

/-- A Detach Request that is received under a security context announces a switch off, unless `R`
allows a plain Detach Accept. -/
def DetachAllowed (P : Prims) (R : Risk) (c : EMMCtx) (buf : Mem) (size : UInt64) : Prop :=
  ∀ msg ∈ c.receivedMsg P buf size,
    msg.emmMessageType = detachRequest → (c.sci = false ∨ R.plainSend) ∨ msg 3 &&& 0x8 = 0x8

/-- `R` knows the COUNT of a message that starts a procedure, or of a Service Request, if it is authenticated. -/
def AcceptedAs (P : Prims) (R : Risk) (c : EMMCtx) (buf : Mem) (size : UInt64) : Prop :=
  ∀ r, nasAuthenticateMsg P c.parser buf size.toUInt32 .upLink = .ok r → r.isAuth = true →
    (c.stateName ≠ .specificProcedureInitiated → c.Starts P buf size →
      R.accepted c.kasme (nasGetLastCount r.handler .upLink)) ∧
    (c.stateName = .registered → IsServiceRequest buf size →
      R.service c.kasme (nasGetLastCount r.handler .upLink))

/-- An Authentication Failure finds a quadruplet, unless `R` allows that there is none. -/
def Answers (P : Prims) (R : Risk) (c : EMMCtx) (buf : Mem) (size : UInt64) : Prop :=
  ∀ msg ∈ c.commonMsg P buf size, msg.emmMessageType = authenticationFailure →
    c.authQuadrs ≠ [] ∨ R.unanswered

/-- What an uplink message must not do unless `R` allows it, and what `R` knows of it. -/
structure UplinkAllowed (P : Prims) (R : Risk) (env : Env) (c : EMMCtx) (buf : Mem) (size : UInt64) :
    Prop where
  esm : (∃ msg, msg ∈ c.esmMsg P (env, .uplink buf size)) → R.esm
  bound : R.bound → c.Bound env
  accepted : c.AcceptedAs P R buf size
  answers : c.stateName = .commonProcedureInitiated → c.Answers P R buf size
  aka : c.stateName = .registered → c.AkaAllowed R env
  detach : c.DetachAllowed P R buf size
  stale : c.stateName = .commonProcedureInitiated → c.IsSecurityModeComplete P buf size →
    (∃ q, keyedSince c.trace = some q) ∨ R.stale

theorem UplinkAllowed.any (env : Env) (c : EMMCtx) (buf : Mem) (size : UInt64) :
    UplinkAllowed P .any env c buf size where
  esm _ := trivial
  bound := nofun
  accepted _ _ _ := ⟨fun _ _ => trivial, fun _ _ => trivial⟩
  answers _ _ _ _ := .inr trivial
  aka _ _ _ := .inr trivial
  detach _ _ _ := .inl (.inr trivial)
  stale _ _ := .inr trivial

/-! ## Every event -/

/-- The Detach Accept is not sent as a plain message under a security context, unless `R` allows
it. -/
def AcceptAllowed (R : Risk) (c : EMMCtx) : Prop :=
  (c.sci = false ∨ R.plainSend) ∨ c.msg.detachType &&& 0x8 = 0x8

/-- What a packet of the serving gateway must not do unless `R` allows it, and what `R` knows of the
connection. -/
structure S11Allowed (R : Risk) (env : Env) (c : EMMCtx) : Prop where
  accept : c.esm.cb = true → c.AcceptAllowed R
  bound : R.bound → c.Bound env

/-- What an event must not do unless `R` allows it. -/
def Allowed (P : Prims) (R : Risk) (c : EMMCtx) : Env × EMMEvent → Prop
  | (env, .uplink buf size) => UplinkAllowed P R env c buf size
  | (env, .s11 _) => S11Allowed R env c
  | (_, .registerECM _) | (_, .deregister) => R.rebind
  | _ => True

/-- The context is as in every run, and the event is allowed. -/
structure Admits (P : Prims) (R : Risk) (c : EMMCtx) (e : Env × EMMEvent) : Prop where
  coherent : c.sec.Coherent
  allowed : c.Allowed P R e

namespace Admits

variable {e : Env × EMMEvent}

theorem uplink (h : c.Admits P R e) {buf : Mem} {size : UInt64} (he : e.2 = .uplink buf size) :
    UplinkAllowed P R e.1 c buf size := by
  obtain ⟨env, ev⟩ := e
  obtain rfl := he
  exact h.allowed

theorem s11 (h : c.Admits P R e) {pkt : GtpPacket} (he : e.2 = .s11 pkt) : S11Allowed R e.1 c := by
  obtain ⟨env, ev⟩ := e
  obtain rfl : ev = .s11 pkt := he
  exact h.allowed

theorem esm (h : c.Admits P R e) {msg : GenericNASMsg} (hmsg : msg ∈ c.esmMsg P e) : R.esm := by
  obtain ⟨env, ev⟩ := e
  cases ev with
  | uplink => exact h.allowed.esm ⟨msg, hmsg⟩
  | _ => cases hmsg

theorem aka (h : c.Admits P R e) {m : GenericNASMsg × Bool} (hm : m ∈ c.takes P e)
    (hs : c.stateName = .deregistered ∨ c.stateName = .registered) : c.AkaAllowed R e.1 := by
  obtain ⟨env, ev⟩ := e
  cases ev with
  | uplink => exact hs.elim (fun hs _ _ => .inl hs) h.allowed.aka
  | _ => cases hm

/-- EMM_CommonProcedureInitiated leaves no message to the ESM layer. -/
theorem answers (h : c.Admits P R e) {m : GenericNASMsg × Bool} (hm : m ∈ c.takes P e)
    (hs : c.stateName = .commonProcedureInitiated) (htype : m.1.emmMessageType = authenticationFailure) :
    c.authQuadrs ≠ [] ∨ R.unanswered := by
  obtain ⟨env, ev⟩ := e
  cases ev with
  | uplink buf size =>
    refine h.allowed.answers hs m.1 ?_ htype
    simp only [takes, authenticates, leavesToESM, hs] at hm
    unfold commonMsg
    cases hhead : nasGetHeader buf size.toUInt32 with
    | none =>
      rw [hhead] at hm
      cases hm
    | some q =>
      rw [hhead] at hm
      dsimp only at hm ⊢
      split at hm
      · rename_i hplain
        cases hm
        rw [if_pos hplain]
        rfl
      · rename_i hplain
        rw [if_neg hplain]
        split at hm
        · rename_i hprot
          rw [if_pos hprot]
          split at hm
          · rename_i d m' hr
            obtain ⟨rfl, -⟩ := Option.mem_filter_iff.mp hm
            rw [hr]
            rfl
          · cases hm
        · cases hm
  | _ => cases hm

end Admits

end EMMCtx

end AaltoMME
