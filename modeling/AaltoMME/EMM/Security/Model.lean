import AaltoMME.EMM.Send
import AaltoMME.NAS.Replay
import Mathlib.Logic.Relation

/-!
# An abstract model of the security context

What the security properties of an EMM context depend on is small: the EMM state, the indicator `sci`,
the NAS handler, KASME with the COUNT it is used with, the quadruplets with the timer of the message that
asks for an answer to them, and what was done so far.  `SecStep` says how this part may change, one
elementary change at a time.  The properties are proved here, for every sequence of changes; that the
operations of the context only make such changes is proved in `AaltoMME.EMM.Security.Operations` and
`AaltoMME.EMM.Security.Step`.

Six of the changes are only possible if the corresponding field of `Risk` holds: an authentication run
that ends in the HSS while the UE is being served, a plain message sent under a security context, a
Security Mode Complete under keys of an earlier run, an ESM message that is processed, another ECM
session, and the removal of a quadruplet that is not there.
-/

namespace AaltoMME

open Base NAS Relation

/-- The part of a context that the security properties depend on, with its identity and its
connection. -/
structure SecView where
  stateName : EMMState
  sci : Bool
  parser : NASHandler
  trace : List Act
  self : Nat
  ecm : Option Nat
  kasme : List UInt8
  nasUlCountForSC : UInt32
  authQuadrs : List AuthQuadruplet
  authQuadrsLen : UInt64
  t3460 : Option EMMTimer

/-- The security part of a context. -/
def EMMCtx.sec (c : EMMCtx) : SecView where
  stateName := c.stateName
  sci := c.sci
  parser := c.parser
  trace := c.trace
  self := c.self
  ecm := c.ecm
  kasme := c.kasme
  nasUlCountForSC := c.nasUlCountForSC
  authQuadrs := c.authQuadrs
  authQuadrsLen := c.authQuadrsLen
  t3460 := c.activeTimers .t3460

namespace SecView

def log (v : SecView) (a : Act) : SecView := { v with trace := a :: v.trace }

/-- The states in which the UE is served: EMM_Registered and EMM_SpecificProcedureInitiated. -/
def Serving (v : SecView) : Prop :=
  v.stateName = .registered ∨ v.stateName = .specificProcedureInitiated

instance (v : SecView) : Decidable v.Serving := inferInstanceAs (Decidable (_ ∨ _))

end SecView

/-- The entries of the trace that carry no NAS PDU and no key and say nothing about the security context. -/
def Act.Neutral : Act → Prop
  | .ueContextRelease _ _ | .ueContextReleaseStored _ | .pathSwitchReqAck _ _ _ _ _ | .s11Send _ _ _ _
  | .paging | .registerEMMCtxt _ _ => True
  | _ => False

/-- A PDU that `newNASMsg_sec` built for the downlink with one of the four protected header types. -/
def Protected (P : Prims) (pdu : List UInt8) : Prop :=
  ∃ (h h' : NASHandler) (s : SecurityHeaderType) (plain : List UInt8), s.isProtected = true ∧
    newNASMsgSec P h epsMobilityManagementMessages s .downLink plain = .ok (some (h', pdu))

/-- The quadruplet that the handler was keyed with since the last removal of the security context,
in a trace with the newest entry first. -/
def keyedSince : List Act → Option AuthQuadruplet
  | [] => none
  | .removeCurrentSC :: _ => none
  | .authenticated _ q :: _ => some q
  | _ :: t => keyedSince t

/-- A timer that sends an Authentication Request again. -/
def EMMTimer.IsAuthRequest (t : EMMTimer) : Prop := t.msg.getD 1 0 = authenticationRequest

instance : DecidablePred EMMTimer.IsAuthRequest := fun t => inferInstanceAs (Decidable (t.msg.getD 1 0 = _))

/-- What a sequence of changes may do beyond the harmless ones, and what is known of the event that causes
them. -/
structure Risk where
  /-- An authentication run may end in the HSS while the UE is served. -/
  stay : Prop
  /-- A plain message may be sent under a security context. -/
  plainSend : Prop
  /-- A Security Mode Complete may be accepted under the keys of an earlier run. -/
  stale : Prop
  /-- An ESM message may be processed. -/
  esm : Prop
  /-- The context may be bound to another ECM session. -/
  rebind : Prop
  /-- A quadruplet may be removed when there is none. -/
  unanswered : Prop
  /-- The ECM session of the context points back to it. -/
  bound : Prop
  /-- KASME and the COUNT under which a message that starts or ends a procedure was accepted. -/
  accepted : List UInt8 → UInt32 → Prop
  /-- KASME and the COUNT under which a Service Request was accepted. -/
  service : List UInt8 → UInt32 → Prop

/-- Everything is allowed, and nothing is known of the event. -/
def Risk.any : Risk := ⟨True, True, True, True, True, True, False, fun _ _ => True, fun _ _ => True⟩

/-- The key of a context setup request is the one of this context. -/
def SecView.Keys (P : Prims) (R : Risk) (v : SecView) (n : UInt32) (req : CtxtSUReq) : Prop :=
  R.bound → n = v.nasUlCountForSC ∧ req.securityKey = EMMCtx.generateKeNB P v.kasme v.nasUlCountForSC

/-- The elementary changes of the security part of a context. -/
inductive SecStep (P : Prims) (R : Risk) (v : SecView) : SecView → Prop
  | log {a : Act} : a.Neutral → SecStep P R v (v.log a)
  | esmMessage {t p : UInt8} : R.esm → SecStep P R v (v.log (.esmMessage t p))
  | receive {buf : Mem} {size : UInt32} {r : AuthResult} :
      nasAuthenticateMsg P v.parser buf size .upLink = .ok r →
      SecStep P R v { v with parser := r.handler }
  | sendPlain {ecm : Option Nat} {pdu : List UInt8} : v.sci = false ∨ R.plainSend →
      SecStep P R v (v.log (.ecmSend ecm v.sci pdu))
  | sendEmpty {ecm : Option Nat} : v.parser.isValid = false →
      SecStep P R v (v.log (.ecmSend ecm v.sci []))
  | sendSec {ecm : Option Nat} {s : SecurityHeaderType} {plain out : List UInt8} {h : NASHandler} :
      s.isProtected = true →
      newNASMsgSec P v.parser epsMobilityManagementMessages s .downLink plain = .ok (some (h, out)) →
      SecStep P R v ({ v with parser := h }.log (.ecmSend ecm v.sci out))
  | setupSec {ecm : Nat} {n : UInt32} {req : CtxtSUReq} {s : SecurityHeaderType}
      {plain out : List UInt8} {h : NASHandler} :
      v.stateName = .specificProcedureInitiated → s.isProtected = true →
      newNASMsgSec P v.parser epsMobilityManagementMessages s .downLink plain = .ok (some (h, out)) →
      req.nasPdu = some out → v.Keys P R n req →
      SecStep P R v ({ v with parser := h }.log (.ctxtSUReq ecm v.sci n req))
  | setup {ecm : Nat} {n : UInt32} {req : CtxtSUReq} :
      v.stateName = .registered → R.service v.kasme v.nasUlCountForSC → req.nasPdu = none → v.Keys P R n req →
      SecStep P R v (v.log (.ctxtSUReq ecm v.sci n req))
  | deregister : SecStep P R v { v with stateName := .deregistered }
  | bind {ecm : Option Nat} : R.rebind → SecStep P R v { v with ecm := ecm }
  | register : v.sci = true ∨ v.Serving → SecStep P R v { v with stateName := .registered }
  | snapshot {n : UInt32} : v.stateName ≠ .specificProcedureInitiated →
      SecStep P R v { v with nasUlCountForSC := n }
  | procedure : v.sci = true → R.accepted v.kasme v.nasUlCountForSC →
      SecStep P R v { v with stateName := .specificProcedureInitiated }
  | aka : SecStep P R v
      ({ v with sci := false, stateName := .commonProcedureInitiated, nasUlCountForSC := 0 }.log
        .removeCurrentSC)
  | akaFailed : v.stateName ≠ .specificProcedureInitiated → v.stateName = .deregistered ∨ R.stay →
      SecStep P R v ({ v with sci := false, nasUlCountForSC := 0 }.log .removeCurrentSC)
  | timer {t : Option EMMTimer} :
      (∀ u, t = some u → u.IsAuthRequest → v.authQuadrs ≠ [] ∨ ∃ w, v.t3460 = some w ∧ w.msg = u.msg) →
      SecStep P R v { v with t3460 := t }
  | newQuadruplet {q : AuthQuadruplet} : SecStep P R v
      { v with authQuadrs := v.authQuadrs ++ [q], authQuadrsLen := v.authQuadrsLen + 1 }
  | removeQuadruplet : v.t3460 = none → v.authQuadrs ≠ [] ∨ R.unanswered → SecStep P R v
      { v with authQuadrs := v.authQuadrs.tail, authQuadrsLen := v.authQuadrsLen - 1 }
  | freeQuadruplets : v.t3460 = none → SecStep P R v
      { v with
        authQuadrs := if v.authQuadrsLen.toNat ≤ v.authQuadrs.length
          then v.authQuadrs.drop v.authQuadrsLen.toNat else v.authQuadrs
        authQuadrsLen := 0 }
  | authenticate {res : List UInt8} {q : AuthQuadruplet} :
      v.stateName = .commonProcedureInitiated → v.t3460 = none → v.authQuadrs.head? = some q → res = q.xRES →
      SecStep P R v ({ v with
          parser := nasSetSecurity P v.parser .eia2 .eea0 q.kASME
          kasme := q.kASME
          authQuadrs := v.authQuadrs.tail
          authQuadrsLen := v.authQuadrsLen - 1 }.log
        (.authenticated res q))
  | securityModeComplete {buf : Mem} {size : UInt32} {r : AuthResult} :
      v.stateName = .commonProcedureInitiated → (∃ q, keyedSince v.trace = some q) ∨ R.stale →
      nasAuthenticateMsg P v.parser buf size .upLink = .ok r → r.isAuth = true →
      R.accepted v.kasme (nasGetLastCount r.handler .upLink) →
      SecStep P R v ({ v with
          parser := r.handler, sci := true, stateName := .specificProcedureInitiated
          nasUlCountForSC := nasGetLastCount r.handler .upLink }.log
        (.securityModeComplete r.handler true))

def SecSteps (P : Prims) (R : Risk) : SecView → SecView → Prop := ReflTransGen (SecStep P R)

variable {P : Prims} {R : Risk} {v w : SecView}

theorem SecSteps.invariant {I : SecView → Prop} (h : SecSteps P R v w)
    (hstep : ∀ v w, I v → SecStep P R v w → I w) (hv : I v) : I w := by
  induction h with
  | refl => exact hv
  | tail _ hs ih => exact hstep _ _ ih hs

/-! ## The NAS handler -/

theorem nasAuthenticateMsg_handler {h : NASHandler} {buf : Mem} {size : UInt32} {d : NASDirection}
    {r : AuthResult} (hr : nasAuthenticateMsg P h buf size d = .ok r) :
    r.handler.isValid = h.isValid ∧ r.handler.i = h.i ∧ r.handler.ikey = h.ikey := by
  obtain ⟨-, hh⟩ | ⟨-, -, -, hh, -⟩ := nasAuthenticateMsg_shape hr <;> simp [hh, NASHandler.withCount]

theorem isValid_of_isAuth {h : NASHandler} {buf : Mem} {size : UInt32} {d : NASDirection}
    {r : AuthResult} (hr : nasAuthenticateMsg P h buf size d = .ok r) (ha : r.isAuth = true) :
    h.isValid = true := by
  obtain ⟨hn, -⟩ | ⟨-, -, hv, -⟩ := nasAuthenticateMsg_shape hr
  · simp [ha] at hn
  · exact hv

/-- What `newNASMsg_sec` returns, and that it keeps the keys of the handler. -/
theorem newNASMsgSec_eq_some {h h' : NASHandler} {p : UInt8} {s : SecurityHeaderType}
    {d : NASDirection} {plain out : List UInt8}
    (ho : newNASMsgSec P h p s d plain = .ok (some (h', out))) :
    h.isValid = true ∧ h' = nasIncrementNASCount h .downLink ∧
      ∃ rest, out = ((p &&& (0x0F : UInt8)) ||| (s.octet <<< 4)) :: rest := by
  obtain ⟨hv, -, -, mac, -, rfl, rfl⟩ := newNASMsgSec_eq_ok_some.mp ho
  exact ⟨hv, rfl, _, rfl⟩

theorem newNASMsgSec_handler {h h' : NASHandler} {p : UInt8} {s : SecurityHeaderType}
    {d : NASDirection} {plain out : List UInt8}
    (ho : newNASMsgSec P h p s d plain = .ok (some (h', out))) :
    h'.isValid = h.isValid ∧ h'.i = h.i ∧ h'.ikey = h.ikey := by
  obtain ⟨-, rfl, -⟩ := newNASMsgSec_eq_some ho
  exact ⟨rfl, rfl, rfl⟩

/-- A protected PDU carries a security header type other than plain. -/
theorem Protected.header {pdu : List UInt8} (h : Protected P pdu) :
    ∃ b rest, pdu = b :: rest ∧ SecurityHeaderType.ofNibble ((b &&& 0xf0) >>> 4) ≠ .plainNAS := by
  obtain ⟨h, h', s, plain, hs, ho⟩ := h
  obtain ⟨-, -, rest, rfl⟩ := newNASMsgSec_eq_some ho
  refine ⟨_, rest, rfl, ?_⟩
  cases s <;> first | decide | simp [SecurityHeaderType.isProtected] at hs

/-! ## Coherence -/

/-- What holds in every run: no security context is in use while a common procedure is going on, and
one that is in use has a valid handler. -/
structure SecView.Coherent (v : SecView) : Prop where
  common : v.stateName = .commonProcedureInitiated → v.sci = false
  valid : v.sci = true → v.parser.isValid = true

theorem SecStep.coherent (h : SecStep P R v w) (hv : v.Coherent) : w.Coherent := by
  obtain ⟨hc, hp⟩ := hv
  cases h with
  | log | esmMessage | sendPlain | sendEmpty | setup | bind | snapshot | timer | newQuadruplet | removeQuadruplet
  | freeQuadruplets => exact ⟨hc, hp⟩
  | receive hr =>
    exact ⟨hc, fun hs => (nasAuthenticateMsg_handler hr).1.trans (hp hs)⟩
  | sendSec _ ho | setupSec _ _ ho =>
    exact ⟨hc, fun hs => (newNASMsgSec_handler ho).1.trans (hp hs)⟩
  | deregister => exact ⟨(nomatch ·), hp⟩
  | register | procedure => exact ⟨(nomatch ·), hp⟩
  | aka => exact ⟨fun _ => rfl, (nomatch ·)⟩
  | akaFailed => exact ⟨fun _ => rfl, (nomatch ·)⟩
  | authenticate => exact ⟨hc, fun _ => rfl⟩
  | securityModeComplete _ _ hr ha =>
    exact ⟨(nomatch ·), fun _ => (nasAuthenticateMsg_handler hr).1.trans (isValid_of_isAuth hr ha)⟩

theorem SecSteps.coherent (h : SecSteps P R v w) (hv : v.Coherent) : w.Coherent :=
  h.invariant (fun _ _ hi hs => hs.coherent hi) hv

/-- A valid handler uses EIA2, the only algorithm that `nas_setSecurity` is called with. -/
theorem SecStep.eia2 (h : SecStep P R v w) (hv : v.parser.isValid = true → v.parser.i = .eia2) :
    w.parser.isValid = true → w.parser.i = .eia2 := by
  cases h with
  | receive hr | securityModeComplete _ _ hr =>
    obtain ⟨h₁, h₂, -⟩ := nasAuthenticateMsg_handler hr
    exact fun hval => h₂.trans (hv (h₁.symm.trans hval))
  | sendSec _ ho | setupSec _ _ ho =>
    obtain ⟨h₁, h₂, -⟩ := newNASMsgSec_handler ho
    exact fun hval => h₂.trans (hv (h₁.symm.trans hval))
  | authenticate => exact fun _ => rfl
  | _ => exact hv

theorem SecStep.self (h : SecStep P R v w) : w.self = v.self := by
  cases h <;> rfl

/-- Unless the context may be bound to another ECM session, it stays bound to its own. -/
theorem SecSteps.ecm (hR : ¬ R.rebind) (h : SecSteps P R v w) : w.self = v.self ∧ w.ecm = v.ecm := by
  refine h.invariant (I := fun u => u.self = v.self ∧ u.ecm = v.ecm) ?_ ⟨rfl, rfl⟩
  intro u w hu hs
  cases hs with
  | bind hb => exact absurd hb hR
  | _ => exact hu

/-! ## A served UE has a security context -/

/-- The UE is served only under a security context. -/
def SecView.ServedSecurely (v : SecView) : Prop := v.Serving → v.sci = true

/-- Unless an authentication run may end in the HSS while the UE is served, every change keeps a
served UE under a security context. -/
theorem SecStep.servedSecurely (hR : ¬ R.stay) (h : SecStep P R v w) (hv : v.ServedSecurely) :
    w.ServedSecurely := by
  intro hw
  cases h with
  | deregister | aka => rcases hw with h | h <;> cases h
  | register hs => exact hs.elim id hv
  | procedure hs => exact hs
  | akaFailed _ hd =>
    obtain hd := hd.resolve_right hR
    rcases hw with h | h <;> cases hd.symm.trans h
  | securityModeComplete => rfl
  | _ => exact hv hw

/-! ## Downlink protection -/

/-- An entry of the trace with a PDU that was handed over under a security context has a protected
PDU. -/
def Act.ProtectedIfSC (P : Prims) : Act → Prop
  | .ecmSend _ sci pdu => sci = true → Protected P pdu
  | .ctxtSUReq _ sci _ req => sci = true → ∀ pdu ∈ req.nasPdu, Protected P pdu
  | _ => True

theorem Act.Neutral.protectedIfSC {a : Act} (ha : a.Neutral) : a.ProtectedIfSC P := by
  cases a <;> simp_all [Act.Neutral, Act.ProtectedIfSC]

/-- Unless a plain message may be sent under a security context, every change keeps the PDUs
protected. -/
theorem SecStep.protectedIfSC (hR : ¬ R.plainSend) (h : SecStep P R v w) (hv : v.Coherent)
    (ht : ∀ a ∈ v.trace, a.ProtectedIfSC P) : ∀ a ∈ w.trace, a.ProtectedIfSC P := by
  have hcons {a : Act} (ha : a.ProtectedIfSC P) : ∀ b ∈ a :: v.trace, b.ProtectedIfSC P :=
    List.forall_mem_cons.mpr ⟨ha, ht⟩
  cases h with
  | log ha => exact hcons ha.protectedIfSC
  | esmMessage => exact hcons trivial
  | receive | deregister | bind | register | snapshot | procedure | timer | newQuadruplet | removeQuadruplet
  | freeQuadruplets => exact ht
  | setup _ _ hnone =>
    refine hcons fun _ pdu hpdu => ?_
    rw [hnone] at hpdu
    cases hpdu
  | sendPlain hs =>
    refine hcons fun hsci => ?_
    simp [hs.resolve_right hR] at hsci
  | sendEmpty hp =>
    refine hcons fun hsci => ?_
    simp [hv.valid hsci] at hp
  | sendSec hs ho => exact hcons fun _ => ⟨_, _, _, _, hs, ho⟩
  | setupSec _ hs ho hreq =>
    refine hcons fun _ pdu hpdu => ?_
    cases hreq.symm.trans hpdu
    exact ⟨_, _, _, _, hs, ho⟩
  | aka | akaFailed | authenticate | securityModeComplete => exact hcons trivial

/-! ## ESM messages -/

/-- An entry of the trace for an ESM message. -/
def Act.isESM : Act → Bool
  | .esmMessage _ _ => true
  | _ => false

theorem Act.Neutral.isESM {a : Act} (ha : a.Neutral) : a.isESM = false := by
  cases a <;> simp_all [Act.Neutral, Act.isESM]

theorem SecSteps.filter_isESM (hR : ¬ R.esm) (h : SecSteps P R v w) :
    w.trace.filter Act.isESM = v.trace.filter Act.isESM := by
  refine h.invariant (I := fun u => u.trace.filter Act.isESM = v.trace.filter Act.isESM) ?_ rfl
  intro u w hu hs
  rw [← hu]
  cases hs with
  | log ha => exact List.filter_cons_of_neg (by simp [ha.isESM])
  | esmMessage he => exact absurd he hR
  | receive | deregister | bind | register | snapshot | procedure | timer | newQuadruplet | removeQuadruplet
  | freeQuadruplets => rfl
  | _ => exact List.filter_cons_of_neg (by simp [Act.isESM])

/-! ## Authentication before service -/

/-- A valid EIA2 handler with the integrity key derived from the key of a quadruplet. -/
def KeyedWith (P : Prims) (h : NASHandler) (q : AuthQuadruplet) : Prop :=
  h.isValid = true ∧ h.i = .eia2 ∧ h.ikey = kdf P q.kASME 0x02 NASEIA.eia2.octet

/-- In a trace with the newest entry first: an Authentication Response whose RES is the XRES of a
quadruplet and, later, a Security Mode Complete that authenticated under the keys of that quadruplet,
both after the last removal of the security context. -/
def AuthenticatedSince (P : Prims) (t : List Act) : Prop :=
  ∃ (later mid before : List Act) (res : List UInt8) (q : AuthQuadruplet) (h : NASHandler),
    t = later ++ .securityModeComplete h true :: (mid ++ .authenticated res q :: before) ∧
      (∀ a ∈ later, a ≠ .removeCurrentSC) ∧ (∀ a ∈ mid, a ≠ .removeCurrentSC) ∧
      res = q.xRES ∧ KeyedWith P h q

theorem AuthenticatedSince.cons {t : List Act} {a : Act} (ha : a ≠ .removeCurrentSC)
    (h : AuthenticatedSince P t) : AuthenticatedSince P (a :: t) := by
  obtain ⟨later, mid, before, res, q, h, rfl, hl, hrest⟩ := h
  exact ⟨a :: later, mid, before, res, q, h, rfl, List.forall_mem_cons.mpr ⟨ha, hl⟩, hrest⟩

/-- The invariant behind "authentication before service": what the handler was keyed with since the
last removal is what its keys come from, and an accepted Authentication Response matches its
quadruplet. -/
structure SecView.Authentic (P : Prims) (v : SecView) : Prop where
  coherent : v.Coherent
  keyed : ∀ q, keyedSince v.trace = some q → KeyedWith P v.parser q
  accepted : ∀ res q, .authenticated res q ∈ v.trace → res = q.xRES
  served : v.sci = true → AuthenticatedSince P v.trace

theorem keyedSince_eq_some {t : List Act} {q : AuthQuadruplet} (h : keyedSince t = some q) :
    ∃ mid before res, t = mid ++ .authenticated res q :: before ∧ ∀ a ∈ mid, a ≠ .removeCurrentSC := by
  fun_induction keyedSince t with
  | case1 => cases h
  | case2 => cases h
  | case3 res q' t => cases h; exact ⟨[], t, res, rfl, by simp⟩
  | case4 a t hr _ ih =>
    obtain ⟨mid, before, res, rfl, hm⟩ := ih h
    exact ⟨a :: mid, before, res, rfl, List.forall_mem_cons.mpr ⟨hr, hm⟩⟩

/-- After an accepted Authentication Response and before the next removal, the handler is keyed. -/
theorem isSome_keyedSince {mid before : List Act} {res : List UInt8} {q : AuthQuadruplet}
    (hm : ∀ a ∈ mid, a ≠ .removeCurrentSC) :
    (keyedSince (mid ++ .authenticated res q :: before)).isSome = true := by
  induction mid with
  | nil => rfl
  | cons a mid ih =>
    obtain ⟨ha, htail⟩ := List.forall_mem_cons.mp hm
    replace ih := ih htail
    cases a <;> first | exact absurd rfl ha | exact ih | rfl

theorem AuthenticatedSince.isSome_keyedSince {t : List Act} (h : AuthenticatedSince P t) :
    (keyedSince t).isSome = true := by
  obtain ⟨later, mid, before, res, q, h, rfl, hl, hm, -⟩ := h
  have hall : ∀ a ∈ later ++ .securityModeComplete h true :: mid, a ≠ .removeCurrentSC := by
    simp only [List.mem_append, List.mem_cons]
    rintro a (ha | rfl | ha)
    · exact hl a ha
    · exact nofun
    · exact hm a ha
  simpa using AaltoMME.isSome_keyedSince hall

/-- Entries other than those of the security context do not change what the handler was keyed with. -/
theorem keyedSince_cons {a : Act} {t : List Act} (hr : a ≠ .removeCurrentSC)
    (ha : ∀ res q, a ≠ .authenticated res q) : keyedSince (a :: t) = keyedSince t := by
  cases a <;> simp_all [keyedSince]

/-- An entry of the trace that is not about the security context. -/
def Act.Plain (a : Act) : Prop := a ≠ .removeCurrentSC ∧ ∀ res q, a ≠ .authenticated res q

theorem Act.Neutral.plain {a : Act} (ha : a.Neutral) : a.Plain := by
  constructor
  · rintro rfl
    exact ha
  · rintro res q rfl
    exact ha

/-- A change that keeps the keys, does not introduce a security context and records nothing about it
keeps the invariant. -/
theorem SecView.Authentic.frame (hv : v.Authentic P) (hw : w.Coherent)
    (hp : w.parser.isValid = v.parser.isValid ∧ w.parser.i = v.parser.i ∧ w.parser.ikey = v.parser.ikey)
    (hs : w.sci = v.sci) (ht : w.trace = v.trace ∨ ∃ a : Act, w.trace = a :: v.trace ∧ a.Plain) :
    w.Authentic P := by
  have hkeys {q : AuthQuadruplet} (h : KeyedWith P v.parser q) : KeyedWith P w.parser q :=
    ⟨hp.1.trans h.1, hp.2.1.trans h.2.1, hp.2.2.trans h.2.2⟩
  obtain ht | ⟨a, ht, ha⟩ := ht
  · exact ⟨hw, fun q h => hkeys (hv.keyed q (ht ▸ h)), fun res q h => hv.accepted res q (ht ▸ h),
      fun h => ht ▸ hv.served (hs.symm.trans h)⟩
  · refine ⟨hw, fun q h => hkeys (hv.keyed q ?_), fun res q h => hv.accepted res q ?_, fun h => ?_⟩
    · rwa [ht, keyedSince_cons ha.1 ha.2] at h
    · rw [ht] at h
      exact (List.mem_cons.mp h).resolve_left fun h => ha.2 res q h.symm
    · rw [ht]
      exact (hv.served (hs.symm.trans h)).cons ha.1

/-- Removing the security context keeps the invariant: nothing is keyed and no context is in use. -/
theorem SecView.Authentic.removed (hv : v.Authentic P) (hw : w.Coherent) (hs : w.sci = false)
    (ht : w.trace = .removeCurrentSC :: v.trace) : w.Authentic P := by
  refine ⟨hw, fun q h => ?_, fun res q h => hv.accepted res q ?_, fun h => ?_⟩
  · simp [ht, keyedSince] at h
  · simpa [ht] using h
  · simp [hs] at h

/-- Unless a Security Mode Complete may be accepted under the keys of an earlier run, every change
keeps the invariant. -/
theorem SecStep.authentic (hR : ¬ R.stale) (h : SecStep P R v w) (hv : v.Authentic P) :
    w.Authentic P := by
  have hw := h.coherent hv.coherent
  cases h with
  | log ha => exact hv.frame hw ⟨rfl, rfl, rfl⟩ rfl (.inr ⟨_, rfl, ha.plain⟩)
  | esmMessage => exact hv.frame hw ⟨rfl, rfl, rfl⟩ rfl (.inr ⟨_, rfl, nofun, nofun⟩)
  | receive hr => exact hv.frame hw (nasAuthenticateMsg_handler hr) rfl (.inl rfl)
  | sendPlain | sendEmpty | setup =>
    exact hv.frame hw ⟨rfl, rfl, rfl⟩ rfl (.inr ⟨_, rfl, nofun, nofun⟩)
  | sendSec _ ho | setupSec _ _ ho =>
    exact hv.frame hw (newNASMsgSec_handler ho) rfl (.inr ⟨_, rfl, nofun, nofun⟩)
  | deregister | bind | register | snapshot | procedure | timer | newQuadruplet | removeQuadruplet
  | freeQuadruplets => exact hv.frame hw ⟨rfl, rfl, rfl⟩ rfl (.inl rfl)
  | aka | akaFailed => exact hv.removed hw rfl rfl
  | authenticate hs _ _ hres =>
    -- the handler is keyed anew, and no context is in use during a common procedure
    have hsci := hv.coherent.common hs
    refine ⟨hw, fun q' h => ?_, fun res' q' h => ?_, fun h => ?_⟩
    · cases h
      exact ⟨rfl, rfl, rfl⟩
    · rcases List.mem_cons.mp h with h | h
      · cases h
        exact hres
      · exact hv.accepted res' q' h
    · simp [SecView.log, hsci] at h
  | @securityModeComplete _ _ r hs hk hr ha =>
    obtain ⟨q, hq⟩ := hk.resolve_right hR
    have hkeyed : KeyedWith P r.handler q := by
      obtain ⟨h₁, h₂, h₃⟩ := hv.keyed q hq
      obtain ⟨k₁, k₂, k₃⟩ := nasAuthenticateMsg_handler hr
      exact ⟨k₁.trans h₁, k₂.trans h₂, k₃.trans h₃⟩
    refine ⟨hw, fun q' h => ?_, fun res' q' h => hv.accepted res' q' ?_, fun _ => ?_⟩
    · obtain rfl : q = q' := by simpa [SecView.log, keyedSince, hq] using h
      exact hkeyed
    · simpa [SecView.log] using h
    · obtain ⟨mid, before, res, ht, hm⟩ := keyedSince_eq_some hq
      refine ⟨[], mid, before, res, q, _, ?_, by simp, hm, hv.accepted res q (by simp [ht]), hkeyed⟩
      simp [SecView.log, ht]

end AaltoMME
