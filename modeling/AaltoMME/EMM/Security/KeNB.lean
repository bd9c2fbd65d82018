import AaltoMME.EMM.Security.Properties

/-!
# The key of the eNB

`emm_getKeNB` derives the key that a context setup request hands to the eNB from two fields of the context:
KASME and a copy of an uplink NAS COUNT.  The NAS handler has its own copy of the keys, and its COUNT moves with
every message that is accepted.  What follows ties the three together: in every run, the key of a context setup
request is derived from the COUNT of the message that started the procedure that the request belongs to, and
from the KASME behind the keys under which that message was accepted.
-/

namespace AaltoMME

open Base NAS

variable {P : Prims} {R : Risk} {v w : SecView}

/-! ## The abstract model -/

/-- A handler whose keys are derived from KASME, as `nas_setSecurity` does it. -/
structure KeyedFrom (P : Prims) (h : NASHandler) (kasme : List UInt8) : Prop where
  i : h.i = .eia2
  ikey : h.ikey = kdf P kasme 0x02 NASEIA.eia2.octet
  e : h.e = .eea0
  ekey : h.ekey = kdf P kasme 0x01 NASEEA.eea0.octet

theorem KeyedFrom.withCount {h : NASHandler} {kasme : List UInt8} (hk : KeyedFrom P h kasme)
    (direction : NASDirection) (n : UInt32) : KeyedFrom P (h.withCount direction n) kasme :=
  ⟨hk.i, hk.ikey, hk.e, hk.ekey⟩

theorem KeyedFrom.nasAuthenticateMsg {h : NASHandler} {kasme : List UInt8} (hk : KeyedFrom P h kasme) {buf : Mem}
    {size : UInt32} {d : NASDirection} {r : AuthResult} (hr : nasAuthenticateMsg P h buf size d = .ok r) :
    KeyedFrom P r.handler kasme := by
  obtain ⟨-, hh⟩ | ⟨-, -, -, hh, -⟩ := nasAuthenticateMsg_shape hr
  · rwa [hh]
  · rw [hh]
    exact hk.withCount _ _

theorem KeyedFrom.newNASMsgSec {h h' : NASHandler} {kasme : List UInt8} (hk : KeyedFrom P h kasme) {p : UInt8}
    {s : SecurityHeaderType} {d : NASDirection} {plain out : List UInt8}
    (ho : newNASMsgSec P h p s d plain = .ok (some (h', out))) : KeyedFrom P h' kasme := by
  obtain ⟨-, rfl, -⟩ := newNASMsgSec_eq_some ho
  exact ⟨hk.i, hk.ikey, hk.e, hk.ekey⟩

/-- A context setup request carries the key for a KASME and a COUNT that are related by `T`. -/
def Act.Carries (P : Prims) (T : List UInt8 → UInt32 → Prop) : Act → Prop
  | .ctxtSUReq _ _ n req => ∃ kasme, T kasme n ∧ req.securityKey = EMMCtx.generateKeNB P kasme n
  | _ => True

theorem Act.Neutral.carries {T : List UInt8 → UInt32 → Prop} {a : Act} (ha : a.Neutral) : a.Carries P T := by
  cases a <;> simp_all [Act.Neutral, Act.Carries]

/-- In the course of an event that found the trace `old`: a handler in use has the keys of KASME, and in
EMM_SpecificProcedureInitiated KASME and the COUNT are those of the message that started the procedure.
So the context setup requests of the event carry the right key. -/
structure SecView.Derives (P : Prims) (T S : List UInt8 → UInt32 → Prop) (old : List Act) (v : SecView) :
    Prop where
  keyed : v.parser.isValid = true → KeyedFrom P v.parser v.kasme
  started : v.stateName = .specificProcedureInitiated → T v.kasme v.nasUlCountForSC
  requests : ∃ new, v.trace = new ++ old ∧ ∀ a ∈ new, a.Carries P fun kasme n => S kasme n ∨ T kasme n

section Derives

variable {T S : List UInt8 → UInt32 → Prop} {old : List Act}

theorem SecView.Derives.cons (hv : v.Derives P T S old) {a : Act}
    (ha : a.Carries P fun kasme n => S kasme n ∨ T kasme n) :
    ∃ new, a :: v.trace = new ++ old ∧ ∀ a ∈ new, a.Carries P fun kasme n => S kasme n ∨ T kasme n := by
  obtain ⟨new, htrace, hnew⟩ := hv.requests
  exact ⟨a :: new, by rw [htrace]; rfl, List.forall_mem_cons.mpr ⟨ha, hnew⟩⟩

theorem SecView.Keys.carries (hR : R.bound) {n : UInt32} {req : CtxtSUReq} (h : v.Keys P R n req)
    (hT : S v.kasme v.nasUlCountForSC ∨ T v.kasme v.nasUlCountForSC) (ecm : Nat) (sci : Bool) :
    (Act.ctxtSUReq ecm sci n req).Carries P fun kasme n => S kasme n ∨ T kasme n := by
  obtain ⟨rfl, hkey⟩ := h hR
  exact ⟨v.kasme, hT, hkey⟩

/-- Every change keeps the keys together, if procedures start with the messages that `T` describes. -/
theorem SecStep.derives (hR : R.bound) (hT : ∀ kasme n, R.accepted kasme n → T kasme n)
    (hS : ∀ kasme n, R.service kasme n → S kasme n) (h : SecStep P R v w) (hv : v.Derives P T S old) :
    w.Derives P T S old := by
  have hkeep := hv.keyed
  cases h with
  | log ha => exact ⟨hv.keyed, hv.started, hv.cons ha.carries⟩
  | esmMessage | sendPlain | sendEmpty => exact ⟨hv.keyed, hv.started, hv.cons trivial⟩
  | receive hr =>
    refine ⟨fun hval => ?_, hv.started, hv.requests⟩
    exact (hkeep ((nasAuthenticateMsg_handler hr).1.symm.trans hval)).nasAuthenticateMsg hr
  | sendSec _ ho =>
    refine ⟨fun hval => ?_, hv.started, hv.cons trivial⟩
    exact (hkeep ((newNASMsgSec_handler ho).1.symm.trans hval)).newNASMsgSec ho
  | setupSec hspi _ ho _ hkeys =>
    refine ⟨fun hval => ?_, hv.started, hv.cons (hkeys.carries hR (.inr (hv.started hspi)) _ _)⟩
    exact (hkeep ((newNASMsgSec_handler ho).1.symm.trans hval)).newNASMsgSec ho
  | setup _ hn _ hkeys => exact ⟨hv.keyed, hv.started, hv.cons (hkeys.carries hR (.inl (hS _ _ hn)) _ _)⟩
  | deregister | register => exact ⟨hv.keyed, nofun, hv.requests⟩
  | snapshot hs => exact ⟨hv.keyed, fun h => absurd h hs, hv.requests⟩
  | procedure _ hn => exact ⟨hv.keyed, fun _ => hT _ _ hn, hv.requests⟩
  | aka => exact ⟨hv.keyed, nofun, hv.cons trivial⟩
  | akaFailed hs => exact ⟨hv.keyed, fun h => absurd h hs, hv.cons trivial⟩
  | authenticate hs =>
    refine ⟨fun _ => ⟨rfl, rfl, rfl, rfl⟩, fun h => ?_, hv.cons trivial⟩
    cases hs.symm.trans h
  | securityModeComplete _ _ hr _ hn =>
    refine ⟨fun hval => ?_, fun _ => hT _ _ hn, hv.cons trivial⟩
    exact (hkeep ((nasAuthenticateMsg_handler hr).1.symm.trans hval)).nasAuthenticateMsg hr
  | bind | timer | newQuadruplet | removeQuadruplet | freeQuadruplets => exact ⟨hv.keyed, hv.started, hv.requests⟩

end Derives

/-! ## The messages that a key comes from -/

namespace EMMCtx

/-- `nas_authenticateMsg` accepts the message with the COUNT `n`, under keys that are derived from `kasme`. -/
structure AcceptedUnder (P : Prims) (c : EMMCtx) (buf : Mem) (size : UInt64) (kasme : List UInt8) (n : UInt32) :
    Prop where
  authenticates : c.Authenticates P buf size
  count : n = msgCOUNT c.parser buf size.toUInt32 .upLink
  keyed : KeyedFrom P c.parser kasme

/-- A Security Mode Complete, an Attach Request or a Tracking Area Update Request is accepted outside
EMM_SpecificProcedureInitiated. -/
def AcceptsStart (P : Prims) (c : EMMCtx) (kasme : List UInt8) (n : UInt32) : Env × EMMEvent → Prop
  | (_, .uplink buf size) => c.stateName ≠ .specificProcedureInitiated ∧ c.Starts P buf size ∧
      c.AcceptedUnder P buf size kasme n
  | _ => False

/-- A Service Request is accepted in EMM_Registered. -/
def AcceptsService (P : Prims) (c : EMMCtx) (kasme : List UInt8) (n : UInt32) : Env × EMMEvent → Prop
  | (_, .uplink buf size) => c.stateName = .registered ∧ IsServiceRequest buf size ∧
      c.AcceptedUnder P buf size kasme n
  | _ => False

/-- The context is in EMM_SpecificProcedureInitiated after the events, and the message that last moved it there
was accepted with the COUNT `n`, under keys that are derived from `kasme`. -/
inductive Started (P : Prims) (s : EMMCtx) (kasme : List UInt8) (n : UInt32) :
    List (Env × EMMEvent) → EMMCtx → Prop
  | enter {es : List (Env × EMMEvent)} {c d : EMMCtx} {e : Env × EMMEvent} :
      Run (EMMCtx.step P) Linked s es c → c.AcceptsStart P kasme n e → c.step P e = .ok d →
      d.stateName = .specificProcedureInitiated → Started P s kasme n (es ++ [e]) d
  | stay {es : List (Env × EMMEvent)} {c d : EMMCtx} {e : Env × EMMEvent} :
      Started P s kasme n es c → c.step P e = .ok d → d.stateName = .specificProcedureInitiated →
      Started P s kasme n (es ++ [e]) d

variable {c d : EMMCtx}

theorem nasGetLastCount_of_isAuth {buf : Mem} {size : UInt32} {r : AuthResult}
    (hr : nasAuthenticateMsg P c.parser buf size .upLink = .ok r) (ha : r.isAuth = true) :
    nasGetLastCount r.handler .upLink = msgCOUNT c.parser buf size .upLink := by
  obtain ⟨hno, -⟩ | ⟨-, -, -, hh, -⟩ := nasAuthenticateMsg_shape hr
  · rw [ha] at hno
    cases hno
  · rw [hh]
    exact UInt32.add_sub_cancel _ _

/-- What is known of an event: the session is bound, and the messages that it accepts. -/
def eventRisk (P : Prims) (c : EMMCtx) (e : Env × EMMEvent) : Risk :=
  { Risk.any with
    bound := True
    accepted := fun kasme n => c.AcceptsStart P kasme n e
    service := fun kasme n => c.AcceptsService P kasme n e }

theorem allowed_eventRisk (hk : c.parser.isValid = true → KeyedFrom P c.parser c.kasme) {e : Env × EMMEvent}
    (h : c.Linked e) : c.Allowed P (c.eventRisk P e) e := by
  obtain ⟨env, e⟩ := e
  cases e with
  | uplink buf size =>
    refine { UplinkAllowed.any (P := P) env c buf size with bound := fun _ => h, accepted := fun r hr ha => ?_ }
    have hacc : c.AcceptedUnder P buf size c.kasme (nasGetLastCount r.handler .upLink) :=
      ⟨⟨r, hr, ha⟩, nasGetLastCount_of_isAuth hr ha, hk (isValid_of_isAuth hr ha)⟩
    exact ⟨fun hs hstarts => ⟨hs, hstarts, hacc⟩, fun hs hsrv => ⟨hs, hsrv, hacc⟩⟩
  | s11 pkt => exact ⟨fun _ => .inl (.inr trivial), fun _ => h⟩
  | registerECM | deregister => exact trivial
  | timer | stop | modifyERABList | ueContextReleaseReq | s11Stack => exact trivial

/-- What the runs keep: the handler in use has the keys of KASME, and in EMM_SpecificProcedureInitiated KASME
and the COUNT are those of the message that started the procedure. -/
structure KeepsKeNB (P : Prims) (s : EMMCtx) (es : List (Env × EMMEvent)) (c : EMMCtx) : Prop where
  coherent : c.sec.Coherent
  keyed : c.parser.isValid = true → KeyedFrom P c.parser c.kasme
  started : c.stateName = .specificProcedureInitiated → Started P s c.kasme c.nasUlCountForSC es c

theorem KeepsKeNB.derives {s : EMMCtx} {es : List (Env × EMMEvent)} (hc : KeepsKeNB P s es c) {e : Env × EMMEvent}
    (he : c.Linked e) (hd : c.step P e = .ok d) :
    d.sec.Coherent ∧ d.sec.Derives P (fun kasme n => c.AcceptsStart P kasme n e ∨ Started P s kasme n es c)
      (fun kasme n => c.AcceptsService P kasme n e) c.trace := by
  have hreach := reach_step hc.coherent (allowed_eventRisk hc.keyed he) d hd
  refine ⟨hreach.coherent hc.coherent, hreach.invariant (fun _ _ hv hs => ?_) ?_⟩
  · exact hs.derives trivial (fun _ _ h => .inl h) (fun _ _ h => h) hv
  · exact ⟨hc.keyed, fun hs => .inr (hc.started hs), [], rfl, List.forall_mem_nil _⟩

theorem keepsKeNB_of_run {s : EMMCtx} (hs : KeepsKeNB P s [] s) {es : List (Env × EMMEvent)}
    (h : Run (EMMCtx.step P) Linked s es c) : KeepsKeNB P s es c := by
  induction h with
  | nil => exact hs
  | snoc hrun he hd ih =>
    obtain ⟨hcoh, hder⟩ := ih.derives he hd
    refine ⟨hcoh, hder.keyed, fun hspi => ?_⟩
    rcases hder.started hspi with hnow | hbefore
    · exact .enter hrun hnow hd hspi
    · exact .stay hbefore hd hspi

theorem emmInit_keepsKeNB (self ecm : Nat) (s11 : S11Stack) :
    KeepsKeNB P (emmInit self ecm s11) [] (emmInit self ecm s11) :=
  ⟨emmInit_coherent _ _ _, nofun, nofun⟩

/-- The context setup request was sent by the last of some first events of a run, and its key is derived from
the KASME and the COUNT of a message that was accepted under the keys of that KASME: the Service Request that
the event answers, or the message that last moved the context into EMM_SpecificProcedureInitiated, in this event
or before. -/
def KeyFrom (P : Prims) (s : EMMCtx) (es : List (Env × EMMEvent)) (id : Nat) (sci : Bool) (n : UInt32)
    (req : CtxtSUReq) : Prop :=
  ∃ es₁ e c d kasme, es₁ ++ [e] <+: es ∧ Run (EMMCtx.step P) Linked s es₁ c ∧ c.step P e = .ok d ∧
    (∃ new, d.trace = new ++ c.trace ∧ Act.ctxtSUReq id sci n req ∈ new) ∧
    req.securityKey = generateKeNB P kasme n ∧
    (c.AcceptsService P kasme n e ∨ c.AcceptsStart P kasme n e ∨ Started P s kasme n es₁ c)

/-- Every context setup request of a run has its key from an accepted message. -/
theorem keyFrom_of_run {self ecm : Nat} {s11 : S11Stack} {es : List (Env × EMMEvent)}
    (h : Run (EMMCtx.step P) Linked (emmInit self ecm s11) es c) {id : Nat} {sci : Bool} {n : UInt32}
    {req : CtxtSUReq} (hreq : Act.ctxtSUReq id sci n req ∈ c.trace) :
    KeyFrom P (emmInit self ecm s11) es id sci n req := by
  induction h with
  | nil => cases hreq
  | @snoc es c d e hrun he hd ih =>
    obtain ⟨-, hder⟩ := (keepsKeNB_of_run (emmInit_keepsKeNB _ _ _) hrun).derives he hd
    obtain ⟨new, htrace, hnew⟩ := hder.requests
    replace htrace : d.trace = new ++ c.trace := htrace
    rw [htrace] at hreq
    rcases List.mem_append.mp hreq with hlast | hbefore
    · obtain ⟨kasme, hT, hkey⟩ := hnew _ hlast
      exact ⟨es, e, c, d, kasme, List.prefix_rfl, hrun, hd, ⟨new, htrace, hlast⟩, hkey, hT⟩
    · obtain ⟨es₁, e₁, c₁, d₁, kasme, hpre, hfrom⟩ := ih hbefore
      exact ⟨es₁, e₁, c₁, d₁, kasme, hpre.trans (List.prefix_append _ _), hfrom⟩

end EMMCtx

end AaltoMME
