import AaltoMME.EMM.Changes.Step

/-!
# Security properties of the runs of a context

Each property is proved for the runs whose events all meet a condition on the state before the event,
and a run without the condition shows that it is needed.  The conditions and the defects behind them:

* `HssKnows`: `emm_triggerAKAprocedure` drops the security context before the HSS is asked, and
  `processError` of EMM_Registered does nothing, so a subscriber that the HSS no longer knows stays
  registered without a security context;
* `RekeyedFirst`: `emm_removeCurrentSC` leaves the NAS handler alone, so a Security Mode Complete under
  the old keys ends the next authentication run;
* `SwitchOffOnly`: `emm_detachAccept` never protects its message.

The concrete runs are those of one UE, whose KASME is all zero.
-/

namespace AaltoMME

open Base NAS

variable {P : Prims}

/-! ## The rule -/

namespace EMMCtx

variable {c d : EMMCtx} {es : List (Env × EMMEvent)}

theorem emmInit_coherent (self ecm : Nat) (s11 : S11Stack) : (emmInit self ecm s11).sec.Coherent :=
  ⟨nofun, nofun⟩

/-- The rule of invariants: a property that the elementary changes allowed by `R` keep holds at the end
of every run whose events do nothing else. -/
theorem run_invariant {R : Risk} {Q : EMMCtx → Env × EMMEvent → Prop}
    {I : SecView → Prop} (hQ : ∀ c e, c.sec.Coherent → I c.sec → Q c e → c.Allowed P R e)
    (hI : ∀ v w, v.Coherent → I v → SecStep P R v w → I w)
    (h : Run (step P) Q c es d) (hc : c.sec.Coherent) (hi : I c.sec) : d.sec.Coherent ∧ I d.sec := by
  refine h.invariant (I := fun d => d.sec.Coherent ∧ I d.sec) ?_ ⟨hc, hi⟩
  rintro d e f ⟨hd, hid⟩ hq hf
  have hreach := reach_step hd (hQ d e hd hid hq) f hf
  refine hreach.invariant (I := fun v => v.Coherent ∧ I v) ?_ ⟨hd, hid⟩
  rintro v w ⟨hv, hiv⟩ hs
  exact ⟨hs.coherent hv, hI v w hv hiv hs⟩

theorem allowed_any (c : EMMCtx) (e : Env × EMMEvent) : c.Allowed P .any e := by
  obtain ⟨env, _ | _⟩ := e
  case uplink buf size => exact .any env c buf size
  all_goals first | exact trivial | exact ⟨fun _ => .inl (.inr trivial), nofun⟩

/-- The events that a context setup request may follow find the ECM session of the context bound to it. -/
def Linked (c : EMMCtx) : Env × EMMEvent → Prop
  | (env, .uplink _ _) | (env, .s11 _) => c.Bound env
  | _ => True

theorem self_of_run {self ecm : Nat} {s11 : S11Stack} (h : Run (step P) Linked (emmInit self ecm s11) es d) :
    d.self = self :=
  (run_invariant (fun c e _ _ _ => allowed_any c e) (I := fun v => v.self = self)
    (fun _ _ _ hv hs => hs.self.trans hv) h (emmInit_coherent _ _ _) rfl).2

theorem trace_step (hc : c.sec.Coherent) (e : Env × EMMEvent) :
    Post (c.step P e) fun d => ∃ acts, d.trace = acts ++ c.trace := by
  intro d hd
  have hreach := reach_step hc (allowed_any c e) d hd
  refine hreach.invariant (I := fun v => ∃ acts, v.trace = acts ++ c.trace) ?_ ⟨[], rfl⟩
  rintro v w ⟨acts, hacts⟩ hs
  cases hs with
  | receive | deregister | bind | register | snapshot | procedure | timer | newQuadruplet | removeQuadruplet
  | freeQuadruplets => exact ⟨acts, hacts⟩
  | log | esmMessage | sendPlain | sendEmpty | sendSec | setupSec | setup | aka | akaFailed | authenticate
  | securityModeComplete => exact ⟨_ :: acts, congrArg (List.cons _) hacts⟩

end EMMCtx

/-! ## A concrete UE -/

namespace Sample

/-- A quadruplet with the given key. -/
def quadruplet (kASME : List UInt8) : AuthQuadruplet :=
  ⟨List.replicate 16 0x11, [1, 2, 3, 4, 5, 6, 7, 8], List.replicate 16 0x22, kASME⟩

/-- The environment of the UE: one ECM session, and an HSS that answers with the given result. -/
def env (hssAuth : HssAuth) : Env where
  ecms i := if i = 1 then
      some ⟨0, some 0, .connected, true, 1, 1, 7, [0x02, 0xf8, 0x39], [0, 1], false⟩ else none
  emms _ := none
  hssAuth
  hssSync := .wrongRows
  hssLocation := .profile 0 ⟨50000000, 100000000, 9, 1, [0x69, 0x6e, 0x74]⟩
  sgw := 0x0a000001
  pgw := 0x0a000002
  mmegi := [0x80, 0x01]
  mmec := 1
  rand := 0
  order := default
  sendto := true
  junk := 0
  junkImsi := 0

/-- The context that the UE starts with. -/
def init : EMMCtx := emmInit 0 1 ⟨0, 1, [], [], 0, 0⟩

def uplink (l : List UInt8) : EMMEvent := .uplink (.ofList l) (UInt64.ofNat l.length)

/-- A packet of the serving gateway for the user with the TEID 1. -/
def s11 (type : UInt8) (seq : UInt32) (ies : List GtpIE) : EMMEvent :=
  .s11 ⟨some ⟨0x0a000001, 2123⟩, type, 1, seq, ⟨2, 0, [16, 0]⟩ :: ies⟩

/-- The plain Attach Request of the UE, with its IMSI and a PDN Connectivity Request. -/
def attachRequest : EMMEvent :=
  uplink [0x07, 0x41, 0x71, 0x08, 0x29, 0x80, 0x39, 0x00, 0x00, 0x00, 0x00, 0x10, 0x02, 0xe0, 0xe0, 0x00,
    0x04, 0x02, 0x01, 0xd0, 0x11]

/-- The first part of an attach, up to the Security Mode Complete with the COUNT 0. -/
def authentication : List (Env × EMMEvent) :=
  [(env (.vector (quadruplet (List.replicate 32 0))), attachRequest),
    (env .manyRows, uplink [0x07, 0x53, 0x08, 1, 2, 3, 4, 5, 6, 7, 8]),
    (env .manyRows, uplink [0x47, 0x2d, 0xfd, 0x7f, 0x9a, 0x00, 0x07, 0x5e])]

/-- The second part: Create Session Response, Attach Complete, InitialContextSetupResponse and Modify
Bearer Response. -/
def activation : List (Env × EMMEvent) :=
  [(env .manyRows, s11 33 0 [⟨87, 0, [0x8b, 0, 0, 0, 9, 10, 0, 0, 1]⟩, ⟨79, 0, [1, 10, 0, 0, 7]⟩,
      ⟨93, 0, [73, 0, 1, 0, 5, 87, 0, 9, 0, 0x81, 0, 0, 0, 3, 10, 0, 0, 1]⟩]),
    (env .manyRows, uplink [0x27, 0x19, 0x6a, 0xb4, 0x55, 0x01, 0x07, 0x43, 0x00, 0x03, 0x52, 0x00, 0xc2]),
    (env .manyRows, .modifyERABList (some [⟨5, [0, 0, 0, 4], 32, [10, 0, 0, 9]⟩]) none),
    (env .manyRows, s11 35 1 [])]

end Sample

/-! ## A served UE has a security context -/

/-- The HSS knows a registered subscriber for whom there is no quadruplet left. -/
def HssKnows (c : EMMCtx) : Env × EMMEvent → Prop
  | (env, .uplink _ _) => c.stateName = .registered → c.authQuadrsLen = 0 → env.hssAuth ≠ .noRows
  | _ => True

instance (c : EMMCtx) (e : Env × EMMEvent) : Decidable (HssKnows c e) := by
  obtain ⟨env, _ | _⟩ := e <;> unfold HssKnows <;> infer_instance

/-- In every run from `emm_init` in which the HSS knows the registered subscribers, a UE is in
EMM_Registered or EMM_SpecificProcedureInitiated only with `sci` set and a valid NAS handler. -/
theorem served_under_security_context {self ecm : Nat} {s11 : S11Stack} {es : List (Env × EMMEvent)}
    {c : EMMCtx} (h : Run (EMMCtx.step P) HssKnows (emmInit self ecm s11) es c)
    (hs : c.stateName = .registered ∨ c.stateName = .specificProcedureInitiated) :
    c.sci = true ∧ c.parser.isValid = true := by
  let R : Risk := { Risk.any with stay := False }
  have hQ : ∀ c e, c.sec.Coherent → c.sec.ServedSecurely → HssKnows c e → c.Allowed P R e := by
    rintro c ⟨env, _ | _⟩ - - hq
    case uplink buf size =>
      exact { EMMCtx.UplinkAllowed.any env c buf size with
        aka := fun hreg hlen hno => absurd hno (hq hreg hlen) }
    all_goals first | exact trivial | exact ⟨fun _ => .inl (.inr trivial), nofun⟩
  have hstart : (emmInit self ecm s11).sec.ServedSecurely := by
    rintro (h | h) <;> cases h
  obtain ⟨hcoh, hsec⟩ := EMMCtx.run_invariant hQ (fun _ _ _ hv hst => hst.servedSecurely id hv) h
    (EMMCtx.emmInit_coherent _ _ _) hstart
  exact ⟨hsec hs, hcoh.valid (hsec hs)⟩

/-- A UE that attaches is registered, with a security context. -/
theorem served_under_security_context_attach :
    ∃ c, Run (EMMCtx.step Prims.zeroKasme) HssKnows Sample.init
        (Sample.authentication ++ Sample.activation) c ∧
      c.stateName = .registered ∧ c.sci = true ∧ c.parser.isValid = true := by
  refine Run.exists_of_exec (·.stateName = .registered) (by decide +kernel) fun c hrun hreg => ?_
  exact ⟨hreg, served_under_security_context hrun (.inl hreg)⟩

/-- The UE attaches, the HSS forgets the subscriber, and a plain Attach Request arrives: the UE stays
registered without a security context. -/
theorem registered_without_security_context :
    ∃ c, Run (EMMCtx.step Prims.zeroKasme) (fun _ _ => True) Sample.init
        (Sample.authentication ++ Sample.activation ++ [(Sample.env .noRows, Sample.attachRequest)]) c ∧
      c.stateName = .registered ∧ c.sci = false :=
  Run.exists_of_exec _ (by decide +kernel) fun _ _ => id

/-! ## Authentication before service -/

/-- A Security Mode Complete is received only after the NAS handler was keyed anew, that is, after the
Authentication Response of the run it belongs to. -/
def RekeyedFirst (P : Prims) (c : EMMCtx) : Env × EMMEvent → Prop
  | (_, .uplink buf size) => c.stateName = .commonProcedureInitiated →
      c.IsSecurityModeComplete P buf size → (keyedSince c.trace).isSome = true
  | _ => True

instance (c : EMMCtx) (e : Env × EMMEvent) : Decidable (RekeyedFirst P c e) := by
  obtain ⟨env, _ | _⟩ := e <;> unfold RekeyedFirst <;> infer_instance

theorem emmInit_authentic (self ecm : Nat) (s11 : S11Stack) : (emmInit self ecm s11).sec.Authentic P :=
  ⟨EMMCtx.emmInit_coherent _ _ _, nofun, nofun, nofun⟩

/-- In every run from `emm_init` in which each Security Mode Complete comes after the Authentication
Response of its run, `sci` is set only after an Authentication Response with the expected RES and a
Security Mode Complete under the keys of that quadruplet, both since the last removal of the security
context. -/
theorem authenticated_before_service {self ecm : Nat} {s11 : S11Stack} {es : List (Env × EMMEvent)}
    {c : EMMCtx} (h : Run (EMMCtx.step P) (RekeyedFirst P) (emmInit self ecm s11) es c)
    (hs : c.sci = true) : AuthenticatedSince P c.trace := by
  let R : Risk := { Risk.any with stale := False }
  have hQ : ∀ c e, c.sec.Coherent → c.sec.Authentic P → RekeyedFirst P c e → c.Allowed P R e := by
    rintro c ⟨env, _ | _⟩ - - hq
    case uplink buf size =>
      exact { EMMCtx.UplinkAllowed.any env c buf size with
        stale := fun hc hsmc => .inl (Option.isSome_iff_exists.mp (hq hc hsmc)) }
    all_goals first | exact trivial | exact ⟨fun _ => .inl (.inr trivial), nofun⟩
  obtain ⟨-, hauth⟩ := EMMCtx.run_invariant hQ (fun _ _ _ hv hst => hst.authentic id hv) h
    (EMMCtx.emmInit_coherent _ _ _) (emmInit_authentic _ _ _)
  exact hauth.served hs

/-- The UE that attaches was authenticated. -/
theorem authenticated_before_service_attach :
    ∃ c, Run (EMMCtx.step Prims.zeroKasme) (RekeyedFirst Prims.zeroKasme) Sample.init
        Sample.authentication c ∧
      c.sci = true ∧ AuthenticatedSince Prims.zeroKasme c.trace := by
  refine Run.exists_of_exec (·.sci = true) (by decide +kernel) fun c hrun hs => ?_
  exact ⟨hs, authenticated_before_service hrun hs⟩

/-- A Service Request stops the attach, a second attach starts with another quadruplet, and instead of
an Authentication Response the UE sends a Security Mode Complete with the next COUNT under the keys of
the first run. -/
theorem service_under_stale_keys :
    ∃ c, Run (EMMCtx.step Prims.zeroKasme) (fun _ _ => True) Sample.init
        (Sample.authentication ++
          [(Sample.env .manyRows, Sample.uplink [0xc7, 0x21, 0x00, 0x00]),
            (Sample.env (.vector (Sample.quadruplet (List.replicate 32 1))), Sample.attachRequest),
            (Sample.env .manyRows, Sample.uplink [0x47, 0x86, 0x43, 0x34, 0x61, 0x01, 0x07, 0x5e])]) c ∧
      c.sci = true ∧ ¬ AuthenticatedSince Prims.zeroKasme c.trace := by
  refine Run.exists_of_exec (fun c => c.sci = true ∧ (keyedSince c.trace).isSome = false) (by decide +kernel) ?_
  rintro c - ⟨hs, hk⟩
  refine ⟨hs, fun h => ?_⟩
  rw [h.isSome_keyedSince] at hk
  cases hk

/-! ## Downlink protection -/

/-- The PDUs that an entry of the trace records as handed over under a security context. -/
def Act.pdusUnderSC : Act → List (List UInt8)
  | .ecmSend _ true pdu => [pdu]
  | .ctxtSUReq _ true _ req => req.nasPdu.toList
  | _ => []

theorem Act.ProtectedIfSC.mem_pdusUnderSC {a : Act} (ha : a.ProtectedIfSC P) :
    ∀ pdu ∈ a.pdusUnderSC, Protected P pdu := by
  unfold Act.pdusUnderSC
  split
  · simpa using ha rfl
  · intro pdu hpdu
    exact ha rfl pdu (Option.mem_toList.mp hpdu)
  · nofun

/-- A Detach Request under a security context announces a switch off, and a detach that waits for the
serving gateway under a security context did. -/
def SwitchOffOnly (P : Prims) (c : EMMCtx) : Env × EMMEvent → Prop
  | (_, .uplink buf size) => c.sci = true → ∀ msg ∈ c.receivedMsg P buf size,
      msg.emmMessageType = detachRequest → msg 3 &&& 0x8 = 0x8
  | (_, .s11 _) => c.sci = true → c.esm.cb = true → c.msg.detachType &&& 0x8 = 0x8
  | _ => True

instance (c : EMMCtx) (e : Env × EMMEvent) : Decidable (SwitchOffOnly P c e) := by
  obtain ⟨env, _ | _⟩ := e <;> unfold SwitchOffOnly <;> infer_instance

/-- In every run from `emm_init` in which a UE with a security context only detaches to switch off,
every NAS PDU handed to `ecm_send` or `ecm_sendCtxtSUReq` under a security context was built by
`newNASMsg_sec`, and its security header type is not the plain one. -/
theorem downlink_protected {self ecm : Nat} {s11 : S11Stack} {es : List (Env × EMMEvent)} {c : EMMCtx}
    (h : Run (EMMCtx.step P) (SwitchOffOnly P) (emmInit self ecm s11) es c) :
    ∀ a ∈ c.trace, ∀ pdu ∈ a.pdusUnderSC, Protected P pdu ∧ ∃ b rest, pdu = b :: rest ∧
      SecurityHeaderType.ofNibble ((b &&& 0xf0) >>> 4) ≠ .plainNAS := by
  let R : Risk := { Risk.any with plainSend := False }
  have hsplit : ∀ (c : EMMCtx) (p : Prop), (c.sci = true → p) → (c.sci = false ∨ R.plainSend) ∨ p := by
    intro c p hp
    cases hs : c.sci with
    | false => exact .inl (.inl rfl)
    | true => exact .inr (hp hs)
  have hQ : ∀ c e, c.sec.Coherent → (∀ a ∈ c.sec.trace, a.ProtectedIfSC P) → SwitchOffOnly P c e →
      c.Allowed P R e := by
    rintro c ⟨env, _ | _⟩ - - hq
    case uplink buf size =>
      exact { EMMCtx.UplinkAllowed.any env c buf size with
        detach := fun msg hmsg htype => hsplit c _ fun hs => hq hs msg hmsg htype }
    case s11 pkt => exact ⟨fun hcb => hsplit c _ fun hs => hq hs hcb, nofun⟩
    all_goals exact trivial
  obtain ⟨-, hprot⟩ := EMMCtx.run_invariant (I := fun v => ∀ a ∈ v.trace, a.ProtectedIfSC P) hQ
    (fun _ _ hc hv hst => hst.protectedIfSC id hc hv) h (EMMCtx.emmInit_coherent _ _ _) nofun
  intro a ha pdu hpdu
  have hp := (hprot a ha).mem_pdusUnderSC pdu hpdu
  exact ⟨hp, hp.header⟩

/-- The UE attaches and switches off: the Attach Accept is protected. -/
theorem downlink_protected_switch_off :
    ∃ c, Run (EMMCtx.step Prims.zeroKasme) (SwitchOffOnly Prims.zeroKasme) Sample.init
        (Sample.authentication ++ Sample.activation ++
          [(Sample.env .manyRows, Sample.uplink [0x27, 0xb1, 0xd7, 0x85, 0x3e, 0x02, 0x07, 0x45, 0x19, 0x0b,
              0xf6, 0x02, 0xf8, 0x39, 0x80, 0x01, 0x01, 0x01, 0xd4, 0x6e, 0x4e]),
            (Sample.env .manyRows, Sample.s11 37 2 [])]) c ∧
      c.stateName = .deregistered ∧
      ∀ a ∈ c.trace, ∀ pdu ∈ a.pdusUnderSC, Protected Prims.zeroKasme pdu ∧ ∃ b rest, pdu = b :: rest ∧
        SecurityHeaderType.ofNibble ((b &&& 0xf0) >>> 4) ≠ .plainNAS := by
  refine Run.exists_of_exec (·.stateName = .deregistered) (by decide +kernel) fun c hrun hd => ?_
  exact ⟨hd, downlink_protected hrun⟩

/-- The UE attaches and detaches without switching off: once the serving gateway has deleted the
session, the Detach Accept is sent as a plain message although `sci` is set. -/
theorem detach_accept_unprotected :
    ∃ c, Run (EMMCtx.step Prims.zeroKasme) (fun _ _ => True) Sample.init
        (Sample.authentication ++ Sample.activation ++
          [(Sample.env .manyRows, Sample.uplink [0x27, 0xc8, 0x4d, 0x2e, 0x8e, 0x02, 0x07, 0x45, 0x11, 0x0b,
              0xf6, 0x02, 0xf8, 0x39, 0x80, 0x01, 0x01, 0x01, 0xd4, 0x6e, 0x4e]),
            (Sample.env .manyRows, Sample.s11 37 2 [])]) c ∧
      ∃ a ∈ c.trace, [0x07, detachAccept] ∈ a.pdusUnderSC ∧
        ¬ Protected Prims.zeroKasme [0x07, detachAccept] := by
  refine Run.exists_of_exec (fun c => ∃ a ∈ c.trace, [0x07, detachAccept] ∈ a.pdusUnderSC) (by decide +kernel) ?_
  rintro c - ⟨a, ha, hpdu⟩
  refine ⟨a, ha, hpdu, fun hp => ?_⟩
  obtain ⟨b, rest, heq, hb⟩ := hp.header
  cases heq
  exact hb (by decide)

end AaltoMME
