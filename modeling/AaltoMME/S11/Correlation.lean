import AaltoMME.S11.Session
import AaltoMME.NAS.Algorithms

/-!
# Whose response and whose callback

Three properties of the sessions of S11 users.  Each is proved for the runs whose events all meet a
condition, and a run without the condition shows that it is needed.  The conditions and the defects
behind them:

* `Disciplined`: `processMsg` makes up a transaction for a sequence number it does not know, and the
  states look at the type of a response only, so late and duplicated responses are taken;
* `Accepting`: the result of `accepted` is logged and not used;
* `Exclusive`: an operation stores its callback before the state decides about it.
-/

namespace AaltoMME

open Base NAS

/-- The type of the response to a request. -/
def S11Pending.answer (p : S11Pending) : Option UInt8 := p.req.op.map S11Op.answer

/-- The packet has a Cause that says "Request accepted". -/
def GtpPacket.Accepted (pkt : GtpPacket) : Prop :=
  ∃ v ∈ gtp2ieGettliv pkt.ies gtpv2cIECause 0, v.head? = some 16

instance (pkt : GtpPacket) : Decidable pkt.Accepted :=
  inferInstanceAs (Decidable (∃ v ∈ gtp2ieGettliv pkt.ies gtpv2cIECause 0, v.head? = some 16))

namespace S11Event

def packet? : S11Event → Option GtpPacket
  | .packet pkt => some pkt
  | _ => none

def isCall : S11Event → Bool
  | .call .. => true
  | _ => false

end S11Event

namespace S11View

variable {v w : S11View} {pkt : GtpPacket} {e : S11Event}

/-- The packet is the response to the request that is pending. -/
def Answers (v : S11View) (pkt : GtpPacket) : Prop :=
  pkt.peer = v.rAddr ∧ ∃ p ∈ v.pending, p.seq = pkt.seq ∧ p.answer = some pkt.type

instance : Decidable (v.Answers pkt) :=
  inferInstanceAs (Decidable (_ ∧ ∃ p ∈ v.pending, p.seq = pkt.seq ∧ p.answer = some pkt.type))

/-- The state of the user takes the packet. -/
def Takes (v : S11View) (pkt : GtpPacket) : Prop :=
  pkt.peer = v.rAddr ∧ ∃ s ∈ v.state, (s.onResponse pkt.type).isSome

instance : Decidable (v.Takes pkt) :=
  inferInstanceAs (Decidable (_ ∧ ∃ s ∈ v.state, (s.onResponse pkt.type).isSome = true))

/-! ## Requests and states -/

/-- A request is pending exactly while the user waits for the response to it, and every other one was
completed once. -/
structure Coherent (v : S11View) : Prop where
  waits : ∀ p, v.pending = some p → ∃ op, p.req.op = some op ∧ v.state = some op.next
  pends : ∀ s, v.state = some s → s.waits = true → ∃ p, v.pending = some p
  counts : v.sent.length = v.pending.toList.length + v.returned.length

theorem Coherent.pending_eq_none (hv : v.Coherent) {s : S11State} (hs : v.state = some s)
    (hw : s.waits = false) : v.pending = none := by
  cases hp : v.pending with
  | none => rfl
  | some p =>
    obtain ⟨op, -, hstate⟩ := hv.waits p hp
    cases hs.symm.trans hstate
    cases hw.symm.trans (S11State.waits_next op)

theorem Coherent.pending_eq_some (hv : v.Coherent) {s : S11State} {r : Option S11State} {type : UInt8}
    (hs : v.state = some s) (h : s.onResponse type = some r) : ∃ p, v.pending = some p :=
  hv.pends s hs (S11State.waits_of_onResponse h)

theorem Coherent.step (hv : v.Coherent) (h : S11Step v e w) : w.Coherent := by
  cases h with
  | refuse => exact ⟨hv.waits, hv.pends, hv.counts⟩
  | @request op p s hs hacc hop =>
    have hnone := hv.pending_eq_none hs (S11State.not_waits_of_accepts hacc)
    refine ⟨?_, fun _ _ _ => ⟨p, rfl⟩, ?_⟩
    · rintro q ⟨⟩
      exact ⟨op, hop, rfl⟩
    · have hcount := hv.counts
      rw [hnone] at hcount
      simp only [List.length_cons, Option.toList_some, List.length_nil]
      simp only [Option.toList_none, List.length_nil] at hcount
      omega
  | ignore | rest => exact hv
  | @complete pkt s s' hs _ hr =>
    obtain ⟨p, hp⟩ := hv.pending_eq_some hs hr
    have hcount := hv.counts
    rw [hp] at hcount
    refine ⟨nofun, ?_, ?_⟩
    · rintro q ⟨⟩ hw
      cases hw.symm.trans (S11State.not_waits_of_onResponse hr)
    · simpa [Nat.add_comm] using hcount
  | @delete pkt s hs _ hr =>
    obtain ⟨p, hp⟩ := hv.pending_eq_some hs hr
    have hcount := hv.counts
    rw [hp] at hcount
    exact ⟨nofun, nofun, by simpa [Nat.add_comm] using hcount⟩

/-- A step that changes the state or returns control, other than the call that sends a request. -/
theorem takes_of_step (h : S11Step v (.packet pkt) w) (hne : w.state ≠ v.state ∨ w.returned ≠ v.returned) :
    v.Takes pkt ∧ w.returned = v.cb :: v.returned ∧ w.pending = none := by
  cases h with
  | ignore => exact absurd hne (by simp)
  | complete hs hpeer hr => exact ⟨⟨hpeer, _, hs, by simp [hr]⟩, rfl, rfl⟩
  | delete hs hpeer hr => exact ⟨⟨hpeer, _, hs, by simp [hr]⟩, rfl, rfl⟩

/-! ## Correlation -/

/-- A packet that the state of the user takes has the sequence number of the request that is pending and,
where one state waits for two kinds of responses, it is of the kind that was asked for. -/
def Expects (v : S11View) (pkt : GtpPacket) : Prop :=
  v.Takes pkt → ∃ p ∈ v.pending, p.seq = pkt.seq ∧ (v.state = some .wModBearerRsp → p.answer = some pkt.type)

instance : Decidable (v.Expects pkt) :=
  inferInstanceAs (Decidable (v.Takes pkt → ∃ p ∈ v.pending, p.seq = pkt.seq ∧
    (v.state = some .wModBearerRsp → p.answer = some pkt.type)))

theorem Coherent.answers (hv : v.Coherent) (hx : v.Expects pkt) (ht : v.Takes pkt) : v.Answers pkt := by
  obtain ⟨p, hp, hseq, htype⟩ := hx ht
  obtain ⟨hpeer, s, hs, hr⟩ := ht
  obtain ⟨op, hop, hstate⟩ := hv.waits p hp
  cases hstate.symm.trans hs
  refine ⟨hpeer, p, hp, hseq, ?_⟩
  by_cases hmod : op.next = .wModBearerRsp
  · exact htype (hmod ▸ hstate)
  · obtain ⟨r, hr⟩ := Option.isSome_iff_exists.mp hr
    simp [S11Pending.answer, hop, S11State.answer_of_onResponse hmod hr]

/-! ## Callbacks -/

/-- The callback that is stored is the one of the call whose request is pending, and control was returned
to the callbacks of the other calls that sent a request, once each and in their order. -/
structure Owned (v : S11View) : Prop where
  slot : ∀ p, v.pending = some p → v.cb = p.cb
  log : v.sent.map (·.cb) = v.pending.toList.map (·.cb) ++ v.returned

theorem Owned.step (ho : v.Owned) (hv : v.Coherent)
    (hcall : e.isCall = true → ∀ s ∈ v.state, s.waits = false) (h : S11Step v e w) : w.Owned := by
  cases h with
  | @refuse op cb s hs =>
    have hnone := hv.pending_eq_none hs (hcall rfl s hs)
    exact ⟨fun p hp => by simp [hnone] at hp, ho.log⟩
  | @request op p s hs hacc hop =>
    have hnone := hv.pending_eq_none hs (S11State.not_waits_of_accepts hacc)
    have hlog := ho.log
    rw [hnone] at hlog
    refine ⟨?_, by simpa using hlog⟩
    rintro q ⟨⟩
    rfl
  | ignore | rest => exact ho
  | @complete pkt s s' hs _ hr =>
    obtain ⟨p, hp⟩ := hv.pending_eq_some hs hr
    have hlog := ho.log
    rw [hp] at hlog
    exact ⟨nofun, by simpa [ho.slot p hp] using hlog⟩
  | @delete pkt s hs _ hr =>
    obtain ⟨p, hp⟩ := hv.pending_eq_some hs hr
    have hlog := ho.log
    rw [hp] at hlog
    exact ⟨nofun, by simpa [ho.slot p hp] using hlog⟩

end S11View

/-! ## A concrete session -/

namespace S11Session

namespace Sample

/-- The environment of the UE: one ECM session. -/
def env : Env where
  ecms i := if i = 1 then
      some ⟨0, some 0, .connected, true, 1, 1, 7, [0x02, 0xf8, 0x39], [0, 1], true⟩ else none
  emms _ := none
  hssAuth := .noResult
  hssSync := .noResult
  hssLocation := .failed
  sgw := 0x0a000001
  pgw := 0x0a000002
  mmegi := [0x80, 0x01]
  mmec := 1
  rand := 0
  order := default
  sendto := true
  junk := 0
  junkImsi := 0

/-- A context with the EPS session 1 and the serving gateway 10.0.0.1. -/
def ctx : EMMCtx :=
  ({ emmInit 0 1 ⟨0, 1, [], [], 0, 0⟩ with sgwIP := some ⟨0x0a000001, 2123⟩ }.newSession 1 none).1

/-- A packet of the serving gateway with a Cause. -/
def response (type : UInt8) (seq : UInt32) (cause : UInt8) (ies : List GtpIE) : Env × S11Event :=
  (env, .packet ⟨some ⟨0x0a000001, 2123⟩, type, 1, seq, ⟨2, 0, [cause, 0]⟩ :: ies⟩)

/-- The elements of a Create Session Response. -/
def created : List GtpIE :=
  [⟨87, 0, [0x8b, 0, 0, 0, 9, 10, 0, 0, 1]⟩, ⟨79, 0, [1, 10, 0, 0, 7]⟩,
    ⟨93, 0, [73, 0, 1, 0, 5, 87, 0, 9, 0, 0x81, 0, 0, 0, 3, 10, 0, 0, 1]⟩]

/-- A session in the state `ctx`, after two requests. -/
def active : List (Env × S11Event) :=
  [(env, .call .attach none), response 33 0 16 created, (env, .call .modBearer none), response 35 1 16 []]

end Sample

variable {P : Prims} {c : EMMCtx} {session : Nat} {t t' : S11Session} {env : Env} {pkt : GtpPacket}
  {es : List (Env × S11Event)}

/-- The pointer to a new user is not the one of a user that exists. -/
def NewPointer (c : EMMCtx) : Prop := ∀ e ∈ c.s11.users, e.2.id ≠ c.s11.fresh

theorem Sample.newPointer_ctx : NewPointer Sample.ctx := fun _ he => absurd he List.not_mem_nil

theorem coherent_start : (start c session).view.Coherent where
  waits := nofun
  pends s hs hw := by
    have hstate : (start c session).view.state = some .noCtx := by
      simp [view, user, start, EMMCtx.s11NewUser, S11Stack.setUser]
    cases hs.symm.trans hstate
    cases hw
  counts := rfl

theorem coherent_of_run {Q : S11Session → Env × S11Event → Prop} (hQ : ∀ t e, Q t e → t.Allowed e)
    (hnew : NewPointer c) (h : Run (step P) Q (start c session) es t) : t.Tracked ∧ t.view.Coherent :=
  run_invariant hQ (fun _ _ _ hv _ hs => hv.step hs) h (tracked_start hnew session) coherent_start

/-! ## A response answers its request -/

/-- The serving gateway sends no late, duplicated or unsolicited response. -/
def Disciplined (t : S11Session) (e : Env × S11Event) : Prop :=
  t.Allowed e ∧ ∀ pkt ∈ e.2.packet?, t.view.Expects pkt

instance (t : S11Session) (e : Env × S11Event) : Decidable (t.Disciplined e) :=
  inferInstanceAs (Decidable (_ ∧ ∀ pkt ∈ e.2.packet?, t.view.Expects pkt))

/-- A packet changes the state of the user or returns control only if it is the response to the request
that is pending, and every request is completed at most once. -/
theorem response_correlation (hnew : NewPointer c) (hrun : Run (step P) Disciplined (start c session) es t)
    (hpkt : t.Disciplined (env, .packet pkt)) (hstep : t.step P (env, .packet pkt) = .ok t') :
    ((t'.view.state ≠ t.view.state ∨ t'.view.returned ≠ t.view.returned) →
      t.view.Answers pkt ∧ t'.view.pending = none) ∧
      t'.view.sent.length = t'.view.pending.toList.length + t'.view.returned.length := by
  obtain ⟨htr, hv⟩ := coherent_of_run (fun _ _ => And.left) hnew hrun
  obtain ⟨-, hs⟩ := simulates htr hpkt.1 t' hstep
  refine ⟨fun hne => ?_, (hv.step hs).counts⟩
  obtain ⟨htakes, -, hnone⟩ := S11View.takes_of_step hs hne
  exact ⟨hv.answers (hpkt.2 pkt rfl) htakes, hnone⟩

/-- The Release Access Bearers Response completes its request. -/
theorem response_correlation_release :
    ∃ t t', Run (step Prims.zeroKasme) Disciplined (start Sample.ctx 1)
        (Sample.active ++ [(Sample.env, .call .releaseAccess (some (.sendUEContextReleaseCommand 1)))]) t ∧
      t.step Prims.zeroKasme (Sample.response 171 2 16 []) = .ok t' ∧
      t'.view.state ≠ t.view.state ∧
      t.view.Answers ⟨some ⟨0x0a000001, 2123⟩, 171, 1, 2, [⟨2, 0, [16, 0]⟩]⟩ := by
  simp only [exists_and_left]
  refine Run.exists_step_of_exec (fun t e t' => t.Disciplined e ∧ t'.view.state ≠ t.view.state) (by decide +kernel) ?_
  rintro t t' hrun hstep ⟨hd, hne⟩
  exact ⟨hne, ((response_correlation Sample.newPointer_ctx hrun hd hstep).1 (.inl hne)).1⟩

/-- While a Release Access Bearers Request is pending, a duplicate of the earlier Modify Bearer Response
is taken, and control returns to the callback of the release. -/
theorem duplicate_response_taken :
    ∃ t t', Run (step Prims.zeroKasme) Allowed (start Sample.ctx 1)
        (Sample.active ++ [(Sample.env, .call .releaseAccess (some (.sendUEContextReleaseCommand 1)))]) t ∧
      t.step Prims.zeroKasme (Sample.response 35 1 16 []) = .ok t' ∧
      t.view.state = some .wModBearerRsp ∧ t'.view.state = some .ctx ∧
      t'.view.returned = some (.sendUEContextReleaseCommand 1) :: t.view.returned ∧
      ¬ t.view.Answers ⟨some ⟨0x0a000001, 2123⟩, 35, 1, 1, [⟨2, 0, [16, 0]⟩]⟩ := by
  simp only [exists_and_left]
  exact Run.exists_step_of_exec_self (by decide +kernel)

/-! ## A response that is taken was accepted -/

/-- What the serving gateway answers in the two states of interest is accepted. -/
def Accepting (t : S11Session) (e : Env × S11Event) : Prop :=
  t.Allowed e ∧ ∀ pkt ∈ e.2.packet?, t.view.Takes pkt → t.view.state ≠ some .wDel → pkt.Accepted

instance (t : S11Session) (e : Env × S11Event) : Decidable (t.Accepting e) :=
  inferInstanceAs (Decidable (_ ∧ ∀ pkt ∈ e.2.packet?, t.view.Takes pkt → t.view.state ≠ some .wDel →
    pkt.Accepted))

/-- A packet that does not return control, and is not a notification, builds no message. -/
theorem quiet_of_returned_eq (hstep : t.step P (env, .packet pkt) = .ok t') (htype : pkt.type ≠ 176)
    (hret : t'.view.returned = t.view.returned) :
    t'.ctx.trace = t.ctx.trace ∧ t'.ctx.esm = t.ctx.esm := by
  obtain ⟨⟨d, cb?⟩, hd, hstep⟩ := bind_eq_ok.mp hstep
  obtain ⟨d', hd', hstep⟩ := bind_eq_ok.mp hstep
  cases hstep
  cases cb? with
  | some cb => simp [view] at hret
  | none =>
    cases hd'
    unfold EMMCtx.s11Deliver at hd
    split at hd
    · cases hd
      exact ⟨rfl, rfl⟩
    · split at hd
      · obtain ⟨v, -, hd⟩ := bind_eq_ok.mp hd
        split at hd
        · cases hd
          exact ⟨rfl, rfl⟩
        · cases EMMCtx.dispatched_s11Dispatch v pkt _ hd with
          | ignored => exact ⟨rfl, rfl⟩
          | notified _ h => exact absurd h htype
      · cases hd
        exact ⟨rfl, rfl⟩

/-- The user leaves the states that wait for a Create Session, Modify Bearer or Release Access Bearers
Response, and control is returned there, only for a response that was accepted; of any other one nothing
is built. -/
theorem response_acceptance (hnew : NewPointer c) (hrun : Run (step P) Accepting (start c session) es t)
    {e : Env × S11Event} (he : t.Accepting e) (hstep : t.step P e = .ok t') :
    (t.view.state = some .wCtxRsp ∨ t.view.state = some .wModBearerRsp →
      t'.view.state ≠ t.view.state ∨ t'.view.returned ≠ t.view.returned →
        ∃ pkt, e.2 = .packet pkt ∧ pkt.Accepted) ∧
    ∀ pkt, e.2 = .packet pkt → pkt.type = 33 ∨ pkt.type = 35 ∨ pkt.type = 171 → ¬ pkt.Accepted →
      t'.view.state = t.view.state ∧ t'.view.returned = t.view.returned ∧ t'.ctx.trace = t.ctx.trace ∧
        t'.ctx.esm = t.ctx.esm := by
  obtain ⟨htr, -⟩ := coherent_of_run (fun _ _ => And.left) hnew hrun
  obtain ⟨-, hs⟩ := simulates htr he.1 t' hstep
  obtain ⟨env, e⟩ := e
  have hnot : ∀ op, t.view.state = some .wCtxRsp ∨ t.view.state = some .wModBearerRsp →
      ∀ s, t.view.state = some s → S11Op.accepts op s = true → False := by
    rintro op (hw | hw) s hst hacc
    · cases hst.symm.trans hw
      cases S11State.not_waits_of_accepts hacc
    · cases hst.symm.trans hw
      cases S11State.not_waits_of_accepts hacc
  constructor
  · intro hwait hne
    cases e with
    | packet pkt =>
      obtain ⟨htakes, -⟩ := S11View.takes_of_step hs hne
      refine ⟨pkt, rfl, he.2 pkt rfl htakes ?_⟩
      rcases hwait with hw | hw <;> simp [hw]
    | call op cb =>
      generalize hv' : t'.view = v' at hs hne
      cases hs with
      | refuse => simp at hne
      | request hst hacc => exact (hnot op hwait _ hst hacc).elim
    | rest c =>
      generalize hv' : t'.view = v' at hs hne
      cases hs
      simp at hne
  · rintro pkt ⟨⟩ htype hrej
    have hsame : t'.view.state = t.view.state ∧ t'.view.returned = t.view.returned := by
      by_contra hne
      obtain ⟨htakes, -⟩ := S11View.takes_of_step hs (not_and_or.mp hne)
      refine hrej (he.2 pkt rfl htakes fun hdel => ?_)
      obtain ⟨-, s, hst, hr⟩ := htakes
      cases hst.symm.trans hdel
      rcases htype with h | h | h <;> simp [S11State.onResponse, h] at hr
    have h176 : pkt.type ≠ 176 := by rcases htype with h | h | h <;> simp [h]
    exact ⟨hsame.1, hsame.2, quiet_of_returned_eq hstep h176 hsame.2⟩

/-- The accepted Modify Bearer Response of a session. -/
theorem response_acceptance_modify :
    ∃ t t', Run (step Prims.zeroKasme) Accepting (start Sample.ctx 1) (Sample.active.take 3) t ∧
      t.step Prims.zeroKasme (Sample.response 35 1 16 []) = .ok t' ∧ t'.view.state = some .ctx ∧
      ∃ pkt, (Sample.response 35 1 16 []).2 = .packet pkt ∧ pkt.Accepted := by
  simp only [exists_and_left]
  refine Run.exists_step_of_exec (fun t e t' => t.Accepting e ∧ t.view.state = some .wModBearerRsp ∧
    t'.view.state = some .ctx) (by decide +kernel) ?_
  rintro t t' hrun hstep ⟨he, hst, hst'⟩
  have hne : t'.view.state ≠ t.view.state := by simp [hst, hst']
  exact ⟨hst', (response_acceptance Sample.newPointer_ctx hrun he hstep).1 (.inr hst) (.inl hne)⟩

/-- A Modify Bearer Response with the cause 64, "Context Not Found", establishes the bearer, and a Create
Session Response with the cause 73, "No resources available", has the Activate Default EPS Bearer Context
Request built, which aborts the MME because there is no PDN address. -/
theorem rejected_response_taken :
    (∃ t t', Run (step Prims.zeroKasme) Allowed (start Sample.ctx 1) (Sample.active.take 3) t ∧
      t.step Prims.zeroKasme (Sample.response 35 1 64 []) = .ok t' ∧
      t.view.state = some .wModBearerRsp ∧ t'.view.state = some .ctx ∧
      ¬ GtpPacket.Accepted ⟨some ⟨0x0a000001, 2123⟩, 35, 1, 1, [⟨2, 0, [64, 0]⟩]⟩) ∧
    ∃ t, Run (step Prims.zeroKasme) Allowed (start Sample.ctx 1)
        [(Sample.env, .call .attach (some (.sendActivateDefault 1)))] t ∧
      t.view.state = some .wCtxRsp ∧
      t.step Prims.zeroKasme (Sample.response 33 0 73 []) = .error (.gError "Wrong PDN address type") := by
  simp only [exists_and_left]
  refine ⟨Run.exists_step_of_exec_self (by decide +kernel), ?_⟩
  refine Run.exists_of_exec (fun t => t.view.state = some .wCtxRsp ∧
    (match t.step Prims.zeroKasme (Sample.response 33 0 73 []) with
      | .error e => decide (e = .gError "Wrong PDN address type")
      | .ok _ => false) = true) (by decide +kernel) ?_
  rintro t - ⟨hst, herr⟩
  refine ⟨hst, ?_⟩
  split at herr
  · rename_i e he
    rw [he, of_decide_eq_true herr]
  · cases herr

/-! ## Control returns to the caller -/

/-- No operation is called while a response is pending. -/
def Exclusive (t : S11Session) (e : Env × S11Event) : Prop :=
  t.Disciplined e ∧ (e.2.isCall = true → ∀ s ∈ t.view.state, s.waits = false)

instance (t : S11Session) (e : Env × S11Event) : Decidable (t.Exclusive e) :=
  inferInstanceAs (Decidable (_ ∧ (e.2.isCall = true → ∀ s ∈ t.view.state, s.waits = false)))

theorem owned_start : (start c session).view.Owned := ⟨nofun, rfl⟩

/-- Control returns to the callback of the call whose request the packet answers.  The callbacks to which
it was returned are those of the calls that sent a request, once each, but for the one that is pending;
the callback of that one is in place. -/
theorem callback_ownership (hnew : NewPointer c) (hrun : Run (step P) Exclusive (start c session) es t) :
    t.view.sent.map (·.cb) = t.view.pending.toList.map (·.cb) ++ t.view.returned ∧
    (∀ p, t.view.pending = some p → t.view.cb = p.cb) ∧
    ∀ env pkt t', t.Exclusive (env, .packet pkt) → t.step P (env, .packet pkt) = .ok t' →
      t'.view.returned ≠ t.view.returned →
        t.view.Answers pkt ∧ ∃ p, t.view.pending = some p ∧ t'.view.returned = p.cb :: t.view.returned := by
  obtain ⟨htr, hv, ho⟩ := run_invariant (I := fun v => v.Coherent ∧ v.Owned) (fun _ _ hq => hq.1.1)
    (fun _ _ _ hv hq hs => ⟨hv.1.step hs, hv.2.step hv.1 hq.2 hs⟩) hrun (tracked_start hnew session)
    ⟨coherent_start, owned_start⟩
  refine ⟨ho.log, ho.slot, fun env pkt t' he hstep hne => ?_⟩
  obtain ⟨-, hs⟩ := simulates htr he.1.1 t' hstep
  obtain ⟨htakes, hret, -⟩ := S11View.takes_of_step hs (.inr hne)
  have hans := hv.answers (he.1.2 pkt rfl) htakes
  obtain ⟨p, hp, -⟩ := hans.2
  exact ⟨hans, p, hp, ho.slot p hp ▸ hret⟩

/-- Control returns to the callback of a path switch. -/
theorem callback_ownership_pathSwitch :
    ∃ t t', Run (step Prims.zeroKasme) Exclusive (start Sample.ctx 1)
        (Sample.active ++ [(Sample.env, .call .modBearer (some (.sendPathSwitchReqAck 1)))]) t ∧
      t.step Prims.zeroKasme (Sample.response 35 2 16 []) = .ok t' ∧
      ∃ p, t.view.pending = some p ∧ p.cb = some (.sendPathSwitchReqAck 1) ∧
        t'.view.returned = p.cb :: t.view.returned := by
  simp only [exists_and_left]
  refine Run.exists_step_of_exec (fun t e t' => t.Exclusive e ∧ t'.view.returned ≠ t.view.returned ∧
    t.view.cb = some (.sendPathSwitchReqAck 1)) (by decide +kernel) ?_
  rintro t t' hrun hstep ⟨he, hret, hcb⟩
  obtain ⟨-, hslot, hown⟩ := callback_ownership Sample.newPointer_ctx hrun
  obtain ⟨-, p, hp, hret⟩ := hown _ _ t' he hstep hret
  exact ⟨p, hp, (hslot p hp).symm.trans hcb, hret⟩

/-- A detach is called while the Modify Bearer Request of a path switch is pending.  No request is sent,
but the response to the pending one deletes the EPS session, and the path switch is never
acknowledged. -/
theorem callback_overwritten :
    ∃ t t', Run (step Prims.zeroKasme) Disciplined (start Sample.ctx 1)
        (Sample.active ++ [(Sample.env, .call .modBearer (some (.sendPathSwitchReqAck 1))),
          (Sample.env, .call .detach (some (.deleteEPSSession 1)))]) t ∧
      t.step Prims.zeroKasme (Sample.response 35 2 16 []) = .ok t' ∧
      t.view.Answers ⟨some ⟨0x0a000001, 2123⟩, 35, 1, 2, [⟨2, 0, [16, 0]⟩]⟩ ∧
      (t.view.pending.map (·.cb)) = some (some (.sendPathSwitchReqAck 1)) ∧
      t.view.cb = some (.deleteEPSSession 1) ∧
      t'.view.returned = some (.deleteEPSSession 1) :: t.view.returned ∧ t'.ctx.esm.sessions.length = 0 := by
  simp only [exists_and_left]
  exact Run.exists_step_of_exec_self (by decide +kernel)

end S11Session

end AaltoMME
