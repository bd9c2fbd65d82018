import AaltoMME.EMM.Security.Allowed

/-!
# What the operations of a context do

Every operation of an EMM context makes elementary changes of its two views and, if the event is allowed, of its
security part.  Most of them keep the EMM state and `sci` as well (`Keeps`); the changes they make are possible in
any EMM state, which matters because an authentication run changes the state last.
-/

namespace AaltoMME

open Base NAS Relation

/-- The view with another EMM state. -/
def SecView.inState (v : SecView) (s : EMMState) : SecView := { v with stateName := s }

/-- What most operations leave as it is: the EMM state, `sci`, the quadruplets, the COUNT of the security
context, the identity and the connection, the type of the detach and whether one is going on. -/
structure Frame where
  stateName : EMMState
  sci : Bool
  authQuadrs : List AuthQuadruplet
  authQuadrsLen : UInt64
  kasme : List UInt8
  nasUlCountForSC : UInt32
  self : Nat
  ecm : Option Nat
  detachType : UInt8
  cb : Bool

def EMMCtx.frame (c : EMMCtx) : Frame where
  stateName := c.stateName
  sci := c.sci
  authQuadrs := c.authQuadrs
  authQuadrsLen := c.authQuadrsLen
  kasme := c.kasme
  nasUlCountForSC := c.nasUlCountForSC
  self := c.self
  ecm := c.ecm
  detachType := c.msg.detachType
  cb := c.esm.cb

/-- An operation that keeps the frame, and makes changes that are possible in any EMM state. -/
structure Keeps (P : Prims) (R : Risk) (c d : EMMCtx) : Prop where
  steps : ∀ s, SecSteps P R (c.sec.inState s) (d.sec.inState s)
  frame : d.frame = c.frame

/-- An operation whose changes are elementary ones, whatever they are. -/
def Reach (P : Prims) (R : Risk) (c d : EMMCtx) : Prop := SecSteps P R c.sec d.sec

/-- An operation of the event `e` that changes neither of the two views. -/
structure Quiet (P : Prims) (R : Risk) (c₀ : EMMCtx) (e : Env × EMMEvent) (c d : EMMCtx) : Prop where
  keeps : c₀.Admits P R e → Keeps P R c d
  calm : Calm c d

/-- An operation that changes the sessions only. -/
structure SessionMoves (P : Prims) (R : Risk) (c₀ : EMMCtx) (e : Env × EMMEvent) (c d : EMMCtx) : Prop where
  keeps : c₀.Admits P R e → Keeps P R c d
  session : ReflTransGen (SessionChange P c₀ e) c.sessionView d.sessionView
  emm : d.emmView = c.emmView

/-- An operation of the event `e`, which has found the context `c₀`. -/
structure Moves (P : Prims) (R : Risk) (c₀ : EMMCtx) (e : Env × EMMEvent) (c d : EMMCtx) : Prop where
  reach : c₀.Admits P R e → Reach P R c d
  changes : Changes P c₀ e c d

variable {P : Prims} {R : Risk} {c₀ : EMMCtx} {e : Env × EMMEvent} {env : Env} {b c d : EMMCtx}

namespace Keeps

theorem stateName (h : Keeps P R c d) : d.stateName = c.stateName := congrArg Frame.stateName h.frame

theorem sci (h : Keeps P R c d) : d.sci = c.sci := congrArg Frame.sci h.frame

theorem of_sec (h : d.sec = c.sec) (hf : d.frame = c.frame) : Keeps P R c d :=
  ⟨fun _ => h ▸ .refl, hf⟩

theorem of_step (h : ∀ s, SecStep P R (c.sec.inState s) (d.sec.inState s)) (hf : d.frame = c.frame) :
    Keeps P R c d :=
  ⟨fun s => .single (h s), hf⟩

theorem trans (h : Keeps P R b c) (h' : Keeps P R c d) : Keeps P R b d :=
  ⟨fun s => (h.steps s).trans (h'.steps s), h'.frame.trans h.frame⟩

theorem logParser {a : Act} {h : NASHandler}
    (hstep : ∀ s, SecStep P R (c.sec.inState s) (({ c.sec.inState s with parser := h } : SecView).log a))
    (hd : d.sec = { c.sec with parser := h }) (hf : d.frame = c.frame) : Keeps P R c (d.log a) := by
  refine of_step (fun s => ?_) hf
  have hw : (d.log a).sec.inState s = ({ c.sec.inState s with parser := h } : SecView).log a := by
    show (d.sec.inState s).log a = _
    rw [hd]
    rfl
  exact hw ▸ hstep s

theorem secSteps (h : Keeps P R c d) : SecSteps P R c.sec d.sec := by
  have hd : d.sec.inState c.stateName = d.sec := by
    rw [← h.stateName]
    rfl
  exact hd ▸ h.steps c.stateName

end Keeps

namespace Reach

theorem of_sec (h : d.sec = c.sec) : Reach P R c d := by
  unfold Reach
  rw [h]
  exact .refl

theorem of_step (h : SecStep P R c.sec d.sec) : Reach P R c d := .single h

theorem trans (h : Reach P R b c) (h' : Reach P R c d) : Reach P R b d := ReflTransGen.trans h h'

theorem timers {timers : EMMTimerCode → Option EMMTimer}
    (h : ∀ t, timers .t3460 = some t → ∃ u, c.activeTimers .t3460 = some u ∧ u.msg = t.msg) :
    Reach P R c { c with activeTimers := timers } :=
  .of_step (.timer fun t ht _ => .inr (h t ht))

end Reach

namespace Quiet

theorem of_eq (hs : d.sec = c.sec) (hf : d.frame = c.frame) (h : Calm c d) : Quiet P R c₀ e c d :=
  ⟨fun _ => .of_sec hs hf, h⟩

theorem refl : Quiet P R c₀ e c c := .of_eq rfl rfl rfl

theorem trans (h : Quiet P R c₀ e b c) (h' : Quiet P R c₀ e c d) : Quiet P R c₀ e b d :=
  ⟨fun ha => (h.keeps ha).trans (h'.keeps ha), h.calm.trans h'.calm⟩

theorem moves (h : Quiet P R c₀ e c d) : Moves P R c₀ e c d := ⟨fun ha => (h.keeps ha).secSteps, h.calm.changes⟩

theorem session (h : Quiet P R c₀ e c d) : SessionMoves P R c₀ e c d where
  keeps := h.keeps
  session := by rw [h.calm.session]
  emm := h.calm.emm

theorem post_trans {x : Outcome EMMCtx} (hx : Post x (Quiet P R c₀ e d)) (h : Quiet P R c₀ e c d) :
    Post x (Quiet P R c₀ e c) :=
  hx.mono fun _ hd => h.trans hd

theorem post {x : Outcome EMMCtx} (hx : Post x (Quiet P R c₀ e c)) : Post x (Moves P R c₀ e c) :=
  hx.mono fun _ => moves

end Quiet

namespace SessionMoves

theorem moves (h : SessionMoves P R c₀ e c d) : Moves P R c₀ e c d :=
  ⟨fun ha => (h.keeps ha).secSteps, .of_sessions h.session h.emm⟩

theorem trans (h : SessionMoves P R c₀ e b c) (h' : SessionMoves P R c₀ e c d) : SessionMoves P R c₀ e b d :=
  ⟨fun ha => (h.keeps ha).trans (h'.keeps ha), h.session.trans h'.session, h'.emm.trans h.emm⟩

theorem of_change (h : SessionChange P c₀ e c.sessionView d.sessionView) (hv : d.emmView = c.emmView)
    (hk : ∀ {P R}, Keeps P R c d) : SessionMoves P R c₀ e c d := ⟨fun _ => hk, .single h, hv⟩

theorem post_trans {x : Outcome EMMCtx} (hx : Post x (SessionMoves P R c₀ e d)) (h : SessionMoves P R c₀ e c d) :
    Post x (SessionMoves P R c₀ e c) :=
  hx.mono fun _ hd => h.trans hd

theorem post {x : Outcome EMMCtx} (hx : Post x (SessionMoves P R c₀ e c)) : Post x (Moves P R c₀ e c) :=
  hx.mono fun _ => moves

end SessionMoves

namespace Moves

theorem of_eq (hs : d.sec = c.sec) (h : Calm c d) : Moves P R c₀ e c d := ⟨fun _ => .of_sec hs, h.changes⟩

theorem refl : Moves P R c₀ e c c := .of_eq rfl rfl

theorem trans (h : Moves P R c₀ e b c) (h' : Moves P R c₀ e c d) : Moves P R c₀ e b d :=
  ⟨fun ha => (h.reach ha).trans (h'.reach ha), h.changes.trans h'.changes⟩

theorem post_trans {x : Outcome EMMCtx} (hx : Post x (Moves P R c₀ e d)) (h : Moves P R c₀ e c d) :
    Post x (Moves P R c₀ e c) :=
  hx.mono fun _ hd => h.trans hd

theorem bind {x : Outcome EMMCtx} {f : EMMCtx → Outcome EMMCtx} (hx : Post x (Moves P R c₀ e c))
    (hf : ∀ d, Moves P R c₀ e c d → Post (f d) (Moves P R c₀ e d)) : Post (x >>= f) (Moves P R c₀ e c) :=
  Post.bind hx fun d hd => post_trans (hf d hd) hd

theorem deregister : Moves P R c₀ e c (c.emmChangeState .deregistered) :=
  ⟨fun _ => .of_step .deregister, .of_emm .deregister rfl⟩

theorem emmStopTimer (code : EMMTimerCode) : Moves P R c₀ e c (c.emmStopTimer code) := by
  refine ⟨fun _ => .timers fun t ht => ?_, .emmStopTimer code⟩
  rw [Function.update_apply] at ht
  split at ht
  · cases ht
  · exact ⟨t, ht, rfl⟩

end Moves

namespace EMMCtx

/-! ## Downlink messages -/

theorem calm_log_ecmSend {pdu : List UInt8} (h : authRequestOf pdu = none) (ecm : Option Nat) (sci : Bool) :
    Calm c (c.log (.ecmSend ecm sci pdu)) := by
  simp [Calm, views, emmView, sessionView, EMMCtx.log, List.filterMap_cons, Act.challenge, Act.registration,
    Act.deletion, h]

theorem quiet_ecmSend {pdu : List UInt8} (hpdu : authRequestOf pdu = none)
    (h : c₀.Admits P R e → c.sci = false ∨ R.plainSend) : Post (c.ecmSend env pdu) (Quiet P R c₀ e c) :=
  post_ecmSend fun _ => ⟨fun ha => .of_step (fun _ => .sendPlain (h ha)) rfl, calm_log_ecmSend hpdu _ _⟩

theorem quiet_ecmSendUEContextReleaseCommand (cause : ReleaseCause) :
    Post (c.ecmSendUEContextReleaseCommand env cause) (Quiet P R c₀ e c) :=
  post_ecmSendUEContextReleaseCommand .refl fun _ => ⟨fun _ => .of_step (fun _ => .log trivial) rfl, rfl⟩

/-- What `newNASMsg_sec` leaves: a message and the advanced handler, or the unset length because the
handler is not valid. -/
def Builds (P : Prims) (c : EMMCtx) (s : SecurityHeaderType) (plain : List UInt8) (unset : Outcome (List UInt8))
    (p : EMMCtx × List UInt8) : Prop :=
  (∃ h, newNASMsgSec P c.parser epsMobilityManagementMessages s .downLink plain = .ok (some (h, p.2)) ∧
      p.1 = { c with parser := h }) ∨
    (c.parser.isValid = false ∧ unset = .ok p.2 ∧ p.1 = c)

section Builds

variable {s : SecurityHeaderType} (hs : s.isProtected = true) {plain : List UInt8} {unset : Outcome (List UInt8)}
  (hu : unset = noLength ∨ unset = zeroLength) {p : EMMCtx × List UInt8}

include hs

theorem builds_emmNewNASMsgSec (plain : List UInt8) (unset : Outcome (List UInt8)) :
    Post (c.emmNewNASMsgSec P s plain unset) (c.Builds P s plain unset) := by
  intro p hp
  obtain ⟨o, ho, hp⟩ := bind_eq_ok.mp hp
  rcases o with _ | ⟨h, out⟩
  · obtain ⟨out, hunset, hp⟩ := bind_eq_ok.mp hp
    cases hp
    refine .inr ⟨?_, hunset, rfl⟩
    exact isValid_of_newNASMsgSec_none hs ho
  · cases hp
    exact .inl ⟨h, ho, rfl⟩

theorem authRequestOf_newNASMsgSec {h h' : NASHandler} {out : List UInt8}
    (ho : newNASMsgSec P h epsMobilityManagementMessages s .downLink plain = .ok (some (h', out))) :
    authRequestOf out = none := by
  obtain ⟨-, -, rest, rfl⟩ := newNASMsgSec_eq_some ho
  have hne : (epsMobilityManagementMessages &&& (0x0F : UInt8)) ||| (s.octet <<< 4) ≠ 0x07 := by
    cases s <;> first | decide | cases hs
  refine if_neg fun heq => ?_
  exact hne (List.cons.inj heq).1

include hu

theorem Builds.calm (hp : c.Builds P s plain unset p) : Calm c p.1 ∧ authRequestOf p.2 = none := by
  obtain ⟨d, out⟩ := p
  obtain ⟨h, ho, rfl⟩ | ⟨-, hout, rfl⟩ := hp
  · exact ⟨rfl, authRequestOf_newNASMsgSec hs ho⟩
  · refine ⟨rfl, ?_⟩
    rcases hu with rfl | rfl <;> cases hout
    rfl

/-- Sending the message that `newNASMsg_sec` left, or nothing if it left none. -/
theorem Builds.keeps (hp : c.Builds P s plain unset p) (hd : d.sec = p.1.sec) (hf : d.frame = p.1.frame)
    (ecm : Option Nat) : Keeps P R c (d.log (.ecmSend ecm d.sci p.2)) := by
  obtain ⟨d', out⟩ := p
  have hsci : d.sci = d'.sci := congrArg SecView.sci hd
  rw [hsci]
  obtain ⟨h, ho, rfl⟩ | ⟨hv, hun, rfl⟩ := hp
  · exact .logParser (fun _ => .sendSec hs ho) hd hf
  · obtain rfl : out = [] := by
      rcases hu with rfl | rfl <;> cases hun
      rfl
    exact .logParser (fun _ => .sendEmpty hv) hd hf

theorem quiet_sendSec (plain : List UInt8) : Post (c.sendSec P env s plain unset) (Quiet P R c₀ e c) := by
  refine .bind (builds_emmNewNASMsgSec hs plain unset) fun p hp => post_ecmSend fun ecm => ?_
  obtain ⟨hcalm, hpdu⟩ := hp.calm hs hu
  exact ⟨fun _ => hp.keeps hs hu rfl rfl ecm, hcalm.trans (calm_log_ecmSend hpdu _ _)⟩

end Builds

theorem quiet_sendIfSC {plain : List UInt8} (h : authRequestOf plain = none) {unset : Outcome (List UInt8)}
    (hu : unset = noLength ∨ unset = zeroLength) : Post (c.sendIfSC P env plain unset) (Quiet P R c₀ e c) :=
  Post.ite (fun _ => quiet_sendSec rfl hu plain) fun hsci => quiet_ecmSend h fun _ => .inl (by simpa using hsci)

theorem quiet_emmSendAttachReject (cause : UInt8) :
    Post (c.emmSendAttachReject P env cause) (Quiet P R c₀ e c) := by
  refine .ite (fun _ => .ok .refl) fun _ => ?_
  exact Quiet.post_trans (quiet_sendIfSC rfl (.inl rfl)) (.of_eq rfl rfl rfl)

theorem moves_emmSendTAUReject (cause : UInt8) : Post (c.emmSendTAUReject P env cause) (Moves P R c₀ e c) :=
  Quiet.post (quiet_sendIfSC rfl (.inr rfl))

theorem moves_emmSendServiceReject (cause : UInt8) :
    Post (c.emmSendServiceReject P env cause) (Moves P R c₀ e c) :=
  Moves.bind (Quiet.post (quiet_sendIfSC rfl (.inl rfl))) fun _ _ => .ok .deregister

theorem quiet_emmSendESM {msg : List UInt8} (h : authRequestOf msg = none) :
    Post (c.emmSendESM P env msg) (Quiet P R c₀ e c) := by
  unfold emmSendESM
  split
  · exact quiet_sendIfSC h (.inl rfl)
  · exact quiet_sendIfSC h (.inl rfl)
  · exact .error

variable (P R c₀ e) in
theorem post_emmSendIdentityReq (h : c.sci = false) :
    Post (c.emmSendIdentityReq env) fun d => Keeps P R c d ∧ Changes P c₀ e c d ∧ d.pendingESMmsg = c.pendingESMmsg := by
  refine post_ecmSend fun ecm => ⟨.of_step (fun _ => .sendPlain (.inl h)) rfl, ?_, rfl⟩
  exact .trans (.emmSetTimer (by rfl)) (calm_log_ecmSend rfl _ _).changes

theorem moves_emmSendSecurityModeCommand (hc : c.stateName = .commonProcedureInitiated) :
    Post (c.emmSendSecurityModeCommand P env) (Moves P R c₀ e c) := by
  refine .of_bind fun cap => .bind (quiet_sendSec rfl (.inl rfl) _) fun d hd => .ok (hd.moves.trans ?_)
  have hst := (congrArg EMMView.stateName hd.calm.emm).trans hc
  refine ⟨fun _ => .of_step ?_, .trans (.emmSetTimer (by exact .inr rfl)) (.of_emm (.common (.inr (.inr hst))) rfl)⟩
  have hsec : d.sec = d.sec.inState .commonProcedureInitiated := by
    rw [← hst]
    rfl
  rw [hsec]
  refine .timer ?_
  rintro _ ⟨⟩ htype
  exact absurd htype (by simp [EMMTimer.IsAuthRequest]; decide)

variable (P R c₀ e) in
theorem post_emmSendTAUAccept :
    Post (c.emmSendTAUAccept P env) fun d => Keeps P R c d ∧ Changes P c₀ e c d := by
  refine .of_bind fun s => .bind (builds_emmNewNASMsgSec rfl _ _) fun p hp => post_ecmSend fun ecm => ?_
  obtain ⟨hcalm, hpdu⟩ := hp.calm rfl (.inr rfl)
  refine ⟨hp.keeps (d := p.1.emmSetTimer .t3450 _) rfl (.inr rfl) rfl rfl ecm, ?_⟩
  exact (hcalm.changes.trans (.emmSetTimer (by exact .inr rfl))).trans (calm_log_ecmSend hpdu _ _).changes

theorem moves_sendAuthReject (h : c₀.Admits P R e → c.sci = false) :
    Post (c.sendAuthReject env) (Moves P R c₀ e c) :=
  Moves.bind (Quiet.post (quiet_ecmSend rfl fun ha => .inl (h ha))) fun _ _ => .ok .deregister

theorem moves_emmDetachAccept (h : c₀.Admits P R e → c.AcceptAllowed R) :
    Post (c.emmDetachAccept env) (Moves P R c₀ e c) := by
  have hrelease : ∀ d : EMMCtx,
      Post ((d.emmChangeState .deregistered).ecmSendUEContextReleaseCommand env .detach) (Moves P R c₀ e d) :=
    fun d => Moves.post_trans (Quiet.post (quiet_ecmSendUEContextReleaseCommand _)) .deregister
  refine Moves.post_trans (d := { c with s1BearersActive := false }) ?_ (.of_eq rfl rfl)
  unfold emmDetachAccept
  dsimp only
  split
  · rename_i hoff
    exact Moves.bind (Quiet.post (quiet_ecmSend rfl fun ha => (h ha).resolve_right hoff)) fun d _ => hrelease d
  · exact hrelease _

/-! ## Context setup requests -/

theorem Bound.of_frame (h : c.Bound env) (hd : d.frame = c.frame) : d.Bound env := by
  have hself : d.self = c.self := congrArg Frame.self hd
  have hecm : d.ecm = c.ecm := congrArg Frame.ecm hd
  unfold Bound
  rw [hself, hecm]
  exact h

theorem keys_of_ofEcm {s : ECMSession} {emm : EMMCtx} (hb : R.bound → c.Bound env) (hs : c.derefEcm env = .ok s)
    (hemm : c.ofEcm env s = .ok emm) {req : CtxtSUReq} (hreq : req.securityKey = emm.emmGetKeNB P) :
    c.sec.Keys P R emm.nasUlCountForSC req := by
  intro hbound
  obtain ⟨id, hid, hs⟩ := deref_eq_ok.mp hs
  rw [ofEcm, if_pos (hb hbound id s hid hs)] at hemm
  cases hemm
  exact ⟨rfl, hreq⟩

theorem moves_ecmSendCtxtSUReq_none (hs : c.stateName = .registered)
    (h : c₀.Admits P R e → (R.bound → c.Bound env) ∧ R.service c.kasme c.nasUlCountForSC) (sessions : List Nat) :
    Post (c.ecmSendCtxtSUReq P env none sessions) (Moves P R c₀ e c) := by
  refine post_ecmSendCtxtSUReq .refl fun s emm id req he hemm hpdu hkey => ⟨fun ha => .of_step ?_, Calm.changes rfl⟩
  exact .setup hs (h ha).2 hpdu (keys_of_ofEcm (h ha).1 he hemm hkey)

/-- A context setup request with the message that `newNASMsg_sec` built. -/
theorem reach_ecmSendCtxtSUReq_built (hb : R.bound → c.Bound env)
    (hspi : c.stateName = .specificProcedureInitiated) {s : SecurityHeaderType} (hs : s.isProtected = true)
    {plain out : List UInt8} {h : NASHandler}
    (ho : newNASMsgSec P c.parser epsMobilityManagementMessages s .downLink plain = .ok (some (h, out)))
    (hd : d.sec = { c.sec with parser := h }) (sessions : List Nat) :
    Post (d.ecmSendCtxtSUReq P env (some out) sessions) (Reach P R c) := by
  have hsci : d.sci = c.sci := congrArg SecView.sci hd
  have hlog : ∀ {a : Act}, SecStep P R c.sec (({ c.sec with parser := h } : SecView).log a) →
      Reach P R c (d.log a) := by
    intro a ha
    have hw : (d.log a).sec = ({ c.sec with parser := h } : SecView).log a := by
      show d.sec.log a = _
      rw [hd]
    exact .of_step (hw ▸ ha)
  refine post_ecmSendCtxtSUReq ?_ fun e emm id req he hemm hpdu hkey => ?_
  · exact hlog (hsci ▸ .sendSec hs ho)
  · have hbound : R.bound → d.Bound env := by
      have hself : d.self = c.self := congrArg SecView.self hd
      have hecm : d.ecm = c.ecm := congrArg SecView.ecm hd
      unfold Bound
      rw [hself, hecm]
      exact hb
    have hkeys := keys_of_ofEcm hbound he hemm hkey
    rw [hd] at hkeys
    obtain ⟨-, -, rest, rfl⟩ := newNASMsgSec_eq_some ho
    exact hlog (hsci ▸ .setupSec hspi hs ho hpdu hkeys)

theorem keeps_emmCtxNewGUTI : Post (c.emmCtxNewGUTI P env) fun d =>
    Keeps P R c d ∧ d.pendingESMmsg = c.pendingESMmsg ∧ d.sessionView = c.sessionView := by
  refine .ite (fun _ => .ok ⟨.of_sec rfl rfl, rfl, rfl⟩) fun _ => .of_bind fun s => .of_bind fun emm => ?_
  exact .ok ⟨.of_step (fun _ => .log trivial) rfl, rfl, rfl⟩

theorem salt_eq_zero {r : UInt64} (hr : r.toNat < 2 ^ 32) : r &&& (r <<< 32) = 0 := by
  apply UInt64.eq_of_toBitVec_eq
  apply BitVec.eq_of_getLsbD_eq
  intro i _
  by_cases h : i < 32
  · simp [h]
  · have hhigh : r.toBitVec.getLsbD i = false :=
      Nat.testBit_lt_two_pow (lt_of_lt_of_le hr (Nat.pow_le_pow_right Nat.two_pos (not_lt.mp h)))
    simp [hhigh]

theorem changes_emmCtxNewGUTI (hget : c₀.MayGetGUTI P e) (himsi : c.imsi = c₀.imsiAfter P e) :
    Post (c.emmCtxNewGUTI P e.1) (Changes P c₀ e c) := by
  refine .ite (fun _ => .ok Calm.refl.changes) fun hzero => ?_
  refine .bind_of_eq fun s hs => .bind_of_eq fun emm hemm => .ok (.of_emm ?_ rfl)
  refine .newGUTI (not_not.mp hzero) hget himsi fun hbound => ?_
  obtain ⟨id, hid, hs⟩ := deref_eq_ok.mp hs
  have hself : s.emm = some c.self := hbound id s hid hs
  rw [ofEcm, if_pos hself] at hemm
  cases hemm
  have hhash : P.gInt64Hash (c.imsi ^^^ (e.1.rand.toUInt64 &&& (e.1.rand.toUInt64 <<< 32))) = P.gInt64Hash c.imsi := by
    rw [salt_eq_zero (r := e.1.rand.toUInt64) (UInt32.toNat_lt _), UInt64.xor_zero]
  exact ⟨rfl, hhash, if_pos rfl⟩

theorem moves_emmAttachAccept {pkt : GtpPacket} (hpkt : e.2 = .s11 pkt) (hstate : c.stateName = c₀.stateName)
    (himsi : c.imsi = c₀.imsi) (hb : c₀.Admits P R e → R.bound → c.Bound e.1) (esmMsg : List UInt8)
    (sessions : List Nat) : Post (c.emmAttachAccept P e.1 esmMsg sessions) (Moves P R c₀ e c) := by
  have hafter : c.imsi = c₀.imsiAfter P e := by
    obtain ⟨env, ev⟩ := e
    obtain rfl : ev = .s11 pkt := hpkt
    exact himsi
  unfold emmAttachAccept
  split
  · rename_i hspi
    have hget : c₀.MayGetGUTI P e := .inr ⟨hstate.symm.trans hspi, pkt, hpkt⟩
    refine .ite (fun _ => .ok .refl) fun _ => .of_bind fun s => ?_
    refine Moves.post_trans (.bind ((keeps_emmCtxNewGUTI (R := R)).and (changes_emmCtxNewGUTI hget hafter))
      fun d ⟨⟨hd, _⟩, hchanges⟩ => ?_) (.of_eq rfl rfl)
    refine .ite (fun _ => .error) fun _ => .bind (builds_emmNewNASMsgSec rfl _ _) ?_
    rintro ⟨f, out⟩ hp
    obtain ⟨hcalm, hpdu⟩ := hp.calm rfl (.inl rfl)
    obtain ⟨h, ho, rfl⟩ | ⟨-, hun, -⟩ := hp
    · intro g hg
      refine ⟨fun ha => hd.secSteps.trans ?_, hchanges.trans ?_⟩
      · exact reach_ecmSendCtxtSUReq_built (fun hbound => (hb ha hbound).of_frame hd.frame) (hd.stateName.trans hspi) rfl ho
          rfl _ g hg
      · have hreq := post_ecmSendCtxtSUReq (calm_log_ecmSend hpdu _ _) (fun _ _ _ _ _ _ _ _ => rfl) g hg
        exact .trans (Calm.changes rfl)
          (.trans (.emmSetTimer (by exact .inl rfl)) hreq.changes)
    · cases hun
  · exact .error

/-! ## Operations of the S11 users -/

end EMMCtx

/-- The deletions that the request of an operation adds. -/
def S11Op.deletes (op : S11Op) (u : S11User) (l : List (UInt32 × UInt8)) : List (UInt32 × UInt8) :=
  if op = .detach then (u.lTEID, 5) :: l else l

/-- What an operation does to its user: the callback is stored in any case, and if the state accepts the operation,
the request is sent. -/
structure S11Op.Ran (op : S11Op) (cb : Option S11Cb) (c : EMMCtx) (i : Nat) (u u' : S11User) (d : EMMCtx) : Prop where
  user : c.sessionView.user i = some u
  owner : u.SameOwner u'
  cb : u'.cb = cb
  emmView : d.emmView = c.emmView
  ran : (op.accepts u.state = true ∧ u'.state = op.next ∧
      d.sessionView = { c.sessionView with
        users := c.s11.users.insert u.lTEID u', deletes := op.deletes u c.sessionView.deletes }) ∨
    op.accepts u.state = false ∧ u'.state = u.state ∧
      d.sessionView = { c.sessionView with users := c.s11.users.insert u.lTEID u' }
  keeps : ∀ P R, Keeps P R c d
  parser : d.parser = c.parser

namespace EMMCtx

theorem ran_run (op : S11Op) (p : Option Nat) (cb : Option S11Cb) :
    Post (op.run env c p cb) fun d => ∃ i u u', p = some i ∧ op.Ran cb c i u u' d := by
  rw [S11Op.run_eq]
  refine .bind_of_eq fun u hread => ?_
  obtain ⟨i, hp, hu⟩ := deref_eq_ok.mp hread
  refine .ite (fun hacc => .bind (post_send op _) ?_) fun hacc => ?_
  · rintro _ ⟨req, peers, trxns, hop, hebi, -, -, rfl⟩
    refine .ok ⟨i, u, { u with cb, trxns, state := op.next }, hp, ?_⟩
    refine ⟨hu, ⟨rfl, rfl, rfl, rfl⟩, rfl, rfl, .inl ⟨hacc, rfl, ?_⟩, fun _ _ => ?_, rfl⟩
    · cases req with
      | deleteSession ebi =>
        cases hop
        obtain rfl := hebi _ rfl
        rfl
      | _ => cases hop <;> rfl
    · exact .of_step (fun _ => .log trivial) rfl
  · refine .ok ⟨i, u, { u with cb }, hp, hu, ⟨rfl, rfl, rfl, rfl⟩, rfl, rfl, .inr ?_, fun _ _ => .of_sec rfl rfl, rfl⟩
    exact ⟨Bool.eq_false_iff.mpr hacc, rfl, rfl⟩

theorem mem_of_user {v : SessionView} {i : Nat} {u : S11User} (h : v.user i = some u) :
    ∃ k, (k, u) ∈ v.users ∧ u.id = i := by
  obtain ⟨⟨k, _⟩, hfind, rfl⟩ := Option.map_eq_some_iff.mp h
  exact ⟨k, List.mem_of_find?_eq_some hfind, by simpa using List.find?_some hfind⟩

theorem moves_run {op : S11Op} (hop : op ≠ .detach) (p : Option Nat) {cb : Option S11Cb}
    (hcb : ∀ id, cb ≠ some (.deleteEPSSession id)) : Post (op.run env c p cb) (Moves P R c₀ e c) := by
  refine (ran_run op p cb).mono ?_
  rintro d ⟨i, u, u', -, h⟩
  obtain ⟨k, hk, -⟩ := mem_of_user h.user
  have hkeep : u'.cb = u.cb ∨ ∀ id, u'.cb ≠ some (.deleteEPSSession id) := by
    rw [h.cb]
    exact .inr hcb
  refine ⟨fun _ => (h.keeps P R).secSteps, .of_session ?_ h.emmView⟩
  rcases h.ran with ⟨hacc, hstate, hview⟩ | ⟨-, hstate, hview⟩
  · have hview' : d.sessionView = { c.sessionView with users := c.s11.users.insert u.lTEID u' } := by
      rw [hview, S11Op.deletes, if_neg hop]
    rw [hview']
    refine .touch hk h.owner hkeep (.inr ⟨?_, ?_⟩)
    · intro hdel
      rw [hdel] at hacc
      cases op <;> cases hacc
    · rw [hstate]
      cases op with
      | detach => exact absurd rfl hop
      | _ => exact nofun
  · rw [hview]
    exact .touch hk h.owner hkeep (.inl hstate)

/-! ## Sessions -/

theorem session_of_eq {id : Nat} {s : EPSSession} (h : c.session id = .ok s) :
    s.id = id ∧ s ∈ c.esm.sessions ∧ c.sessionView.session s.id = some s.ref := by
  obtain ⟨_, ⟨⟩, hfind⟩ := deref_eq_ok.mp h
  have hid : s.id = id := by simpa using List.find?_some hfind
  refine ⟨hid, List.mem_of_find?_eq_some hfind, ?_⟩
  show (c.esm.sessions.map EPSSession.ref).find? (·.id == s.id) = some s.ref
  rw [List.find?_map, hid]
  exact congrArg (Option.map EPSSession.ref) hfind

theorem bearer_of_eq {id : Nat} {b : BearerContext} (h : c.bearer id = .ok b) :
    b.id = id ∧ b ∈ c.esm.contexts ∧ c.sessionView.ebi id = some b.ebi := by
  obtain ⟨_, ⟨⟩, hfind⟩ := deref_eq_ok.mp h
  have hid : b.id = id := by simpa using List.find?_some hfind
  refine ⟨hid, List.mem_of_find?_eq_some hfind, ?_⟩
  show ((c.esm.contexts.map fun b => (b.id, b.ebi)).find? (·.1 == id)).map (·.2) = some b.ebi
  have hfind' : c.esm.contexts.find? ((fun t : Nat × UInt8 => t.1 == id) ∘ fun b => (b.id, b.ebi)) = some b := hfind
  rw [List.find?_map, hfind']
  rfl

theorem sessions_setSession (s : EPSSession) :
    (c.setSession s).sessionView =
      { c.sessionView with sessions := c.sessionView.sessions.map fun t => if t.id = s.id then s.ref else t } := by
  have hlist : (c.esm.sessions.map fun t => if t.id = s.id then s else t).map EPSSession.ref =
      (c.esm.sessions.map EPSSession.ref).map fun t => if t.id = s.id then s.ref else t := by
    rw [List.map_map, List.map_map]
    refine List.map_congr_left fun t _ => ?_
    show (if t.id = s.id then s else t).ref = if t.id = s.id then s.ref else t.ref
    split <;> rfl
  simp only [sessionView, setSession, hlist]

theorem sessions_setBearer (b : BearerContext) :
    (c.setBearer b).sessionView =
      { c.sessionView with ebis := c.sessionView.ebis.map fun t => if t.1 = b.id then (b.id, b.ebi) else t } := by
  have hlist : (c.esm.contexts.map fun t => if t.id = b.id then b else t).map (fun b => (b.id, b.ebi)) =
      (c.esm.contexts.map fun b => (b.id, b.ebi)).map fun t => if t.1 = b.id then (b.id, b.ebi) else t := by
    rw [List.map_map, List.map_map]
    refine List.map_congr_left fun t _ => ?_
    show (fun b : BearerContext => (b.id, b.ebi)) (if t.id = b.id then b else t) =
      if t.id = b.id then (b.id, b.ebi) else (t.id, t.ebi)
    split <;> rfl
  simp only [sessionView, setBearer, hlist]

/-- What `esm_errorEMM` leaves: no session, but their bearers and their users. -/
structure Cleared (P : Prims) (R : Risk) (c d : EMMCtx) : Prop where
  keeps : Keeps P R c d
  parser : d.parser = c.parser
  emm : d.emmView = c.emmView
  session : ∃ users deletes, (c.sessionView.sessions = [] → users = c.s11.users ∧ deletes = c.sessionView.deletes) ∧
    d.sessionView = { c.sessionView with sessions := [], nextEbi := 5, users, deletes }

theorem cleared_esmErrorEMM : Post (c.esmErrorEMM env) (Cleared P R c) := by
  have hloop : Post ((c.esmGetSessions env).foldlM (fun c id => do
      let s ← c.session id
      c.s11Detach env s.s11 none) c) fun d => Keeps P R c d ∧ d.parser = c.parser ∧ d.emmView = c.emmView ∧
        ∃ users deletes, d.sessionView = { c.sessionView with users, deletes } := by
    refine .foldlM (I := fun d : EMMCtx => Keeps P R c d ∧ d.parser = c.parser ∧ d.emmView = c.emmView ∧
      ∃ users deletes, d.sessionView = { c.sessionView with users, deletes }) ?_ _
      ⟨.of_sec rfl rfl, rfl, rfl, _, _, rfl⟩
    rintro d id ⟨hkeeps, hparser, hd, users, deletes, hview⟩
    refine .of_bind fun s => (ran_run .detach _ _).mono ?_
    rintro f ⟨i, u, u', -, h⟩
    refine ⟨hkeeps.trans (h.keeps P R), h.parser.trans hparser, h.emmView.trans hd, ?_⟩
    rcases h.ran with ⟨-, -, hf⟩ | ⟨-, -, hf⟩
    · exact ⟨_, _, by rw [hf, hview]⟩
    · exact ⟨_, _, by rw [hf, hview]⟩
  refine .bind_of_eq fun d hd => .ok ?_
  obtain ⟨hkeeps, hparser, hemm, users, deletes, hview⟩ := hloop d hd
  refine ⟨hkeeps.trans (.of_sec rfl rfl), hparser, hemm, users, deletes, fun hnil => ?_, ?_⟩
  · have hempty := List.map_eq_nil_iff.mp hnil
    have hnone : c.esmGetSessions env = [] := by simp [esmGetSessions, hempty]
    rw [hnone] at hd
    cases hd
    exact ⟨(congrArg SessionView.users hview).symm, (congrArg SessionView.deletes hview).symm⟩
  · show { d.sessionView with sessions := [], nextEbi := 5 } = _
    rw [hview]

theorem Cleared.moves (h : Cleared P R c d) (hstop : c₀.MayStop P e)
    (hs : c.sessionView.sessions = c₀.sessionView.sessions) : Moves P R c₀ e c d := by
  obtain ⟨users, deletes, hnil, hview⟩ := h.session
  refine ⟨fun _ => h.keeps.secSteps, .of_session ?_ h.emm⟩
  rw [hview]
  exact .error hstop hs hnil

theorem Cleared.kept (h : Cleared P R c d) : d.sessionView.Kept c₀ := by
  obtain ⟨users, deletes, -, hview⟩ := h.session
  rw [hview]
  exact .inr ⟨rfl, rfl⟩

theorem moves_activateDefault {s : EPSSession} (hs : c.session s.id = .ok s)
    (hwhy : s.s11 = none ∨ (c₀.HandlesESM P e esmInformationResponse ∧
      c.sessionView.sessions = c₀.sessionView.sessions ∧ c.sessionView.First e.1 s.ref)) (infoTxRequired : Bool) :
    Post (c.activateDefault P e.1 s.id infoTxRequired) (SessionMoves P R c₀ e c) := by
  unfold activateDefault
  rw [hs]
  refine .ite (fun _ => (quiet_emmSendESM rfl).mono fun _ => Quiet.session) fun _ => ?_
  obtain ⟨-, -, hsession⟩ := session_of_eq hs
  have hattach : Post (c.s11NewUserAttach e.1 s.id (.sendActivateDefault s.id)) fun r =>
      SessionMoves P R c₀ e c (r.1.setSession { s with s11 := some r.2 }) := by
    refine .bind (ran_run .attach _ _) ?_
    rintro d ⟨i, u, u', hi, h⟩
    cases hi
    have hu : u = ⟨c.s11.fresh, c.self, s.id, c.s11.nextTeid, 0, c.sgwIP, .noCtx, none, [], 0⟩ := by
      have huser := h.user
      simp [SessionView.user, sessionView, S11Stack.setUser, Table.insert] at huser
      exact huser.symm
    refine .ok (.of_change ?_ h.emmView (.trans (c := (c.s11NewUser s.id).1) (.of_sec rfl rfl)
      (.trans (h.keeps _ _) (.of_sec rfl rfl))))
    rcases h.ran with ⟨-, hstate, hview⟩ | ⟨hacc, -⟩
    · have hinsert : ∀ u₀ : S11User, (c.s11.users.insert c.s11.nextTeid u₀).insert c.s11.nextTeid u' =
          c.s11.users.insert c.s11.nextTeid u' := by
        intro u₀
        rw [Table.insert, Table.remove_insert_self]
        rfl
      have hresult : (d.setSession { s with s11 := some c.s11.fresh }).sessionView =
          c.sessionView.newUser s.ref u' := by
        rw [sessions_setSession, hview, hu]
        exact congrArg (fun users => { c.sessionView.newUser s.ref u' with users }) (hinsert _)
      rw [hresult]
      refine .newUser hsession hwhy ?_ ?_ ?_ ?_ hstate h.cb
      · rw [h.owner.id, hu]
        rfl
      · rw [h.owner.emm, hu]
        rfl
      · rw [h.owner.session, hu]
        rfl
      · rw [h.owner.lTEID, hu]
        rfl
    · rw [hu] at hacc
      cases hacc
  exact .bind hattach fun r hr => .ok hr

theorem first_of_ids {s : EPSSession} {rest : List Nat} (hids : c.esmGetSessions env = s.id :: rest)
    (href : c.sessionView.session s.id = some s.ref) : c.sessionView.First env s.ref := by
  refine ⟨?_, href⟩
  have hmap : c.sessionView.sessions.map (·.id) = c.esm.sessions.map (·.id) := by
    simp [sessionView, EPSSession.ref]
  rw [hmap]
  exact congrArg List.head? hids

theorem moves_processPDNConnectivityRequest {msg : GenericNASMsg} (hpdn : c₀.HandlesESM P e pdnConnectivityRequest)
    (hkept : c.sessionView.Kept c₀) : Post (c.processPDNConnectivityRequest P e.1 msg) (SessionMoves P R c₀ e c) := by
  unfold processPDNConnectivityRequest
  dsimp only
  generalize msg.esmProcedureTransactionIdentity = pti
  generalize (nasNASOptLookup msg pdnConnectivityRequestOptionals 4 0x27).map _ = pco
  obtain ⟨s, hs, hid, hnone⟩ : ∃ s : EPSSession, (c.newSession pti pco).1.session s.id = .ok s ∧
      s.id = (c.newSession pti pco).2 ∧ s.s11 = none :=
    ⟨(c.newSession pti pco).1.esm.sessions.head (List.cons_ne_nil _ _), by simp [newSession, session], rfl, rfl⟩
  rw [← hid]
  exact SessionMoves.post_trans (moves_activateDefault hs (.inl hnone) _)
    (.of_change (.newSession hpdn hkept) rfl (.of_sec rfl rfl))

theorem moves_esmProcessMsg {msg : GenericNASMsg} (hmsg : msg ∈ c₀.esmMsg P e) (hkept : c.sessionView.Kept c₀) :
    Post (c.esmProcessMsg P e.1 msg) (SessionMoves P R c₀ e c) := by
  have hlog : SessionMoves P R c₀ e c (c.log (.esmMessage msg.esmMessageType msg.esmProcedureTransactionIdentity)) :=
    Quiet.session ⟨fun ha => .of_step (fun _ => .esmMessage (ha.esm hmsg)) rfl, rfl⟩
  refine .ite (fun _ => .error) fun _ => .ite (fun htype => ?_) fun _ => .ite (fun htype => ?_) fun _ => .ok hlog
  · exact SessionMoves.post_trans (moves_processPDNConnectivityRequest ⟨msg, hmsg, htype⟩ hkept) hlog
  · have hinfo : c₀.HandlesESM P e esmInformationResponse := ⟨msg, hmsg, htype⟩
    split
    · exact .error
    · rename_i id rest hids
      have hids' : c.esmGetSessions e.1 = id :: rest := hids
      have hne : c.sessionView.sessions ≠ [] := by
        intro hnil
        have hempty := List.map_eq_nil_iff.mp hnil
        rw [esmGetSessions, hempty, List.map_nil, HashOrder.apply_nil] at hids'
        cases hids'
      rcases hkept with ⟨hs, -⟩ | ⟨hnil, -⟩
      · cases hsession : c.session id with
        | error f =>
          refine .bind_of_eq fun s hs' => ?_
          cases hsession.symm.trans hs'
        | ok s =>
          obtain ⟨rfl, -, href⟩ := session_of_eq hsession
          exact SessionMoves.post_trans (moves_activateDefault (c := c.log _) hsession
            (.inr ⟨hinfo, hs, first_of_ids hids' href⟩) false) hlog
      · exact absurd hnil hne

theorem moves_esmDetach (hallowed : c₀.Admits P R e → c.AcceptAllowed R) (hdetach : c₀.Detaches P e) (hs : c.sessionView.sessions = c₀.sessionView.sessions)
    (husers : c.s11.users = c₀.s11.users) : Post (c.esmDetach e.1) (Moves P R c₀ e c) := by
  unfold esmDetach
  dsimp only
  split
  · exact Moves.post_trans (moves_emmDetachAccept hallowed) (.of_eq rfl rfl)
  · rename_i id rest hids
    refine .bind_of_eq fun s hsession => (ran_run .detach _ _).mono ?_
    rintro d ⟨i, u, u', hi, h⟩
    obtain ⟨rfl, -, href⟩ := session_of_eq hsession
    have hfirst := first_of_ids hids href
    refine ⟨fun _ => (h.keeps P R).secSteps, .of_session (?_ : SessionChange P c₀ e c.sessionView d.sessionView) h.emmView⟩
    rcases h.ran with ⟨hacc, hstate, hview⟩ | ⟨hacc, hstate, hview⟩
    · rw [hview]
      refine .detach hdetach hs husers hfirst hi h.user h.owner h.cb (.inl ⟨?_, hstate, rfl⟩)
      cases hu : u.state <;> rw [hu] at hacc <;> first | exact .inl rfl | exact .inr rfl | cases hacc
    · rw [hview]
      refine .detach hdetach hs husers hfirst hi h.user h.owner h.cb (.inr ⟨⟨?_, ?_⟩, hstate, rfl⟩)
      · intro hu
        rw [hu] at hacc
        cases hacc
      · intro hu
        rw [hu] at hacc
        cases hacc

theorem moves_emmStop (hstop : c₀.MayStop P e) (hs : c.sessionView.sessions = c₀.sessionView.sessions) :
    Post (c.emmStop env) (Moves P R c₀ e c) := by
  refine .bind cleared_esmErrorEMM fun d hd => .ok ((hd.moves hstop hs).trans ?_)
  exact Moves.trans (c := { d with activeTimers := fun _ => none }) ⟨fun _ => .timers nofun, .of_emm (.timers nofun) rfl⟩
    .deregister

end EMMCtx

end AaltoMME
