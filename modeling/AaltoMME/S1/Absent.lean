import AaltoMME.S1.Labelled

/-!
# Information elements that are not there

The handlers of S1AP messages rely on the message to have what they read.  `Supplied` says what that is, for each
branch of the two states of an association and of an ECM session: the information elements that the branch
dereferences when it gets to them, and a session under the identifier of a Path Switch Request.  The cause of a
UEContextReleaseRequest is not read by its handler, but by the callback that it hands to the serving gateway's user.
-/

namespace AaltoMME

open Base NAS

namespace MME

variable (P : Prims) (x : Env) (w : MME)

/-! ## What is read -/

/-- `emm_modifyE_RABList` gets to the list: the context behind the pointer has an EPS session. -/
def ReadsERABs (p : Option Nat) : Prop :=
  ∃ e c id ids s, p = some e ∧ w.emms e = some c ∧ c.esmGetSessions x = id :: ids ∧ c.session id = .ok s

/-- `emm_UEContextReleaseReq` runs the callback or hands it to the S11 user: the context has no EPS session, or the
user of the first one can be asked to release the access bearers. -/
def TakesCallback (p : Option Nat) : Prop :=
  ∃ e c, p = some e ∧ w.emms e = some c ∧ ∀ id ids, c.esmGetSessions x = id :: ids →
    ∃ s u, c.session id = .ok s ∧ w.s11.user s.s11 = .ok u ∧
      (u.state = .ctx → x.sendto = true ∧ u.trxns.get w.s11.seq ≠ some false)

/-- The context found by an S-TMSI cannot be bound to a new session: its old session was freed. -/
def Unbindable (e : Nat) : Prop :=
  ∀ c, w.emms e = some c → ∃ i, c.ecm = some i ∧ i ≠ w.fresh ∧ w.ecms i = none

/-- An initialUEMessage.  With an S-TMSI the NAS PDU is read after the context was found and bound. -/
def InitialSupplied (msg : S1APMsg) : Prop :=
  msg.eNBUEId.isSome = true ∧ msg.tAI.isSome = true ∧
    (msg.nasPdu = none → ∃ mtmsi, msg.sTMSI = some mtmsi ∧
      ∀ p, w.mmeLookupEMMCtxt mtmsi = .ok p → ∃ e, p = some e ∧ w.Unbindable e)

/-- A Path Switch Request: the session has to exist; it is taken from its association before the new identifier is
read, and entered in the other one before the rest is. -/
def SwitchSupplied (a : Nat) (msg : S1APMsg) (rSid : Nat) : Prop :=
  ∃ i, msg.sourceMMEUEId = some i ∧ ∀ p, w.mmeLookupECM i = .ok p → ∃ id, p = some id ∧
    ∀ s e c v, w.ecms id = some s → s.emm = some e → w.emms e = some c →
      w.s1AssocDeregisterECMSession s.assoc id = .ok v → ∃ n, msg.eNBUEId = some n ∧
        ∀ v', (v.setECM id { s with assoc := a, rSid, eNBUEId := n }).s1AssocRegisterECMSession a id = .ok v' →
          msg.tAI.isSome = true ∧ msg.eCGI = true ∧ (w.ReadsERABs x s.emm → msg.eRABs.isSome = true)

/-- The session in ECM_Connected that a message of the UE associated signalling gets to. -/
structure Delivers (a : Nat) (msg : S1APMsg) (rSid id : Nat) (s : ECMSession) : Prop where
  stream : ∃ t, w.assocs a = some t ∧ t.active = true ∧ rSid ≠ t.nonueRsid
  found : ∃ i, msg.eNBUEId = some i ∧ w.s1AssocGetECMSession a i = .ok (some id)
  ecm : w.ecms id = some s
  mmeUEId : msg.mmeUEId = some s.mmeUEId
  connected : s.stateName = .connected
  expected : s.rSidValid = true → rSid = s.rSid

/-- A message to a session in ECM_Connected. -/
def ProcedureSupplied (s : ECMSession) (msg : S1APMsg) : Prop :=
  match msg.procedureCode, msg.choice with
  | .initialContextSetup, .successfulOutcome =>
    msg.eNBUEId = some s.eNBUEId → w.ReadsERABs x s.emm → msg.eRABs.isSome = true
  | .uplinkNASTransport, .initiatingMessage => msg.eNBUEId = some s.eNBUEId → msg.nasPdu.isSome = true
  | .uEContextReleaseRequest, .initiatingMessage => w.TakesCallback x s.emm → msg.cause = true
  | _, _ => True

def UESupplied (a : Nat) (msg : S1APMsg) (rSid : Nat) : Prop :=
  ∃ i, msg.eNBUEId = some i ∧
    (∀ id, w.s1AssocGetECMSession a i = .ok (some id) → msg.mmeUEId.isSome = true) ∧
    ∀ id s, w.Delivers a msg rSid id s → w.ProcedureSupplied x s msg

/-- What a message of an association has to have. -/
def Supplied (a : Nat) (msg : S1APMsg) (rSid : Nat) : Prop :=
  ∀ t, w.assocs a = some t →
    if t.active then
      if rSid = t.nonueRsid then
        match msg.procedureCode, msg.choice with
        | .reset, _ => msg.resetType.isSome = true
        | .initialUEMessage, .initiatingMessage => w.InitialSupplied msg
        | .pathSwitchRequest, .initiatingMessage => w.SwitchSupplied x a msg rSid
        | _, _ => True
      else
        match msg.procedureCode, msg.choice with
        | .initialUEMessage, .initiatingMessage => w.InitialSupplied msg
        | .pathSwitchRequest, .initiatingMessage => w.SwitchSupplied x a msg rSid
        | _, _ => w.UESupplied x a msg rSid
    else
      msg.procedureCode ≠ .s1Setup ∧ msg.choice ≠ .initiatingMessage ∨ msg.globalENBId = true

/-- A message is handled without dereferencing what was not found.  The callback of a UEContextReleaseRequest is run
in the state that the handler leaves. -/
structure Tolerates (a : Nat) (msg : S1APMsg) (rSid : Nat) : Prop where
  handler : Avoids S1Fault.IsAbsent (Labelled.s1apStep P x w a msg rSid)
  callback : msg.procedureCode = .uEContextReleaseRequest → msg.choice = .initiatingMessage →
    ∀ id s v, w.Delivers a msg rSid id s → Labelled.s1apStep P x w a msg rSid = .ok v →
      ∀ y c, Avoids S1Fault.IsAbsent (Labelled.sendUEContextReleaseCommand (v.env y) c id)

/-! ## The handlers -/

namespace Labelled

variable {P x w} {msg : S1APMsg} {a rSid : Nat}

theorem avoids_onEMM {p : Option Nat} {f : Env → EMMCtx → S1Outcome EMMCtx} :
    Avoids S1Fault.IsAbsent (onEMM x w p f) ↔
      ∀ e c, p = some e → w.emms e = some c → Avoids S1Fault.IsAbsent (f (w.env x) { c with s11 := w.s11 }) := by
  cases p with
  | none => simp [onEMM]
  | some e =>
    rw [onEMM, avoids_unlabelled_bind]
    constructor
    · rintro h _ c ⟨⟩ hc
      exact (avoids_bind.mp (h c (deref_eq_ok.mpr ⟨e, rfl, hc⟩))).1
    · intro h c hc
      obtain ⟨_, ⟨⟩, hc⟩ := deref_eq_ok.mp hc
      exact (h e c rfl hc).bind fun d => avoids_unlabelled _

theorem avoids_emmModifyERABList {env : Env} {c : EMMCtx} {list : Option (List ERABItem)} {cb : Option S11Cb} :
    Avoids S1Fault.IsAbsent (emmModifyERABList P env c list cb) ↔
      ∀ id ids s, c.esmGetSessions env = id :: ids → c.session id = .ok s → list.isSome = true := by
  unfold emmModifyERABList
  rcases c.esmGetSessions env with _ | ⟨id, ids⟩
  · simp
  · rw [avoids_unlabelled_bind]
    constructor
    · rintro h _ _ s ⟨⟩ hs
      exact avoids_found.mp (avoids_bind.mp (h s hs)).1
    · exact fun h s hs => (avoids_found.mpr (h id ids s rfl hs)).bind fun items => avoids_unlabelled _

theorem avoids_onEMM_emmModifyERABList {v : MME} {p : Option Nat} {cb : Option S11Cb} (hv : v.emms = w.emms) :
    Avoids S1Fault.IsAbsent (onEMM x v p fun env c => emmModifyERABList P env c msg.eRABs cb) ↔
      (w.ReadsERABs x p → msg.eRABs.isSome = true) := by
  rw [avoids_onEMM, hv]
  constructor
  · rintro h ⟨e, c, id, ids, s, hp, hc, hids, hs⟩
    exact avoids_emmModifyERABList.mp (h e c hp hc) id ids s hids hs
  · intro h e c hp hc
    refine avoids_emmModifyERABList.mpr fun id ids s hids hs => ?_
    exact h ⟨e, c, id, ids, s, hp, hc, hids, hs⟩

/-! ## S1 Setup, Reset -/

theorem avoids_notConfiguredProcessMsg {t : S1Assoc} :
    Avoids S1Fault.IsAbsent (notConfiguredProcessMsg x w a t msg rSid) ↔
      msg.procedureCode ≠ .s1Setup ∧ msg.choice ≠ .initiatingMessage ∨ msg.globalENBId = true := by
  unfold notConfiguredProcessMsg
  by_cases hignored : msg.procedureCode ≠ .s1Setup ∧ msg.choice ≠ .initiatingMessage
  · rw [if_pos hignored]
    exact iff_of_true Avoids.ok (.inl hignored)
  · rw [if_neg hignored, or_iff_right hignored]
    cases msg.globalENBId with
    | false => simp
    | true =>
      refine iff_of_true ?_ rfl
      rcases msg.supportedTAs with _ | _ | _
      · exact .ok
      · exact avoids_unlabelled _
      · exact .ok

theorem avoids_processReset {t : S1Assoc} :
    Avoids S1Fault.IsAbsent (processReset x w a t msg) ↔ msg.resetType.isSome = true := by
  rw [processReset, avoids_bind, avoids_found, and_iff_left_iff_imp]
  rintro - (_ | items) -
  · exact avoids_unlabelled _
  · exact avoids_unlabelled _

/-! ## An initialUEMessage -/

theorem emmRegisterECM_eq_ok_iff {env : Env} {c : EMMCtx} {id : Nat} :
    (∃ d, c.emmRegisterECM env id = .ok d) ↔ ∀ i, c.ecm = some i → (env.ecms i).isSome = true := by
  unfold EMMCtx.emmRegisterECM EMMCtx.ecmSendUEContextReleaseCommand
  rcases hecm : c.ecm with _ | i
  · simp
  · rcases hi : env.ecms i with _ | s <;> simp [EMMCtx.derefEcm, deref, hecm, hi]

theorem unregistered_emmRegisterECM {env : Env} {c : EMMCtx} {id : Nat} :
    Post (c.emmRegisterECM env id) c.Unregistered := by
  unfold EMMCtx.emmRegisterECM EMMCtx.ecmSendUEContextReleaseCommand
  cases c.ecm with
  | none => exact .ok (.refl c)
  | some i =>
    refine .bind ?_ fun d hd => .ok hd
    exact .of_bind fun _ => .ok ⟨[_], rfl, by simp⟩

theorem bindEMM_eq_ok_iff {v : MME} {s : ECMSession} {e : Nat} (hemms : v.emms = w.emms)
    (hecms : ∀ i, i ≠ w.fresh → v.ecms i = w.ecms i) :
    (∃ r, v.bindEMM x w.fresh s (some e) = .ok r) ↔ ¬ w.Unbindable e := by
  let u := v.setECM w.fresh { s with emm := some e }
  have hemms' : u.emms = w.emms := hemms
  have hlive : ∀ i, (u.ecms i).isSome = true ↔ i = w.fresh ∨ w.ecms i ≠ none := by
    intro i
    by_cases hi : i = w.fresh
    · rw [hi]
      exact iff_of_true (by simp [u, setECM]) (.inl rfl)
    · rw [show u.ecms i = w.ecms i from (Function.update_of_ne hi ..).trans (hecms i hi), or_iff_right hi,
        Option.isSome_iff_ne_none]
  have hlent : ∀ c : EMMCtx, (∃ d, ({ c with s11 := u.s11 } : EMMCtx).emmRegisterECM (u.env x) w.fresh = .ok d) ↔
      ∀ i, c.ecm = some i → i = w.fresh ∨ w.ecms i ≠ none := fun c =>
    emmRegisterECM_eq_ok_iff.trans (forall₂_congr fun i _ => hlive i)
  constructor
  · rintro ⟨r, hr⟩ hstale
    obtain ⟨v', hv', -⟩ := bind_eq_ok.mp hr
    obtain ⟨c, hc, hd⟩ := bind_eq_ok.mp hv'
    obtain ⟨_, ⟨⟩, hc⟩ := deref_eq_ok.mp hc
    obtain ⟨d, hd, -⟩ := bind_eq_ok.mp hd
    obtain ⟨i, hi, hne, hnone⟩ := hstale c (hemms' ▸ hc)
    rcases (hlent c).mp ⟨d, hd⟩ i hi with h | h
    · exact hne h
    · exact h hnone
  · intro hstale
    rw [Unbindable] at hstale
    push Not at hstale
    obtain ⟨c, hc, hlive'⟩ := hstale
    obtain ⟨d, hd⟩ := (hlent c).mpr fun i hi => or_iff_not_imp_left.mpr (hlive' i hi)
    obtain ⟨acts, htrace, hacts⟩ := unregistered_emmRegisterECM d hd
    have hok : u.onEMM x (some e) (fun env c => c.emmRegisterECM env w.fresh) = .ok _ :=
      onEMM_eq_ok (hemms'.symm ▸ hc) hd htrace hacts
    exact ⟨_, bind_eq_ok.mpr ⟨_, hok, rfl⟩⟩

theorem avoids_idleProcessMsg {v : MME} {s : ECMSession}
    (hmsg : msg.procedureCode = .initialUEMessage ∧ msg.choice = .initiatingMessage) (hemms : v.emms = w.emms)
    (hsessions : v.emmSessions = w.emmSessions) (hecms : ∀ i, i ≠ w.fresh → v.ecms i = w.ecms i) :
    Avoids S1Fault.IsAbsent (idleProcessMsg P x v w.fresh s msg rSid) ↔ w.InitialSupplied msg := by
  rw [idleProcessMsg, if_pos hmsg, InitialSupplied]
  rcases hi : msg.eNBUEId with _ | i
  · simp
  rcases htai : msg.tAI with _ | tai
  · simp
  rcases hpdu : msg.nasPdu with _ | ⟨buf, size⟩
  · rcases hstmsi : msg.sTMSI with _ | mtmsi
    · simp [findEMM, hstmsi, hpdu]
    -- with an S-TMSI the NAS PDU is read last
    have hlookup : v.mmeLookupEMMCtxt mtmsi = w.mmeLookupEMMCtxt mtmsi := by
      simp only [mmeLookupEMMCtxt]
      congr 1
      funext e
      simp only [mtmsiKey, hemms]
    simp only [findEMM, hstmsi, found_some, ok_bind, avoids_unlabelled_bind, hlookup, found_none, error_bind,
      avoids_error, S1Fault.IsAbsent, not_true_eq_false]
    constructor
    · refine fun h => ⟨rfl, rfl, fun _ => ⟨mtmsi, rfl, fun p hp => ?_⟩⟩
      cases p with
      | none => exact (h none hp _ rfl).elim
      | some e =>
        refine ⟨e, rfl, ?_⟩
        by_contra hstale
        obtain ⟨r, hr⟩ := (bindEMM_eq_ok_iff hemms hecms).mpr hstale
        exact h (some e) hp r hr
    · rintro ⟨-, -, h⟩ p hp r hr
      obtain ⟨_, ⟨⟩, h⟩ := h trivial
      obtain ⟨e, rfl, hstale⟩ := h p hp
      exact (bindEMM_eq_ok_iff hemms hecms).mp ⟨r, hr⟩ hstale
  · rw [findEMM_of_pdu hpdu]
    refine iff_of_true ?_ ⟨rfl, rfl, nofun⟩
    exact (avoids_unlabelled _).bind fun p => (avoids_unlabelled _).bind fun r => avoids_unlabelled _

theorem avoids_ecmSessionInit
    (hmsg : msg.procedureCode = .initialUEMessage ∧ msg.choice = .initiatingMessage) :
    Avoids S1Fault.IsAbsent (ecmSessionInit P x w a msg rSid) ↔ w.InitialSupplied msg := by
  obtain ⟨hemms, hsessions, hecms, hfresh⟩ : w.mmeNewLocalUEid.1.emms = w.emms ∧
      w.mmeNewLocalUEid.1.emmSessions = w.emmSessions ∧ w.mmeNewLocalUEid.1.ecms = w.ecms ∧
      w.mmeNewLocalUEid.1.fresh = w.fresh := by
    unfold mmeNewLocalUEid
    dsimp only
    split <;> exact ⟨rfl, rfl, rfl, rfl⟩
  rw [ecmSessionInit, avoids_bind, hfresh]
  refine (and_iff_left fun v _ => ?_).trans (avoids_idleProcessMsg hmsg hemms hsessions fun i hi => ?_)
  · exact (avoids_unlabelled _).bind fun _ => avoids_unlabelled _
  · exact (Function.update_of_ne hi ..).trans (congrFun hecms i)

/-! ## A Path Switch Request -/

theorem emms_switch {v v' : MME} {id b : Nat} {s : ECMSession} (h : w.s1AssocDeregisterECMSession b id = .ok v)
    (h' : (v.setECM id s).s1AssocRegisterECMSession a id = .ok v') : v'.emms = w.emms := by
  simp only [s1AssocDeregisterECMSession, s1AssocRegisterECMSession, bind_eq_ok] at h h'
  obtain ⟨t, -, k, -, r, -, h⟩ := h
  obtain ⟨t', -, k', -, r', -, h'⟩ := h'
  cases h
  cases h'
  rfl

theorem avoids_switch_rest (P : Prims) (x : Env) (msg : S1APMsg) (s : ECMSession) (id : Nat) {v : MME}
    (hv : v.emms = w.emms) :
    Avoids S1Fault.IsAbsent (found msg.tAI >>= fun tai =>
      if !msg.eCGI then .error .absentIE
      else onEMM x (v.setECM id { s with sn := tai.1, tAC := tai.2 }) s.emm fun env c =>
        emmModifyERABList P env c msg.eRABs (some (.sendPathSwitchReqAck id))) ↔
      msg.tAI.isSome = true ∧ msg.eCGI = true ∧ (w.ReadsERABs x s.emm → msg.eRABs.isSome = true) := by
  rcases msg.tAI with _ | tai
  · simp
  · rcases msg.eCGI with _ | _
    · simp
    · have hv' : (v.setECM id { s with sn := tai.1, tAC := tai.2 }).emms = w.emms := hv
      simp [avoids_onEMM_emmModifyERABList hv']

theorem avoids_pathSwitchRequest :
    Avoids S1Fault.IsAbsent (pathSwitchRequest P x w a msg rSid) ↔ w.SwitchSupplied x a msg rSid := by
  rw [pathSwitchRequest, avoids_found_bind, SwitchSupplied]
  refine exists_congr fun i => and_congr_right fun _ => ?_
  rw [avoids_unlabelled_bind]
  refine forall₂_congr fun p _ => ?_
  rcases p with _ | id
  · simp [ecmSessionPathSwitchReq]
  simp only [ecmSessionPathSwitchReq, avoids_unlabelled_bind, avoids_found_bind]
  constructor
  · refine fun h => ⟨id, rfl, fun s e c v hs hemm hc hv => ?_⟩
    obtain ⟨n, hn, h⟩ := h s (deref_eq_ok.mpr ⟨id, rfl, hs⟩) c (deref_eq_ok.mpr ⟨e, hemm, hc⟩) v hv
    refine ⟨n, hn, fun v' hv' => ?_⟩
    have hrest := avoids_switch_rest P x msg { s with assoc := a, rSid, eNBUEId := n } id (emms_switch hv hv')
    exact hrest.mp (avoids_found_bind.mpr (h v' hv'))
  · rintro ⟨_, ⟨⟩, h⟩ s hs c hc v hv
    obtain ⟨_, ⟨⟩, hs⟩ := deref_eq_ok.mp hs
    obtain ⟨e, hemm, hc⟩ := deref_eq_ok.mp hc
    obtain ⟨n, hn, h⟩ := h s e c v hs hemm hc hv
    refine ⟨n, hn, fun v' hv' => ?_⟩
    have hrest := avoids_switch_rest P x msg { s with assoc := a, rSid, eNBUEId := n } id (emms_switch hv hv')
    exact avoids_found_bind.mp (hrest.mpr (h v' hv'))

/-! ## UE associated signalling -/

/-- The session with the stream of its first message. -/
def heard (s : ECMSession) (rSid : Nat) : ECMSession := { s with rSid, rSidValid := true }

theorem ueAssociated_delivered {id : Nat} {s : ECMSession} (hd : w.Delivers a msg rSid id s) :
    ueAssociated P x w a msg rSid =
      connectedProcedure P x (w.setECM id (heard s rSid)) id (heard s rSid) msg := by
  obtain ⟨i, hi, hid⟩ := hd.found
  have hexpected : ¬ (rSid ≠ s.rSid ∧ s.rSidValid = true) := fun h => h.1 (hd.expected h.2)
  have hkey : w.mmeUEIdKey id = .ok s.mmeUEId := by
    simp [mmeUEIdKey, deref, hd.ecm]
  have hsession : ecmSessionProcessMsg P x w id msg rSid = connectedProcessMsg P x w id s msg rSid := by
    simp only [ecmSessionProcessMsg, deref, hd.ecm, unlabelled_ok, ok_bind, hd.connected]
  simp only [ueAssociated, hi, found_some, ok_bind, hid, unlabelled_ok, hd.mmeUEId, hkey, ne_eq, hsession,
    connectedProcessMsg]
  rw [if_neg hexpected]
  rfl

/-- Besides the identifiers, a message needs what the session in ECM_Connected that it gets to needs. -/
theorem avoids_ueAssociated {t : S1Assoc} (ht : w.assocs a = some t) (hactive : t.active = true)
    (hstream : rSid ≠ t.nonueRsid)
    (hinitial : ¬ (msg.procedureCode = .initialUEMessage ∧ msg.choice = .initiatingMessage)) :
    Avoids S1Fault.IsAbsent (ueAssociated P x w a msg rSid) ↔ ∃ i, msg.eNBUEId = some i ∧
      (∀ id, w.s1AssocGetECMSession a i = .ok (some id) → msg.mmeUEId.isSome = true) ∧
      ∀ id s, w.Delivers a msg rSid id s → Avoids S1Fault.IsAbsent
        (connectedProcedure P x (w.setECM id (heard s rSid)) id (heard s rSid) msg) := by
  constructor
  · intro h
    obtain ⟨i, hi, hget⟩ := avoids_found_bind.mp h
    refine ⟨i, hi, fun id hid => ?_, fun id s hd => ueAssociated_delivered hd ▸ h⟩
    exact avoids_found.mp (avoids_bind.mp (avoids_unlabelled_bind.mp hget _ hid)).1
  · rintro ⟨i, hi, hmme, hproc⟩
    refine avoids_found_bind.mpr ⟨i, hi, avoids_unlabelled_bind.mpr fun p hp => ?_⟩
    cases p with
    | none => exact .ok
    | some id =>
      obtain ⟨m, hm⟩ := Option.isSome_iff_exists.mp (hmme id hp)
      refine avoids_found_bind.mpr ⟨m, hm, avoids_unlabelled_bind.mpr fun k hk => ?_⟩
      refine .ite (fun _ => .ok) fun hne => avoids_unlabelled_bind.mpr fun s hs => ?_
      obtain ⟨_, ⟨⟩, hs⟩ := deref_eq_ok.mp hs
      obtain rfl : s.mmeUEId = k := by simpa [mmeUEIdKey, deref, hs] using hk
      rcases hstate : s.stateName with _ | _
      · rw [idleProcessMsg, if_neg hinitial]
        exact .ok
      · refine .ite (fun _ => .ok) fun hexpected => hproc id s ?_
        refine ⟨⟨t, ht, hactive, hstream⟩, ⟨i, hi, hp⟩, hs, ?_, hstate, fun hvalid => ?_⟩
        · rw [hm, of_not_not hne]
        · by_contra hsid
          exact hexpected ⟨hsid, hvalid⟩

/-! ## The procedures of ECM_Connected -/

section Procedures

variable {id : Nat} {s : ECMSession}

theorem avoids_idsMatch_bind {i : UInt32} (hi : msg.eNBUEId = some i) (hm : msg.mmeUEId = some s.mmeUEId)
    {l : S1Outcome MME} : Avoids S1Fault.IsAbsent (idsMatch s msg >>= fun b => if b then l else .ok w) ↔
      (msg.eNBUEId = some s.eNBUEId → Avoids S1Fault.IsAbsent l) := by
  by_cases hne : i = s.eNBUEId
  · simp [idsMatch, hi, hm, hne]
  · simp [idsMatch, hi, hne]

theorem avoids_sendUEContextReleaseCommand {env : Env} {c : EMMCtx} (hs : env.ecms id = some s) :
    Avoids S1Fault.IsAbsent (sendUEContextReleaseCommand env c id) ↔ s.causeRelease = true := by
  cases hcause : s.causeRelease <;> simp [sendUEContextReleaseCommand, deref, hs, hcause]

theorem avoids_emmUEContextReleaseReq {env : Env} {c : EMMCtx} (hs : env.ecms id = some s) :
    Avoids S1Fault.IsAbsent (emmUEContextReleaseReq env c id) ↔
      (c.esmGetSessions env = [] → s.causeRelease = true) := by
  have hsame : ({ c with s1BearersActive := false } : EMMCtx).esmGetSessions env = c.esmGetSessions env := rfl
  rw [emmUEContextReleaseReq, hsame]
  rcases c.esmGetSessions env with _ | ⟨sid, ids⟩
  · exact (avoids_sendUEContextReleaseCommand hs).trans (by simp)
  · refine iff_of_true ?_ nofun
    exact (avoids_unlabelled _).bind fun _ => avoids_unlabelled _

theorem emmUEContextReleaseReq_eq {env : Env} {c : EMMCtx} {sid : Nat} {ids : List Nat}
    (hids : c.esmGetSessions env = sid :: ids) :
    emmUEContextReleaseReq env c id = unlabelled (c.session sid) >>= fun s =>
      unlabelled ({ c with s1BearersActive := false }.s11ReleaseAccessBearers env s.s11
        (some (.sendUEContextReleaseCommand id))) := by
  have hids' : ({ c with s1BearersActive := false } : EMMCtx).esmGetSessions env = sid :: ids := hids
  rw [emmUEContextReleaseReq, hids']
  rfl

/-- The serving gateway can be asked to release the access bearers. -/
theorem s11ReleaseAccessBearers_eq_ok_iff (env : Env) (c : EMMCtx) (p : Option Nat) (cb : Option S11Cb) :
    (∃ d, c.s11ReleaseAccessBearers env p cb = .ok d) ↔ ∃ u, c.s11.user p = .ok u ∧
      (u.state = .ctx → env.sendto = true ∧ u.trxns.get c.s11.seq ≠ some false) := by
  unfold EMMCtx.s11ReleaseAccessBearers EMMCtx.s11Operation
  rcases hu : c.s11.user p with _ | u
  · simp
  · by_cases hctx : u.state = .ctx
    · by_cases hseq : u.trxns.get c.s11.seq = some false
      · simp [hctx, hseq, EMMCtx.sendReleaseAccessBearersReq, EMMCtx.s11Request, S11Stack.newTrxn]
      · cases hsend : env.sendto <;>
          simp [hctx, hseq, hsend, EMMCtx.sendReleaseAccessBearersReq, EMMCtx.s11Request, S11Stack.newTrxn,
            EMMCtx.s11Send]
    · simp [hctx]

theorem avoids_releaseRequest {b : Bool} :
    Avoids S1Fault.IsAbsent (onEMM x (w.setECM id { s with causeRelease := b }) s.emm fun env c =>
        emmUEContextReleaseReq env c id) ↔
      ∀ e c, s.emm = some e → w.emms e = some c → c.esmGetSessions x = [] → b = true := by
  rw [avoids_onEMM]
  have hs : ((w.setECM id { s with causeRelease := b }).env x).ecms id = some { s with causeRelease := b } :=
    Function.update_self ..
  exact forall₄_congr fun e c _ _ => avoids_emmUEContextReleaseReq hs

theorem ecms_onEMM {v : MME} {p : Option Nat} {f : Env → EMMCtx → S1Outcome EMMCtx} (h : onEMM x w p f = .ok v) :
    v.ecms = w.ecms := by
  cases p with
  | none => cases h
  | some e =>
    obtain ⟨c, -, h⟩ := bind_eq_ok.mp h
    obtain ⟨d, -, h⟩ := bind_eq_ok.mp h
    exact (sameTables_register _ v (unlabelled_eq_ok.mp h)).ecms

theorem takesCallback_of_ok {v : MME}
    (h : onEMM x w s.emm (fun env c => emmUEContextReleaseReq env c id) = .ok v) : w.TakesCallback x s.emm := by
  rcases hp : s.emm with _ | e
  · rw [hp] at h
    cases h
  rw [hp] at h
  obtain ⟨c, hc, h⟩ := bind_eq_ok.mp h
  obtain ⟨_, ⟨⟩, hc⟩ := deref_eq_ok.mp (unlabelled_eq_ok.mp hc)
  obtain ⟨d, hd, -⟩ := bind_eq_ok.mp h
  refine ⟨e, c, rfl, hc, fun sid ids hids => ?_⟩
  have hids' : ({ c with s11 := w.s11 } : EMMCtx).esmGetSessions (w.env x) = sid :: ids := hids
  obtain ⟨es, hes, hd⟩ := bind_eq_ok.mp ((emmUEContextReleaseReq_eq hids').symm.trans hd)
  obtain ⟨u, hu, hready⟩ := (s11ReleaseAccessBearers_eq_ok_iff ..).mp ⟨d, unlabelled_eq_ok.mp hd⟩
  exact ⟨es, u, unlabelled_eq_ok.mp hes, hu, hready⟩

/-- With an EPS session the callback is handed over, and the handler ends well. -/
theorem exists_releaseRequest {e : Nat} {c : EMMCtx} {sid : Nat} {ids : List Nat} (h : w.TakesCallback x s.emm)
    (he : s.emm = some e) (hc : w.emms e = some c) (hids : c.esmGetSessions x = sid :: ids) :
    ∃ v, onEMM x w s.emm (fun env c => emmUEContextReleaseReq env c id) = .ok v := by
  obtain ⟨e', c', he', hc', hready⟩ := h
  obtain rfl : e = e' := Option.some.inj (he.symm.trans he')
  obtain rfl : c = c' := Option.some.inj (hc.symm.trans hc')
  obtain ⟨es, u, hes, hu, hready⟩ := hready sid ids hids
  have hids' : ({ c with s11 := w.s11 } : EMMCtx).esmGetSessions (w.env x) = sid :: ids := hids
  have hes' : ({ c with s11 := w.s11 } : EMMCtx).session sid = .ok es := hes
  obtain ⟨d, hd⟩ := (s11ReleaseAccessBearers_eq_ok_iff (w.env x) { c with s11 := w.s11, s1BearersActive := false } es.s11
    (some (.sendUEContextReleaseCommand id))).mpr ⟨u, hu, hready⟩
  obtain ⟨acts, htrace, hacts⟩ := EMMCtx.unregistered_s11ReleaseAccessBearers _ _ d hd
  have hf : emmUEContextReleaseReq (w.env x) { c with s11 := w.s11 } id = .ok d := by
    rw [emmUEContextReleaseReq_eq hids', hes', unlabelled_ok, ok_bind, hd, unlabelled_ok]
  have hderef : deref w.emms (some e) = .ok c := deref_eq_ok.mpr ⟨e, rfl, hc⟩
  have htake : d.trace.take (d.trace.length - c.trace.length) = acts := by simp [htrace]
  refine ⟨{ w.setEMM e d with s11 := d.s11 }, ?_⟩
  rw [he]
  simp only [onEMM, hderef, unlabelled_ok, ok_bind, hf, htake, register_eq_ok hacts]

theorem connectedProcedure_release (hcode : msg.procedureCode = .uEContextReleaseRequest)
    (hchoice : msg.choice = .initiatingMessage) : connectedProcedure P x w id s msg =
      onEMM x (w.setECM id { s with causeRelease := msg.cause }) s.emm fun env c => emmUEContextReleaseReq env c id := by
  simp only [connectedProcedure, hcode, hchoice]

theorem avoids_connectedProcedure {i : UInt32} (hi : msg.eNBUEId = some i) (hm : msg.mmeUEId = some s.mmeUEId)
    (hrelease : ¬ (msg.procedureCode = .uEContextReleaseRequest ∧ msg.choice = .initiatingMessage)) :
    Avoids S1Fault.IsAbsent (connectedProcedure P x w id s msg) ↔ w.ProcedureSupplied x s msg := by
  unfold connectedProcedure ProcedureSupplied
  generalize msg.procedureCode = code, msg.choice = choice at hrelease
  split
  · exact iff_of_true (avoids_unlabelled _) trivial
  · exact (avoids_idsMatch_bind hi hm).trans (imp_congr_right fun _ => avoids_onEMM_emmModifyERABList rfl)
  · refine (avoids_idsMatch_bind hi hm).trans (imp_congr_right fun _ => ?_)
    rw [avoids_bind, avoids_found, and_iff_left fun _ _ => avoids_unlabelled _]
  · exact absurd ⟨rfl, rfl⟩ hrelease
  · refine iff_of_true Avoids.ok ?_
    split
    all_goals trivial

end Procedures

/-! ## The dispatch -/

/-- Only a UEContextReleaseRequest leaves a callback that reads what it did not find. -/
theorem tolerates_iff_avoids (h : ∀ id s, w.Delivers a msg rSid id s →
      ¬ (msg.procedureCode = .uEContextReleaseRequest ∧ msg.choice = .initiatingMessage)) :
    w.Tolerates P x a msg rSid ↔ Avoids S1Fault.IsAbsent (s1apStep P x w a msg rSid) :=
  ⟨Tolerates.handler, fun hhandler => ⟨hhandler, fun hcode hchoice id s _ hd => absurd ⟨hcode, hchoice⟩ (h id s hd)⟩⟩

section UEAssociated

variable {t : S1Assoc} (ht : w.assocs a = some t) (hactive : t.active = true) (hstream : rSid ≠ t.nonueRsid)
  (hinitial : ¬ (msg.procedureCode = .initialUEMessage ∧ msg.choice = .initiatingMessage))
  (hswitch : ¬ (msg.procedureCode = .pathSwitchRequest ∧ msg.choice = .initiatingMessage))

include ht hactive hstream hinitial hswitch

theorem s1apStep_ueAssociated : s1apStep P x w a msg rSid = ueAssociated P x w a msg rSid := by
  simp only [s1apStep, deref, ht, unlabelled_ok, ok_bind, hactive, if_true, activeProcessMsg, if_neg hstream]
  split
  · exact absurd ⟨‹_›, ‹_›⟩ hinitial
  · exact absurd ⟨‹_›, ‹_›⟩ hswitch
  · rfl

/-- The cause of a release is read by the handler if there is no EPS session, and by its callback otherwise. -/
theorem tolerates_release_iff (hcode : msg.procedureCode = .uEContextReleaseRequest)
    (hchoice : msg.choice = .initiatingMessage) :
    w.Tolerates P x a msg rSid ↔ w.UESupplied x a msg rSid := by
  have hsupplied : ∀ s, w.ProcedureSupplied x s msg ↔ (w.TakesCallback x s.emm → msg.cause = true) := fun s => by
    simp only [ProcedureSupplied, hcode, hchoice]
  have hstep := s1apStep_ueAssociated (P := P) (x := x) ht hactive hstream hinitial hswitch
  have havoids := avoids_ueAssociated (P := P) (x := x) ht hactive hstream hinitial
  have hrequest : ∀ id s, connectedProcedure P x (w.setECM id (heard s rSid)) id (heard s rSid) msg =
      onEMM x ((w.setECM id (heard s rSid)).setECM id { heard s rSid with causeRelease := msg.cause }) s.emm
        fun env c => emmUEContextReleaseReq env c id := fun id s => connectedProcedure_release hcode hchoice
  have hstored : ∀ id s v, onEMM x ((w.setECM id (heard s rSid)).setECM id
        { heard s rSid with causeRelease := msg.cause }) s.emm (fun env c => emmUEContextReleaseReq env c id) = .ok v →
      v.ecms id = some { heard s rSid with causeRelease := msg.cause } := fun id s v hv =>
    (congrFun (ecms_onEMM hv) id).trans (Function.update_self ..)
  constructor
  · rintro ⟨hhandler, hcallback⟩
    obtain ⟨i, hi, hmme, hproc⟩ := havoids.mp (hstep ▸ hhandler)
    refine ⟨i, hi, hmme, fun id s hd => (hsupplied s).mpr fun htakes => ?_⟩
    have hnow := avoids_releaseRequest.mp (hrequest id s ▸ hproc id s hd)
    obtain ⟨e, c, he, hc, hready⟩ := htakes
    rcases hids : c.esmGetSessions x with _ | ⟨sid, ids⟩
    · exact hnow e c he hc hids
    · let w₂ := (w.setECM id (heard s rSid)).setECM id { heard s rSid with causeRelease := msg.cause }
      have htakes : w₂.TakesCallback x s.emm := ⟨e, c, he, hc, hready⟩
      obtain ⟨v, hv⟩ := exists_releaseRequest htakes he hc hids
      have hok : s1apStep P x w a msg rSid = .ok v := by
        rw [hstep, ueAssociated_delivered hd, hrequest, hv]
      exact (avoids_sendUEContextReleaseCommand (hstored id s v hv)).mp (hcallback hcode hchoice id s v hd hok x c)
  · rintro ⟨i, hi, hmme, hproc⟩
    refine ⟨?_, fun _ _ id s v hd hv y c => ?_⟩
    · rw [hstep]
      refine havoids.mpr ⟨i, hi, hmme, fun id s hd => ?_⟩
      rw [hrequest]
      refine avoids_releaseRequest.mpr fun e c he hc hids => (hsupplied s).mp (hproc id s hd) ⟨e, c, he, hc, ?_⟩
      intro sid ids hids'
      rw [hids] at hids'
      cases hids'
    · rw [hstep, ueAssociated_delivered hd, hrequest] at hv
      have htakes := takesCallback_of_ok hv
      exact (avoids_sendUEContextReleaseCommand (hstored id s v hv)).mpr ((hsupplied s).mp (hproc id s hd) htakes)

theorem tolerates_iff_ueSupplied : w.Tolerates P x a msg rSid ↔ w.UESupplied x a msg rSid := by
  by_cases hrelease : msg.procedureCode = .uEContextReleaseRequest ∧ msg.choice = .initiatingMessage
  · exact tolerates_release_iff ht hactive hstream hinitial hswitch hrelease.1 hrelease.2
  · rw [tolerates_iff_avoids fun _ _ _ => hrelease, s1apStep_ueAssociated ht hactive hstream hinitial hswitch,
      avoids_ueAssociated ht hactive hstream hinitial]
    refine exists_congr fun i => and_congr_right fun hi => and_congr_right fun _ => forall₃_congr fun id s hd => ?_
    exact avoids_connectedProcedure hi hd.mmeUEId hrelease

end UEAssociated

end Labelled

/-- Only the streams of the UEs of an active association lead to sessions. -/
theorem not_delivers {w : MME} {a : Nat} {msg : S1APMsg} {rSid id : Nat} {s : ECMSession}
    (h : ∀ t, w.assocs a = some t → ¬ (t.active = true ∧ rSid ≠ t.nonueRsid)) : ¬ w.Delivers a msg rSid id s := by
  intro hd
  obtain ⟨t, ht, hactive, hstream⟩ := hd.stream
  exact h t ht ⟨hactive, hstream⟩

/-- Exactly the messages that have what their branch reads are handled without dereferencing what was not found. -/
theorem tolerates_iff (a : Nat) (msg : S1APMsg) (rSid : Nat) :
    w.Tolerates P x a msg rSid ↔ w.Supplied x a msg rSid := by
  rcases ht : w.assocs a with _ | t
  · rw [Labelled.tolerates_iff_avoids fun id s hd => absurd hd (not_delivers fun t ht' => ?_)]
    · simp [Labelled.s1apStep, deref, ht, Supplied]
    · rw [ht] at ht'
      cases ht'
  have hstep : Labelled.s1apStep P x w a msg rSid =
      if t.active then Labelled.activeProcessMsg P x w a t msg rSid
      else Labelled.notConfiguredProcessMsg x w a t msg rSid := by
    simp only [Labelled.s1apStep, deref, ht, unlabelled_ok, ok_bind]
  simp only [Supplied, ht, Option.some.injEq, forall_eq']
  rcases hactive : t.active with _ | _
  · rw [Labelled.tolerates_iff_avoids fun id s hd => absurd hd (not_delivers fun t' ht' => ?_), hstep, hactive]
    · exact Labelled.avoids_notConfiguredProcessMsg
    · cases ht.symm.trans ht'
      simp [hactive]
  by_cases hstream : rSid = t.nonueRsid
  · rw [Labelled.tolerates_iff_avoids fun id s hd => absurd hd (not_delivers fun t' ht' => ?_), hstep, hactive, if_pos rfl,
      if_pos rfl, if_pos hstream, Labelled.activeProcessMsg, if_pos hstream]
    · generalize hcode : msg.procedureCode = code, hchoice : msg.choice = choice
      split
      · exact Labelled.avoids_processReset
      · exact Labelled.avoids_ecmSessionInit ⟨hcode, hchoice⟩
      · exact Labelled.avoids_pathSwitchRequest
      · refine iff_of_true Avoids.ok ?_
        try split
        all_goals trivial
    · cases ht.symm.trans ht'
      exact fun h => h.2 hstream
  · rw [if_pos rfl, if_neg hstream]
    have hactiveStep : Labelled.s1apStep P x w a msg rSid = Labelled.activeProcessMsg P x w a t msg rSid := by
      rw [hstep, hactive, if_pos rfl]
    split
    · rename_i hcode hchoice
      rw [Labelled.tolerates_iff_avoids fun _ _ _ => by simp [hcode], hactiveStep, Labelled.activeProcessMsg,
        if_neg hstream, hcode, hchoice]
      exact Labelled.avoids_ecmSessionInit ⟨hcode, hchoice⟩
    · rename_i hcode hchoice
      rw [Labelled.tolerates_iff_avoids fun _ _ _ => by simp [hcode], hactiveStep, Labelled.activeProcessMsg,
        if_neg hstream, hcode, hchoice]
      exact Labelled.avoids_pathSwitchRequest
    · rename_i hinitial hswitch
      exact Labelled.tolerates_iff_ueSupplied ht hactive hstream (fun h => hinitial h.1 h.2) fun h => hswitch h.1 h.2

/-- An eNodeB connects, sets up the association and sends an initialUEMessage without information elements: the
identifier that was not found is dereferenced. -/
theorem not_tolerates_initialUEMessage :
    let x : Env := default
    let setup := { S1APMsg.new .s1Setup .initiatingMessage with globalENBId := true, supportedTAs := some true }
    ∃ w, Run (step Prims.zeroKasme) (fun _ _ => True) (init 0) [(x, .accept), (x, .s1ap 0 setup 0)] w ∧
      ¬ w.Tolerates Prims.zeroKasme x 0 (.new .initialUEMessage .initiatingMessage) 1 :=
  ⟨_, .snoc (.snoc .nil trivial rfl) trivial rfl, fun h => h.handler .absentIE rfl trivial⟩

end MME

end AaltoMME
