import AaltoMME.EMM.Security.Exemption
import AaltoMME.MME.Connections

/-!
# What an unauthenticated sender can do to a registered UE

A PDU that is not authenticated leaves the state of a registered UE, its sessions and its bearers alone,
with the exceptions below: EMM_Registered acts on an Attach Request, on a Tracking Area Update Request and
on a Detach Request with the key set identifier of the UE whether they are authenticated or not, and on an
ESM message that `nas_isAuthRequired` takes for an exempt one.  The connection of the UE is another matter:
an initialUEMessage with the identity of the UE is bound to its context before the PDU is looked at.
-/

namespace AaltoMME

open Base NAS

variable {P : Prims} {env : Env}

namespace EMMCtx

variable {c d : EMMCtx} {buf : Mem} {size : UInt64}

/-- The protected messages that EMM_Registered acts on without authentication; `p` is the protocol
discriminator of the outer header. -/
def ExemptMsg (c : EMMCtx) (p : UInt8) (msg : GenericNASMsg) : Prop :=
  nasIsAuthRequired msg.emmMessageType = false ∧
    (p = epsSessionManagementMessages ∨ msg.protocolDiscriminator = epsSessionManagementMessages ∨
      msg.emmMessageType = attachRequest ∨ msg.emmMessageType = trackingAreaUpdateRequest ∨
      msg.emmMessageType = detachRequest ∧ msg 4 >>> 4 = c.ksi)

/-- The PDUs that EMM_Registered acts on without authentication. -/
def Exempt (c : EMMCtx) (buf : Mem) (size : UInt64) : Prop :=
  ∃ s p, nasGetHeader buf size.toUInt32 = some (s, p) ∧
    (s = .plainNAS ∧ (decNAS buf size).2.emmMessageType = attachRequest ∨
      s.isProtected = true ∧ ∃ msg ∈ decodedMsg c.parser buf size, c.ExemptMsg p msg)

/-- At most the timers, the fields of the last message and the trace are different, and no context was
registered. -/
def Undisturbed (c d : EMMCtx) : Prop :=
  ∃ timers msg acts, d = { c with activeTimers := timers, msg := msg, trace := acts ++ c.trace } ∧
    ∀ a ∈ acts, ∀ e m, a ≠ .registerEMMCtxt e m

theorem undisturbed_of_msg (timers : EMMTimerCode → Option EMMTimer) (msg : MsgHelpers) :
    c.Undisturbed { c with activeTimers := timers, msg := msg } := ⟨timers, msg, [], rfl, nofun⟩

theorem undisturbed_ecmSendUEContextReleaseCommand (cause : ReleaseCause) :
    Post (c.ecmSendUEContextReleaseCommand env cause) c.Undisturbed := by
  unfold ecmSendUEContextReleaseCommand
  split
  · exact .ok (undisturbed_of_msg _ _)
  · exact .of_bind fun _ => .ok ⟨_, _, [_], rfl, by simp⟩

/-- A Detach Request with another key set identifier is only noted. -/
theorem undisturbed_detachRequestCase {msg : GenericNASMsg} (hksi : msg 4 >>> 4 ≠ c.ksi) :
    Post (c.detachRequestCase env msg) c.Undisturbed := by
  have hnoted : Post (c.processDetachReq msg) fun d =>
      d = { c with msg.detachType := msg 3 &&& 0x0F, msg.ksi := msg 4 >>> 4 } := by
    refine .ite (fun _ => .of_bind fun _ => .ok rfl) fun _ => .ok rfl
  refine .bind hnoted fun d hd => ?_
  subst hd
  exact .ite (fun _ => .ok (undisturbed_of_msg _ _)) fun h => absurd (not_not.mp h).symm hksi

theorem undisturbed_regSecMsgCases {msg : GenericNASMsg} {p : UInt8} {isAuth : Bool}
    (hreq : nasIsAuthRequired msg.emmMessageType = false) (hex : ¬ c.ExemptMsg p msg) :
    Post (c.regSecMsgCases P env msg isAuth) c.Undisturbed := by
  refine .ite (fun h => ?_) fun _ => .ite (fun h => ?_) fun _ => .ite (fun h => ?_) fun _ => ?_
  · exact absurd ⟨hreq, .inr (.inr (.inl h))⟩ hex
  · exact undisturbed_detachRequestCase fun hksi => hex ⟨hreq, .inr (.inr (.inr (.inr ⟨h, hksi⟩)))⟩
  · exact absurd ⟨hreq, .inr (.inr (.inr (.inl h)))⟩ hex
  · exact .ite (fun _ => undisturbed_ecmSendUEContextReleaseCommand _)
      fun _ => .ok (undisturbed_of_msg _ _)

theorem parser_eq_of_not_authenticates (hauth : ¬ c.Authenticates P buf size) {r : AuthResult}
    (hr : nasAuthenticateMsg P c.parser buf size.toUInt32 .upLink = .ok r) :
    r.isAuth = false ∧ r.handler = c.parser := by
  obtain hsame | ⟨ha, -⟩ := nasAuthenticateMsg_shape hr
  · exact hsame
  · exact absurd ⟨r, hr, ha⟩ hauth

/-- The context that goes on has the handler that `nas_authenticateMsg` left. -/
theorem post_receiveSecMsg_fst :
    Post (c.receiveSecMsg P true buf size) fun x =>
      ∃ r, nasAuthenticateMsg P c.parser buf size.toUInt32 .upLink = .ok r ∧
        x.1 = { c with parser := r.handler } := by
  refine .bind_of_eq fun r hr => .ite (fun _ => .error) fun _ =>
    Post.ite (fun _ => .ok ⟨r, hr, rfl⟩) fun _ => .of_bind fun y =>
    Post.ite (fun _ => .error) fun _ => .ite (fun _ => ?_) fun _ => ?_
  all_goals exact .ok ⟨r, hr, rfl⟩

/-- A protected message that is not authenticated and goes to the switch is the decoded one, and
exempt from authentication. -/
theorem receiveSecMsg_of_not_authenticates (hauth : ¬ c.Authenticates P buf size) :
    Post (c.receiveSecMsg P true buf size) fun x => x.1 = c ∧ ∀ msg isAuth, x.2 = some (msg, isAuth) →
      msg ∈ decodedMsg c.parser buf size ∧ nasIsAuthRequired msg.emmMessageType = false := by
  intro x hx
  obtain ⟨r, hr, hfst⟩ := post_receiveSecMsg_fst x hx
  obtain ⟨ha, hparser⟩ := parser_eq_of_not_authenticates hauth hr
  refine ⟨by rw [hfst, hparser], fun msg isAuth hsnd => ?_⟩
  obtain ⟨d, m⟩ := x
  cases hsnd
  obtain ⟨r', hr', -, -, rfl, -, hdec, hreq⟩ := receiveSecMsg_eq_some hx
  obtain rfl : r = r' := Except.ok.inj (hr.symm.trans hr')
  exact ⟨mem_decodedMsg.mpr (hparser ▸ hdec), hreq ha⟩

theorem undisturbed_regProcessSecMsg {p : UInt8} (hsci : c.sci = true)
    (hauth : ¬ c.Authenticates P buf size)
    (hex : ∀ msg ∈ decodedMsg c.parser buf size, ¬ c.ExemptMsg p msg) :
    Post (c.regProcessSecMsg P env p buf size) c.Undisturbed := by
  refine .ite (fun h => by simp [hsci] at h) fun _ => ?_
  refine .bind (Q := fun x => x.1 = c ∧ (x.2 = .drop ∨ ∃ msg isAuth, x.2 = .emm msg isAuth ∧
    nasIsAuthRequired msg.emmMessageType = false ∧ ¬ c.ExemptMsg p msg)) ?_ ?_
  · refine .bind (receiveSecMsg_of_not_authenticates hauth) ?_
    rintro ⟨d, _ | ⟨msg, isAuth⟩⟩ ⟨hd, hmsg⟩
    · exact .ok ⟨hd, .inl rfl⟩
    · obtain ⟨hmem, hreq⟩ := hmsg msg isAuth rfl
      refine .ite (fun h => ?_) fun _ => .ok ⟨hd, .inr ⟨msg, isAuth, rfl, hreq, hex msg hmem⟩⟩
      simp only [Bool.or_eq_true, decide_eq_true_eq] at h
      exact absurd ⟨hreq, h.elim .inl fun h => .inr (.inl h)⟩ (hex msg hmem)
  · rintro ⟨d, k⟩ ⟨rfl, rfl | ⟨msg, isAuth, rfl, hreq, hmsg⟩⟩
    · exact .ok (undisturbed_of_msg _ _)
    · exact undisturbed_regSecMsgCases hreq hmsg

theorem undisturbed_regProcessSrvReq (p : UInt8) (hauth : ¬ c.Authenticates P buf size) :
    Post (c.regProcessSrvReq P env p buf size) c.Undisturbed := by
  refine .ite (fun _ => .error) fun _ => .bind_of_eq fun r hr => ?_
  obtain ⟨ha, hparser⟩ := parser_eq_of_not_authenticates hauth hr
  have hsame : c.Undisturbed c := undisturbed_of_msg _ _
  simp only [hparser, ha]
  refine .ite (fun _ => .error) fun _ => .ite (fun _ => .ok hsame) fun _ =>
    Post.ite (fun _ => .ok hsame) fun _ =>
    Post.ite (fun _ => .ok (undisturbed_of_msg _ _)) fun h => ?_
  simp at h

theorem Undisturbed.of_stopTimer (code : EMMTimerCode) (h : (c.emmStopTimer code).Undisturbed d) :
    c.Undisturbed d := by
  obtain ⟨timers, msg, acts, hd, hacts⟩ := h
  exact ⟨timers, msg, acts, hd, hacts⟩

/-- A PDU that is neither authenticated nor exempt leaves a registered UE alone. -/
theorem undisturbed_emmProcessMsg (hst : c.stateName = .registered) (hsci : c.sci = true)
    (hauth : ¬ c.Authenticates P buf size) (hex : ¬ c.Exempt buf size) :
    Post (c.emmProcessMsg P env buf size) c.Undisturbed := by
  unfold emmProcessMsg
  refine Post.mono ?_ fun d => Undisturbed.of_stopTimer .tMobileReachable
  have hsame := (c.emmStopTimer .tMobileReachable).undisturbed_of_msg
  split
  · exact .error
  rename_i s p hhead
  have hst' : (c.emmStopTimer .tMobileReachable).stateName = .registered := hst
  refine .ite (fun hs => ?_) fun _ => .ite (fun hs => ?_) fun _ =>
    Post.ite (fun _ => ?_) fun _ => .ok (hsame _ _)
  · simp only [stateProcessMsg, hst']
    exact .ite (fun h => absurd ⟨s, p, hhead, .inl ⟨hs, h⟩⟩ hex) fun _ => .ok (hsame _ _)
  · simp only [stateProcessSecMsg, hst']
    exact undisturbed_regProcessSecMsg hsci hauth fun msg hmsg h =>
      hex ⟨s, p, hhead, .inr ⟨hs, msg, hmsg, h⟩⟩
  · simp only [stateProcessSrvReq, hst']
    exact undisturbed_regProcessSrvReq p hauth

end EMMCtx

namespace MME

variable {x : Env} {w : MME} {e id : Nat} {s : ECMSession} {c : EMMCtx} {msg : S1APMsg} {buf : Mem}
  {size : UInt64}

/-- The context that a session hands the NAS PDU of a message to: a session that starts looks it up, a
connected one is bound to it. -/
def Addressed (w : MME) (x : Env) (s : ECMSession) (msg : S1APMsg) (buf : Mem) (size : UInt64) (e : Nat) :
    Prop :=
  msg.nasPdu = some (buf, size) ∧ msg.choice = .initiatingMessage ∧
    match s.stateName with
    | .idle => msg.procedureCode = .initialUEMessage ∧ w.findEMM x msg.sTMSI buf size = .ok (some e)
    | .connected => msg.procedureCode = .uplinkNASTransport ∧ s.emm = some e

theorem post_onEMM_undisturbed (hc : w.emms e = some c) (hst : c.stateName = .registered)
    (hsci : c.sci = true) (hauth : ¬ c.Authenticates P buf size) (hex : ¬ c.Exempt buf size) :
    Post (w.onEMM x (some e) fun env c => c.emmProcessMsg P env buf size) fun v =>
      v.s11 = w.s11 ∧ ∃ d, v.emms e = some d ∧ d.stateName = .registered ∧ d.sci = true ∧ d.esm = c.esm ∧
        d.ecm = c.ecm := by
  have hun : Post (EMMCtx.emmProcessMsg P (w.env x) { c with s11 := w.s11 } buf size)
      (EMMCtx.Undisturbed { c with s11 := w.s11 }) :=
    EMMCtx.undisturbed_emmProcessMsg hst hsci hauth hex
  refine (post_onEMM hc (hun.mono fun d hd => ⟨hd, ?_⟩)).mono ?_
  · rintro v ⟨d, ⟨timers, m, acts, rfl, -⟩, rfl⟩
    exact ⟨rfl, _, Function.update_self .., hst, hsci, rfl, rfl⟩
  · obtain ⟨timers, m, acts, rfl, hacts⟩ := hd
    exact ⟨acts, rfl, hacts⟩

/-- Binding a session to a known context asks for the release of its previous session. -/
theorem post_bindEMM_known (hc : w.emms e = some c) (t : ECMSession) :
    Post (w.bindEMM x id t (some e)) fun r => r.2 = e ∧ r.1.s11 = w.s11 ∧
      ∃ acts, r.1.emms e = some { c with s11 := w.s11, ecm := some id, trace := acts ++ c.trace } := by
  refine .bind ?_
    fun v hv => .ok ⟨rfl, hv⟩
  have hset : (w.setECM id { t with emm := some e }).emms e = some c := hc
  refine (post_onEMM (Q := fun d => ∃ acts, d = { c with
    s11 := w.s11, ecm := some id, trace := acts ++ c.trace }) hset ?_).mono ?_
  · refine .bind (Q := fun d => ∃ acts, d = { c with s11 := w.s11, trace := acts ++ c.trace } ∧
      ∀ a ∈ acts, ∀ e m, a ≠ .registerEMMCtxt e m) ?_ ?_
    · unfold EMMCtx.ecmSendUEContextReleaseCommand
      split
      · exact .ok ⟨[], rfl, nofun⟩
      · exact .of_bind fun _ => .ok ⟨[_], rfl, by simp⟩
    · rintro _ ⟨acts, rfl, hacts⟩
      exact .ok ⟨⟨acts, rfl⟩, acts, rfl, hacts⟩
  · rintro v ⟨d, ⟨acts, rfl⟩, rfl⟩
    exact ⟨rfl, acts, Function.update_self ..⟩

/-- The input of a registered UE that is neither authenticated nor exempt leaves its state, its sessions
and its bearers alone.  Over its connection it leaves the connection alone, too; a session that starts
with it is the new connection of the UE. -/
theorem unauthenticated_undisturbed (hs : w.ecms id = some s) (hto : w.Addressed x s msg buf size e)
    (hc : w.emms e = some c) (hst : c.stateName = .registered) (hsci : c.sci = true)
    (hauth : ¬ c.Authenticates P buf size) (hex : ¬ c.Exempt buf size) (rSid : Nat) :
    Post (w.ecmSessionProcessMsg P x id msg rSid) fun v =>
      v.s11 = w.s11 ∧ ∃ d, v.emms e = some d ∧ d.stateName = .registered ∧ d.sci = true ∧ d.esm = c.esm ∧
        d.ecm = if s.stateName = .idle then some id else c.ecm := by
  obtain ⟨hpdu, hchoice, hto⟩ := hto
  have hie : ie msg.nasPdu = .ok (buf, size) := by rw [hpdu]; rfl
  refine .bind_of_eq fun s' hs' => ?_
  obtain ⟨_, ⟨⟩, hs'⟩ := deref_eq_ok.mp hs'
  obtain rfl : s = s' := Option.some.inj (hs.symm.trans hs')
  cases hstate : s.stateName with
  | idle =>
    obtain ⟨hproc, hfind⟩ : msg.procedureCode = .initialUEMessage ∧
      w.findEMM x msg.sTMSI buf size = .ok (some e) := by simpa [hstate] using hto
    refine .ite (fun _ => ?_) fun h => absurd ⟨hproc, hchoice⟩ h
    refine .of_bind fun eNBUEId => ?_
    rw [hie, ok_bind]
    refine .of_bind fun ⟨sn, tAC⟩ => ?_
    simp only [hfind, ok_bind]
    refine .bind (post_bindEMM_known hc _) ?_
    rintro ⟨v, i⟩ ⟨hi, hs11, acts, hv⟩
    obtain rfl : i = e := hi
    have hkept := fun t : ECMSession =>
      @post_onEMM_undisturbed P x (v.setECM id t) _ _ buf size hv hst hsci hauth hex
    exact (hkept _).mono fun u ⟨hu, d, hd, hstate, hsci, hesm, hecm⟩ =>
      ⟨hu.trans hs11, d, hd, hstate, hsci, hesm, hecm⟩
  | connected =>
    obtain ⟨hproc, hemm⟩ : msg.procedureCode = .uplinkNASTransport ∧ s.emm = some e := by
      simpa [hstate] using hto
    refine .ite (fun _ => .ok ⟨rfl, c, hc, hst, hsci, rfl, by simp⟩) fun _ => ?_
    simp only [connectedProcedure, hproc, hchoice]
    refine .of_bind fun ok => .ite (fun _ => ?_)
      fun _ => .ok ⟨rfl, c, hc, hst, hsci, rfl, by simp⟩
    rw [hie, ok_bind, hemm]
    have hkept := fun t : ECMSession =>
      @post_onEMM_undisturbed P x (w.setECM id t) _ _ buf size hc hst hsci hauth hex
    exact (hkept _).mono fun u ⟨hu, d, hd, hstate, hsci, hesm, hecm⟩ =>
      ⟨hu, d, hd, hstate, hsci, hesm, hecm⟩

/-- A plain EMM Status of the sample UE. -/
def Sample.status : S1APMsg :=
  { Sample.ueMsg .uplinkNASTransport .initiatingMessage 1 7 with nasPdu := Sample.pdu [0x07, 0x60, 0x6f] }

/-- The sample UE is not disturbed by a plain EMM Status. -/
theorem unauthenticated_undisturbed_status :
    ∃ w v c d, Run (step Prims.zeroKasme) (fun _ _ => True) (init 0) Sample.attach w ∧
      w.ecmSessionProcessMsg Prims.zeroKasme (Sample.env .manyRows) 1 Sample.status 1 = .ok v ∧
      w.emms 2 = some c ∧ c.stateName = .registered ∧ c.sci = true ∧ v.s11 = w.s11 ∧
      v.emms 2 = some d ∧ d.stateName = .registered ∧ d.sci = true ∧ d.esm = c.esm ∧ d.ecm = c.ecm := by
  simp only [exists_and_left]
  refine Run.exists_of_exec (fun w =>
      (w.ecms 1).map (fun s => (s.stateName, s.emm)) = some (.connected, some 2) ∧
      (w.emms 2).map (fun c => (c.stateName, c.sci)) = some (.registered, true) ∧
      (w.ecmSessionProcessMsg Prims.zeroKasme (Sample.env .manyRows) 1 Sample.status 1).toOption.isSome = true)
    (by decide +kernel) ?_
  rintro w hrun ⟨hs, hc, hv⟩
  obtain ⟨s, hs, hbound⟩ := Option.map_eq_some_iff.mp hs
  obtain ⟨c, hc, hstate⟩ := Option.map_eq_some_iff.mp hc
  obtain ⟨hconn, hemm⟩ := Prod.mk.inj hbound
  obtain ⟨hst, hsci⟩ := Prod.mk.inj hstate
  have hhead : nasGetHeader (.ofList [0x07, 0x60, 0x6f]) (3 : UInt64).toUInt32 = some (.plainNAS, 7) := rfl
  have hauth : ¬ c.Authenticates Prims.zeroKasme (.ofList [0x07, 0x60, 0x6f]) 3 := by
    rintro ⟨r, hr, ha⟩
    simp only [nasAuthenticateMsg] at hr
    split at hr <;> cases hr <;> cases ha
  have hex : ¬ c.Exempt (.ofList [0x07, 0x60, 0x6f]) 3 := by
    rintro ⟨s, p, hh, h⟩
    rw [hhead] at hh
    cases hh
    obtain ⟨-, h⟩ | ⟨h, -⟩ := h
    · cases h
    · cases h
  have hto : w.Addressed (Sample.env .manyRows) s Sample.status (.ofList [0x07, 0x60, 0x6f]) 3 2 :=
    ⟨rfl, rfl, by rw [hconn]; exact ⟨rfl, hemm⟩⟩
  have hkept := unauthenticated_undisturbed hs hto hc hst hsci hauth hex 1
  cases hok : w.ecmSessionProcessMsg Prims.zeroKasme (Sample.env .manyRows) 1 Sample.status 1 with
  | error _ => simp [hok, Except.toOption] at hv
  | ok v =>
    obtain ⟨hs11, d, hd, hdst, hdsci, hesm, hecm⟩ := hkept v hok
    exact ⟨v, rfl, c, hc, hst, hsci, hs11, d, hd, hdst, hdsci, hesm, by simpa [hconn] using hecm⟩

/-- A plain Attach Request over the connection of the registered sample UE deletes its session
and takes it out of EMM_Registered, and an initialUEMessage with its S-TMSI and a Service Request
with a wrong MAC takes its connection. -/
theorem disturbed_by_unauthenticated :
    (∃ w v c d, Run (step Prims.zeroKasme) (fun _ _ => True) (init 0) Sample.attach w ∧
      w.step Prims.zeroKasme (Sample.env (.vector (Sample.quadruplet (List.replicate 32 1))),
        Sample.uplinkNASTransport 1 7 [0x07, 0x41, 0x71, 0x08, 0x29, 0x80, 0x39, 0x00, 0x00, 0x00, 0x00, 0x10,
          0x02, 0xe0, 0xe0, 0x00, 0x04, 0x02, 0x01, 0xd0, 0x11]) = .ok v ∧
      w.emms 2 = some c ∧ c.stateName = .registered ∧ c.sci = true ∧ c.esm.sessions.length = 1 ∧
      v.emms 2 = some d ∧ d.stateName = .commonProcedureInitiated ∧ d.esm.sessions = []) ∧
    ∃ w v c d, Run (step Prims.zeroKasme) (fun _ _ => True) (init 0) Sample.attach w ∧
      w.step Prims.zeroKasme (Sample.env .manyRows,
        Sample.initialUEMessage 8 (some 1315886081) [0xc7, 0x02, 0xde, 0xad]) = .ok v ∧
      w.emms 2 = some c ∧ c.stateName = .registered ∧ c.sci = true ∧
      ¬ c.Authenticates Prims.zeroKasme (.ofList [0xc7, 0x02, 0xde, 0xad]) 4 ∧ c.ecm = some 1 ∧
      v.emms 2 = some d ∧ d.ecm = some 3 := by
  simp only [exists_and_left]
  constructor
  · refine Run.exists_step_of_exec (fun w _ v =>
        (w.emms 2).any (fun c => c.stateName = .registered ∧ c.sci = true ∧ c.esm.sessions.length = 1) = true ∧
        (v.emms 2).any (fun d => d.stateName = .commonProcedureInitiated ∧ d.esm.sessions = []) = true)
      (by decide +kernel) ?_
    rintro w v - - ⟨hc, hd⟩
    obtain ⟨c, hc, hcs⟩ := (Option.any_eq_true _ _).mp hc
    obtain ⟨d, hd, hds⟩ := (Option.any_eq_true _ _).mp hd
    obtain ⟨hst, hsci, hlen⟩ := of_decide_eq_true hcs
    exact ⟨c, hc, hst, hsci, hlen, d, hd, of_decide_eq_true hds⟩
  · refine Run.exists_step_of_exec (fun w _ v =>
        (w.emms 2).any (fun c => c.stateName = .registered ∧ c.sci = true ∧ c.ecm = some 1 ∧
          (nasAuthenticateMsg Prims.zeroKasme c.parser (.ofList [0xc7, 0x02, 0xde, 0xad])
            (4 : UInt64).toUInt32 .upLink).toOption.any AuthResult.isAuth = false) = true ∧
        v.binding.ecm 2 = some (some 3)) (by decide +kernel) ?_
    rintro w v - - ⟨hc, hd⟩
    obtain ⟨c, hc, hcs⟩ := (Option.any_eq_true _ _).mp hc
    obtain ⟨hst, hsci, hold, hnone⟩ := of_decide_eq_true hcs
    refine ⟨c, hc, hst, hsci, ?_, hold, Option.map_eq_some_iff.mp hd⟩
    rintro ⟨r, hr, ha⟩
    rw [hr] at hnone
    exact absurd (ha.symm.trans hnone) (by decide)

end MME

end AaltoMME
