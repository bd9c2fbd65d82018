import AaltoMME.EMM.Pending

/-!
# The operations of the states that may be missing

`emm_attachAccept` and `emm_sendESM` call through the table of the current state.  The first operation exists in
EMM_SpecificProcedureInitiated only, the second one there and in EMM_Registered.

`emm_sendESM` is called from `esm_processMsg`, that is for a message of the UE which one of the two states handles.
`emm_attachAccept` is called when the response to a Create Session Request arrives, in whatever state the context is
by then.
-/

namespace AaltoMME

open Base NAS

variable {P : Prims} {env : Env} {c d : EMMCtx} {e : Env × EMMEvent}

namespace EMMState

/-- Whether the table of the state has the operation `attachAccept`. -/
def attachAccept : EMMState → Bool
  | .specificProcedureInitiated => true
  | _ => false

/-- Whether the table of the state has the operation `sendESM`. -/
def sendESM : EMMState → Bool
  | .registered | .specificProcedureInitiated => true
  | _ => false

end EMMState

namespace EMMCtx

/-! ## Calls -/

section Calls

variable (P : Prims) (env : Env) (c : EMMCtx)

/-- The message that `ePSsession_sendActivateDefaultEPSBearerCtxtReq` builds. -/
def activateDefaultMsg (id : Nat) : Outcome (List UInt8) := do
  let s ← c.session id
  let b ← c.bearer s.defaultBearer
  if 255 < c.subs.apn.length then .error .overflow
  else
    let paa ← pdnAddress s
    let msg := [(0x02 : UInt8) ||| (b.ebi <<< 4), s.currentPti, activateDefaultEPSBearerContextRequest]
      ++ nasIeLvT4 [c.subs.qci] ++ nasIeLvT4 (subsGetEncodedAPN c.subs.apn 150) ++ nasIeLvT4 paa
      ++ s.pco.elim [] (fun pco => 0x27 :: nasIeLvT4 pco)
    if 356 < msg.length then .error .overflow else .ok msg

theorem sendActivateDefaultEPSBearerCtxtReq_eq (id : Nat) :
    c.sendActivateDefaultEPSBearerCtxtReq P env id =
      c.activateDefaultMsg id >>= fun msg => c.emmAttachAccept P env msg [id] := by
  unfold sendActivateDefaultEPSBearerCtxtReq activateDefaultMsg
  rw [bind_assoc]
  refine bind_congr fun s => ?_
  rw [bind_assoc]
  refine bind_congr fun b => ?_
  split
  · rfl
  · rw [bind_assoc]
    refine bind_congr fun paa => ?_
    dsimp only
    split <;> rfl

/-- The contexts in which an event calls `emm_attachAccept`. -/
def attachAcceptCalls : Env × EMMEvent → List EMMCtx
  | (env, .s11 pkt) => callsAfter (c.s11Deliver env pkt) fun (c, cb) =>
    match cb with
    | some (some (.sendActivateDefault id)) => callsAfter (c.activateDefaultMsg id) fun _ => [c]
    | _ => []
  | _ => []

/-- The contexts in which `esm_processMsg` calls `emm_sendESM`. -/
def esmProcessMsgSends (msg : GenericNASMsg) : List EMMCtx :=
  let c := c.log (.esmMessage msg.esmMessageType msg.esmProcedureTransactionIdentity)
  if msg.protocolDiscriminator ≠ epsSessionManagementMessages then []
  else if msg.esmMessageType = pdnConnectivityRequest then
    let infoTx := (nasNASOptLookup msg pdnConnectivityRequestOptionals 4 0xD).elim false
      fun o => msg o &&& 0x0F ≠ 0
    let pco := (nasNASOptLookup msg pdnConnectivityRequestOptionals 4 0x27).map
      fun o => msg.read (o + 2) (msg (o + 1)).toNat
    if infoTx then [(c.newSession (msg.esmProcedureTransactionIdentity) pco).1] else []
  else []

/-- The contexts in which `emm_processFirstESMmsg` calls `emm_sendESM`. -/
def emmProcessFirstESMmsgSends : List EMMCtx :=
  match c.pendingESMmsg with
  | [] => []
  | raw :: _ => c.esmProcessMsgSends (storedESM env raw)

/-- The contexts in which the protected handler of EMM_Registered or EMM_SpecificProcedureInitiated calls
`emm_sendESM`: for a message of the ESM layer, or for the one in an Attach Complete. -/
def protectedMsgSends (p : UInt8) (buf : Mem) (size : UInt64) : List EMMCtx :=
  if !c.sci then []
  else callsAfter (c.secMsgCase P p buf size) fun (c, k) =>
    match k with
    | .drop => []
    | .esm msg => c.esmProcessMsgSends msg
    | .emm msg _ =>
      if c.stateName = .specificProcedureInitiated && msg.emmMessageType = attachComplete then
        ({ c.emmStopTimer .t3450 with attachStarted := false }.emmChangeState .registered).esmProcessMsgSends
          (decNAS (msg.shift 5) (UInt64.ofNat (msg.read16 3))).2
      else []

/-- The contexts in which an event calls `emm_sendESM`. -/
def sendESMCalls (e : Env × EMMEvent) : List EMMCtx :=
  (c.firstESMCalls P e).flatMap (·.emmProcessFirstESMmsgSends e.1) ++
    match e with
    | (_, .uplink buf size) =>
      match nasGetHeader buf size.toUInt32 with
      | none => []
      | some (s, p) =>
        if s ≠ .plainNAS && s.isProtected then
          match c.stateName with
          | .registered | .specificProcedureInitiated =>
            (c.emmStopTimer .tMobileReachable).protectedMsgSends P p buf size
          | _ => []
        else []
    | _ => []

end Calls

/-! ## The states of the calls -/

theorem stateName_esmProcessMsgSends {msg : GenericNASMsg} (hd : d ∈ c.esmProcessMsgSends msg) :
    d.stateName = c.stateName := by
  unfold esmProcessMsgSends at hd
  dsimp only at hd
  split at hd
  · cases hd
  split at hd
  · split at hd
    · rw [List.mem_singleton.mp hd]
      rfl
    · cases hd
  · cases hd

theorem stateName_attachRequestFirst {msg : GenericNASMsg} {isAuth : Bool}
    (hd : d ∈ c.attachRequestFirst env msg isAuth) : d.stateName = .specificProcedureInitiated := by
  obtain ⟨c₁, -, hd⟩ := mem_callsAfter.mp hd
  obtain ⟨c₂, -, hd⟩ := mem_callsAfter.mp hd
  split at hd
  · cases hd
  · split at hd
    · cases hd
    · rw [List.mem_singleton.mp hd]
      rfl

theorem stateName_securityModeCompleteFirst {isAuth : Bool} (hd : d ∈ c.securityModeCompleteFirst env isAuth) :
    d.stateName = .specificProcedureInitiated := by
  unfold securityModeCompleteFirst s6aUpdateLocationFirst at hd
  split at hd
  · rw [List.mem_singleton.mp hd]
    rfl
  · cases hd
  · rw [List.mem_singleton.mp hd]
    rfl

/-- `emm_processFirstESMmsg` is called in EMM_SpecificProcedureInitiated. -/
theorem stateName_firstESMCalls (hd : d ∈ c.firstESMCalls P e) : d.stateName = .specificProcedureInitiated := by
  obtain ⟨env, ev⟩ := e
  cases ev with
  | uplink buf size =>
    unfold firstESMCalls at hd
    dsimp only at hd
    split at hd
    · cases hd
    split at hd
    · unfold stateProcessSecMsgFirst at hd
      split at hd
      · obtain ⟨_, -, hd⟩ := mem_callsAfter.mp hd
        obtain ⟨⟨f, m⟩, -, hd⟩ := mem_callsAfter.mp hd
        dsimp only at hd
        split at hd
        · split at hd
          · exact stateName_attachRequestFirst hd
          · cases hd
        · cases hd
      · obtain ⟨⟨f, m⟩, -, hd⟩ := mem_callsAfter.mp hd
        dsimp only at hd
        split at hd
        · split at hd
          · exact stateName_securityModeCompleteFirst hd
          · cases hd
        · cases hd
      · split at hd
        · cases hd
        obtain ⟨⟨f, k⟩, -, hd⟩ := mem_callsAfter.mp hd
        dsimp only at hd
        split at hd
        · split at hd
          · obtain ⟨g, -, hd⟩ := mem_callsAfter.mp hd
            exact stateName_attachRequestFirst hd
          · cases hd
        · cases hd
        · cases hd
      · cases hd
      · cases hd
    · cases hd
  | _ => cases hd

theorem stateName_secMsgCase {p : UInt8} {buf : Mem} {size : UInt64} :
    Post (c.secMsgCase P p buf size) fun r => r.1.stateName = c.stateName := by
  refine .bind_of_eq ?_
  rintro ⟨d, m⟩ hd
  have hstate : d.stateName = c.stateName := by
    obtain ⟨parser, rfl⟩ := parser_of_receiveSecMsg hd
    rfl
  dsimp only
  split
  · exact .ok hstate
  · split <;> exact .ok hstate

/-- The protected handlers call `emm_sendESM` in the state in which they are, or after they have entered
EMM_Registered. -/
theorem sendESM_protectedMsgSends {p : UInt8} {buf : Mem} {size : UInt64} (hc : c.stateName.sendESM = true)
    (hd : d ∈ c.protectedMsgSends P p buf size) : d.stateName.sendESM = true := by
  unfold protectedMsgSends at hd
  split at hd
  · cases hd
  obtain ⟨⟨f, k⟩, hk, hd⟩ := mem_callsAfter.mp hd
  have hf : f.stateName = c.stateName := stateName_secMsgCase _ hk
  dsimp only at hd
  split at hd
  · cases hd
  · rw [stateName_esmProcessMsgSends hd, hf]
    exact hc
  · split at hd
    · rw [stateName_esmProcessMsgSends hd]
      rfl
    · cases hd

/-- `emm_sendESM` is only called in states that have the operation. -/
theorem sendESM_of_mem_sendESMCalls (hd : d ∈ c.sendESMCalls P e) : d.stateName.sendESM = true := by
  rcases List.mem_append.mp hd with hd | hd
  · obtain ⟨f, hf, hd⟩ := List.mem_flatMap.mp hd
    have hstate : d.stateName = f.stateName := by
      unfold emmProcessFirstESMmsgSends at hd
      split at hd
      · cases hd
      · exact stateName_esmProcessMsgSends hd
    rw [hstate, stateName_firstESMCalls hf]
    rfl
  · split at hd
    · split at hd
      · cases hd
      split at hd
      · split at hd
        · rename_i hs
          exact sendESM_protectedMsgSends (by rw [show (c.emmStopTimer _).stateName = c.stateName from rfl, hs]; rfl) hd
        · rename_i hs
          exact sendESM_protectedMsgSends (by rw [show (c.emmStopTimer _).stateName = c.stateName from rfl, hs]; rfl) hd
        · cases hd
      · cases hd
    · cases hd

/-- A response of the serving gateway gives control back to `ePSsession_sendActivateDefaultEPSBearerCtxtReq`, and
its message fits. -/
def AnswersActivation (c : EMMCtx) : Env × EMMEvent → Prop
  | (env, .s11 pkt) => ∃ d id msg, c.s11Deliver env pkt = .ok (d, some (some (.sendActivateDefault id))) ∧
      d.activateDefaultMsg id = .ok msg
  | _ => False

/-- `emm_attachAccept` is called in the state that the response finds. -/
theorem mem_attachAcceptCalls (P : Prims) (hd : d ∈ c.attachAcceptCalls e) :
    d.stateName = c.stateName ∧ c.AnswersActivation e := by
  obtain ⟨env, ev⟩ := e
  cases ev with
  | s11 pkt =>
    obtain ⟨⟨f, cb⟩, hdeliver, hd⟩ := mem_callsAfter.mp hd
    dsimp only at hd
    split at hd
    · rename_i id
      obtain ⟨msg, hmsg, hd⟩ := mem_callsAfter.mp hd
      rw [List.mem_singleton.mp hd]
      have hmoves := (moves_s11Deliver (P := P) (R := .any) pkt _ hdeliver).1
      exact ⟨congrArg EMMView.stateName hmoves.emm, f, id, msg, hdeliver, hmsg⟩
    · cases hd
  | _ => cases hd

theorem exists_attachAcceptCalls (h : c.AnswersActivation e) : ∃ d, d ∈ c.attachAcceptCalls e := by
  obtain ⟨env, ev⟩ := e
  cases ev with
  | s11 pkt =>
    obtain ⟨d, id, msg, hdeliver, hmsg⟩ := h
    refine ⟨d, mem_callsAfter.mpr ⟨_, hdeliver, ?_⟩⟩
    exact mem_callsAfter.mpr ⟨msg, hmsg, List.mem_singleton_self d⟩
  | _ => exact h.elim

/-! ## The result -/

/-- Every call of `emm_attachAccept` or `emm_sendESM` finds the operation in the table of the state. -/
def FindsHandlers (P : Prims) (c : EMMCtx) (e : Env × EMMEvent) : Prop :=
  (∀ d ∈ c.attachAcceptCalls e, d.stateName.attachAccept = true) ∧ ∀ d ∈ c.sendESMCalls P e, d.stateName.sendESM = true

/-- If `emm_attachAccept` does not find its operation, the event ends with a call through NULL. -/
theorem step_eq_nullCall (hd : d ∈ c.attachAcceptCalls e) (hstate : d.stateName.attachAccept = false) :
    c.step P e = .error .nullCall := by
  obtain ⟨env, ev⟩ := e
  cases ev with
  | s11 pkt =>
    obtain ⟨⟨f, cb⟩, hdeliver, hd⟩ := mem_callsAfter.mp hd
    dsimp only at hd
    split at hd
    · rename_i id
      obtain ⟨msg, hmsg, hd⟩ := mem_callsAfter.mp hd
      obtain rfl := List.mem_singleton.mp hd
      have hmissing : d.emmAttachAccept P env msg [id] = .error .nullCall := by
        unfold emmAttachAccept
        split
        · rename_i hs
          rw [hs] at hstate
          cases hstate
        · rfl
      show c.s11Accept P env pkt = _
      rw [s11Accept_eq, hdeliver]
      show d.sendActivateDefaultEPSBearerCtxtReq P env id = _
      rw [sendActivateDefaultEPSBearerCtxtReq_eq, hmsg, ok_bind, hmissing]
    · cases hd
  | _ => cases hd

end EMMCtx

end AaltoMME
