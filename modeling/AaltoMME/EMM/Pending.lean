import AaltoMME.EMM.Completion
import AaltoMME.EMM.Security.Quadruplets

/-!
# The ESM message of an Attach Request

`processAttach` appends the ESM message container of an Attach Request to a queue, and
`emm_processFirstESMmsg` takes the first element when the UE is authenticated.  Nothing else removes an element:
not a rejected attach, not a failed authentication, not `emm_stop`.  And an authentication that a Tracking Area
Update Request starts ends with `emm_processFirstESMmsg` too, although it stored nothing.

The container that should be processed is the one of the last Attach Request; it is kept beside the context.
-/

namespace AaltoMME

open Base NAS

variable {P : Prims} {env : Env} {c d : EMMCtx} {e : Env × EMMEvent} {es : List (Env × EMMEvent)}

theorem mem_callsAfter {α : Type} {x : Outcome α} {calls : α → List EMMCtx} :
    d ∈ callsAfter x calls ↔ ∃ a, x = .ok a ∧ d ∈ calls a := by
  unfold callsAfter
  cases x with
  | ok a => simp
  | error => simp

namespace EMMCtx

/-! ## Calls of `emm_processFirstESMmsg` -/

section Calls

variable (P : Prims) (env : Env) (c : EMMCtx)

/-- The call for an authenticated Attach Request. -/
def attachRequestFirst (msg : GenericNASMsg) (isAuth : Bool) : List EMMCtx :=
  callsAfter (c.getTAI env) fun c => callsAfter (c.processAttach msg) fun c =>
    match c.emmSelectAttachType with
    | none => []
    | some c =>
      if !isAuth then []
      else [{ c with nasUlCountForSC := nasGetLastCount c.parser .upLink }.emmChangeState .specificProcedureInitiated]

/-- The call of `emm_selectGateways`, which `s6a_UpdateLocation` calls back. -/
def s6aUpdateLocationFirst : List EMMCtx :=
  match env.hssLocation with
  | .failed => [{ c with sgwIP := some ⟨env.sgw, 2123⟩, pgwIP := some ⟨env.pgw, 2123⟩ }]
  | .noRow => []
  | .profile msisdn subs =>
    [{ c with msisdn, subs, sgwIP := some ⟨env.sgw, 2123⟩, pgwIP := some ⟨env.pgw, 2123⟩ }]

/-- The call for a Security Mode Complete. -/
def securityModeCompleteFirst (isAuth : Bool) : List EMMCtx :=
  let c := c.emmStopTimer .t3460
  let c := { c with sci := true, nasUlCountForSC := nasGetLastCount c.parser .upLink }
  let c := c.log (.securityModeComplete c.parser isAuth)
  (c.emmChangeState .specificProcedureInitiated).s6aUpdateLocationFirst env

/-- The calls for a security protected message. -/
def stateProcessSecMsgFirst (s : SecurityHeaderType) (p : UInt8) (buf : Mem) (size : UInt64) : List EMMCtx :=
  match c.stateName with
  | .deregistered =>
    callsAfter (c.derefEcm env) fun _ => callsAfter (c.receiveSecMsg P c.sci buf size) fun (c, m) =>
      match m with
      | some (msg, isAuth) =>
        if msg.emmMessageType = attachRequest then c.attachRequestFirst env msg isAuth else []
      | none => []
  | .commonProcedureInitiated =>
    callsAfter (c.receiveSecMsg P (c.sci || s == .integrityProtectedAndCipheredWithNewEPSSecurityContext) buf size)
      fun (c, m) =>
        match m with
        | some (msg, isAuth) =>
          if msg.emmMessageType = securityModeComplete then c.securityModeCompleteFirst env isAuth else []
        | none => []
  | .registered =>
    if !c.sci then []
    else callsAfter (c.secMsgCase P p buf size) fun (c, k) =>
      match k with
      | .emm msg isAuth =>
        if msg.emmMessageType = attachRequest then
          callsAfter (c.esmErrorEMM env) fun c => c.attachRequestFirst env msg isAuth
        else []
      | .drop | .esm _ => []
  | .specificProcedureInitiated | .deregisteredInitiated => []

/-- The contexts in which an event calls `emm_processFirstESMmsg`.  No handler of a plain message does. -/
def firstESMCalls : Env × EMMEvent → List EMMCtx
  | (env, .uplink buf size) =>
    match nasGetHeader buf size.toUInt32 with
    | none => []
    | some (s, p) =>
      if s ≠ .plainNAS && s.isProtected then
        (c.emmStopTimer .tMobileReachable).stateProcessSecMsgFirst P env s p buf size
      else []
  | _ => []

/-- The ESM message container, if the event is an Attach Request. -/
def newContainer (e : Env × EMMEvent) : Option (List UInt8) :=
  (c.takes P e).bind fun m => if m.1.emmMessageType = attachRequest then some (attachContainer m.1) else none

end Calls

theorem newContainer_of_takes {m : GenericNASMsg × Bool} (hm : m ∈ c.takes P e)
    (htype : m.1.emmMessageType = attachRequest) : c.newContainer P e = some (attachContainer m.1) := by
  have htakes : c.takes P e = some m := hm
  simp [newContainer, htakes, htype]

/-- The queue that a call finds: with the container of this event, or in a common procedure as it was. -/
def FirstFinds (P : Prims) (c : EMMCtx) (e : Env × EMMEvent) (d : EMMCtx) : Prop :=
  (∃ raw ∈ c.newContainer P e, d.pendingESMmsg = c.pendingESMmsg ++ [raw]) ∨
    c.stateName = .commonProcedureInitiated ∧ d.pendingESMmsg = c.pendingESMmsg

theorem finds_attachRequestFirst {c₀ : EMMCtx} {m : GenericNASMsg × Bool} (hm : m ∈ c₀.takes P e)
    (htype : m.1.emmMessageType = attachRequest) (hc : Unread c₀ c) (hd : d ∈ c.attachRequestFirst env m.1 m.2) :
    FirstFinds P c₀ e d := by
  obtain ⟨c₁, h₁, hd⟩ := mem_callsAfter.mp hd
  obtain ⟨c₂, h₂, hd⟩ := mem_callsAfter.mp hd
  have hu : Unread c₀ c₁ := hc.reads (reads_getTAI c₁ h₁)
  have hread := attachRead_processAttach hm htype hu.pending hu.imsi c₂ h₂
  refine .inl ⟨_, newContainer_of_takes hm htype, ?_⟩
  split at hd
  · cases hd
  · rename_i c₃ h₃
    have hselect := congrArg EMMView.pendingESMmsg (reads_emmSelectAttachType h₃).calm.emm
    split at hd
    · cases hd
    · rw [List.mem_singleton.mp hd]
      exact hselect.trans hread.pending

theorem pendingESMmsg_securityModeCompleteFirst {isAuth : Bool} (hd : d ∈ c.securityModeCompleteFirst env isAuth) :
    d.pendingESMmsg = c.pendingESMmsg := by
  unfold securityModeCompleteFirst s6aUpdateLocationFirst at hd
  split at hd
  · rw [List.mem_singleton.mp hd]
    rfl
  · cases hd
  · rw [List.mem_singleton.mp hd]
    rfl

theorem finds_stateProcessSecMsgFirst {c₀ : EMMCtx} {s : SecurityHeaderType} {p : UInt8} {buf : Mem} {size : UInt64}
    (h : Arrives c₀ e c s p buf size) (hd : d ∈ c.stateProcessSecMsgFirst P env s p buf size) : FirstFinds P c₀ e d := by
  have hauth : c₀.authenticates s = c.authenticates s := by rw [authenticates, authenticates, h.found.stateName, h.found.sci]
  have hreceived : ∀ {f m}, c.receiveSecMsg P (c.authenticates s) buf size = .ok (f, some m) →
      c₀.leavesToESM p m.1 = false → Received P .any c₀ e f m := by
    intro f m hrecv
    rw [← hauth] at hrecv
    exact h.received hrecv
  have hst := h.found.stateName
  unfold stateProcessSecMsgFirst at hd
  unfold authenticates at hreceived
  split at hd
  · rename_i hs
    rw [hs] at hreceived
    obtain ⟨_, -, hd⟩ := mem_callsAfter.mp hd
    obtain ⟨⟨f, m⟩, hrecv, hd⟩ := mem_callsAfter.mp hd
    rcases m with _ | m
    · cases hd
    · dsimp only at hd
      split at hd
      · have hr := hreceived hrecv (by simp [leavesToESM, ← hst, hs])
        exact finds_attachRequestFirst hr.takes ‹_› hr.found.unread hd
      · cases hd
  · rename_i hs
    obtain ⟨⟨f, m⟩, hrecv, hd⟩ := mem_callsAfter.mp hd
    rcases m with _ | m
    · cases hd
    · dsimp only at hd
      split at hd
      · refine .inr ⟨hst.symm.trans hs, (pendingESMmsg_securityModeCompleteFirst hd).trans ?_⟩
        exact (h.found.receive hrecv).unread.pending
      · cases hd
  · rename_i hs
    rw [hs] at hreceived
    split at hd
    · cases hd
    obtain ⟨⟨f, k⟩, hk, hd⟩ := mem_callsAfter.mp hd
    obtain ⟨⟨g, m⟩, hrecv, hm⟩ := bind_eq_ok.mp hk
    rcases m with _ | m
    · cases hm
      cases hd
    dsimp only at hm
    split at hm
    · cases hm
      cases hd
    · rename_i hesm
      cases hm
      dsimp only at hd
      split at hd
      · rename_i htype
        obtain ⟨b, hb, hd⟩ := mem_callsAfter.mp hd
        have hr := hreceived hrecv (by simpa [leavesToESM, ← hst, hs] using hesm)
        have hcleared : Cleared P .any f b := cleared_esmErrorEMM b hb
        exact finds_attachRequestFirst hr.takes htype (hcleared.unread hr.found.unread) hd
      · cases hd
  · cases hd
  · cases hd

theorem finds_firstESMCalls (hd : d ∈ c.firstESMCalls P e) : FirstFinds P c e d := by
  obtain ⟨env, ev⟩ := e
  cases ev with
  | uplink buf size =>
    unfold firstESMCalls at hd
    dsimp only at hd
    split at hd
    · cases hd
    · rename_i s p hhead
      split at hd
      · rename_i hs
        obtain ⟨-, hprot⟩ := Bool.and_eq_true_iff.mp hs
        exact finds_stateProcessSecMsgFirst ⟨rfl, hhead, hprot, Found.refl.emmStopTimer _, rfl⟩ hd
      · cases hd
  | _ => cases hd

end EMMCtx

/-! ## Runs -/

/-- A context and the container of the last Attach Request that it received. -/
structure Attaching where
  ctx : EMMCtx
  last : Option (List UInt8)

/-- The Security Mode Complete of the sample UE, with the COUNT 0. -/
def Sample.securityModeComplete : EMMEvent := uplink [0x47, 0x2d, 0xfd, 0x7f, 0x9a, 0x00, 0x07, 0x5e]

/-- An Attach Request of a type that is rejected, with another PDN Connectivity Request. -/
def Sample.unsupportedAttachRequest : EMMEvent :=
  uplink [0x07, 0x41, 0x74, 0x08, 0x29, 0x80, 0x39, 0x00, 0x00, 0x00, 0x00, 0x10, 0x02, 0xe0, 0xe0, 0x00,
    0x04, 0x02, 0x05, 0xd0, 0x11]

/-- A Tracking Area Update Request with a wrong message authentication code. -/
def Sample.forgedTAURequest : EMMEvent :=
  uplink [0x17, 1, 2, 3, 4, 2, 0x07, 0x48, 0x70, 0x0b, 0xf6, 0x02, 0xf8, 0x39, 0x80, 0x01, 0x01, 0x00, 0x00, 0x00,
    0x05]

namespace Attaching

/-- The container of the last Attach Request, this event included. -/
def lastAfter (P : Prims) (s : Attaching) (e : Env × EMMEvent) : Option (List UInt8) :=
  (s.ctx.newContainer P e).or s.last

def step (P : Prims) (s : Attaching) (e : Env × EMMEvent) : Outcome Attaching := do
  let c ← s.ctx.step P e
  pure ⟨c, s.lastAfter P e⟩

/-- An Attach Request comes only if no container of another one still waits, and an unauthenticated Tracking Area
Update Request of a registered UE only if a container waits. -/
def Orderly (P : Prims) (s : Attaching) (e : Env × EMMEvent) : Prop :=
  (∀ raw ∈ s.ctx.newContainer P e, ∀ old ∈ s.ctx.pendingESMmsg, old = raw) ∧
    (s.ctx.UpdatesUnauthenticated P e → s.ctx.pendingESMmsg ≠ [])

instance (P : Prims) (s : Attaching) (e : Env × EMMEvent) : Decidable (s.Orderly P e) :=
  inferInstanceAs (Decidable ((∀ raw ∈ s.ctx.newContainer P e, ∀ old ∈ s.ctx.pendingESMmsg, old = raw) ∧
    (s.ctx.UpdatesUnauthenticated P e → s.ctx.pendingESMmsg ≠ [])))

/-- What waits is the container of the last Attach Request, and in a common procedure something waits. -/
structure Waits (last : Option (List UInt8)) (v : EMMView) : Prop where
  last : ∀ raw ∈ v.pendingESMmsg, last = some raw
  common : v.stateName = .commonProcedureInitiated → v.pendingESMmsg ≠ []

variable {s t : Attaching}

theorem Waits.change {v w : EMMView} (hq : s.Orderly P e) (h : Waits (s.lastAfter P e) v)
    (hw : EMMChange P s.ctx e v w) : Waits (s.lastAfter P e) w := by
  cases hw with
  | common hwhy =>
    refine ⟨h.last, fun _ => ?_⟩
    rcases hwhy with hne | ⟨htau, hsame⟩ | hs
    · exact hne
    · rw [hsame]
      exact hq.2 htau
    · exact h.common hs
  | @push m hm htype hsame =>
    refine ⟨fun raw hraw => ?_, fun _ => List.append_ne_nil_of_right_ne_nil _ (List.cons_ne_nil _ _)⟩
    rcases List.mem_append.mp hraw with hraw | hraw
    · exact h.last raw hraw
    · rw [List.mem_singleton.mp hraw, lastAfter, EMMCtx.newContainer_of_takes hm htype]
      rfl
  | pop hs =>
    refine ⟨fun raw hraw => h.last raw (List.mem_of_mem_tail hraw), fun hc => ?_⟩
    rw [hs] at hc
    cases hc
  | deregister => exact ⟨h.last, nofun⟩
  | procedure => exact ⟨h.last, nofun⟩
  | register => exact ⟨h.last, nofun⟩
  | _ => exact ⟨h.last, h.common⟩

/-- What waits before an event is still the container of the last Attach Request if the event is one. -/
theorem Waits.lastAfter (hq : s.Orderly P e) (h : Waits s.last s.ctx.emmView) :
    Waits (s.lastAfter P e) s.ctx.emmView := by
  refine ⟨fun raw hraw => ?_, h.common⟩
  unfold Attaching.lastAfter
  cases hnew : s.ctx.newContainer P e with
  | none => exact h.last raw hraw
  | some new => rw [hq.1 new hnew raw hraw, Option.some_or]

theorem waits_of_run {self ecm : Nat} {s11 : S11Stack} (h : Run (step P) (Orderly P) ⟨emmInit self ecm s11, none⟩ es s) :
    Waits s.last s.ctx.emmView := by
  refine h.invariant (I := fun s => Waits s.last s.ctx.emmView) ?_ ⟨nofun, nofun⟩
  intro t e u ht hq hstep
  obtain ⟨d, hd, hu⟩ := bind_eq_ok.mp hstep
  cases hu
  exact (EMMCtx.changes_step t.ctx e d hd).invariant (fun v w hv hw => hv.change hq hw) (ht.lastAfter hq)

/-- In every run from `emm_init` that meets the condition, each call of `emm_processFirstESMmsg` in the next event
that meets it finds a message, which is the container of the last Attach Request. -/
theorem processes_last_container {self ecm : Nat} {s11 : S11Stack}
    (h : Run (step P) (Orderly P) ⟨emmInit self ecm s11, none⟩ es s) (hq : s.Orderly P e) :
    ∀ d ∈ s.ctx.firstESMCalls P e, ∃ raw, d.pendingESMmsg.head? = some raw ∧ s.lastAfter P e = some raw := by
  intro d hd
  have hwaits := (waits_of_run h).lastAfter hq
  obtain ⟨raw, hhead, hmem⟩ : ∃ raw, d.pendingESMmsg.head? = some raw ∧
      (raw ∈ s.ctx.pendingESMmsg ∨ s.ctx.newContainer P e = some raw) := by
    rcases EMMCtx.finds_firstESMCalls hd with ⟨raw, hnew, hpending⟩ | ⟨hs, hpending⟩
    · rw [hpending]
      cases hqueue : s.ctx.pendingESMmsg with
      | nil => exact ⟨raw, rfl, .inr hnew⟩
      | cons old rest => exact ⟨old, rfl, .inl List.mem_cons_self⟩
    · rw [hpending]
      obtain ⟨old, rest, hqueue⟩ := List.exists_cons_of_ne_nil (hwaits.common hs)
      have hqueue' : s.ctx.pendingESMmsg = old :: rest := hqueue
      exact ⟨old, by rw [hqueue']; rfl, .inl (by rw [hqueue']; exact List.mem_cons_self)⟩
  refine ⟨raw, hhead, ?_⟩
  rcases hmem with hold | hnew
  · exact hwaits.last raw hold
  · rw [lastAfter, hnew, Option.some_or]

/-- The sample UE: its Security Mode Complete is followed by the PDN Connectivity Request of its Attach Request. -/
theorem processes_last_container_attach :
    ∃ s, Run (step Prims.zeroKasme) (Orderly Prims.zeroKasme) ⟨Sample.init, none⟩ (Sample.authentication.take 2) s ∧
      s.last = some [0x02, 0x01, 0xd0, 0x11] ∧
      ∃ d ∈ s.ctx.firstESMCalls Prims.zeroKasme (Sample.env .manyRows, Sample.securityModeComplete),
        ∃ raw, d.pendingESMmsg.head? = some raw ∧
          s.lastAfter Prims.zeroKasme (Sample.env .manyRows, Sample.securityModeComplete) = some raw := by
  refine Run.exists_of_exec (fun s => s.last = some [0x02, 0x01, 0xd0, 0x11] ∧
    s.Orderly Prims.zeroKasme (Sample.env .manyRows, Sample.securityModeComplete) ∧
    s.ctx.firstESMCalls Prims.zeroKasme (Sample.env .manyRows, Sample.securityModeComplete) ≠ []) (by decide +kernel) ?_
  rintro s hrun ⟨hlast, hq, hcall⟩
  obtain ⟨d, hd⟩ := List.exists_mem_of_ne_nil _ hcall
  exact ⟨hlast, d, hd, processes_last_container hrun hq d hd⟩

/-- After an attach whose type was rejected, the next one ends with the PDN Connectivity Request of the rejected
one.  And an authentication of a registered UE that a forged Tracking Area Update Request started ends with an
empty queue. -/
theorem processes_other_container :
    (∃ s, Run (step Prims.zeroKasme) (fun _ _ => True) ⟨Sample.init, none⟩
        ((Sample.env .noRows, Sample.unsupportedAttachRequest) :: Sample.authentication.take 2) s ∧
      s.last = some [0x02, 0x01, 0xd0, 0x11] ∧
      ∃ d ∈ s.ctx.firstESMCalls Prims.zeroKasme (Sample.env .manyRows, Sample.securityModeComplete),
        d.pendingESMmsg.head? = some [0x02, 0x05, 0xd0, 0x11]) ∧
    ∃ s, Run (step Prims.zeroKasme) (fun _ _ => True) ⟨Sample.init, none⟩
        (Sample.authentication ++ Sample.activation ++
          [(Sample.env (.vector (Sample.quadruplet (List.replicate 32 0))), Sample.forgedTAURequest),
            (Sample.env .manyRows, Sample.uplink [0x07, 0x53, 0x08, 1, 2, 3, 4, 5, 6, 7, 8])]) s ∧
      ∃ d ∈ s.ctx.firstESMCalls Prims.zeroKasme (Sample.env .manyRows, Sample.securityModeComplete),
        d.pendingESMmsg = [] :=
  ⟨Run.exists_of_exec _ (by decide +kernel) fun _ _ => id, Run.exists_of_exec _ (by decide +kernel) fun _ _ => id⟩

end Attaching

end AaltoMME
