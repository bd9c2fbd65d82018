import AaltoMME.MME.Sessions

/-!
# The handlers of S1AP messages with labelled failures

`s1ap_findIe` and `s1ap_getIe` return NULL for an information element that the message does not have, and
`mme_lookupECM` for a session that is not registered.  Here the handlers of S1AP messages are written once more,
in the order of the statements of the source, so that dereferencing one of these pointers is a failure of its own.
The labels apart they are the handlers of the model (`agrees_s1apStep`).
-/

namespace AaltoMME

open Base NAS

/-! ## Labelled failures -/

/-- Why a handler fails: it dereferences an information element or an ECM session that was not found, or there is
another fault. -/
inductive S1Fault
  | absentIE
  | absentECM
  | other (fault : Fault)
  deriving DecidableEq, Repr

/-- The result of a handler. -/
abbrev S1Outcome (α : Type) : Type := Except S1Fault α

/-- The dereferences of what was not found. -/
@[simp] def S1Fault.IsAbsent : S1Fault → Prop
  | .absentIE | .absentECM => True
  | .other _ => False

section Labels

variable {α β : Type} {o : Outcome α} {a : α} {p : Option α}

/-- What a handler calls does not look for information elements. -/
def unlabelled : Outcome α → S1Outcome α
  | .ok a => .ok a
  | .error f => .error (.other f)

@[simp] theorem unlabelled_ok : unlabelled (.ok a) = .ok a := rfl

@[simp] theorem unlabelled_error {f : Fault} : (unlabelled (.error f) : S1Outcome α) = .error (.other f) := rfl

@[simp] theorem unlabelled_eq_ok : unlabelled o = .ok a ↔ o = .ok a := by
  cases o <;> simp [unlabelled]

@[simp] theorem avoids_unlabelled (o : Outcome α) : Avoids S1Fault.IsAbsent (unlabelled o) := by
  cases o <;> simp [unlabelled]

/-- An information element, dereferenced. -/
def found : Option α → S1Outcome α
  | none => .error .absentIE
  | some a => .ok a

@[simp] theorem found_some : found (some a) = .ok a := rfl

@[simp] theorem found_none : (found none : S1Outcome α) = .error .absentIE := rfl

@[simp] theorem found_eq_ok : found p = .ok a ↔ p = some a := by
  cases p <;> simp [found]

@[simp] theorem avoids_found : Avoids S1Fault.IsAbsent (found p) ↔ p.isSome = true := by
  cases p <;> simp [found]

theorem avoids_unlabelled_bind {f : α → S1Outcome β} :
    Avoids S1Fault.IsAbsent (unlabelled o >>= f) ↔ ∀ a, o = .ok a → Avoids S1Fault.IsAbsent (f a) := by
  simp [avoids_bind]

theorem avoids_found_bind {f : α → S1Outcome β} :
    Avoids S1Fault.IsAbsent (found p >>= f) ↔ ∃ a, p = some a ∧ Avoids S1Fault.IsAbsent (f a) := by
  cases p <;> simp

/-- The labels are all that tells the two computations apart, and the failures that come first. -/
def Agrees (l : S1Outcome α) (o : Outcome α) : Prop := ∀ a, l = .ok a ↔ o = .ok a

theorem Agrees.rfl_ok : Agrees (.ok a) (.ok a) := fun _ => by simp

theorem Agrees.fails {e : S1Fault} {f : Fault} : Agrees (.error e : S1Outcome α) (.error f) := fun _ => by simp

theorem agrees_unlabelled (o : Outcome α) : Agrees (unlabelled o) o := fun _ => unlabelled_eq_ok

theorem agrees_found (p : Option α) : Agrees (found p) (ie p) := fun _ => found_eq_ok.trans ie_eq_ok.symm

theorem Agrees.bind {l : S1Outcome α} {f : α → S1Outcome β} {g : α → Outcome β} (h : Agrees l o)
    (hf : ∀ a, Agrees (f a) (g a)) : Agrees (l >>= f) (o >>= g) := by
  intro b
  rw [bind_eq_ok, bind_eq_ok]
  exact exists_congr fun a => and_congr (h a) (hf a b)

theorem Agrees.ite {c : Prop} [Decidable c] {l l' : S1Outcome α} {o o' : Outcome α} (h : c → Agrees l o)
    (h' : ¬ c → Agrees l' o') : Agrees (if c then l else l') (if c then o else o') := by
  by_cases hc : c
  · rw [if_pos hc, if_pos hc]
    exact h hc
  · rw [if_neg hc, if_neg hc]
    exact h' hc

end Labels

namespace MME

namespace Labelled

variable (P : Prims) (x : Env) (w : MME)

/-! ## What is called in the EMM context -/

/-- Run an operation of the EMM context behind a pointer. -/
def onEMM (p : Option Nat) (f : Env → EMMCtx → S1Outcome EMMCtx) : S1Outcome MME :=
  match p with
  | none => .error (.other .nullDeref)
  | some e => do
    let c ← unlabelled (deref w.emms (some e))
    let d ← f (w.env x) { c with s11 := w.s11 }
    unlabelled ({ w.setEMM e d with s11 := d.s11 }.register (d.trace.take (d.trace.length - c.trace.length)))

/-- `emm_modifyE_RABList`. -/
def emmModifyERABList (env : Env) (c : EMMCtx) (list : Option (List ERABItem)) (cb : Option S11Cb) :
    S1Outcome EMMCtx :=
  match c.esmGetSessions env with
  | [] => unlabelled (c.runOptS11Cb P env cb)
  | id :: _ => do
    let s ← unlabelled (c.session id)
    let items ← found list
    unlabelled (c.ePSsessionModifyERABList env s (some items) cb)

/-- `sendUEContextReleaseCommand`. -/
def sendUEContextReleaseCommand (env : Env) (c : EMMCtx) (ecm : Nat) : S1Outcome EMMCtx := do
  let e ← unlabelled (deref env.ecms (some ecm))
  if e.causeRelease then .ok (c.log (.ueContextReleaseStored ecm)) else .error .absentIE

/-- `emm_UEContextReleaseReq` with the callback `sendUEContextReleaseCommand`. -/
def emmUEContextReleaseReq (env : Env) (c : EMMCtx) (ecm : Nat) : S1Outcome EMMCtx :=
  let c := { c with s1BearersActive := false }
  match c.esmGetSessions env with
  | [] => sendUEContextReleaseCommand env c ecm
  | id :: _ => do
    let s ← unlabelled (c.session id)
    unlabelled (c.s11ReleaseAccessBearers env s.s11 (some (.sendUEContextReleaseCommand ecm)))

/-! ## ECM sessions -/

/-- The lookups of `ecm_processMsg`.  The NAS PDU is read only if there is no S-TMSI. -/
def findEMM (msg : S1APMsg) : S1Outcome (Option Nat) :=
  match msg.sTMSI with
  | some mtmsi => unlabelled (w.mmeLookupEMMCtxt mtmsi)
  | none => do
    let (buf, size) ← found msg.nasPdu
    unlabelled (w.findEMM x none buf size)

/-- `ecm_processMsg` of ECM_Idle. -/
def idleProcessMsg (id : Nat) (s : ECMSession) (msg : S1APMsg) (rSid : Nat) : S1Outcome MME :=
  if msg.procedureCode = .initialUEMessage ∧ msg.choice = .initiatingMessage then do
    let eNBUEId ← found msg.eNBUEId
    let (sn, tAC) ← found msg.tAI
    let s := { s with
      eNBUEId, sn, tAC
      rSid := if rSid ≠ 0 then rSid else s.rSid
      rSidValid := rSid ≠ 0 || s.rSidValid }
    let p ← findEMM x w msg
    let (w, e) ← unlabelled (w.bindEMM x id s p)
    let (buf, size) ← found msg.nasPdu
    unlabelled ((w.setECM id { s with emm := some e, stateName := .connected }).onEMM x (some e) fun env c =>
      c.emmProcessMsg P env buf size)
  else .ok w

/-- `ecmSession_init`. -/
def ecmSessionInit (a : Nat) (msg : S1APMsg) (rSid : Nat) : S1Outcome MME := do
  let (w, mmeUEId) := w.mmeNewLocalUEid
  let id := w.fresh
  let s : ECMSession := ⟨a, none, .idle, false, rSid, mmeUEId, 0, [0, 0, 0], [0, 0], false⟩
  let w ← idleProcessMsg P x ({ w with fresh := id + 1 }.setECM id s) id s msg rSid
  let w ← unlabelled (w.s1AssocRegisterECMSession a id)
  unlabelled (w.mmeRegisterECM id)

/-- Whether both S1AP identifiers of a message are those of the session; the second one is read only if the first
one is. -/
def idsMatch (s : ECMSession) (msg : S1APMsg) : S1Outcome Bool := do
  let eNBUEId ← found msg.eNBUEId
  if eNBUEId ≠ s.eNBUEId then .ok false
  else do
    let mmeUEId ← found msg.mmeUEId
    .ok (mmeUEId == s.mmeUEId)

/-- The procedures of `processMsg` of ECM_Connected. -/
def connectedProcedure (id : Nat) (s : ECMSession) (msg : S1APMsg) : S1Outcome MME :=
  match msg.procedureCode, msg.choice with
  | .uEContextRelease, .successfulOutcome => unlabelled do
    let w ← (w.setECM id { s with causeRelease := false }).s1AssocDeregisterECMSession s.assoc id
    w.mmeDeregisterECM id
  | .initialContextSetup, .successfulOutcome => do
    if ← idsMatch s msg then
      onEMM x w s.emm fun env c => emmModifyERABList P env c msg.eRABs none
    else .ok w
  | .uplinkNASTransport, .initiatingMessage => do
    if ← idsMatch s msg then
      let (buf, size) ← found msg.nasPdu
      unlabelled (w.onEMM x s.emm fun env c => c.emmProcessMsg P env buf size)
    else .ok w
  | .uEContextReleaseRequest, .initiatingMessage =>
    onEMM x (w.setECM id { s with causeRelease := msg.cause }) s.emm fun env c => emmUEContextReleaseReq env c id
  | _, _ => .ok w

/-- `processMsg` of ECM_Connected. -/
def connectedProcessMsg (id : Nat) (s : ECMSession) (msg : S1APMsg) (rSid : Nat) : S1Outcome MME :=
  if rSid ≠ s.rSid ∧ s.rSidValid then .ok w
  else
    let s := { s with rSid, rSidValid := true }
    connectedProcedure P x (w.setECM id s) id s msg

/-- `ecmSession_processMsg`. -/
def ecmSessionProcessMsg (id : Nat) (msg : S1APMsg) (rSid : Nat) : S1Outcome MME := do
  let s ← unlabelled (deref w.ecms (some id))
  match s.stateName with
  | .idle => idleProcessMsg P x w id s msg rSid
  | .connected => connectedProcessMsg P x w id s msg rSid

/-- `ecmSession_pathSwitchReq`, for what `mme_lookupECM` found. -/
def ecmSessionPathSwitchReq (p : Option Nat) (a : Nat) (msg : S1APMsg) (rSid : Nat) : S1Outcome MME :=
  match p with
  | none => .error .absentECM
  | some id => do
    let s ← unlabelled (deref w.ecms (some id))
    let _ ← unlabelled (deref w.emms s.emm)
    let w ← unlabelled (w.s1AssocDeregisterECMSession s.assoc id)
    let eNBUEId ← found msg.eNBUEId
    let s := { s with assoc := a, rSid, eNBUEId }
    let w ← unlabelled ((w.setECM id s).s1AssocRegisterECMSession a id)
    let (sn, tAC) ← found msg.tAI
    if !msg.eCGI then .error .absentIE
    else
      onEMM x (w.setECM id { s with sn, tAC }) s.emm fun env c =>
        emmModifyERABList P env c msg.eRABs (some (.sendPathSwitchReqAck id))

/-! ## Associations -/

/-- `process_reset`.  The sessions of a partial reset are looked up and checked one by one. -/
def processReset (a : Nat) (s : S1Assoc) (msg : S1APMsg) : S1Outcome MME := do
  match ← found msg.resetType with
  | .s1Interface => unlabelled do
    let w ← (x.order (s.ecmSessions.map (·.value))).foldlM (fun w id => w.s1AssocResetECM x id) w
    pure (w.setAssoc a { s with ecmSessions := [] })
  | .partOfS1Interface items => unlabelled (items.foldlM (fun w item => w.resetItem x a item) w)

def pathSwitchRequest (a : Nat) (msg : S1APMsg) (rSid : Nat) : S1Outcome MME := do
  let i ← found msg.sourceMMEUEId
  let p ← unlabelled (w.mmeLookupECM i)
  ecmSessionPathSwitchReq P x w p a msg rSid

def ueAssociated (a : Nat) (msg : S1APMsg) (rSid : Nat) : S1Outcome MME := do
  let eNBUEId ← found msg.eNBUEId
  match ← unlabelled (w.s1AssocGetECMSession a eNBUEId) with
  | none => .ok w
  | some id => do
    let mmeUEId ← found msg.mmeUEId
    let k ← unlabelled (w.mmeUEIdKey id)
    if mmeUEId ≠ k then .ok w else ecmSessionProcessMsg P x w id msg rSid

/-- `processMsg` of S1_Active. -/
def activeProcessMsg (a : Nat) (s : S1Assoc) (msg : S1APMsg) (rSid : Nat) : S1Outcome MME :=
  if rSid = s.nonueRsid then
    match msg.procedureCode, msg.choice with
    | .reset, _ => processReset x w a s msg
    | .initialUEMessage, .initiatingMessage => ecmSessionInit P x w a msg rSid
    | .pathSwitchRequest, .initiatingMessage => pathSwitchRequest P x w a msg rSid
    | _, _ => .ok w
  else
    match msg.procedureCode, msg.choice with
    | .initialUEMessage, .initiatingMessage => ecmSessionInit P x w a msg rSid
    | .pathSwitchRequest, .initiatingMessage => pathSwitchRequest P x w a msg rSid
    | _, _ => ueAssociated P x w a msg rSid

/-- `processMsg` of S1_NotConfigured: the global identifier is read before it is checked. -/
def notConfiguredProcessMsg (a : Nat) (s : S1Assoc) (msg : S1APMsg) (rSid : Nat) : S1Outcome MME :=
  let s := { s with nonueRsid := rSid }
  let w := w.setAssoc a s
  if msg.procedureCode ≠ .s1Setup ∧ msg.choice ≠ .initiatingMessage then .ok w
  else if !msg.globalENBId then .error .absentIE
  else
    match msg.supportedTAs with
    | none => .ok w
    | some false => unlabelled (w.s1AssocFree x a)
    | some true => .ok (w.setAssoc a { s with active := true })

/-- An S1AP message of an association. -/
def s1apStep (a : Nat) (msg : S1APMsg) (rSid : Nat) : S1Outcome MME := do
  let s ← unlabelled (deref w.assocs (some a))
  if s.active then activeProcessMsg P x w a s msg rSid else notConfiguredProcessMsg x w a s msg rSid

/-! ## The labels apart -/

section Agreement

variable {P x w} {msg : S1APMsg}

theorem agrees_onEMM {f : Env → EMMCtx → S1Outcome EMMCtx} {g : Env → EMMCtx → Outcome EMMCtx} (p : Option Nat)
    (h : ∀ env c, Agrees (f env c) (g env c)) : Agrees (onEMM x w p f) (w.onEMM x p g) := by
  cases p with
  | none => exact .fails
  | some e => exact (agrees_unlabelled _).bind fun c => (h _ _).bind fun d => agrees_unlabelled _

theorem agrees_emmModifyERABList (env : Env) (c : EMMCtx) (list : Option (List ERABItem)) (cb : Option S11Cb) :
    Agrees (emmModifyERABList P env c list cb) (c.emmModifyERABList P env list cb) := by
  unfold emmModifyERABList EMMCtx.emmModifyERABList
  rcases c.esmGetSessions env with _ | ⟨id, ids⟩
  · exact agrees_unlabelled _
  · refine (agrees_unlabelled _).bind fun s => ?_
    cases list with
    | none => exact fun d => by simp [EMMCtx.ePSsessionModifyERABList, bind_eq_ok]
    | some items => exact agrees_unlabelled _

theorem agrees_sendUEContextReleaseCommand (env : Env) (c : EMMCtx) (ecm : Nat) :
    Agrees (sendUEContextReleaseCommand env c ecm) (c.sendUEContextReleaseCommand env ecm) :=
  (agrees_unlabelled _).bind fun _ => Agrees.ite (fun _ => .rfl_ok) fun _ => .fails

theorem agrees_emmUEContextReleaseReq (env : Env) (c : EMMCtx) (ecm : Nat) :
    Agrees (emmUEContextReleaseReq env c ecm) (c.emmUEContextReleaseReq P env (.sendUEContextReleaseCommand ecm)) := by
  unfold emmUEContextReleaseReq EMMCtx.emmUEContextReleaseReq
  generalize ({ c with s1BearersActive := false } : EMMCtx) = d
  dsimp only
  rcases d.esmGetSessions env with _ | ⟨id, ids⟩
  · exact agrees_sendUEContextReleaseCommand env d ecm
  · exact (agrees_unlabelled _).bind fun s => agrees_unlabelled _

theorem findEMM_of_pdu {buf : Mem} {size : UInt64} (hpdu : msg.nasPdu = some (buf, size)) :
    findEMM x w msg = unlabelled (w.findEMM x msg.sTMSI buf size) := by
  unfold findEMM
  cases hstmsi : msg.sTMSI with
  | none => simp [hpdu]
  | some mtmsi => rfl

theorem idleProcessMsg_noPdu (id : Nat) (s : ECMSession) (rSid : Nat)
    (hmsg : msg.procedureCode = .initialUEMessage ∧ msg.choice = .initiatingMessage) (hpdu : msg.nasPdu = none)
    (v : MME) : idleProcessMsg P x w id s msg rSid ≠ .ok v := by
  simp [idleProcessMsg, hmsg, hpdu, bind_eq_ok]

theorem agrees_idleProcessMsg (id : Nat) (s : ECMSession) (rSid : Nat) :
    Agrees (idleProcessMsg P x w id s msg rSid) (w.idleProcessMsg P x id s msg rSid) := by
  by_cases hmsg : msg.procedureCode = .initialUEMessage ∧ msg.choice = .initiatingMessage
  · rcases hpdu : msg.nasPdu with _ | ⟨buf, size⟩
    · refine fun v => iff_of_false (idleProcessMsg_noPdu id s rSid hmsg hpdu v) ?_
      simp [MME.idleProcessMsg, hmsg, hpdu, ie, bind_eq_ok]
    · rw [idleProcessMsg, MME.idleProcessMsg, if_pos hmsg, if_pos hmsg, findEMM_of_pdu hpdu, hpdu]
      refine (agrees_found _).bind fun i => (agrees_found msg.tAI).bind fun tai => ?_
      exact (agrees_unlabelled _).bind fun p => (agrees_unlabelled _).bind fun r => agrees_unlabelled _
  · rw [idleProcessMsg, MME.idleProcessMsg, if_neg hmsg, if_neg hmsg]
    exact .rfl_ok

theorem agrees_ecmSessionInit (a : Nat) (rSid : Nat) :
    Agrees (ecmSessionInit P x w a msg rSid) (w.ecmSessionInit P x a msg rSid) :=
  (agrees_idleProcessMsg _ _ _).bind fun _ => (agrees_unlabelled _).bind fun _ => agrees_unlabelled _

/-- The identifiers are compared in the same way if there are both. -/
theorem agrees_idsMatch (s : ECMSession) {l : S1Outcome MME} {o : Outcome MME} (hmme : msg.mmeUEId.isSome = true)
    (h : Agrees l o) :
    Agrees (idsMatch s msg >>= fun b => if b then l else .ok w)
      (MME.idsMatch s msg >>= fun b => if b then o else .ok w) := by
  obtain ⟨m, hm⟩ := Option.isSome_iff_exists.mp hmme
  rcases hi : msg.eNBUEId with _ | i
  · simp only [idsMatch, MME.idsMatch, hi]
    exact .fails
  · by_cases hne : i = s.eNBUEId
    · simp only [idsMatch, MME.idsMatch, hi, hm, hne, ie, found_some, ok_bind, ne_eq, beq_self_eq_true]
      exact Agrees.ite (fun _ => h) fun _ => .rfl_ok
    · simp [idsMatch, MME.idsMatch, hi, hm, hne, ie]
      exact .rfl_ok

theorem agrees_connectedProcedure (id : Nat) (s : ECMSession) (hmme : msg.mmeUEId.isSome = true) :
    Agrees (connectedProcedure P x w id s msg) (w.connectedProcedure P x id s msg) := by
  unfold connectedProcedure MME.connectedProcedure
  generalize msg.procedureCode = code, msg.choice = choice
  split
  · exact agrees_unlabelled _
  · exact agrees_idsMatch s hmme (agrees_onEMM _ fun env c => agrees_emmModifyERABList env c _ _)
  · refine agrees_idsMatch s hmme ?_
    exact (agrees_found _).bind fun _ => agrees_unlabelled _
  · exact agrees_onEMM _ fun env c => agrees_emmUEContextReleaseReq env c id
  · try split
    all_goals first | exact .rfl_ok | simp_all

theorem agrees_ecmSessionProcessMsg (id rSid : Nat) (hmme : msg.mmeUEId.isSome = true) :
    Agrees (ecmSessionProcessMsg P x w id msg rSid) (w.ecmSessionProcessMsg P x id msg rSid) := by
  refine (agrees_unlabelled _).bind fun s => ?_
  cases s.stateName with
  | idle => exact agrees_idleProcessMsg id s rSid
  | connected => exact .ite (fun _ => .rfl_ok) fun _ => agrees_connectedProcedure id _ hmme

theorem agrees_ecmSessionPathSwitchReq (p : Option Nat) (a rSid : Nat) :
    Agrees (ecmSessionPathSwitchReq P x w p a msg rSid) (w.ecmSessionPathSwitchReq P x p a msg rSid) := by
  cases p with
  | none => exact .fails
  | some id =>
    refine (agrees_unlabelled _).bind fun s => (agrees_unlabelled _).bind fun _ => (agrees_unlabelled _).bind fun v => ?_
    refine (agrees_found _).bind fun i => (agrees_unlabelled _).bind fun v => (agrees_found msg.tAI).bind fun tai => ?_
    exact .ite (fun _ => .fails) fun _ => agrees_onEMM _ fun env c => agrees_emmModifyERABList env c _ _

theorem agrees_ueAssociated (a rSid : Nat) :
    Agrees (ueAssociated P x w a msg rSid) (w.ueAssociated P x a msg rSid) := by
  refine (agrees_found _).bind fun i => (agrees_unlabelled _).bind fun p => ?_
  cases p with
  | none => exact .rfl_ok
  | some id =>
    rcases hm : msg.mmeUEId with _ | m
    · exact .fails
    · refine (agrees_found _).bind fun m => (agrees_unlabelled _).bind fun k => ?_
      exact .ite (fun _ => .rfl_ok) fun _ => agrees_ecmSessionProcessMsg id rSid (by rw [hm]; rfl)

theorem agrees_pathSwitchRequest (a rSid : Nat) :
    Agrees (pathSwitchRequest P x w a msg rSid) (w.pathSwitchRequest P x a msg rSid) :=
  (agrees_found _).bind fun _ => (agrees_unlabelled _).bind fun p => agrees_ecmSessionPathSwitchReq p a rSid

theorem agrees_processReset (a : Nat) (s : S1Assoc) :
    Agrees (processReset x w a s msg) (w.processReset x a s msg) := by
  refine (agrees_found _).bind fun t => ?_
  cases t with
  | s1Interface => exact agrees_unlabelled _
  | partOfS1Interface items => exact agrees_unlabelled _

theorem agrees_activeProcessMsg (a : Nat) (s : S1Assoc) (rSid : Nat) :
    Agrees (activeProcessMsg P x w a s msg rSid) (w.activeProcessMsg P x a s msg rSid) := by
  refine Agrees.ite (fun _ => ?_) fun _ => ?_
  · generalize msg.procedureCode = code, msg.choice = choice
    split
    · exact agrees_processReset a s
    · exact agrees_ecmSessionInit a rSid
    · exact agrees_pathSwitchRequest a rSid
    · try split
      all_goals first | exact .rfl_ok | simp_all
  · generalize msg.procedureCode = code, msg.choice = choice
    split
    · exact agrees_ecmSessionInit a rSid
    · exact agrees_pathSwitchRequest a rSid
    · try split
      all_goals first | exact agrees_ueAssociated a rSid | simp_all

theorem agrees_notConfiguredProcessMsg (a : Nat) (s : S1Assoc) (rSid : Nat) :
    Agrees (notConfiguredProcessMsg x w a s msg rSid) (w.notConfiguredProcessMsg x a s msg rSid) := by
  refine .ite (fun _ => .rfl_ok) fun _ => .ite (fun _ => .fails) fun _ => ?_
  rcases msg.supportedTAs with _ | _ | _
  · exact .rfl_ok
  · exact agrees_unlabelled _
  · exact .rfl_ok

theorem agrees_s1apStep (a : Nat) (msg : S1APMsg) (rSid : Nat) :
    Agrees (s1apStep P x w a msg rSid) (w.step P (x, .s1ap a msg rSid)) :=
  (agrees_unlabelled _).bind fun s =>
    .ite (fun _ => agrees_activeProcessMsg a s rSid) fun _ => agrees_notConfiguredProcessMsg a s rSid

end Agreement

end Labelled

end MME

end AaltoMME
