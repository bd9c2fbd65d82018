import AaltoMME.EMM.Step
import AaltoMME.Base.PtrTable

/-!
# The state of the MME

The EMM contexts, ECM sessions and S1 associations that are allocated, and the tables of `MME.c` and
`S1Assoc.c` that lead to them.  Their keys are pointers into the objects themselves.  The operations of
an EMM context are run inside the MME by `onEMM`, which lends the context the S11 stack and, afterwards,
registers it under an M-TMSI that it was given.

Left out is what only paging reads, the associations by global eNB identifier, and what the associations
themselves send.
-/

namespace AaltoMME

open Base NAS

/-- `S1Assoc_t`: the state, the stream of the non UE associated signalling, and the ECM sessions by eNB
UE S1AP identifier. -/
structure S1Assoc where
  active : Bool
  nonueRsid : Nat
  ecmSessions : PtrTable UInt32

/-- `struct mme_t`, with what is allocated.  `fresh` is the identifier of the next object. -/
structure MME where
  emms : Nat → Option EMMCtx
  ecms : Nat → Option ECMSession
  assocs : Nat → Option S1Assoc
  emmSessions : PtrTable UInt32
  ecmSessionsByLocalID : PtrTable UInt32
  s1LocalIDs : List UInt32
  s11 : S11Stack
  fresh : Nat

/-- `g_int_hash`; GLib keeps the first two values for itself. -/
def gIntHash (k : UInt32) : UInt32 := if k < 2 then 2 else k

/-- `MAX_UE`. -/
def maxUE : Nat := 500000

namespace MME

/-- `mme_init`, with the restart counter of the S11 interface. -/
def init (restartCounter : UInt8) : MME where
  emms _ := none
  ecms _ := none
  assocs _ := none
  emmSessions := []
  ecmSessionsByLocalID := []
  s1LocalIDs := []
  s11 := ⟨0, 1, [], [], restartCounter, 0⟩
  fresh := 0

variable (w : MME)

/-! ## Objects -/

def setECM (id : Nat) (s : ECMSession) : MME := { w with ecms := Function.update w.ecms id (some s) }

def setEMM (e : Nat) (c : EMMCtx) : MME := { w with emms := Function.update w.emms e (some c) }

def setAssoc (a : Nat) (s : S1Assoc) : MME := { w with assocs := Function.update w.assocs a (some s) }

/-- `emm_getM_TMSI_p`, dereferenced. -/
def mtmsiKey (e : Nat) : Outcome UInt32 := do
  let c ← deref w.emms (some e)
  pure c.guti.mtmsi

/-- `ecmSession_getMMEUEID_p`, dereferenced. -/
def mmeUEIdKey (id : Nat) : Outcome UInt32 := do
  let s ← deref w.ecms (some id)
  pure s.mmeUEId

/-- `ecmSession_geteNBUEID_p`, dereferenced. -/
def eNBUEIdKey (id : Nat) : Outcome UInt32 := do
  let s ← deref w.ecms (some id)
  pure s.eNBUEId

/-! ## EMM contexts -/

/-- `emm_free`. -/
def emmFree (e : Nat) : Outcome MME := do
  let _ ← deref w.emms (some e)
  pure { w with emms := Function.update w.emms e none }

/-- `mme_registerEMMCtxt`: another context under the same M-TMSI is freed. -/
def mmeRegisterEMMCtxt (e : Nat) : Outcome MME := do
  let k ← w.mtmsiKey e
  let (t, old) ← w.emmSessions.insert gIntHash w.mtmsiKey k e e
  match old with
  | none => pure { w with emmSessions := t }
  | some o => emmFree { w with emmSessions := t } o

/-- `mme_lookupEMMCtxt`. -/
def mmeLookupEMMCtxt (mtmsi : UInt32) : Outcome (Option Nat) :=
  w.emmSessions.lookup gIntHash w.mtmsiKey mtmsi

/-- `mme_lookupEMMCtxt_byIMSI`. -/
def mmeLookupEMMCtxtByIMSI (order : HashOrder) (imsi : UInt64) : Outcome (Option Nat) :=
  (order (w.emmSessions.map (·.value))).findM? fun e => do
    let c ← deref w.emms (some e)
    pure (c.imsi == imsi)

/-- The environment of an event of a context. -/
def env (x : Env) : Env := { x with ecms := w.ecms, emms := w.emms }

/-- The registrations that an operation asked for, oldest first. -/
def register (acts : List Act) : Outcome MME :=
  acts.reverse.foldlM (fun w a =>
    match a with
    | .registerEMMCtxt e _ => w.mmeRegisterEMMCtxt e
    | _ => pure w) w

/-- Run an operation of the EMM context behind a pointer. -/
def onEMM (x : Env) (p : Option Nat) (f : Env → EMMCtx → Outcome EMMCtx) : Outcome MME :=
  match p with
  | none => .error .nullDeref
  | some e => do
    let c ← deref w.emms (some e)
    let d ← f (w.env x) { c with s11 := w.s11 }
    { w.setEMM e d with s11 := d.s11 }.register (d.trace.take (d.trace.length - c.trace.length))

variable {w}

theorem register_eq_ok {acts : List Act} (h : ∀ a ∈ acts, ∀ e m, a ≠ .registerEMMCtxt e m) :
    w.register acts = .ok w := by
  unfold register
  have hrev : ∀ a ∈ acts.reverse, ∀ e m, a ≠ Act.registerEMMCtxt e m := by simpa using h
  generalize acts.reverse = l at hrev
  induction l with
  | nil => rfl
  | cons a l ih =>
    have ha := hrev a (List.mem_cons_self ..)
    rw [List.foldlM_cons]
    split
    · exact absurd rfl (ha _ _)
    · exact ih fun b hb => hrev b (List.mem_cons_of_mem _ hb)

theorem onEMM_eq_ok {x : Env} {f : Env → EMMCtx → Outcome EMMCtx} {e : Nat} {c d : EMMCtx}
    {acts : List Act} (hc : w.emms e = some c) (hd : f (w.env x) { c with s11 := w.s11 } = .ok d)
    (htrace : d.trace = acts ++ c.trace) (hacts : ∀ a ∈ acts, ∀ e m, a ≠ .registerEMMCtxt e m) :
    w.onEMM x (some e) f = .ok { w.setEMM e d with s11 := d.s11 } := by
  have htake : d.trace.take (d.trace.length - c.trace.length) = acts := by simp [htrace]
  have hderef := deref_eq_ok.mpr ⟨e, rfl, hc⟩
  simp only [onEMM, hderef, ok_bind, hd, htake]
  exact register_eq_ok hacts

theorem post_onEMM {x : Env} {f : Env → EMMCtx → Outcome EMMCtx} {e : Nat} {c : EMMCtx}
    {Q : EMMCtx → Prop} (hc : w.emms e = some c)
    (hf : Post (f (w.env x) { c with s11 := w.s11 }) fun d => Q d ∧
      ∃ acts, d.trace = acts ++ c.trace ∧ ∀ a ∈ acts, ∀ e m, a ≠ .registerEMMCtxt e m) :
    Post (w.onEMM x (some e) f) fun v => ∃ d, Q d ∧ v = { w.setEMM e d with s11 := d.s11 } := by
  cases hd : f (w.env x) { c with s11 := w.s11 } with
  | error _ =>
    have hderef := deref_eq_ok.mpr ⟨e, rfl, hc⟩
    simp [onEMM, hderef, hd]
  | ok d =>
    obtain ⟨hq, acts, htrace, hacts⟩ := hf d hd
    rw [onEMM_eq_ok hc hd htrace hacts]
    exact .ok ⟨d, hq, rfl⟩

variable (w)

/-! ## ECM sessions -/

/-- The loop of `mme_newLocalUEid`. -/
def firstFree (ids : List UInt32) : Nat → UInt32 → UInt32
  | 0, _ => 0
  | n + 1, i => if i ∈ ids then firstFree ids n (i + 1) else i

/-- `mme_newLocalUEid`: 0 if there is no identifier left. -/
def mmeNewLocalUEid : MME × UInt32 :=
  let i := firstFree w.s1LocalIDs maxUE 1
  (if i = 0 then w else { w with s1LocalIDs := i :: w.s1LocalIDs }, i)

/-- `mme_freeLocalUEid`. -/
def mmeFreeLocalUEid (i : UInt32) : MME := { w with s1LocalIDs := w.s1LocalIDs.erase i }

/-- `ecmSession_free`.  The EMM context is deregistered whether or not it is bound to this session. -/
def ecmSessionFree (id : Nat) : Outcome MME := do
  let s ← deref w.ecms (some id)
  match s.emm with
  | none => .error .nullDeref
  | some e => do
    let c ← deref w.emms (some e)
    let _ ← deref w.assocs (some s.assoc)
    let w := (w.setEMM e c.emmDeregister).mmeFreeLocalUEid s.mmeUEId
    pure { w with ecms := Function.update w.ecms id none }

/-- `mme_registerECM`: another session under the same identifier is freed. -/
def mmeRegisterECM (id : Nat) : Outcome MME := do
  let k ← w.mmeUEIdKey id
  let (t, old) ← w.ecmSessionsByLocalID.insert gIntHash w.mmeUEIdKey k id id
  match old with
  | none => pure { w with ecmSessionsByLocalID := t }
  | some o => ecmSessionFree { w with ecmSessionsByLocalID := t } o

/-- `mme_deregisterECM`, which frees the session. -/
def mmeDeregisterECM (id : Nat) : Outcome MME := do
  let k ← w.mmeUEIdKey id
  let (t, old) ← w.ecmSessionsByLocalID.remove gIntHash w.mmeUEIdKey k
  match old with
  | none => pure { w with ecmSessionsByLocalID := t }
  | some o => ecmSessionFree { w with ecmSessionsByLocalID := t } o

/-- `mme_lookupECM`. -/
def mmeLookupECM (i : UInt32) : Outcome (Option Nat) :=
  w.ecmSessionsByLocalID.lookup gIntHash w.mmeUEIdKey i

/-! ## Associations -/

/-- `s1Assoc_registerECMSession`. -/
def s1AssocRegisterECMSession (a id : Nat) : Outcome MME := do
  let s ← deref w.assocs (some a)
  let k ← w.eNBUEIdKey id
  let (t, _) ← s.ecmSessions.insert gIntHash w.eNBUEIdKey k id id
  pure (w.setAssoc a { s with ecmSessions := t })

/-- `s1Assoc_deregisterECMSession`. -/
def s1AssocDeregisterECMSession (a id : Nat) : Outcome MME := do
  let s ← deref w.assocs (some a)
  let k ← w.eNBUEIdKey id
  let (t, _) ← s.ecmSessions.remove gIntHash w.eNBUEIdKey k
  pure (w.setAssoc a { s with ecmSessions := t })

/-- `s1Assoc_getECMSession`. -/
def s1AssocGetECMSession (a : Nat) (i : UInt32) : Outcome (Option Nat) := do
  let s ← deref w.assocs (some a)
  s.ecmSessions.lookup gIntHash w.eNBUEIdKey i

end MME

end AaltoMME
