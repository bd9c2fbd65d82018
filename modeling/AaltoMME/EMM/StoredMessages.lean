import AaltoMME.EMM.Changes.Step
import AaltoMME.EMM.Security.Properties

/-!
# The messages that the timers store

Each timer stores a message of its own: T3450, T3460 and T3470 the message that waits for an answer, and the two timers
of a UE that is not connected none.  The handlers of EMM_CommonProcedureInitiated and EMM_SpecificProcedureInitiated read
the type of the stored message for every timer, before they look at which timer it is.  They are therefore right as long
as neither of those two timers is active, that is, as long as the connection is not lost in the middle of a procedure.
-/

namespace AaltoMME

open Base NAS Relation

variable {P : Prims} {c d : EMMCtx} {e : Env × EMMEvent} {es : List (Env × EMMEvent)}

/-- Each timer stores a message of its own. -/
def EMMView.Stored (v : EMMView) : Prop := ∀ code msg, v.stored code = some msg → code.Stores msg

theorem EMMView.Stored.change {c₀ : EMMCtx} {v w : EMMView} (h : v.Stored) (hw : EMMChange P c₀ e v w) : w.Stored := by
  cases hw with
  | timers hstored => exact fun code msg hmsg => (hstored code msg hmsg).elim (h code msg) id
  | _ => exact h

namespace EMMCtx

theorem stores_of_run {self ecm : Nat} {s11 : S11Stack} {Q : EMMCtx → Env × EMMEvent → Prop}
    (h : Run (step P) Q (emmInit self ecm s11) es c) {code : EMMTimerCode} {t : EMMTimer}
    (ht : c.activeTimers code = some t) : code.Stores t.msg := by
  refine h.invariant (I := fun c => c.emmView.Stored) ?_ nofun code t.msg (Option.map_eq_some_iff.mpr ⟨t, ht, rfl⟩)
  intro c e d hc _ hstep
  exact (changes_step c e d hstep).invariant (fun v w hv hw => hv.change hw) hc

/-- The timeout handlers of the current state do not look at the stored message. -/
def IgnoresStored (P : Prims) (c : EMMCtx) (code : EMMTimerCode) : Prop :=
  ∀ env buf buf', c.stateProcessTimeout P env buf code = c.stateProcessTimeout P env buf' code ∧
    c.stateProcessTimeoutMax env buf code = c.stateProcessTimeoutMax env buf' code

/-- The timeout handlers look at the message of an active timer only if it has two octets. -/
def RespectsStored (P : Prims) (c : EMMCtx) : Prop :=
  ∀ code t, c.activeTimers code = some t → t.msg.length < 2 → c.IgnoresStored P code

/-- The states whose timeout handlers read the type of the stored message. -/
def ReadsStored (c : EMMCtx) : Prop :=
  c.stateName = .commonProcedureInitiated ∨ c.stateName = .specificProcedureInitiated

theorem ignoresStored_of_not_readsStored (h : ¬ c.ReadsStored) (code : EMMTimerCode) : c.IgnoresStored P code := by
  obtain ⟨hcommon, hspecific⟩ := not_or.mp h
  intro env buf buf'
  unfold stateProcessTimeout stateProcessTimeoutMax
  cases hs : c.stateName <;> simp_all

/-- The two timers of a UE that is not connected end in an error in the two states. -/
theorem not_ignoresStored (h : c.ReadsStored) {code : EMMTimerCode} (hcode : code = .tMobileReachable ∨ code = .tImplicitDetach) :
    ¬ c.IgnoresStored P code := by
  intro hignores
  have hmax := (hignores default [] [0, 0]).2
  rcases h with hs | hs <;> rcases hcode with rfl | rfl <;>
    simp [stateProcessTimeoutMax, hs, cpiProcessTimeoutMax, spiProcessTimeoutMax, storedType] at hmax

/-- **Stored messages.** In every state that a context reaches, the timeout handlers look at the stored message of an
active timer only if it has two octets: if and only if the state is not one of the two, or neither of the timers of a UE
that is not connected is active. -/
theorem respectsStored_iff {self ecm : Nat} {s11 : S11Stack}
    (h : Run (step P) (fun _ _ => True) (emmInit self ecm s11) es c) :
    c.RespectsStored P ↔
      ¬ c.ReadsStored ∨ c.activeTimers .tMobileReachable = none ∧ c.activeTimers .tImplicitDetach = none := by
  constructor
  · intro hrespects
    by_contra hcond
    obtain ⟨hreads, hactive⟩ := not_or.mp hcond
    obtain ⟨code, hcode, t, ht⟩ : ∃ code, (code = .tMobileReachable ∨ code = .tImplicitDetach) ∧
        ∃ t, c.activeTimers code = some t := by
      rcases not_and_or.mp hactive with hne | hne
      · exact ⟨_, .inl rfl, Option.ne_none_iff_exists'.mp hne⟩
      · exact ⟨_, .inr rfl, Option.ne_none_iff_exists'.mp hne⟩
    have hempty : t.msg = [] := by
      have hstores := stores_of_run h ht
      rcases hcode with rfl | rfl <;> exact hstores
    exact not_ignoresStored (not_not.mp hreads) hcode (hrespects code t ht (by simp [hempty]))
  · intro hcond code t ht hshort
    have htwo : ∀ type, t.msg[1]? ≠ some type := by
      intro type htype
      have hlt := (List.getElem?_eq_some_iff.mp htype).1
      omega
    have hstores := stores_of_run h ht
    have hignores : (code = .tMobileReachable ∨ code = .tImplicitDetach) → c.IgnoresStored P code := by
      rintro (rfl | rfl)
      · exact ignoresStored_of_not_readsStored (hcond.resolve_right (by simp [ht])) _
      · exact ignoresStored_of_not_readsStored (hcond.resolve_right (by simp [ht])) _
    cases code with
    | tMobileReachable => exact hignores (.inl rfl)
    | tImplicitDetach => exact hignores (.inr rfl)
    | t3450 => rcases hstores with hmsg | hmsg <;> exact absurd hmsg (htwo _)
    | t3460 => rcases hstores with hmsg | hmsg <;> exact absurd hmsg (htwo _)
    | t3470 => exact absurd hstores (htwo _)
    | t3413 | t3422 => exact hstores.elim

/-- A common procedure with its UE connected. -/
theorem respectsStored_authentication : ∃ c, Run (step Prims.zeroKasme) (fun _ _ => True) Sample.init
    (Sample.authentication.take 1) c ∧ c.stateName = .commonProcedureInitiated ∧ c.RespectsStored Prims.zeroKasme := by
  refine Run.exists_of_exec (fun c => c.stateName = .commonProcedureInitiated ∧
    (c.activeTimers .tMobileReachable).isNone ∧ (c.activeTimers .tImplicitDetach).isNone) (by decide +kernel) ?_
  rintro c hrun ⟨hs, hreach, hdetach⟩
  refine ⟨hs, (respectsStored_iff hrun).mpr (.inr ?_)⟩
  exact ⟨Option.isNone_iff_eq_none.mp hreach, Option.isNone_iff_eq_none.mp hdetach⟩

/-- The connection is lost during a common procedure: when TMOBILE_REACHABLE expires, a NULL pointer is read. -/
theorem not_respectsStored : ∃ c, Run (step Prims.zeroKasme) (fun _ _ => True) Sample.init
    (Sample.authentication.take 1 ++ [(Sample.env .manyRows, .deregister)]) c ∧
      c.step Prims.zeroKasme (Sample.env .manyRows, .timer .tMobileReachable) = .error .nullDeref ∧
      ¬ c.RespectsStored Prims.zeroKasme := by
  refine Run.exists_of_exec (fun c => c.stateName = .commonProcedureInitiated ∧
    (c.activeTimers .tMobileReachable).map (fun t => (t.msg, t.rtx)) = some ([], 0)) (by decide +kernel) ?_
  rintro c - ⟨hs, hmsg⟩
  obtain ⟨⟨msg, rtx⟩, ht, hmsg⟩ := Option.map_eq_some_iff.mp hmsg
  obtain ⟨rfl, rfl⟩ := Prod.mk.inj hmsg
  refine ⟨?_, fun h => not_ignoresStored (.inl hs) (.inl rfl) (h _ _ ht (by decide))⟩
  simp [step, timerExpires, ht, emmRtx, stateProcessTimeout, hs, cpiProcessTimeout, storedType]

end EMMCtx

end AaltoMME
