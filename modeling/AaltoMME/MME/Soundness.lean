import AaltoMME.MME.Connections
import AaltoMME.EMM.AbortCauses
import AaltoMME.EMM.StoredMessages

/-!
# Every context of the MME

A context of the MME is what a run of its own made of it, so what holds of a context in every run holds of every context
in every run of the MME.
-/

namespace AaltoMME

open Base NAS

variable {P : Prims}

namespace EMMCtx

/-- What holds of a context at any time. -/
structure Consistent (c : EMMCtx) : Prop where
  sound : c.Sound
  /-- The handlers of EMM_DeregisteredInitiated are never used. -/
  state : c.stateName ≠ .deregisteredInitiated
  /-- An active timer stores a message of its own; T3413 and T3422 are never active. -/
  timers : ∀ code t, c.activeTimers code = some t → code.Stores t.msg

theorem consistent_of_run {self ecm : Nat} {s11 : S11Stack} {es : List (Env × EMMEvent)} {c : EMMCtx}
    (h : Run (step P) (fun _ _ => True) (emmInit self ecm s11) es c) : c.Consistent where
  sound := sound_of_run h
  state := by
    refine h.invariant (I := fun c => c.emmView.stateName ≠ .deregisteredInitiated) ?_ nofun
    intro c e d hc _ hstep
    refine (changes_step c e d hstep).invariant (I := fun v => v.stateName ≠ .deregisteredInitiated) ?_ hc
    intro v w hv hw
    cases hw with
    | deregister | common | procedure | register => exact nofun
    | _ => exact hv
  timers _ _ ht := stores_of_run h ht

/-- A context that has an M-TMSI keeps it, whatever happens to it, and is not registered again. -/
theorem mtmsi_kept {Q : EMMCtx → Env × EMMEvent → Prop} {es : List (Env × EMMEvent)} {c d : EMMCtx}
    (h : Run (step P) Q c es d) (hc : c.guti.mtmsi ≠ 0) :
    d.guti.mtmsi = c.guti.mtmsi ∧ d.trace.filterMap Act.registration = c.trace.filterMap Act.registration := by
  refine h.invariant (I := fun d => d.emmView.mtmsi = c.guti.mtmsi ∧ d.emmView.registrations = c.emmView.registrations) ?_
    ⟨rfl, rfl⟩
  intro d e f hd _ hstep
  refine (changes_step d e f hstep).invariant
    (I := fun v => v.mtmsi = c.guti.mtmsi ∧ v.registrations = c.emmView.registrations) ?_ hd
  intro v w hv hw
  cases hw with
  | newGUTI hzero => exact absurd (hv.1.symm.trans hzero) hc
  | _ => exact hv

/-- The UE that was given an M-TMSI answers the challenge. -/
theorem mtmsi_kept_authentication : ∃ c d, Run (step Prims.zeroKasme) (fun _ _ => True) Sample.init
    (Sample.authentication.take 1) c ∧
      c.step Prims.zeroKasme (Sample.env .manyRows, Sample.uplink [0x07, 0x53, 0x08, 1, 2, 3, 4, 5, 6, 7, 8]) = .ok d ∧
      c.guti.mtmsi = 1315886081 ∧ d.guti.mtmsi = 1315886081 := by
  simp only [exists_and_left]
  refine Run.exists_step_of_exec (fun (c : EMMCtx) _ _ => c.guti.mtmsi = 1315886081) (by decide +kernel) ?_
  intro c d hrun hstep hm
  have hkept := (mtmsi_kept (Q := fun _ _ => True) (Run.nil.snoc trivial hstep) (by rw [hm]; decide)).1
  exact ⟨hm, hkept.trans hm⟩

end EMMCtx

namespace MME

variable {r : UInt8} {es : List (Env × MMEEvent)} {w : MME} {e : Nat} {c : EMMCtx}

/-- In every run of the MME, every context is where its identifier says, and it is consistent: it has a security context
only outside of a common procedure and with a handler that can authenticate, it is in a state that is used, and its
timers store messages of their own. -/
theorem consistent_of_mme_run (h : Run (step P) (fun _ _ => True) (init r) es w) (hc : w.emms e = some c) :
    c.self = e ∧ c.Consistent := by
  obtain ⟨ecm, s11, evs, hrun⟩ := lived_of_run h e c hc
  exact ⟨EMMCtx.self_of_run hrun, EMMCtx.consistent_of_run (hrun.mono fun _ _ _ => trivial)⟩

/-- The UE has attached. -/
theorem consistent_of_mme_run_attach : ∃ w c, Run (step Prims.zeroKasme) (fun _ _ => True) (init 0) Sample.attach w ∧
    w.emms 2 = some c ∧ c.sci = true ∧ c.Consistent := by
  simp only [exists_and_left]
  refine Run.exists_of_exec (fun w => (w.emms 2).any (·.sci) = true) (by decide +kernel) fun w hrun hw => ?_
  obtain ⟨c, hc, hsci⟩ := (Option.any_eq_true _ _).mp hw
  exact ⟨c, hc, hsci, (consistent_of_mme_run hrun hc).2⟩

end MME

end AaltoMME
