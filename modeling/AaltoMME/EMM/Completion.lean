import AaltoMME.EMM.StoredMessages

/-!
# The end of an attach and of a tracking area update

A context enters EMM_Registered when the UE completes the procedure, or when the accept message was sent for
the last time.  After the last Attach Accept the UE should be deregistered instead.  The handler tells the
two accept messages apart by the stored message, but it compares the type of that message with Attach
Complete, which T3450 never stores; so a UE that never answers the Attach Accept is registered.
-/

namespace AaltoMME

open Base NAS Relation

variable {P : Prims} {c d : EMMCtx} {e : Env × EMMEvent} {es : List (Env × EMMEvent)}

/-- The Attach Complete of the sample UE, with the COUNT 1. -/
def Sample.attachComplete : EMMEvent :=
  uplink [0x27, 0x19, 0x6a, 0xb4, 0x55, 0x01, 0x07, 0x43, 0x00, 0x03, 0x52, 0x00, 0xc2]

namespace EMMCtx

/-- A context that is registered by an event was registered before, or completed a procedure. -/
theorem completes_of_step (h : c.step P e = .ok d) (hd : d.stateName = .registered) :
    c.stateName = .registered ∨ c.Completes P e := by
  refine (changes_step c e d h).invariant
    (I := fun v => v.stateName = .registered → c.stateName = .registered ∨ c.Completes P e) ?_ .inl hd
  intro v w hv hw hreg
  cases hw with
  | register hcomplete => exact .inr hcomplete
  | deregister => cases hreg
  | common _ => cases hreg
  | procedure => cases hreg
  | _ => exact hv hreg

theorem stateName_ecmSendUEContextReleaseCommand {env : Env} (cause : ReleaseCause) :
    Post (c.ecmSendUEContextReleaseCommand env cause) (·.stateName = c.stateName) :=
  post_ecmSendUEContextReleaseCommand rfl fun _ => rfl

theorem eq_of_mem_lastT3450 {buf : List UInt8} (h : buf ∈ c.lastT3450 e) :
    e.2 = .timer .t3450 ∧ ∃ t, c.activeTimers .t3450 = some t ∧ ¬ t.rtx < emmRtx .t3450 ∧ t.msg = buf := by
  unfold lastT3450 at h
  split at h
  · refine ⟨rfl, ?_⟩
    split at h
    · rename_i t ht
      split at h
      · cases h
      · exact ⟨t, ht, ‹_›, Option.some.inj h⟩
    · cases h
  · cases h

/-- After the last expiration with a message that is no Attach Complete, a context with a specific procedure is
registered, and any other one stays as it is. -/
theorem stateName_of_lastT3450 {buf : List UInt8} (hbuf : buf ∈ c.lastT3450 e) (hne : buf[1]? ≠ some attachComplete)
    (hlen : buf[1]?.isSome) (h : c.step P e = .ok d) :
    (c.stateName = .specificProcedureInitiated → d.stateName = .registered) ∧
      (c.stateName ≠ .specificProcedureInitiated → d.stateName = c.stateName) := by
  obtain ⟨env, ev⟩ := e
  obtain ⟨hev, t, ht, hlast, rfl⟩ := eq_of_mem_lastT3450 hbuf
  cases hev
  have hstored : ∃ type, storedType env t.msg = .ok type ∧ type ≠ attachComplete := by
    rcases hmsg : t.msg with _ | ⟨a, _ | ⟨type, rest⟩⟩
    · simp [hmsg] at hlen
    · simp [hmsg] at hlen
    · refine ⟨type, rfl, ?_⟩
      rintro rfl
      exact hne (by simp [hmsg])
  obtain ⟨type, htype, hcomplete⟩ := hstored
  have hexpire : Post (c.stateProcessTimeoutMax env t.msg .t3450) fun f =>
      (c.stateName = .specificProcedureInitiated → f.stateName = .registered) ∧
        (c.stateName ≠ .specificProcedureInitiated → f.stateName = c.stateName) := by
    unfold stateProcessTimeoutMax
    split
    · rename_i hs
      refine .of_bind fun _ => .ok ⟨fun h => ?_, fun _ => rfl⟩
      rw [hs] at h
      cases h
    · rename_i hs
      simp only [spiProcessTimeoutMax, htype, ok_bind, if_neg hcomplete, pure_eq_ok]
      exact (stateName_ecmSendUEContextReleaseCommand _).mono fun f hf => ⟨fun _ => hf, (absurd hs)⟩
    all_goals
      rename_i hs
      refine .ok ⟨fun h => ?_, fun _ => rfl⟩
      rw [hs] at h
      cases h
  have hpost : Post (c.timerExpires P env .t3450) fun f =>
      (c.stateName = .specificProcedureInitiated → f.stateName = .registered) ∧
        (c.stateName ≠ .specificProcedureInitiated → f.stateName = c.stateName) := by
    unfold timerExpires
    rw [ht]
    exact .ite (fun h => absurd h hlast) fun _ => .bind hexpire fun f hf => .ok hf
  exact hpost d h

/-- The event leads to EMM_Registered only by an authenticated Attach Complete or Tracking Area Update
Complete or by the last expiration of T3450 for a Tracking Area Update Accept, and the last expiration for an
Attach Accept leads to EMM_Deregistered. -/
structure RegistersOnCompletion (P : Prims) (c : EMMCtx) (e : Env × EMMEvent) (d : EMMCtx) : Prop where
  registered : d.stateName = .registered → c.stateName = .registered ∨
    (∃ m ∈ c.takes P e, m.2 = true ∧
      (m.1.emmMessageType = attachComplete ∨ m.1.emmMessageType = trackingAreaUpdateComplete)) ∨
    ∃ buf ∈ c.lastT3450 e, buf[1]? = some trackingAreaUpdateAccept
  deregistered : ∀ buf ∈ c.lastT3450 e, buf[1]? = some attachAccept → d.stateName = .deregistered

/-- In any run, an event does so exactly if it is not the last expiration of T3450 for an Attach Accept, unless
the context is deregistered anyway. -/
theorem registersOnCompletion_iff {self ecm : Nat} {s11 : S11Stack}
    (hrun : Run (step P) (fun _ _ => True) (emmInit self ecm s11) es c) (hstep : c.step P e = .ok d) :
    RegistersOnCompletion P c e d ↔
      ∀ buf ∈ c.lastT3450 e, buf[1]? = some attachAccept → c.stateName = .deregistered := by
  constructor
  · intro h buf hbuf hattach
    have hd := h.deregistered buf hbuf hattach
    obtain ⟨hspi, hother⟩ := stateName_of_lastT3450 hbuf (by simp [hattach]; decide) (by simp [hattach]) hstep
    by_cases hs : c.stateName = .specificProcedureInitiated
    · rw [hspi hs] at hd
      cases hd
    · exact (hother hs).symm.trans hd
  · intro h
    constructor
    · intro hd
      rcases completes_of_step hstep hd with hreg | ⟨hs, hauth | ⟨buf, hbuf⟩⟩
      · exact .inl hreg
      · exact .inr (.inl hauth)
      · refine .inr (.inr ⟨buf, hbuf, ?_⟩)
        obtain ⟨-, t, ht, -, rfl⟩ := eq_of_mem_lastT3450 hbuf
        rcases stores_of_run hrun ht with hattach | htau
        · have hdereg := h _ hbuf hattach
          rw [hs] at hdereg
          cases hdereg
        · exact htau
    · intro buf hbuf hattach
      have hs := h buf hbuf hattach
      obtain ⟨-, hother⟩ := stateName_of_lastT3450 hbuf (by simp [hattach]; decide) (by simp [hattach]) hstep
      exact (hother (by simp [hs])).trans hs

/-- The Attach Complete of the sample UE. -/
theorem registersOnCompletion_iff_attachComplete :
    ∃ c d, Run (step Prims.zeroKasme) (fun _ _ => True) Sample.init
        (Sample.authentication ++ Sample.activation.take 1) c ∧
      c.step Prims.zeroKasme (Sample.env .manyRows, Sample.attachComplete) = .ok d ∧
      c.stateName = .specificProcedureInitiated ∧ d.stateName = .registered ∧
      RegistersOnCompletion Prims.zeroKasme c (Sample.env .manyRows, Sample.attachComplete) d := by
  simp only [exists_and_left]
  refine Run.exists_step_of_exec (fun c _ d => c.stateName = .specificProcedureInitiated ∧ d.stateName = .registered)
    (by decide +kernel) ?_
  rintro c d hrun hd ⟨hs, hreg⟩
  exact ⟨hs, hreg, (registersOnCompletion_iff hrun hd).mpr nofun⟩

/-- A UE that never answers the Attach Accept is registered when T3450 expires for the fifth time. -/
theorem registered_by_timeout :
    ∃ c d, Run (step Prims.zeroKasme) (fun _ _ => True) Sample.init
        (Sample.authentication ++ Sample.activation.take 1 ++
          List.replicate 4 (Sample.env .manyRows, .timer .t3450)) c ∧
      c.step Prims.zeroKasme (Sample.env .manyRows, .timer .t3450) = .ok d ∧
      c.stateName = .specificProcedureInitiated ∧ d.stateName = .registered ∧
      (∃ buf ∈ c.lastT3450 (Sample.env .manyRows, .timer .t3450), buf[1]? = some attachAccept) ∧
      ¬ RegistersOnCompletion Prims.zeroKasme c (Sample.env .manyRows, .timer .t3450) d := by
  simp only [exists_and_left]
  refine Run.exists_step_of_exec (fun c e d => c.stateName = .specificProcedureInitiated ∧ d.stateName = .registered ∧
    ∃ buf ∈ c.lastT3450 e, buf[1]? = some attachAccept) (by decide +kernel) ?_
  rintro c d - - ⟨hs, hreg, hlast⟩
  refine ⟨hs, hreg, hlast, fun h => ?_⟩
  obtain ⟨buf, hbuf, hattach⟩ := hlast
  have hdereg := h.deregistered buf hbuf hattach
  rw [hreg] at hdereg
  cases hdereg

end EMMCtx

end AaltoMME
