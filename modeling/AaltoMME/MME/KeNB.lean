import AaltoMME.MME.Connections
import AaltoMME.EMM.Security.KeNB

/-!
# The key of the eNB in the MME

`ecm_sendCtxtSUReq` asks the context that the ECM session points to for the key.  In the MME this is the context
that sends the request, so what `AaltoMME.EMM.Security.KeNB` says of a context alone holds for every context of
the MME.
-/

namespace AaltoMME.MME

open Base NAS

variable {P : Prims}

/-- In every run of the MME, each context went through a run of its own from `emm_init`, and every context setup
request that it sent carries the KeNB of the message that the request belongs to. -/
theorem keNB_consistent {r : UInt8} {es : List (Env × MMEEvent)} {w : MME} {e : Nat} {c : EMMCtx}
    (h : Run (step P) (fun _ _ => True) (init r) es w) (hc : w.emms e = some c) :
    ∃ ecm s11 evs, Run (EMMCtx.step P) EMMCtx.Linked (emmInit e ecm s11) evs c ∧
      ∀ id sci n req, Act.ctxtSUReq id sci n req ∈ c.trace →
        EMMCtx.KeyFrom P (emmInit e ecm s11) evs id sci n req := by
  obtain ⟨ecm, s11, evs, hrun⟩ := lived_of_run h e c hc
  exact ⟨ecm, s11, evs, hrun, fun _ _ _ _ hreq => EMMCtx.keyFrom_of_run hrun hreq⟩

def Sample.setupSent : Act → Bool
  | .ctxtSUReq 1 true 0 _ => true
  | _ => false

/-- The UE that attaches was sent a context setup request, and its key comes from the COUNT 0. -/
theorem keNB_consistent_attach :
    ∃ w c, Run (step Prims.zeroKasme) (fun _ _ => True) (init 0) Sample.attach w ∧ w.emms 2 = some c ∧
      ∃ req, Act.ctxtSUReq 1 true 0 req ∈ c.trace ∧
        ∃ ecm s11 evs, EMMCtx.KeyFrom Prims.zeroKasme (emmInit 2 ecm s11) evs 1 true 0 req := by
  simp only [exists_and_left]
  refine Run.exists_of_exec (fun w => (w.emms 2).any (fun c => c.trace.any Sample.setupSent) = true) (by decide +kernel)
    fun w hrun hw => ?_
  obtain ⟨c, hc, hany⟩ := (Option.any_eq_true _ _).mp hw
  obtain ⟨a, ha, hsent⟩ := List.any_eq_true.mp hany
  obtain ⟨req, rfl⟩ : ∃ req, a = .ctxtSUReq 1 true 0 req := by
    unfold Sample.setupSent at hsent
    split at hsent
    · exact ⟨_, rfl⟩
    · cases hsent
  obtain ⟨ecm, s11, evs, -, hfrom⟩ := keNB_consistent hrun hc
  exact ⟨c, hc, req, ha, ecm, s11, evs, hfrom _ _ _ _ ha⟩

end AaltoMME.MME
