import AaltoMME.MME.Binding
import AaltoMME.MME.Contexts

/-!
# The connections of the EMM contexts

Every event of the MME changes the pointers between EMM contexts and ECM sessions by the elementary
changes of `AaltoMME.MME.Binding`, and is a run of the events of the contexts of `AaltoMME.MME.Contexts`.
So in every run a context points to no session or to a live one that
is bound to it.  That it loses its session only when the session goes holds in the runs in which no UE
reconnects before its previous connection is released: `emm_deregister`, which the end of a session
calls, clears the pointer whatever it points to.
-/

namespace AaltoMME

open Base NAS Binding

variable {P : Prims} {x : Env} {K : Prop} {Q : CtxCondition}

/-! ## The events of a context -/

/-- The events that bind a context to another ECM session or to none. -/
def EMMEvent.Rebinds : EMMEvent → Prop
  | .registerECM _ | .deregister => True
  | _ => False

namespace EMMCtx

variable {c : EMMCtx}

/-- Whatever happens to a context, apart from the two functions that bind it, it stays bound as it is
and coherent. -/
theorem post_step_ecm (hc : c.sec.Coherent) (env : Env) {e : EMMEvent} (he : ¬ e.Rebinds) :
    Post (c.step P (env, e)) fun d => d.ecm = c.ecm ∧ d.sec.Coherent := by
  have hall : c.Allowed P { Risk.any with rebind := False } (env, e) := by
    cases e with
    | uplink buf size => exact { UplinkAllowed.any (P := P) env c buf size with }
    | s11 pkt => exact ⟨fun _ => .inl (.inr trivial), nofun⟩
    | registerECM | deregister => exact he trivial
    | timer | stop | modifyERABList | ueContextReleaseReq | s11Stack => exact trivial
  exact (reach_step hc hall).mono fun _ hd => ⟨(SecSteps.ecm id hd).2, hd.coherent hc⟩

/-- A context points to the session that it was registered with, and nothing else changes. -/
theorem post_emmRegisterECM (env : Env) (id : Nat) :
    Post (c.emmRegisterECM env id) fun d => (∃ trace, d = { c with ecm := some id, trace }) ∧
      ∃ acts, d.trace = acts ++ c.trace ∧ ∀ a ∈ acts, ∀ e m, a ≠ .registerEMMCtxt e m := by
  refine .bind (Q := fun d => (∃ trace, d = { c with trace }) ∧
    ∃ acts, d.trace = acts ++ c.trace ∧ ∀ a ∈ acts, ∀ e m, a ≠ .registerEMMCtxt e m) ?_ ?_
  · unfold ecmSendUEContextReleaseCommand
    split
    · exact .ok ⟨⟨c.trace, rfl⟩, [], rfl, nofun⟩
    · refine .of_bind fun _ => .ok ⟨⟨_, rfl⟩, [_], rfl, fun a ha => ?_⟩
      obtain rfl := List.mem_singleton.mp ha
      exact nofun
  · rintro d ⟨⟨trace, rfl⟩, hacts⟩
    exact .ok ⟨⟨trace, rfl⟩, hacts⟩

end EMMCtx

namespace MME

variable {w v : MME}

/-! ## The binding of the MME -/

/-- The pointers between contexts and sessions. -/
def binding (w : MME) : Binding where
  ecm := Option.map EMMCtx.ecm ∘ w.emms
  emm := Option.map ECMSession.emm ∘ w.ecms
  fresh := w.fresh

def Coherent (w : MME) : Prop := ∀ e c, w.emms e = some c → c.sec.Coherent

/-- Every context is what a run of its own, from `emm_init` and with its sessions bound to it, made of it. -/
def Lived (P : Prims) (w : MME) : Prop :=
  ∀ e c, w.emms e = some c → ∃ id s11 es, Run (EMMCtx.step P) EMMCtx.Linked (emmInit e id s11) es c

/-- An operation that changes the binding by elementary changes, and the contexts by their own events. -/
structure Moves (P : Prims) (K : Prop) (w v : MME) : Prop where
  steps : BindSteps K w.binding v.binding
  coherent : v.Coherent
  lived : Bound K w.binding → w.Lived P → v.Lived P

namespace Moves

theorem of_binding (hv : v.Coherent) (h : v.binding = w.binding) (he : v.emms = w.emms) : Moves P K w v where
  steps := h ▸ .refl
  coherent := hv
  lived _ hw e c hc := hw e c (he ▸ hc)

theorem of_step (hv : v.Coherent) (h : BindStep K w.binding v.binding)
    (hl : Bound K w.binding → w.Lived P → v.Lived P) : Moves P K w v := ⟨.single h, hv, hl⟩

theorem trans {u : MME} (h : Moves P K w v) (h' : Moves P K v u) : Moves P K w u where
  steps := h.steps.trans h'.steps
  coherent := h'.coherent
  lived hb hw := h'.lived (h.steps.bound hb) (h.lived hb hw)

theorem foldlM {α : Type} {f : MME → α → Outcome MME} (hw : w.Coherent)
    (hf : ∀ v a, v.Coherent → Post (f v a) (Moves P K v)) (l : List α) : Post (l.foldlM f w) (Moves P K w) :=
  Post.foldlM (fun v a hv => (hf v a hv.coherent).mono fun _ hu => hv.trans hu) l (of_binding hw rfl rfl)

end Moves

/-- An operation that is a run of events of the contexts that meet a condition. -/
structure Drives (P : Prims) (K : Prop) (Q : CtxCondition) (w v : MME) : Prop extends Moves P K w v where
  events : Bound K w.binding → w.Lived P → ∃ ces, Run (ctxStep P) (Guarded Q) w ces v

namespace Drives

theorem of_lower (h : Moves P K w v) (hlow : w.lowered v = v) (hfresh : w.fresh ≤ v.fresh) : Drives P K Q w v :=
  { h with events := fun _ _ => ⟨[.lower v], .single hfresh (congrArg Except.ok hlow)⟩ }

theorem of_binding (hv : v.Coherent) (h : v.binding = w.binding) (hlow : w.lowered v = v) : Drives P K Q w v := by
  have hemms : v.emms = w.emms := by
    rw [← hlow]
    rfl
  have hfresh := congrArg Binding.fresh h
  exact .of_lower (.of_binding hv h hemms) hlow (Nat.le_of_eq hfresh.symm)

theorem trans {u : MME} (h : Drives P K Q w v) (h' : Drives P K Q v u) : Drives P K Q w u where
  toMoves := h.toMoves.trans h'.toMoves
  events hb hl := by
    obtain ⟨ces, hrun⟩ := h.events hb hl
    obtain ⟨ces', hrun'⟩ := h'.events (h.steps.bound hb) (h.lived hb hl)
    exact ⟨ces ++ ces', hrun.trans hrun'⟩

theorem bind {y : Outcome MME} {f : MME → Outcome MME} (hy : Post y (Drives P K Q w))
    (hf : ∀ v, Drives P K Q w v → Post (f v) (Drives P K Q v)) : Post (y >>= f) (Drives P K Q w) :=
  Post.bind hy fun v hv => (hf v hv).mono fun _ hu => hv.trans hu

theorem foldlM {α : Type} {f : MME → α → Outcome MME} {R : MME → α → Prop} (hw : w.Coherent)
    (hf : ∀ v a, v.Coherent → R v a → Post (f v a) (Drives P K Q v)) (l : List α) (h : Along f R w l) :
    Post (l.foldlM f w) (Drives P K Q w) := by
  refine Post.foldlM_along (fun v a hv hr => ?_) l (of_binding hw rfl rfl) h
  exact (hf v a hv.coherent hr).mono fun _ hu => hv.trans hu

end Drives

theorem coherent_update {e : Nat} {o : Option EMMCtx} (hw : w.Coherent) (ho : ∀ c ∈ o, c.sec.Coherent)
    (hv : v.emms = Function.update w.emms e o) : v.Coherent := by
  intro i c hc
  rw [hv, Function.update_apply] at hc
  split at hc
  · exact ho c hc
  · exact hw i c hc

theorem lived_update {e : Nat} {o : Option EMMCtx} (hw : w.Lived P)
    (ho : ∀ c ∈ o, ∃ id s11 es, Run (EMMCtx.step P) EMMCtx.Linked (emmInit e id s11) es c)
    (hv : v.emms = Function.update w.emms e o) : v.Lived P := by
  intro i c hc
  rw [hv, Function.update_apply] at hc
  split at hc
  · rename_i hi
    subst hi
    exact ho c hc
  · exact hw i c hc

/-- The event of a context in the MME: the context is lent the S11 stack first. -/
theorem lived_step (hw : w.Lived P) {e : Nat} {c d : EMMCtx} (hc : w.emms e = some c) {env : Env} {ev : EMMEvent}
    (hl : EMMCtx.Linked { c with s11 := w.s11 } (env, ev))
    (hd : EMMCtx.step P { c with s11 := w.s11 } (env, ev) = .ok d) :
    ∃ id s11 es, Run (EMMCtx.step P) EMMCtx.Linked (emmInit e id s11) es d := by
  obtain ⟨id, s11, es, hrun⟩ := hw e c hc
  have hlent : Run (EMMCtx.step P) EMMCtx.Linked (emmInit e id s11) (es ++ [(env, .s11Stack w.s11)])
      { c with s11 := w.s11 } := hrun.snoc trivial rfl
  exact ⟨id, s11, _, hlent.snoc hl hd⟩

theorem linked_env (hb : Bound K w.binding) (hw : w.Lived P) {e : Nat} {c : EMMCtx} (hc : w.emms e = some c)
    (x : Env) (ev : EMMEvent) : EMMCtx.Linked { c with s11 := w.s11 } (w.env x, ev) := by
  have hbound : EMMCtx.Bound (w.env x) { c with s11 := w.s11 } := by
    intro id s hid hs
    obtain ⟨_, _, _, hrun⟩ := hw e c hc
    have hself : c.self = e := EMMCtx.self_of_run hrun
    have hid : c.ecm = some id := hid
    have hs : w.ecms id = some s := hs
    have hlive := hb.live e id (by simp [binding, hc, hid])
    simpa [binding, hs, hself] using hlive
  cases ev with
  | uplink | s11 => exact hbound
  | timer | registerECM | deregister | stop | modifyERABList | ueContextReleaseReq | s11Stack => exact trivial

theorem binding_setEMM {e : Nat} {c d : EMMCtx} (hc : w.emms e = some c) (h : d.ecm = c.ecm) :
    (w.setEMM e d).binding = w.binding := by
  have hsame : some d.ecm = (Option.map EMMCtx.ecm ∘ w.emms) e := by simp [hc, h]
  simp only [binding, setEMM, Function.comp_update, Option.map_some, hsame, Function.update_eq_self]

theorem binding_setECM {id : Nat} {s t : ECMSession} (hs : w.ecms id = some s) (h : t.emm = s.emm) :
    (w.setECM id t).binding = w.binding := by
  have hsame : some t.emm = (Option.map ECMSession.emm ∘ w.ecms) id := by simp [hs, h]
  simp only [binding, setECM, Function.comp_update, Option.map_some, hsame, Function.update_eq_self]

/-! ## Contexts -/

theorem moves_emmFree (hw : w.Coherent) (e : Nat) : Post (w.emmFree e) (Moves P K w) := by
  refine .of_bind fun _ => .ok (.of_step (coherent_update hw (by simp) rfl) ?_
    fun _ hl => lived_update hl (by simp) rfl)
  have hb : ({ w with emms := Function.update w.emms e none } : MME).binding =
      { w.binding with ecm := Function.update w.binding.ecm e none } := by
    simp [binding, Function.comp_update]
  exact hb ▸ .freeContext e

theorem moves_mmeRegisterEMMCtxt (hw : w.Coherent) (e : Nat) :
    Post (w.mmeRegisterEMMCtxt e) (Moves P K w) := by
  refine .of_bind fun k => .of_bind fun ⟨t, old⟩ => ?_
  cases old with
  | none => exact .ok (.of_binding hw rfl rfl)
  | some o =>
    have ht : ({ w with emmSessions := t } : MME).Coherent := hw
    exact (moves_emmFree ht o).mono fun _ hv => ⟨hv.steps, hv.coherent, hv.lived⟩

theorem moves_register (hw : w.Coherent) (acts : List Act) : Post (w.register acts) (Moves P K w) := by
  refine Moves.foldlM hw (fun v a hv => ?_) _
  split
  · exact moves_mmeRegisterEMMCtxt hv _
  · exact .ok (.of_binding hv rfl rfl)

theorem moves_onEMM (hw : w.Coherent) (ev : EMMEvent) (hev : ¬ ev.Rebinds) (p : Option Nat) :
    Post (w.onEMM x p fun env c => c.step P (env, ev)) (Moves P K w) := by
  unfold onEMM
  split
  · exact .error
  rename_i e
  refine .bind_of_eq fun c hc => ?_
  obtain ⟨_, ⟨⟩, hc⟩ := deref_eq_ok.mp hc
  refine .bind_of_eq fun d hstep => ?_
  have hd := EMMCtx.post_step_ecm (c := { c with s11 := w.s11 }) (hw e c hc) (w.env x) hev d hstep
  have hset : Moves P K w { w.setEMM e d with s11 := d.s11 } := by
    refine ⟨?_, coherent_update hw (by simpa using hd.2) rfl, fun hb hl => lived_update hl ?_ rfl⟩
    · rw [show ({ w.setEMM e d with s11 := d.s11 } : MME).binding = w.binding from binding_setEMM hc hd.1]
      exact .refl
    · simpa using lived_step hl hc (linked_env hb hl hc x ev) hstep
  exact (moves_register hset.coherent _).mono fun _ hv => hset.trans hv

/-- In the MME a context is where its identifier says and its sessions are bound to it. -/
theorem guarded_on (hw : w.Coherent) (hb : Bound K w.binding) (hl : w.Lived P) {e : Nat} {ev : EMMEvent}
    (hst : ∀ s, ev ≠ .s11Stack s) (hq : HoldsOn Q x w (some e) ev) : Guarded Q w (.on x e ev) := by
  refine ⟨hst, hq, fun c hc => ⟨?_, hw e c hc, linked_env hb hl hc x ev⟩⟩
  obtain ⟨_, _, _, hrun⟩ := hl e c hc
  exact EMMCtx.self_of_run hrun

theorem drives_onEMM (hw : w.Coherent) (ev : EMMEvent) (hev : ¬ ev.Rebinds) (hst : ∀ s, ev ≠ .s11Stack s)
    {p : Option Nat} (hq : HoldsOn Q x w p ev) :
    Post (w.onEMM x p fun env c => c.step P (env, ev)) (Drives P K Q w) := by
  intro v hv
  refine { moves_onEMM hw ev hev p v hv with events := fun hb hl => ?_ }
  cases p with
  | none => cases hv
  | some e => exact ⟨[.on x e ev], .single (guarded_on hw hb hl hst hq) hv⟩

theorem drives_unwatched (hw : w.Coherent) (ev : EMMEvent) (hev : ¬ ev.Rebinds) (hst : ∀ s, ev ≠ .s11Stack s)
    (hun : ¬ ev.Watched) (p : Option Nat) :
    Post (w.onEMM x p fun env c => c.step P (env, ev)) (Drives P K Q w) :=
  drives_onEMM hw ev hev hst fun _ _ _ _ => Q.other hun

/-! ## Sessions -/

theorem moves_ecmSessionFree (hw : w.Coherent) (id : Nat) : Post (w.ecmSessionFree id) (Moves P K w) := by
  refine .bind_of_eq fun s hs => ?_
  obtain ⟨_, ⟨⟩, hs⟩ := deref_eq_ok.mp hs
  cases hemm : s.emm with
  | none => exact .error
  | some e =>
    refine .bind_of_eq fun c hc => .of_bind fun _ => .ok ?_
    obtain ⟨_, ⟨⟩, hc⟩ := deref_eq_ok.mp hc
    have hcoh : c.emmDeregister.sec.Coherent := by
      have hsec : c.emmDeregister.sec = { c.sec with ecm := none } := by
        unfold EMMCtx.emmDeregister
        split <;> rfl
      rw [hsec]
      exact ⟨(hw e c hc).common, (hw e c hc).valid⟩
    have hecm : c.emmDeregister.ecm = none := rfl
    have hlive : w.Lived P →
        ∃ id s11 es, Run (EMMCtx.step P) EMMCtx.Linked (emmInit e id s11) es c.emmDeregister := by
      intro hl
      obtain ⟨id, s11, es, hrun⟩ := hl e c hc
      have hlinked : c.Linked (default, .deregister) := trivial
      exact ⟨id, s11, _, hrun.snoc hlinked rfl⟩
    refine .of_step (coherent_update hw (by simpa using hcoh) rfl) ?_
      fun _ hl => lived_update hl (by simpa using hlive hl) rfl
    have hrel : BindStep K w.binding { w.binding with
        emm := Function.update w.binding.emm id none
        ecm := Function.update w.binding.ecm e (some none) } :=
      .release (p := c.ecm) (by simp [binding, hs, hemm]) (by simp [binding, hc])
    convert hrel using 1
    simp [binding, setEMM, mmeFreeLocalUEid, Function.comp_update, hecm]

theorem drives_ecmSessionFree (hw : w.Coherent) (id : Nat) : Post (w.ecmSessionFree id) (Drives P K Q w) := by
  intro v hv
  refine { moves_ecmSessionFree hw id v hv with events := fun _ _ => ?_ }
  obtain ⟨s, -, hv⟩ := bind_eq_ok.mp hv
  cases hemm : s.emm with
  | none => simp [hemm] at hv
  | some e =>
    obtain ⟨c, hc, hv⟩ := bind_eq_ok.mp (hemm ▸ hv)
    obtain ⟨-, -, hv⟩ := bind_eq_ok.mp hv
    have hend : Guarded Q w (.deregister e) := trivial
    have hder : w.ctxStep P (.deregister e) = .ok (w.setEMM e c.emmDeregister) := bind_eq_ok.mpr ⟨c, hc, rfl⟩
    have hfree : (w.setEMM e c.emmDeregister).ctxStep P (.lower v) = .ok v := by
      cases hv
      rfl
    have hfresh : w.fresh ≤ v.fresh := by
      cases hv
      exact Nat.le_refl _
    have hlow : Guarded Q (w.setEMM e c.emmDeregister) (.lower v) := hfresh
    exact ⟨_, .snoc (.single hend hder) hlow hfree⟩

/-- A session that leaves the table by local identifier is freed. -/
theorem drives_freeOld (hw : w.Coherent) (t : PtrTable UInt32) (old : Option Nat) :
    Post (match old with
      | none => pure { w with ecmSessionsByLocalID := t }
      | some o => ecmSessionFree { w with ecmSessionsByLocalID := t } o) (Drives P K Q w) := by
  have ht : Drives P K Q w { w with ecmSessionsByLocalID := t } := .of_binding hw rfl rfl
  cases old with
  | none => exact .ok ht
  | some o => exact (drives_ecmSessionFree ht.coherent o).mono fun _ hv => ht.trans hv

theorem drives_mmeRegisterECM (hw : w.Coherent) (id : Nat) : Post (w.mmeRegisterECM id) (Drives P K Q w) :=
  Post.of_bind fun _ => .of_bind fun ⟨t, old⟩ => drives_freeOld hw t old

theorem drives_mmeDeregisterECM (hw : w.Coherent) (id : Nat) : Post (w.mmeDeregisterECM id) (Drives P K Q w) :=
  Post.of_bind fun _ => .of_bind fun ⟨t, old⟩ => drives_freeOld hw t old

theorem drives_s1AssocRegisterECMSession (hw : w.Coherent) (a id : Nat) :
    Post (w.s1AssocRegisterECMSession a id) (Drives P K Q w) :=
  Post.of_bind fun _ => .of_bind fun _ => .of_bind fun _ => .ok (.of_binding hw rfl rfl)

theorem drives_s1AssocDeregisterECMSession (hw : w.Coherent) (a id : Nat) :
    Post (w.s1AssocDeregisterECMSession a id) (Drives P K Q w) :=
  Post.of_bind fun _ => .of_bind fun _ => .of_bind fun _ => .ok (.of_binding hw rfl rfl)

/-! ## An initialUEMessage -/

/-- The known context that an initialUEMessage belongs to. -/
def knownEMM (w : MME) (x : Env) (msg : S1APMsg) : Option EMMCtx :=
  match msg.nasPdu with
  | none => none
  | some (buf, size) =>
    match w.findEMM x msg.sTMSI buf size with
    | .ok (some e) => w.emms e
    | _ => none

theorem mem_knownEMM {msg : S1APMsg} {buf : Mem} {size : UInt64} {e : Nat} {c : EMMCtx}
    (hpdu : msg.nasPdu = some (buf, size)) (hfind : w.findEMM x msg.sTMSI buf size = .ok (some e))
    (hc : w.emms e = some c) : c ∈ w.knownEMM x msg := by
  simp [knownEMM, hpdu, hfind, hc]

/-- Binding an unbound session, before an event of the context it is bound to. -/
theorem drives_bindEMM (hw : w.Coherent) {id : Nat} {s t : ECMSession} (hs : w.ecms id = some s)
    (hemm : s.emm = none) {found : Option Nat} (ev : EMMEvent)
    (hK : K → ∀ e c, found = some e → w.emms e = some c → c.ecm = none)
    (hq : ∀ c ∈ found.elim (some (emmInit w.fresh id w.s11)) w.emms, Q.holds w { c with s11 := w.s11 } (x, ev)) :
    Post (w.bindEMM x id t found) fun r => Drives P K Q w r.1 ∧
      r.1.ecms = Function.update w.ecms id (some { t with emm := some r.2 }) ∧ HoldsOn Q x r.1 (some r.2) ev := by
  have hid : w.binding.emm id = some none := by simp [binding, hs, hemm]
  cases found with
  | none =>
    refine .ok ⟨{ Moves.of_step ?_ ?_ fun _ hl => lived_update hl ?_ rfl with events := fun _ _ => ?_ }, rfl, ?_⟩
    · refine coherent_update hw ?_ rfl
      simpa using EMMCtx.emmInit_coherent w.fresh id w.s11
    · have hnew := BindStep.newContext (K := K) hid
      convert hnew using 1
      simp [binding, setEMM, setECM, Function.comp_update, emmInit]
    · intro c hc
      obtain rfl := Option.mem_some.mp hc
      exact ⟨id, w.s11, [], .nil⟩
    · have hset : w.ctxStep P (.lower (w.setECM id { t with emm := some w.fresh })) =
          .ok (w.setECM id { t with emm := some w.fresh }) := rfl
      have hnew : Guarded Q (w.setECM id { t with emm := some w.fresh }) (.new id) := trivial
      exact ⟨_, .snoc (.single (by exact le_rfl) hset) hnew rfl⟩
    · intro e he c hc
      obtain rfl := Option.mem_some.mp he
      obtain rfl : emmInit w.fresh id w.s11 = c := by simpa [setEMM] using hc
      have hlow : w.lowered (w.setECM id { t with emm := some w.fresh }) = w.setECM id { t with emm := some w.fresh } := rfl
      exact Q.new id (Q.lower hlow (hq _ rfl))
  | some e =>
    have hset : w.ctxStep P (.lower (w.setECM id { t with emm := some e })) =
        .ok (w.setECM id { t with emm := some e }) := rfl
    refine .bind_of_eq fun v hv => .ok ?_
    have hreg := hv
    obtain ⟨c, hc, hrest⟩ := bind_eq_ok.mp hv
    obtain ⟨_, ⟨⟩, hc⟩ := deref_eq_ok.mp hc
    replace hc : w.emms e = some c := hc
    obtain ⟨d, hd, -⟩ := bind_eq_ok.mp hrest
    obtain ⟨⟨trace, htrace⟩, acts, hacts, hnone⟩ := EMMCtx.post_emmRegisterECM _ id d hd
    cases hv.symm.trans (onEMM_eq_ok hc hd hacts hnone)
    have hmoves : Moves P K w { (w.setECM id { t with emm := some e }).setEMM e d with s11 := d.s11 } := by
      refine .of_step (coherent_update hw ?_ rfl) ?_ fun hb hl => lived_update hl ?_ rfl
      · have hcoh : d.sec.Coherent := by
          rw [htrace]
          exact ⟨(hw e c hc).common, (hw e c hc).valid⟩
        simpa using hcoh
      · have hecm : d.ecm = some id := by rw [htrace]
        have hconn := BindStep.connect (e := e) hid (by simp [binding, hc])
          fun h => hK h e c rfl hc
        convert hconn using 1
        simp [binding, setEMM, setECM, Function.comp_update, hecm]
      · have hlinked : EMMCtx.Linked { c with s11 := w.s11 }
          ((w.setECM id { t with emm := some e }).env x, .registerECM id) := trivial
        simpa using lived_step hl hc hlinked hd
    refine ⟨{ hmoves with events := fun _ hl => ?_ }, rfl, ?_⟩
    · have hself : Guarded Q (w.setECM id { t with emm := some e }) (.on x e (.registerECM id)) := by
        refine ⟨nofun, fun _ _ _ _ => Q.other not_false, fun c' hc' => ⟨?_, hw e c' hc', trivial⟩⟩
        obtain ⟨_, _, _, hrun⟩ := hl e c' hc'
        exact EMMCtx.self_of_run hrun
      exact ⟨_, .snoc (.single le_rfl hset) hself hreg⟩
    · intro e' he c' hc'
      obtain rfl := Option.mem_some.mp he
      obtain rfl : d = c' := by simpa [setEMM] using hc'
      rw [htrace]
      have hlow : w.lowered (w.setECM id { t with emm := some e }) = w.setECM id { t with emm := some e } := rfl
      exact Q.rebind (c := c) (some id) trace hc (Q.lower hlow (hq c hc))

theorem drives_setECM (hw : w.Coherent) {id : Nat} {s t : ECMSession} (hs : w.ecms id = some s)
    (h : t.emm = s.emm) : Drives P K Q w (w.setECM id t) :=
  .of_binding hw (binding_setECM hs h) rfl

theorem drives_idleProcessMsg (hw : w.Coherent) {id : Nat} {s : ECMSession} (hs : w.ecms id = some s)
    (hemm : s.emm = none) {msg : S1APMsg} (rSid : Nat)
    (hK : K → ∀ c ∈ w.knownEMM x msg, c.ecm = none)
    (hq : ∀ pdu ∈ msg.nasPdu, ∀ c ∈ w.firstRecipient x msg pdu (emmInit w.fresh id w.s11),
      Q.holds w { c with s11 := w.s11 } (x, .uplink pdu.1 pdu.2)) :
    Post (w.idleProcessMsg P x id s msg rSid) (Drives P K Q w) := by
  refine .ite (fun _ => ?_) fun _ => .ok (.of_binding hw rfl rfl)
  refine .of_bind fun eNBUEId => .bind_of_eq fun ⟨buf, size⟩ hpdu => .of_bind fun ⟨sn, tAC⟩ =>
    Post.bind_of_eq fun found hfound => ?_
  have hpdu := ie_eq_ok.mp hpdu
  refine .bind (drives_bindEMM (P := P) (K := K) (Q := Q) hw hs hemm (.uplink buf size) ?_ ?_) ?_
  · rintro h e c rfl hc
    exact hK h c (mem_knownEMM hpdu hfound hc)
  · intro c hc
    refine hq (buf, size) hpdu c ?_
    rw [firstRecipient, hfound]
    cases found with
    | none => exact hc
    | some e => exact hc
  · rintro ⟨v, e⟩ ⟨hv, hecms, hhold⟩
    have hset := drives_setECM (P := P) (K := K) (Q := Q) (t := { s with
      eNBUEId, sn, tAC
      rSid := if rSid ≠ 0 then rSid else s.rSid
      rSidValid := rSid ≠ 0 || s.rSidValid
      emm := some e, stateName := .connected }) hv.coherent
      ((congrFun hecms id).trans (Function.update_self ..)) rfl
    have huplink := drives_onEMM (P := P) (K := K) hset.coherent (.uplink buf size) not_false nofun
      (hhold.lower rfl)
    exact huplink.mono fun u hu => (hv.trans hset).trans hu

/-- An initialUEMessage that meets its context, if the context is known, unbound. -/
def Reconnects (w : MME) : Env × MMEEvent → Prop
  | (x, .s1ap _ msg _) => msg.procedureCode = .initialUEMessage → ∀ c ∈ w.knownEMM x msg, c.ecm = none
  | _ => True

instance (w : MME) (e : Env × MMEEvent) : Decidable (w.Reconnects e) := by
  obtain ⟨x, _ | _⟩ := e <;> unfold Reconnects <;> infer_instance

theorem mmeNewLocalUEid_frame : ∃ ids, w.mmeNewLocalUEid.1 = { w with s1LocalIDs := ids } := by
  unfold mmeNewLocalUEid
  dsimp only
  split
  · exact ⟨w.s1LocalIDs, rfl⟩
  · exact ⟨_, rfl⟩

theorem drives_ecmSessionInit (hw : w.Coherent) (a : Nat) {msg : S1APMsg} (rSid : Nat)
    (hK : K → ∀ c ∈ w.knownEMM x msg, c.ecm = none)
    (hq : ∀ pdu ∈ msg.nasPdu, ∀ c ∈ w.firstRecipient x msg pdu (emmInit (w.fresh + 1) w.fresh w.s11),
      Q.holds w { c with s11 := w.s11 } (x, .uplink pdu.1 pdu.2)) :
    Post (w.ecmSessionInit P x a msg rSid) (Drives P K Q w) := by
  obtain ⟨ids, hids⟩ := w.mmeNewLocalUEid_frame
  have hcreate : ∀ s, s.emm = none →
      Drives P K Q w ({ w with s1LocalIDs := ids, fresh := w.fresh + 1 }.setECM w.fresh s) := by
    intro s hs
    refine .of_lower (.of_step hw ?_ fun _ hl => hl) rfl (Nat.le_succ _)
    have hnew := BindStep.newSession (K := K) (b := w.binding)
    convert hnew using 1
    simp [binding, setECM, Function.comp_update, hs]
  unfold ecmSessionInit
  generalize w.mmeNewLocalUEid = r at hids
  obtain ⟨_, mmeUEId⟩ := r
  cases hids
  have hnew := hcreate ⟨a, none, .idle, false, rSid, mmeUEId, 0, [0, 0, 0], [0, 0], false⟩ rfl
  refine Drives.bind ((drives_idleProcessMsg hnew.coherent (Function.update_self ..) rfl rSid hK ?_).mono
    fun _ h => hnew.trans h) ?_
  · exact fun pdu hpdu c hc => Q.lower (w := w) rfl (hq pdu hpdu c hc)
  · exact fun u hu => Drives.bind (drives_s1AssocRegisterECMSession hu.coherent a _)
      fun t ht => drives_mmeRegisterECM ht.coherent _

/-! ## The messages of a connected session -/

theorem drives_connectedProcedure (hw : w.Coherent) {id : Nat} {s : ECMSession} (hs : w.ecms id = some s)
    {msg : S1APMsg} (hq : msg.procedureCode = .uplinkNASTransport → ∀ pdu ∈ msg.nasPdu,
      HoldsOn Q x w s.emm (.uplink pdu.1 pdu.2)) :
    Post (w.connectedProcedure P x id s msg) (Drives P K Q w) := by
  unfold connectedProcedure
  split
  · have hset := drives_setECM (P := P) (K := K) (Q := Q) (t := { s with causeRelease := false }) hw hs rfl
    exact Drives.bind ((drives_s1AssocDeregisterECMSession hset.coherent _ _).mono fun _ h => hset.trans h)
      fun v hv => drives_mmeDeregisterECM hv.coherent _
  · refine .of_bind fun ok => .ite (fun _ => ?_) fun _ => .ok (.of_binding hw rfl rfl)
    exact drives_unwatched hw (.modifyERABList msg.eRABs none) not_false nofun not_false _
  · rename_i hproc _
    refine .of_bind fun ok => .ite (fun _ => ?_) fun _ => .ok (.of_binding hw rfl rfl)
    refine .bind_of_eq fun ⟨buf, size⟩ hpdu => ?_
    exact drives_onEMM hw (.uplink buf size) not_false nofun (hq hproc _ (ie_eq_ok.mp hpdu))
  · have hset := drives_setECM (P := P) (K := K) (Q := Q) (t := { s with causeRelease := msg.cause }) hw hs rfl
    exact (drives_unwatched hset.coherent (.ueContextReleaseReq id) not_false nofun not_false _).mono
      fun _ h => hset.trans h
  · exact .ok (.of_binding hw rfl rfl)

theorem drives_ecmSessionProcessMsg (hw : w.Coherent) {id : Nat} {msg : S1APMsg} (rSid : Nat)
    (hmsg : ¬ (msg.procedureCode = .initialUEMessage ∧ msg.choice = .initiatingMessage))
    (hq : msg.procedureCode = .uplinkNASTransport → ∀ pdu ∈ msg.nasPdu, ∀ s ∈ w.ecms id,
      HoldsOn Q x w s.emm (.uplink pdu.1 pdu.2)) :
    Post (w.ecmSessionProcessMsg P x id msg rSid) (Drives P K Q w) := by
  refine .bind_of_eq fun s hs => ?_
  obtain ⟨_, ⟨⟩, hs⟩ := deref_eq_ok.mp hs
  have hsame : Drives P K Q w w := .of_binding hw rfl rfl
  cases s.stateName with
  | idle => exact .ite (fun h => absurd h hmsg) fun _ => .ok hsame
  | connected =>
    refine .ite (fun _ => .ok hsame) fun _ => ?_
    have hset := drives_setECM (P := P) (K := K) (Q := Q) (t := { s with rSid, rSidValid := true }) hw hs rfl
    refine (drives_connectedProcedure hset.coherent (Function.update_self ..) ?_).mono fun _ h => hset.trans h
    exact fun hproc pdu hpdu => HoldsOn.lower (hq hproc pdu hpdu s hs) rfl

/-! ## Associations -/

theorem drives_ecmSessionPathSwitchReq (hw : w.Coherent) (p : Option Nat) (a : Nat) (msg : S1APMsg)
    (rSid : Nat) : Post (w.ecmSessionPathSwitchReq P x p a msg rSid) (Drives P K Q w) := by
  cases p with
  | none => exact .error
  | some id =>
    refine .bind_of_eq fun s hs => .of_bind fun _ => ?_
    obtain ⟨_, ⟨⟩, hs⟩ := deref_eq_ok.mp hs
    refine .bind (Q := fun v => Drives P K Q w v ∧ v.ecms = w.ecms) ?_ fun v ⟨hv, hecms⟩ => ?_
    · exact .of_bind fun _ => .of_bind fun _ => .of_bind fun _ =>
        Post.ok ⟨.of_binding hw rfl rfl, rfl⟩
    refine .of_bind fun eNBUEId => ?_
    have hset := drives_setECM (P := P) (K := K) (Q := Q) (t := { s with assoc := a, rSid, eNBUEId }) hv.coherent
      ((congrFun hecms id).trans hs) rfl
    refine .bind (Q := fun u => Drives P K Q w u ∧
        u.ecms = Function.update v.ecms id (some { s with assoc := a, rSid, eNBUEId })) ?_
      fun u ⟨hu, hecms⟩ => .of_bind fun ⟨sn, tAC⟩ => .ite (fun _ => .error) fun _ => ?_
    · exact .of_bind fun _ => .of_bind fun _ => .of_bind fun _ =>
        Post.ok ⟨(hv.trans hset).trans (.of_binding hset.coherent rfl rfl), rfl⟩
    have hset := drives_setECM (P := P) (K := K) (Q := Q) (t := { s with assoc := a, rSid, eNBUEId, sn, tAC }) hu.coherent
      ((congrFun hecms id).trans (Function.update_self ..)) rfl
    exact (drives_unwatched hset.coherent (.modifyERABList msg.eRABs (some id)) not_false nofun not_false _).mono
      fun _ h => (hu.trans hset).trans h

theorem drives_s1AssocFree (hw : w.Coherent) (a : Nat) : Post (w.s1AssocFree x a) (Drives P K Q w) :=
  Post.of_bind fun _ => Drives.bind
    (Drives.foldlM hw (fun _ id hv _ => drives_mmeDeregisterECM hv id) _ (.of_forall (fun _ _ => trivial) _ _))
    fun _ hv => .ok (.of_binding hv.coherent rfl rfl)

theorem drives_s1AssocResetECM (hw : w.Coherent) {id : Nat} (hq : MayReset Q x w id) :
    Post (w.s1AssocResetECM x id) (Drives P K Q w) := by
  refine Drives.bind (.bind_of_eq fun s hs => ?_) fun v hv => drives_mmeDeregisterECM hv.coherent id
  obtain ⟨_, ⟨⟩, hs⟩ := deref_eq_ok.mp hs
  exact drives_onEMM hw .stop not_false nofun (hq s hs)

theorem drives_resetItem (hw : w.Coherent) (a : Nat) {item : ResetItem}
    (hq : ∀ found ∈ (w.resetTarget a item).toOption, ∀ id ∈ found, MayReset Q x w id) :
    Post (w.resetItem x a item) (Drives P K Q w) := by
  have hfound : ∀ found : Option Nat, w.resetTarget a item = .ok found → Post (match found with
      | none => pure w
      | some id => do
        let w ← w.s1AssocDeregisterECMSession a id
        w.s1AssocResetECM x id) (Drives P K Q w) := by
    rintro (_ | id) htarget
    · exact .ok (.of_binding hw rfl rfl)
    · have hmay := hq (some id) (by rw [htarget]; rfl) id rfl
      refine .bind (Q := fun v => Drives P K Q w v ∧ MayReset Q x v id) ?_
        fun v ⟨hv, hreset⟩ => (drives_s1AssocResetECM hv.coherent hreset).mono fun _ h => hv.trans h
      exact .of_bind fun _ => .of_bind fun _ => .of_bind fun _ =>
        Post.ok ⟨.of_binding hw rfl rfl, hmay.lower rfl rfl⟩
  obtain ⟨_ | _, _ | _⟩ := item
  · exact hfound none rfl
  · exact .bind_of_eq hfound
  · exact .bind_of_eq hfound
  · exact .bind_of_eq hfound

theorem drives_processReset (hw : w.Coherent) {a : Nat} {s : S1Assoc} (hs : w.assocs a = some s) {msg : S1APMsg}
    (hq : ∀ t ∈ msg.resetType, MeetsReset Q x w a t) :
    Post (w.processReset x a s msg) (Drives P K Q w) := by
  refine .bind_of_eq fun t ht => ?_
  have hreset := hq t (ie_eq_ok.mp ht)
  cases t with
  | s1Interface =>
    exact Drives.bind (Drives.foldlM hw (fun _ id hv => drives_s1AssocResetECM hv) _ (hreset s hs))
      fun _ hv => .ok (.of_binding hv.coherent rfl rfl)
  | partOfS1Interface items => exact Drives.foldlM hw (fun _ item hv => drives_resetItem hv a) items hreset

theorem drives_pathSwitchRequest (hw : w.Coherent) (a : Nat) (msg : S1APMsg) (rSid : Nat) :
    Post (w.pathSwitchRequest P x a msg rSid) (Drives P K Q w) :=
  Post.of_bind fun _ => .of_bind fun p => drives_ecmSessionPathSwitchReq hw p a msg rSid

/-- UE associated signalling; an uplink NAS transport is for the context of its session. -/
theorem drives_ueAssociated (hw : w.Coherent) (a : Nat) {msg : S1APMsg} (rSid : Nat)
    (hmsg : ¬ (msg.procedureCode = .initialUEMessage ∧ msg.choice = .initiatingMessage))
    (hq : ∀ pdu ∈ msg.nasPdu, ∀ c ∈ w.recipient x a msg pdu,
      Q.holds w { c with s11 := w.s11 } (x, .uplink pdu.1 pdu.2)) :
    Post (w.ueAssociated P x a msg rSid) (Drives P K Q w) := by
  refine .bind_of_eq fun eNBUEId heNB => .bind_of_eq fun found hfound => ?_
  have hsame : Drives P K Q w w := .of_binding hw rfl rfl
  cases found with
  | none => exact .ok hsame
  | some id =>
    refine .of_bind fun _ => .of_bind fun _ => .ite (fun _ => .ok hsame)
      fun _ => drives_ecmSessionProcessMsg hw rSid hmsg fun hproc pdu hpdu s hs e he c hc => ?_
    refine hq pdu hpdu c ?_
    simp [recipient, hproc, ie_eq_ok.mp heNB, hfound, Except.toOption, Option.mem_def.mp hs, Option.mem_def.mp he,
      Option.mem_def.mp hc]

theorem drives_activeProcessMsg (hw : w.Coherent) {a : Nat} {s : S1Assoc} (hs : w.assocs a = some s) {msg : S1APMsg}
    (rSid : Nat) (hK : K → msg.procedureCode = .initialUEMessage → ∀ c ∈ w.knownEMM x msg, c.ecm = none)
    (hq : Meets Q w (x, .s1ap a msg rSid)) :
    Post (w.activeProcessMsg P x a s msg rSid) (Drives P K Q w) := by
  obtain ⟨hreset, hpdu⟩ := hq
  have hinit : msg.procedureCode = .initialUEMessage → Post (w.ecmSessionInit P x a msg rSid) (Drives P K Q w) := by
    intro hproc
    refine drives_ecmSessionInit hw a rSid (fun h => hK h hproc) fun pdu hmem c hc => hpdu pdu hmem c ?_
    rw [recipient, hproc]
    exact hc
  refine .ite (fun _ => ?_) fun _ => ?_
  · split
    · exact drives_processReset hw hs (hreset ‹_›)
    · rename_i hproc _
      exact hinit hproc
    · exact drives_pathSwitchRequest hw a msg rSid
    · exact .ok (.of_binding hw rfl rfl)
  · split
    · rename_i hproc _
      exact hinit hproc
    · exact drives_pathSwitchRequest hw a msg rSid
    · rename_i hnot _
      exact drives_ueAssociated hw a rSid (fun h => hnot h.1 h.2) hpdu

theorem drives_notConfiguredProcessMsg (hw : w.Coherent) (a : Nat) (s : S1Assoc) (msg : S1APMsg)
    (rSid : Nat) : Post (w.notConfiguredProcessMsg x a s msg rSid) (Drives P K Q w) := by
  have hset : Drives P K Q w (w.setAssoc a { s with nonueRsid := rSid }) := .of_binding hw rfl rfl
  refine .ite (fun _ => .ok hset) fun _ => .ite (fun _ => .error) fun _ => ?_
  split
  · exact .ok hset
  · exact (drives_s1AssocFree hset.coherent a).mono fun _ h => hset.trans h
  · exact .ok (hset.trans (.of_binding hset.coherent rfl rfl))

/-! ## Every event -/

/-- An event is a run of events of the contexts; they meet a condition if the event does. -/
theorem drives_step (hw : w.Coherent) {e : Env × MMEEvent} (hK : K → w.Reconnects e) (hq : Meets Q w e) :
    Post (w.step P e) (Drives P K Q w) := by
  obtain ⟨x, e⟩ := e
  cases e with
  | accept => exact .ok (.of_lower (.of_step hw .newAssoc fun _ hl => hl) rfl (Nat.le_succ _))
  | s1ap a msg rSid =>
    refine .bind_of_eq fun s hs => ?_
    obtain ⟨_, ⟨⟩, hs⟩ := deref_eq_ok.mp hs
    exact .ite (fun _ => drives_activeProcessMsg hw hs rSid hK hq)
      fun _ => drives_notConfiguredProcessMsg hw a s msg rSid
  | closed a => exact drives_s1AssocFree hw a
  | timer e code => exact drives_onEMM hw (.timer code) not_false nofun hq
  | s11 pkt =>
    unfold step
    dsimp only
    split
    · exact .ok (.of_binding hw rfl rfl)
    · rename_i u hu
      exact drives_onEMM hw (.s11 pkt) not_false nofun (hq u hu)

theorem meets_any (e : Env × MMEEvent) : Meets .any w e := by
  obtain ⟨x, e⟩ := e
  cases e with
  | s1ap a msg rSid =>
    refine ⟨fun _ t _ => ?_, fun _ _ _ _ => trivial⟩
    cases t with
    | s1Interface => exact fun s _ => .of_forall (fun _ _ _ _ _ _ _ _ => trivial) _ _
    | partOfS1Interface items => exact .of_forall (fun _ _ _ _ _ _ _ _ _ _ _ _ => trivial) _ _
  | timer => exact fun _ _ _ _ => trivial
  | s11 => exact fun _ _ _ _ _ _ => trivial
  | accept | closed => trivial

theorem moves_step (hw : w.Coherent) {e : Env × MMEEvent} (hK : K → w.Reconnects e) :
    Post (w.step P e) (Moves P K w) :=
  (drives_step hw hK (meets_any e)).mono fun _ hv => hv.toMoves

/-! ## Runs -/

theorem init_coherent (r : UInt8) : (MME.init r).Coherent := by
  intro e c hc
  simp [init] at hc

theorem init_bound (r : UInt8) : Bound K (MME.init r).binding where
  freshSession _ _ := rfl
  freshContext _ _ := rfl
  allocated := nofun
  live := nofun
  current _ := nofun

theorem bound_of_run {r : UInt8} {Q : MME → Env × MMEEvent → Prop} {es : List (Env × MMEEvent)}
    (hQ : ∀ v e, K → Q v e → v.Reconnects e) (h : Run (step P) Q (init r) es w) :
    w.Coherent ∧ Bound K w.binding := by
  refine h.invariant (I := fun v => v.Coherent ∧ Bound K v.binding) ?_ ⟨init_coherent r, init_bound r⟩
  intro v e u ⟨hv, hb⟩ hq hu
  have hmoves := moves_step hv (fun hk => hQ v e hk hq) u hu
  exact ⟨hmoves.coherent, hmoves.steps.bound hb⟩

/-- In every run each context is what a run of the EMM context alone made of it. -/
theorem lived_of_run {r : UInt8} {es : List (Env × MMEEvent)}
    (h : Run (step P) (fun _ _ => True) (init r) es w) : w.Lived P := by
  have hinv := h.invariant (I := fun v => (v.Coherent ∧ Bound False v.binding) ∧ v.Lived P) ?_
    ⟨⟨init_coherent r, init_bound r⟩, fun e c hc => by simp [init] at hc⟩
  · exact hinv.2
  · rintro v e u ⟨⟨hv, hb⟩, hl⟩ - hu
    have hmoves := moves_step hv False.elim u hu
    exact ⟨⟨hmoves.coherent, hmoves.steps.bound hb⟩, hmoves.lived hb hl⟩

theorem ctxRun_of_step {r : UInt8} {es : List (Env × MMEEvent)} {e : Env × MMEEvent}
    (h : Run (step P) (fun _ _ => True) (init r) es w) (hq : Meets Q w e) (hv : w.step P e = .ok v) :
    ∃ ces, Run (ctxStep P) (Guarded Q) w ces v := by
  obtain ⟨hw, hb⟩ := bound_of_run (K := False) (fun _ _ h _ => h.elim) h
  exact (drives_step hw False.elim hq v hv).events hb (lived_of_run h)

/-- Every run of the MME is a run of events of the contexts; they meet a condition if the events of the run do. -/
theorem ctxRun_of_run {r : UInt8} {es : List (Env × MMEEvent)} (h : Run (step P) (Meets Q) (init r) es w) :
    ∃ ces, Run (ctxStep P) (Guarded Q) (init r) ces w := by
  induction h with
  | nil => exact ⟨[], .nil⟩
  | snoc hrun hq hv ih =>
    obtain ⟨ces, hces⟩ := ih
    obtain ⟨ces', hces'⟩ := ctxRun_of_step (hrun.mono fun _ _ _ => trivial) hq hv
    exact ⟨ces ++ ces', hces.trans hces'⟩

/-- Every context points to no session or to a live one that is bound to it. -/
def EcmLive (w : MME) : Prop :=
  ∀ e c, w.emms e = some c → c.ecm = none ∨ ∃ id s, c.ecm = some id ∧ w.ecms id = some s ∧ s.emm = some e

theorem ecmLive_of_bound (h : Bound K w.binding) : w.EcmLive := by
  intro e c hc
  cases hecm : c.ecm with
  | none => exact .inl rfl
  | some id =>
    have hlive := h.live e id (by simp [binding, hc, hecm])
    obtain ⟨s, hs, hemm⟩ := Option.map_eq_some_iff.mp hlive
    exact .inr ⟨id, s, rfl, hs, hemm⟩

/-- `ecmSession_free` clears the pointer of a context only if it is to the session. -/
def FreesOwn (w : MME) : Prop :=
  ∀ id v, w.ecmSessionFree id = .ok v → ∀ e c d, w.emms e = some c → v.emms e = some d →
    d.ecm ≠ c.ecm → c.ecm = some id

theorem freesOwn_of_bound (hK : K) (h : Bound K w.binding) : w.FreesOwn := by
  intro id v hv e c d hc hd hne
  obtain ⟨s, hs, hv⟩ := bind_eq_ok.mp hv
  obtain ⟨_, ⟨⟩, hs⟩ := deref_eq_ok.mp hs
  cases hemm : s.emm with
  | none => simp [hemm] at hv
  | some i =>
    obtain ⟨c', hc', hv⟩ := bind_eq_ok.mp (hemm ▸ hv)
    obtain ⟨_, -, hv⟩ := bind_eq_ok.mp hv
    have hemms : v.emms = Function.update w.emms i (some c'.emmDeregister) := by
      cases hv
      rfl
    by_cases hi : e = i
    · subst hi
      exact h.current hK id e c.ecm (by simp [binding, hs, hemm]) (by simp [binding, hc])
    · rw [hemms, Function.update_of_ne hi, hc] at hd
      cases hd
      exact absurd rfl hne

/-! ## A sample eNodeB and UE -/

namespace Sample

def pdu (l : List UInt8) : Option (Mem × UInt64) := some (.ofList l, UInt64.ofNat l.length)

/-- An S1AP message of a UE of the eNodeB, with both its identifiers. -/
def ueMsg (procedureCode : S1Procedure) (choice : S1Choice) (mmeUEId eNBUEId : UInt32) : S1APMsg :=
  { S1APMsg.new procedureCode choice with mmeUEId := some mmeUEId, eNBUEId := some eNBUEId }

def initialUEMessage (eNBUEId : UInt32) (sTMSI : Option UInt32) (l : List UInt8) : MMEEvent :=
  .s1ap 0 { S1APMsg.new .initialUEMessage .initiatingMessage with
    eNBUEId := some eNBUEId, nasPdu := pdu l, tAI := some ([0x02, 0xf8, 0x39], [0, 1]), sTMSI, eCGI := true } 1

def uplinkNASTransport (mmeUEId eNBUEId : UInt32) (l : List UInt8) : MMEEvent :=
  .s1ap 0 { ueMsg .uplinkNASTransport .initiatingMessage mmeUEId eNBUEId with nasPdu := pdu l } 1

def ueContextReleaseComplete (mmeUEId eNBUEId : UInt32) : MMEEvent :=
  .s1ap 0 (ueMsg .uEContextRelease .successfulOutcome mmeUEId eNBUEId) 1

/-- An InitialContextSetupResponse with the bearer 5. -/
def initialContextSetupResponse (mmeUEId eNBUEId : UInt32) : MMEEvent :=
  .s1ap 0 { ueMsg .initialContextSetup .successfulOutcome mmeUEId eNBUEId with
    eRABs := some [⟨5, [0, 0, 0, 4], 32, [10, 0, 0, 9]⟩] } 1

/-- A packet of the serving gateway for the user with the TEID 1. -/
def s11 (type : UInt8) (seq : UInt32) (ies : List GtpIE) : MMEEvent :=
  .s11 ⟨some ⟨0x0a000001, 2123⟩, type, 1, seq, ⟨2, 0, [16, 0]⟩ :: ies⟩

/-- An eNodeB connects, and the UE with the eNB identifier 7 attaches: it gets the session 1 and the
context 2, with the M-TMSI 1315886081. -/
def attach : List (Env × MMEEvent) :=
  [(Sample.env .manyRows, .accept),
    (Sample.env .manyRows, .s1ap 0 { S1APMsg.new .s1Setup .initiatingMessage with
      supportedTAs := some true, globalENBId := true } 0),
    (Sample.env (.vector (Sample.quadruplet (List.replicate 32 0))), initialUEMessage 7 none
      [0x07, 0x41, 0x71, 0x08, 0x29, 0x80, 0x39, 0x00, 0x00, 0x00, 0x00, 0x10, 0x02, 0xe0, 0xe0, 0x00,
        0x04, 0x02, 0x01, 0xd0, 0x11]),
    (Sample.env .manyRows, uplinkNASTransport 1 7 [0x07, 0x53, 0x08, 1, 2, 3, 4, 5, 6, 7, 8]),
    (Sample.env .manyRows, uplinkNASTransport 1 7 [0x47, 0x2d, 0xfd, 0x7f, 0x9a, 0x00, 0x07, 0x5e]),
    (Sample.env .manyRows, s11 33 0 [⟨87, 0, [0x8b, 0, 0, 0, 9, 10, 0, 0, 1]⟩, ⟨79, 0, [1, 10, 0, 0, 7]⟩,
      ⟨93, 0, [73, 0, 1, 0, 5, 87, 0, 9, 0, 0x81, 0, 0, 0, 3, 10, 0, 0, 1]⟩]),
    (Sample.env .manyRows, uplinkNASTransport 1 7
      [0x27, 0x19, 0x6a, 0xb4, 0x55, 0x01, 0x07, 0x43, 0x00, 0x03, 0x52, 0x00, 0xc2]),
    (Sample.env .manyRows, initialContextSetupResponse 1 7),
    (Sample.env .manyRows, s11 35 1 [])]

end Sample

/-! ## The binding in every run -/

/-- In every run, however the UEs reconnect, a context points to no session or to a live one that is bound to it. -/
theorem ecmLive_of_run {r : UInt8} {es : List (Env × MMEEvent)}
    (h : Run (step P) (fun _ _ => True) (init r) es w) : w.EcmLive :=
  ecmLive_of_bound (K := False) (bound_of_run (fun _ _ h _ => h.elim) h).2

theorem ecmLive_of_run_attach : ∃ w, Run (step Prims.zeroKasme) (fun _ _ => True) (init 0) Sample.attach w ∧
    w.binding.ecm 2 = some (some 1) ∧ w.EcmLive :=
  Run.exists_of_exec (fun w => w.binding.ecm 2 = some (some 1)) (by decide +kernel) fun _ hrun hecm =>
    ⟨hecm, ecmLive_of_run hrun⟩

/-- In every run in which an initialUEMessage only meets unbound contexts, every context points to no
session or to a live one that is bound to it, freeing a session clears the pointer to that session only,
and an event after which a context has lost its session has freed the session. -/
theorem ecm_binding_of_run {r : UInt8} {es : List (Env × MMEEvent)}
    (h : Run (step P) Reconnects (init r) es w) :
    w.EcmLive ∧ w.FreesOwn ∧
      ∀ ev v, w.Reconnects ev → w.step P ev = .ok v → ∀ e c d id, w.emms e = some c → v.emms e = some d →
        c.ecm = some id → d.ecm = none → v.ecms id = none := by
  obtain ⟨hw, hb⟩ := bound_of_run (K := True) (fun _ _ _ h => h) h
  refine ⟨ecmLive_of_bound hb, freesOwn_of_bound trivial hb, ?_⟩
  intro ev v hev hv e c d id hc hd hid hnone
  have hmoves := moves_step (K := True) hw (fun _ => hev) v hv
  have hrel := hmoves.steps.released trivial hb (c := id) (e := e) (by simp [binding, hc, hid])
    (by simp [binding, hd, hnone])
  exact Option.map_eq_none_iff.mp hrel

/-- The UE attaches and its connection is released. -/
theorem ecm_binding_of_run_release :
    ∃ w v c d, Run (step Prims.zeroKasme) Reconnects (init 0) Sample.attach w ∧
      w.step Prims.zeroKasme (Sample.env .manyRows, Sample.ueContextReleaseComplete 1 7) = .ok v ∧
      w.emms 2 = some c ∧ c.ecm = some 1 ∧ v.emms 2 = some d ∧ d.ecm = none ∧
      w.EcmLive ∧ w.FreesOwn ∧ v.ecms 1 = none := by
  simp only [exists_and_left]
  refine Run.exists_step_of_exec (fun w _ v => w.binding.ecm 2 = some (some 1) ∧ v.binding.ecm 2 = some none)
    (by decide +kernel) ?_
  rintro w v hrun hv ⟨hc, hd⟩
  obtain ⟨c, hc, hecm⟩ := Option.map_eq_some_iff.mp hc
  obtain ⟨d, hd, hnone⟩ := Option.map_eq_some_iff.mp hd
  obtain ⟨hlive, hfree, hstep⟩ := ecm_binding_of_run hrun
  exact ⟨c, hc, hecm, d, hd, hnone, hlive, hfree, hstep _ v (by exact nofun) hv 2 c d 1 hc hd hecm hnone⟩

/-- The UE reconnects with its S-TMSI, and gets the session 3.  The UEContextReleaseComplete of the
session 1 then takes the context from the session 3, which stays bound to the context. -/
theorem ecm_detached_by_old_release :
    ∃ w v c d s, Run (step Prims.zeroKasme) (fun _ _ => True) (init 0)
        (Sample.attach ++
          [(Sample.env .manyRows, Sample.initialUEMessage 8 (some 1315886081) [0xc7, 0x02, 0x00, 0x00])]) w ∧
      w.step Prims.zeroKasme (Sample.env .manyRows, Sample.ueContextReleaseComplete 1 7) = .ok v ∧
      w.emms 2 = some c ∧ c.ecm = some 3 ∧ v.emms 2 = some d ∧ d.ecm = none ∧
      v.ecms 1 = none ∧ v.ecms 3 = some s ∧ s.emm = some 2 := by
  simp only [exists_and_left]
  refine Run.exists_step_of_exec (fun w _ v => w.binding.ecm 2 = some (some 3) ∧ v.binding.ecm 2 = some none ∧
    v.binding.emm 1 = none ∧ v.binding.emm 3 = some (some 2)) (by decide +kernel) ?_
  rintro w v - - ⟨hc, hd, hold, hs⟩
  obtain ⟨c, hc, hecm⟩ := Option.map_eq_some_iff.mp hc
  obtain ⟨d, hd, hnone⟩ := Option.map_eq_some_iff.mp hd
  exact ⟨c, hc, hecm, d, hd, hnone, Option.map_eq_none_iff.mp hold, Option.map_eq_some_iff.mp hs⟩

end MME

end AaltoMME
