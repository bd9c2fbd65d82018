import AaltoMME.Base.Index
import AaltoMME.EMM.Changes.Step
import AaltoMME.MME.Connections

/-!
# Temporary identities

`ecmSession_newGUTI` computes an M-TMSI from the IMSI without a look at the table of contexts, and
`mme_registerEMMCtxt` frees the context that the table has under the same M-TMSI.  So two subscribers whose
M-TMSIs collide cannot be known at once.  The table even keeps the pointer to the M-TMSI of the freed context as
the key of the new one.  As long as an M-TMSI is not 0 and not in use when it is given to a context, the table is
the index of the contexts that have one.
-/

namespace AaltoMME

open Base NAS PtrTable

variable {P : Prims} {c d : EMMCtx} {e : Env × EMMEvent}

/-! ## The salt

The M-TMSI is the hash of the IMSI and `r & r << 32`, where `r` has 32 bits. -/

/-- The argument of the hash in `ecmSession_newGUTI`. -/
def hashInput (imsi r : UInt64) : UInt64 := imsi ^^^ (r &&& (r <<< 32))

theorem hashInput_eq {r : UInt64} (hr : r.toNat < 2 ^ 32) (imsi : UInt64) : hashInput imsi r = imsi := by
  rw [hashInput, EMMCtx.salt_eq_zero hr, UInt64.xor_zero]

theorem mtmsi_emmCtxNewGUTI {env : Env} (hzero : c.guti.mtmsi = 0) (h : c.emmCtxNewGUTI P env = .ok d) :
    ∃ s emm, c.derefEcm env = .ok s ∧ c.ofEcm env s = .ok emm ∧
      d.guti.mtmsi = P.gInt64Hash (hashInput emm.imsi env.rand.toUInt64) := by
  rw [EMMCtx.emmCtxNewGUTI, if_neg (not_not.mpr hzero)] at h
  obtain ⟨s, hs, h⟩ := bind_eq_ok.mp h
  obtain ⟨emm, hemm, h⟩ := bind_eq_ok.mp h
  cases h
  exact ⟨s, emm, hs, hemm, rfl⟩

/-- **The salt of the M-TMSI.** For every IMSI there are two random values of `k` bits with different arguments of
the hash if and only if `k` is more than 32, the number of bits that the source has. -/
theorem mtmsi_salted_iff (k : Nat) : (∀ imsi : UInt64, ∃ r r' : UInt64, r.toNat < 2 ^ k ∧ r'.toNat < 2 ^ k ∧
    hashInput imsi r ≠ hashInput imsi r') ↔ 32 < k := by
  constructor
  · intro h
    by_contra hk
    have hle : 2 ^ k ≤ 2 ^ 32 := Nat.pow_le_pow_right Nat.two_pos (Nat.le_of_not_lt hk)
    obtain ⟨r, r', hr, hr', hne⟩ := h 0
    rw [hashInput_eq (Nat.lt_of_lt_of_le hr hle), hashInput_eq (Nat.lt_of_lt_of_le hr' hle)] at hne
    exact hne rfl
  · intro hk imsi
    have hle : 2 ^ 33 ≤ 2 ^ k := Nat.pow_le_pow_right Nat.two_pos hk
    refine ⟨0x100000001, 0, Nat.lt_of_lt_of_le (by decide) hle, Nat.two_pow_pos k, fun heq => ?_⟩
    simp only [hashInput, UInt64.xor_right_inj] at heq
    exact absurd heq (by decide)

/-- No two random values of the source have different arguments of the hash, and a context gets the hash of its
IMSI. -/
theorem not_mtmsi_salted : (∀ (imsi : UInt64) (r r' : UInt32), hashInput imsi r.toUInt64 = hashInput imsi r'.toUInt64) ∧
    ∀ (P : Prims) (env : Env) (c d : EMMCtx), c.guti.mtmsi = 0 → c.emmCtxNewGUTI P env = .ok d →
      ∃ s emm, c.derefEcm env = .ok s ∧ c.ofEcm env s = .ok emm ∧ d.guti.mtmsi = P.gInt64Hash emm.imsi := by
  have hinput : ∀ (imsi : UInt64) (r : UInt32), hashInput imsi r.toUInt64 = imsi :=
    fun imsi r => hashInput_eq (r := r.toUInt64) (UInt32.toNat_lt r) imsi
  refine ⟨fun imsi r r' => (hinput imsi r).trans (hinput imsi r').symm, fun P env c d hzero h => ?_⟩
  obtain ⟨s, emm, hs, hemm, hmtmsi⟩ := mtmsi_emmCtxNewGUTI hzero h
  exact ⟨s, emm, hs, hemm, by rw [hmtmsi, hinput]⟩

/-! ## One event of a context -/

/-- What becomes of the M-TMSI of a context that an event finds as `c`: nothing, or the context gets its first one and
is registered under it. -/
structure EMMView.Assigns (P : Prims) (c : EMMCtx) (e : Env × EMMEvent) (v : EMMView) : Prop where
  self : v.self = c.self
  ecm : ¬ e.2.Rebinds → v.ecm = c.ecm
  mtmsi : (v.mtmsi = c.guti.mtmsi ∧ v.registrations = c.emmView.registrations) ∨
    (c.guti.mtmsi = 0 ∧ c.MayGetGUTI P e ∧ v.mtmsi = P.gInt64Hash (c.imsiAfter P e) ∧
      v.registrations = (c.self, v.mtmsi) :: c.emmView.registrations)

namespace EMMCtx

theorem MayGetGUTI.event (h : c.MayGetGUTI P e) : (∃ buf size, e.2 = .uplink buf size) ∨ ∃ pkt, e.2 = .s11 pkt := by
  obtain ⟨env, ev⟩ := e
  rcases h with ⟨hauth, -⟩ | ⟨-, hs11⟩
  · have htakes : ∃ m, m ∈ c.takes P (env, ev) := by
      rcases hauth with ⟨-, m, hm, -⟩ | ⟨-, m, hm, -⟩ | ⟨-, m, hm, -⟩ <;> exact ⟨m, hm⟩
    obtain ⟨m, hm⟩ := htakes
    cases ev with
    | uplink buf size => exact .inl ⟨buf, size, rfl⟩
    | _ => cases hm
  · exact .inr hs11

theorem MayGetGUTI.not_rebinds (h : c.MayGetGUTI P e) : ¬ e.2.Rebinds := by
  rcases h.event with ⟨buf, size, heq⟩ | ⟨pkt, heq⟩ <;> rw [heq] <;> exact not_false

theorem MayGetGUTI.watched (h : c.MayGetGUTI P e) : e.2.Watched := by
  rcases h.event with ⟨buf, size, heq⟩ | ⟨pkt, heq⟩ <;> rw [heq] <;> trivial

theorem MayGetGUTI.bound (h : c.MayGetGUTI P e) (hlinked : c.Linked e) : c.Bound e.1 := by
  obtain ⟨env, ev⟩ := e
  rcases h.event with ⟨buf, size, rfl⟩ | ⟨pkt, rfl⟩ <;> exact hlinked

theorem assigns_step (hlinked : c.Linked e)
    (hhash : c.guti.mtmsi = 0 → c.MayGetGUTI P e → P.gInt64Hash (c.imsiAfter P e) ≠ 0) :
    Post (c.step P e) fun d => d.emmView.Assigns P c e := by
  intro d hd
  refine (changes_step c e d hd).invariant (I := fun v => v.Assigns P c e) ?_ ⟨rfl, fun _ => rfl, .inl ⟨rfl, rfl⟩⟩
  intro v w hv hw
  cases hw with
  | newGUTI hzero hmay himsi hnew =>
    have hbound : v.Bound e.1 := by
      intro id s hid hs
      rw [hv.self]
      rw [hv.ecm hmay.not_rebinds] at hid
      exact hmay.bound hlinked id s hid hs
    obtain ⟨rfl, rfl, rfl⟩ := hnew hbound
    refine ⟨hv.self, hv.ecm, .inr ?_⟩
    rcases hv.mtmsi with ⟨hm, hr⟩ | ⟨hm, -, hv', -⟩
    · exact ⟨hm.symm.trans hzero, hmay, by rw [himsi], by rw [hr, hv.self]⟩
    · exact absurd (hv'.symm.trans hzero) (hhash hm hmay)
  | bind hbind =>
    refine ⟨hv.self, (absurd ?_), hv.mtmsi⟩
    rcases hbind with ⟨id, heq⟩ | heq <;> rw [heq] <;> trivial
  | _ => exact ⟨hv.self, hv.ecm, hv.mtmsi⟩

theorem registrations_step (hc : c.sec.Coherent) (hlinked : c.Linked e)
    (hhash : c.guti.mtmsi = 0 → c.MayGetGUTI P e → P.gInt64Hash (c.imsiAfter P e) ≠ 0)
    (hd : c.step P e = .ok d) :
    ∃ acts, d.trace = acts ++ c.trace ∧ d.self = c.self ∧
      ((d.guti.mtmsi = c.guti.mtmsi ∧ acts.filterMap Act.registration = []) ∨
        (c.guti.mtmsi = 0 ∧ c.MayGetGUTI P e ∧ d.guti.mtmsi = P.gInt64Hash (c.imsiAfter P e) ∧
          acts.filterMap Act.registration = [(c.self, d.guti.mtmsi)])) := by
  obtain ⟨acts, htrace⟩ := trace_step hc e d hd
  obtain ⟨hself, -, hcases⟩ := assigns_step hlinked hhash d hd
  have hregs : d.emmView.registrations = acts.filterMap Act.registration ++ c.emmView.registrations := by
    show d.trace.filterMap _ = _
    rw [htrace, List.filterMap_append]
    rfl
  refine ⟨acts, htrace, hself, ?_⟩
  rcases hcases with ⟨hm, hr⟩ | ⟨hzero, hmay, hm, hr⟩
  · exact .inl ⟨hm, List.append_left_eq_self.mp (hregs.symm.trans hr)⟩
  · exact .inr ⟨hzero, hmay, hm, List.append_left_inj _ |>.mp (hregs.symm.trans hr)⟩

end EMMCtx

namespace MME

variable {w v : MME} {i j : Nat}

/-! ## The condition -/

/-- A context that has no M-TMSI gets one that is not 0 and that no registered context has. -/
def AssignsNew (P : Prims) (w : MME) (c : EMMCtx) (e : Env × EMMEvent) : Prop :=
  c.guti.mtmsi = 0 → c.MayGetGUTI P e →
    P.gInt64Hash (c.imsiAfter P e) ≠ 0 ∧
      ∀ en ∈ w.emmSessions, ∀ d ∈ w.emms en.value, d.guti.mtmsi ≠ P.gInt64Hash (c.imsiAfter P e)

instance : Decidable (AssignsNew P w c e) := by
  unfold AssignsNew
  infer_instance

theorem AssignsNew.update (h : AssignsNew P w c e) (hv : v.emmSessions = w.emmSessions) {o : Option EMMCtx}
    (hemms : v.emms = Function.update w.emms i o)
    (ho : ∀ d ∈ o, d.guti.mtmsi = 0 ∨ ∃ d' ∈ w.emms i, d.guti.mtmsi = d'.guti.mtmsi) : AssignsNew P v c e := by
  intro hzero hmay
  obtain ⟨hne, hnew⟩ := h hzero hmay
  refine ⟨hne, fun en hen d hd => ?_⟩
  rw [hv] at hen
  rw [hemms, Function.update_apply] at hd
  split at hd
  · rename_i heq
    rcases ho d hd with hd0 | ⟨d', hd', hsame⟩
    · rw [hd0]
      exact hne.symm
    · rw [hsame]
      exact hnew en hen d' (heq ▸ hd')
  · exact hnew en hen d hd

/-- The condition on the events of the contexts. -/
def assignsNew (P : Prims) : CtxCondition where
  holds := AssignsNew P
  lower hlow h := by
    rw [← hlow]
    exact h
  new id h := h.update rfl rfl fun d hd => .inl (by obtain rfl := Option.mem_some.mp hd; rfl)
  rebind {w i c e} ecm trace hc h := by
    have hrebind : AssignsNew P w { c with s11 := w.s11, ecm, trace } e := by
      intro hzero hmay
      rw [EMMCtx.imsiAfter_rebind P { c with s11 := w.s11 } e w.s11 ecm trace]
      exact h hzero ((EMMCtx.mayGetGUTI_rebind P { c with s11 := w.s11 } e w.s11 ecm trace).mp hmay)
    refine hrebind.update rfl rfl fun d hd => .inr ⟨c, hc, ?_⟩
    obtain rfl := Option.mem_some.mp hd
    rfl
  env {w c x ev} u h := by
    cases ev <;> exact h
  other hun _ hmay := absurd hmay.watched hun

instance (w : MME) (c : EMMCtx) (e : Env × EMMEvent) : Decidable ((assignsNew P).holds w c e) :=
  inferInstanceAs (Decidable (AssignsNew P w c e))

/-! ## The table -/

def mtmsis (w : MME) (i : Nat) : Option UInt32 := (w.emms i).map (·.guti.mtmsi)

theorem mtmsiKey_eq (w : MME) (i : Nat) : w.mtmsiKey i = (w.mtmsis i).elim (.error .useAfterFree) .ok := by
  unfold mtmsiKey mtmsis
  cases hi : w.emms i <;> simp [deref, hi]

theorem mtmsiKey_eq_ok {m : UInt32} : w.mtmsiKey i = .ok m ↔ w.mtmsis i = some m := by
  rw [mtmsiKey_eq]
  cases w.mtmsis i <;> simp

def HasTMSI (w : MME) (i : Nat) : Prop := ∃ m, w.mtmsis i = some m ∧ m ≠ 0

/-- The table is the index of the contexts that have an M-TMSI. -/
structure Indexed (w : MME) : Prop where
  fresh : ∀ i, w.fresh ≤ i → w.mtmsis i = none
  index : Indexes gIntHash w.mtmsiKey w.HasTMSI w.emmSessions

theorem mtmsis_update {o : Option EMMCtx} (h : v.emms = Function.update w.emms i o) :
    v.mtmsis = Function.update w.mtmsis i (o.map (·.guti.mtmsi)) := by
  funext j
  rw [mtmsis, h, Function.update_apply, Function.update_apply]
  split <;> rfl

namespace Indexed

theorem congr (h : w.Indexed) (hm : v.mtmsis = w.mtmsis) (ht : v.emmSessions = w.emmSessions)
    (hfresh : w.fresh ≤ v.fresh) : v.Indexed where
  fresh i hi := by
    rw [hm]
    exact h.fresh i (le_trans hfresh hi)
  index := by
    rw [ht]
    refine h.index.congr (fun i => ?_) fun i _ => ?_
    · rw [HasTMSI, HasTMSI, hm]
    · rw [mtmsiKey_eq, mtmsiKey_eq, hm]

theorem set (h : w.Indexed) (hc : w.emms i = some c) (hd : d.guti.mtmsi = c.guti.mtmsi)
    (hv : v.emms = Function.update w.emms i (some d)) (ht : v.emmSessions = w.emmSessions)
    (hfresh : w.fresh ≤ v.fresh) : v.Indexed := by
  refine h.congr ?_ ht hfresh
  have hsame : w.mtmsis i = some d.guti.mtmsi := by
    rw [mtmsis, hc, hd]
    rfl
  rw [mtmsis_update hv, Option.map_some, ← hsame, Function.update_eq_self]

theorem newEMM (h : w.Indexed) (id : Nat) : (w.newEMM id).Indexed := by
  have hm : (w.newEMM id).mtmsis = Function.update w.mtmsis w.fresh (some 0) :=
    mtmsis_update (o := some (emmInit w.fresh id w.s11)) rfl
  have hnone : w.mtmsis w.fresh = none := h.fresh _ (Nat.le_refl _)
  refine ⟨fun i hi => ?_, h.index.congr (fun i => ?_) fun i hi => ?_⟩
  · have hlt : w.fresh < i := hi
    rw [hm, Function.update_of_ne (Nat.ne_of_gt hlt)]
    exact h.fresh i (Nat.le_of_lt hlt)
  · rw [HasTMSI, HasTMSI, hm, Function.update_apply]
    split
    · rename_i heq
      simp [heq, hnone]
    · rfl
  · obtain ⟨m, hi, -⟩ := hi
    have hne : i ≠ w.fresh := by
      rintro rfl
      rw [hnone] at hi
      cases hi
    rw [mtmsiKey_eq, mtmsiKey_eq, hm, Function.update_of_ne hne]

/-- A context with a new M-TMSI is registered, and no context is freed. -/
theorem register (h : w.Indexed) (hc : w.emms i = some c) (hzero : c.guti.mtmsi = 0) (hd : d.guti.mtmsi ≠ 0)
    (hnew : ∀ en ∈ w.emmSessions, ∀ c ∈ w.emms en.value, c.guti.mtmsi ≠ d.guti.mtmsi)
    (hv : v.emms = Function.update w.emms i (some d)) (ht : v.emmSessions = w.emmSessions) (hfresh : v.fresh = w.fresh) :
    ∃ t, v.mmeRegisterEMMCtxt i = .ok { v with emmSessions := t } ∧ ({ v with emmSessions := t } : MME).Indexed := by
  have hm : v.mtmsis = Function.update w.mtmsis i (some d.guti.mtmsi) := mtmsis_update hv
  have hi : w.mtmsis i = some 0 := by
    rw [mtmsis, hc, ← hzero]
    rfl
  have hne : ∀ j, w.HasTMSI j → j ≠ i := by
    rintro j ⟨m, hj, hm0⟩ rfl
    exact hm0 (Option.some.inj (hj.symm.trans hi))
  have hkey := mtmsiKey_eq_ok.mpr (by rw [hm, Function.update_self])
  -- the other contexts keep their M-TMSIs, which are not the new one
  have hread : ∀ j, w.HasTMSI j → v.mtmsiKey j = w.mtmsiKey j := by
    intro j hj
    rw [mtmsiKey_eq, mtmsiKey_eq, hm, Function.update_of_ne (hne j hj)]
  have hother : ∀ j, w.HasTMSI j → v.mtmsiKey j ≠ .ok d.guti.mtmsi := by
    intro j hj heq
    rw [hread j hj] at heq
    obtain ⟨c', hc', hsame⟩ := Option.map_eq_some_iff.mp (mtmsiKey_eq_ok.mp heq)
    obtain ⟨en, hen, rfl⟩ := (h.index.mem j).mp hj
    rw [← h.index.self en hen] at hc'
    exact hnew en hen c' hc' hsame
  obtain ⟨t, hins, hindex⟩ := (h.index.congr (fun _ => Iff.rfl) hread).insert_new hkey hother
  rw [← ht] at hins
  refine ⟨t, by simp [mmeRegisterEMMCtxt, hkey, hins], fun j hj => ?_, hindex.congr (fun j => ?_) fun _ _ => rfl⟩
  · have hij : j ≠ i := by
      rintro rfl
      rw [h.fresh j (hfresh ▸ hj)] at hi
      cases hi
    show v.mtmsis j = none
    rw [hm, Function.update_of_ne hij]
    exact h.fresh j (hfresh ▸ hj)
  · show (∃ m, v.mtmsis j = some m ∧ m ≠ 0) ↔ _
    rw [hm, Function.update_apply]
    split
    · rename_i heq
      exact ⟨fun _ => .inl heq, fun _ => ⟨_, rfl, hd⟩⟩
    · rename_i hij
      exact ⟨.inr, fun h => h.resolve_left hij⟩

end Indexed

/-- Only the registrations among the entries of the trace matter. -/
theorem register_eq (acts : List Act) :
    w.register acts = (acts.filterMap Act.registration).reverse.foldlM (fun w r => w.mmeRegisterEMMCtxt r.1) w := by
  unfold register
  rw [← List.filterMap_reverse]
  generalize acts.reverse = l
  induction l generalizing w with
  | nil => rfl
  | cons a l ih =>
    cases a with
    | registerEMMCtxt e m =>
      exact bind_congr fun v => ih
    | _ =>
      exact ih

/-! ## One event of the contexts -/

def Retains (w v : MME) : Prop := ∀ i c, w.emms i = some c → ∃ d, v.emms i = some d

theorem retains_update (hv : v.emms = Function.update w.emms i (some d)) : w.Retains v := by
  intro j c hc
  rw [hv, Function.update_apply]
  split
  · exact ⟨d, rfl⟩
  · exact ⟨c, hc⟩

theorem indexed_ctxStep {ce : CtxEvent} (h : w.Indexed) (hq : Guarded (assignsNew P) w ce)
    (hv : w.ctxStep P ce = .ok v) : v.Indexed ∧ w.Retains v := by
  cases ce with
  | on x i ev =>
    obtain ⟨c, d, hc, hd, hreg⟩ := ctxStep_on hv
    obtain ⟨-, hhold, hlinked⟩ := hq
    obtain ⟨hself, hcoh, hlinked⟩ := hlinked c hc
    have hnew := (assignsNew P).env w (hhold i rfl c hc)
    obtain ⟨acts, htrace, -, hcases⟩ := EMMCtx.registrations_step (c := { c with s11 := w.s11 })
      hcoh hlinked (fun hz hm => (hnew hz hm).1) hd
    have htake : d.trace.take (d.trace.length - c.trace.length) = acts := by simp [htrace]
    rw [htake, register_eq] at hreg
    rcases hcases with ⟨hm, hnone⟩ | ⟨hzero, hmay, hm, hone⟩
    · rw [hnone] at hreg
      cases hreg
      exact ⟨h.set hc hm rfl rfl le_rfl, retains_update rfl⟩
    · rw [hone, List.reverse_singleton, List.foldlM_cons, hself] at hreg
      obtain ⟨hne, hother⟩ := hnew hzero hmay
      rw [← hm] at hne hother
      obtain ⟨t, ht, hindexed⟩ := h.register (v := { w.setEMM i d with s11 := d.s11 }) hc hzero hne hother rfl rfl rfl
      rw [ht] at hreg
      cases hreg
      exact ⟨hindexed, retains_update rfl⟩
  | new id =>
    cases hv
    exact ⟨h.newEMM id, retains_update rfl⟩
  | deregister i =>
    obtain ⟨c, hc, hv⟩ := bind_eq_ok.mp hv
    obtain ⟨_, ⟨⟩, hc⟩ := deref_eq_ok.mp hc
    cases hv
    have hsame : c.emmDeregister.guti = c.guti := by
      unfold EMMCtx.emmDeregister
      split <;> rfl
    exact ⟨h.set hc (congrArg Guti.mtmsi hsame) rfl rfl le_rfl, retains_update rfl⟩
  | lower u =>
    cases hv
    exact ⟨h.congr rfl rfl hq, fun i c hc => ⟨c, hc⟩⟩

/-! ## Every run -/

def IsRegistered (w : MME) (i : Nat) : Prop := ∃ en ∈ w.emmSessions, en.value = i

/-- The M-TMSIs of the registered contexts are not 0 and distinct, and a lookup finds the registered context with the
M-TMSI, if there is one, and otherwise nothing. -/
structure Identifies (w : MME) : Prop where
  nonzero : ∀ i, w.IsRegistered i → ∃ c, w.emms i = some c ∧ c.guti.mtmsi ≠ 0
  distinct : ∀ i j c d, w.IsRegistered i → w.IsRegistered j → w.emms i = some c → w.emms j = some d →
    c.guti.mtmsi = d.guti.mtmsi → i = j
  lookup : ∀ m i, w.mmeLookupEMMCtxt m = .ok (some i) ↔ w.IsRegistered i ∧ ∃ c, w.emms i = some c ∧ c.guti.mtmsi = m
  answers : ∀ m, ∃ r, w.mmeLookupEMMCtxt m = .ok r

theorem Indexed.isRegistered (h : w.Indexed) : w.IsRegistered i ↔ w.HasTMSI i := by
  rw [h.index.mem]
  constructor
  · rintro ⟨en, hen, rfl⟩
    exact ⟨en, hen, (h.index.self en hen).symm⟩
  · rintro ⟨en, hen, rfl⟩
    exact ⟨en, hen, h.index.self en hen⟩

theorem Indexed.identifies (h : w.Indexed) : w.Identifies where
  nonzero i hi := by
    obtain ⟨m, hm, hne⟩ := h.isRegistered.mp hi
    obtain ⟨c, hc, rfl⟩ := Option.map_eq_some_iff.mp hm
    exact ⟨c, hc, hne⟩
  distinct i j c d hi hj hc hd heq := by
    refine h.index.eq_of_read (k := d.guti.mtmsi) (h.isRegistered.mp hi) (h.isRegistered.mp hj) ?_ ?_
    · exact mtmsiKey_eq_ok.mpr (Option.map_eq_some_iff.mpr ⟨c, hc, heq⟩)
    · exact mtmsiKey_eq_ok.mpr (Option.map_eq_some_iff.mpr ⟨d, hd, rfl⟩)
  lookup m i := by
    have hkey : w.mtmsiKey i = .ok m ↔ ∃ c, w.emms i = some c ∧ c.guti.mtmsi = m :=
      mtmsiKey_eq_ok.trans Option.map_eq_some_iff
    rw [h.isRegistered, ← hkey]
    constructor
    · intro hlook
      rcases h.index.lookup_cases m with hnone | ⟨j, hj, hjm, hsome⟩
      · cases hnone.symm.trans hlook
      · cases hsome.symm.trans hlook
        exact ⟨hj, hjm⟩
    · exact fun ⟨hi, him⟩ => h.index.lookup_eq hi him
  answers m := by
    rcases h.index.lookup_cases m with hnone | ⟨j, -, -, hsome⟩
    · exact ⟨none, hnone⟩
    · exact ⟨some j, hsome⟩

theorem init_indexed (r : UInt8) : (init r).Indexed :=
  ⟨fun _ _ => rfl, .nil fun _ ⟨_, hm, _⟩ => by cases hm⟩

/-- The events of the contexts keep the table, and free no context. -/
theorem indexed_ctxRun {ces : List CtxEvent} (h : Run (ctxStep P) (Guarded (assignsNew P)) w ces v) (hw : w.Indexed) :
    v.Indexed ∧ w.Retains v := by
  refine h.invariant (I := fun v => v.Indexed ∧ w.Retains v) ?_ ⟨hw, fun i c hc => ⟨c, hc⟩⟩
  rintro u ce v ⟨hu, hwu⟩ hq hv
  obtain ⟨hv, huv⟩ := indexed_ctxStep hu hq hv
  refine ⟨hv, fun i c hc => ?_⟩
  obtain ⟨d, hd⟩ := hwu i c hc
  exact huv i d hd

/-- In every run in which no context gets the M-TMSI 0 or one that is in use, an M-TMSI identifies one registered
context, a lookup finds it, and no event frees a context. -/
theorem identifies_of_run {r : UInt8} {es : List (Env × MMEEvent)}
    (h : Run (step P) (Meets (assignsNew P)) (init r) es w) :
    w.Identifies ∧ ∀ e v, Meets (assignsNew P) w e → w.step P e = .ok v → w.Retains v := by
  obtain ⟨ces, hces⟩ := ctxRun_of_run h
  obtain ⟨hindexed, -⟩ := indexed_ctxRun hces (init_indexed r)
  refine ⟨hindexed.identifies, fun e v hq hv => ?_⟩
  obtain ⟨ces', hces'⟩ := ctxRun_of_step (h.mono fun _ _ _ => trivial) hq hv
  exact (indexed_ctxRun hces' hindexed).2

/-- The UE attaches, and is found by its M-TMSI. -/
theorem identifies_of_run_attach :
    ∃ w, Run (step Prims.zeroKasme) (Meets (assignsNew Prims.zeroKasme)) (init 0) Sample.attach w ∧
      w.mmeLookupEMMCtxt 1315886081 = .ok (some 2) ∧ w.Identifies := by
  refine Run.exists_of_exec (fun w => w.mmeLookupEMMCtxt 1315886081 = .ok (some 2)) (by decide +kernel) fun w hrun hlook => ?_
  exact ⟨hlook, (identifies_of_run hrun).1⟩

/-- A UE whose IMSI is larger by 2 ^ 32 sends an Attach Request.  It gets the M-TMSI of the first UE, whose context is
freed. -/
theorem registration_frees_other :
    ∃ w v c d, Run (step Prims.zeroKasme) (fun _ _ => True) (init 0) Sample.attach w ∧
      w.step Prims.zeroKasme (Sample.env (.vector (Sample.quadruplet (List.replicate 32 0))),
        Sample.initialUEMessage 8 none
          [0x07, 0x41, 0x71, 0x08, 0x29, 0x80, 0x39, 0x24, 0x49, 0x69, 0x27, 0x79, 0x02, 0xe0, 0xe0, 0x00,
            0x04, 0x02, 0x01, 0xd0, 0x11]) = .ok v ∧
      w.emms 2 = some c ∧ c.imsi = 208930000000001 ∧ v.emms 2 = none ∧
      v.emms 4 = some d ∧ d.imsi = 208934294967297 ∧ d.guti.mtmsi = c.guti.mtmsi := by
  simp only [exists_and_left]
  refine Run.exists_step_of_exec (fun w _ v => (w.emms 2).map (·.imsi) = some 208930000000001 ∧ (v.emms 2).isNone ∧
    (v.emms 4).map (·.imsi) = some 208934294967297 ∧ v.mtmsis 4 = w.mtmsis 2) (by decide +kernel) ?_
  rintro w v - - ⟨hc, hnone, hd, hm⟩
  obtain ⟨c, hc, hci⟩ := Option.map_eq_some_iff.mp hc
  obtain ⟨d, hd, hdi⟩ := Option.map_eq_some_iff.mp hd
  refine ⟨c, hc, hci, Option.isNone_iff_eq_none.mp hnone, d, hd, hdi, ?_⟩
  simpa [mtmsis, hc, hd] using hm

end MME

end AaltoMME
