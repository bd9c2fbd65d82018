import AaltoMME.MME.Sessions

/-!
# Resets

A reset of an association ends all of its sessions, or those of a list.  An item of the list may name a session
by its MME identifier alone, and is then looked up in the whole MME; whatever it finds is removed from the table
of the association that sent the reset, and freed.  `Spares` says what a reset should leave alone.
-/

namespace AaltoMME

open Base NAS PtrTable

namespace MME

variable {x : Env} {w v u : MME} {a id i : Nat} {s : ECMSession} {t : S1Assoc} {X : Nat → Prop}

/-! ## What is left alone -/

/-- The sessions and the tables of the other associations are as they were; the identifiers that are free again
are those of sessions of `a` that are gone, and the contexts that are touched are those of sessions of `a`. -/
structure Spares (a : Nat) (w v : MME) : Prop where
  kept : ∀ i s, w.ecms i = some s → s.assoc ≠ a → v.ecms i = some s
  old : ∀ i s, v.ecms i = some s → w.ecms i = some s
  assocs : ∀ b, b ≠ a → v.assocs b = w.assocs b
  localIDs : ∀ m, m ∈ v.s1LocalIDs → m ∈ w.s1LocalIDs
  freed : ∀ m, m ∈ w.s1LocalIDs → m ∉ v.s1LocalIDs →
    ∃ i s, w.ecms i = some s ∧ s.assoc = a ∧ s.mmeUEId = m ∧ v.ecms i = none
  emms : ∀ e, (∀ i s, w.ecms i = some s → s.assoc = a → s.emm ≠ some e) → v.emms e = w.emms e

namespace Spares

theorem refl (a : Nat) (w : MME) : Spares a w w where
  kept _ _ hs _ := hs
  old _ _ hs := hs
  assocs _ _ := rfl
  localIDs _ hm := hm
  freed _ hm hn := absurd hm hn
  emms _ _ := rfl

theorem trans (h : Spares a w v) (h' : Spares a v u) : Spares a w u where
  kept i s hs ha := h'.kept i s (h.kept i s hs ha) ha
  old i s hs := h.old i s (h'.old i s hs)
  assocs b hb := (h'.assocs b hb).trans (h.assocs b hb)
  localIDs m hm := h.localIDs m (h'.localIDs m hm)
  freed m hm hn := by
    by_cases hv : m ∈ v.s1LocalIDs
    · obtain ⟨i, s, hs, ha, hsm, hnone⟩ := h'.freed m hv hn
      exact ⟨i, s, h.old i s hs, ha, hsm, hnone⟩
    · obtain ⟨i, s, hs, ha, hsm, hnone⟩ := h.freed m hm hv
      refine ⟨i, s, hs, ha, hsm, ?_⟩
      by_contra hne
      obtain ⟨r, hr⟩ := Option.ne_none_iff_exists'.mp hne
      rw [h'.old i r hr] at hnone
      cases hnone
  emms e he := (h'.emms e fun i s hs => he i s (h.old i s hs)).trans (h.emms e he)

end Spares

theorem Removes.spares (h : w.Removes id s v) (hs : w.ecms id = some s) (hnodup : w.s1LocalIDs.Nodup) :
    Spares s.assoc w v where
  kept i r hr ha := by
    have hne : i ≠ id := by
      rintro rfl
      exact ha (congrArg ECMSession.assoc (Option.some.inj (hr.symm.trans hs)))
    rw [h.ecms, Function.update_of_ne hne, hr]
  old i r hr := by
    by_cases hi : i = id
    · rw [h.ecms, hi, Function.update_self] at hr
      cases hr
    · rwa [h.ecms, Function.update_of_ne hi] at hr
  assocs := h.assocs
  localIDs m hm := by
    rw [h.localIDs] at hm
    exact List.mem_of_mem_erase hm
  freed m hm hn := by
    refine ⟨id, s, hs, rfl, ?_, by rw [h.ecms, Function.update_self]⟩
    by_contra hne
    rw [h.localIDs, hnodup.mem_erase_iff] at hn
    exact hn ⟨Ne.symm hne, hm⟩
  emms e he := h.emms e (he id s hs rfl)

/-! ## All sessions -/

theorem Clears.spares {l : List Nat} (h : w.Clears l v) (hl : ∀ i, i ∈ l ↔ w.Of a i) :
    Spares a w v ∧ (∀ i, ¬ v.Of a i) ∧
      ∀ m, m ∈ v.s1LocalIDs ↔ m ∈ w.s1LocalIDs ∧ ∀ i s, w.ecms i = some s → s.assoc = a → s.mmeUEId ≠ m := by
  have hof : ∀ {i s}, w.ecms i = some s → (i ∈ l ↔ s.assoc = a) := by
    intro i s hs
    rw [hl]
    constructor
    · rintro ⟨n, hn, rfl⟩
      exact congrArg SessionIds.assoc (Option.some.inj ((ids_of_ecms hs).symm.trans hn))
    · exact fun ha => ⟨_, ids_of_ecms hs, ha⟩
  have hids : ∀ m, m ∈ v.s1LocalIDs ↔ m ∈ w.s1LocalIDs ∧
      ∀ i s, w.ecms i = some s → s.assoc = a → s.mmeUEId ≠ m := by
    intro m
    rw [h.localIDs]
    refine and_congr_right fun _ => ⟨fun hm i s hs ha => hm i ((hof hs).mpr ha) s hs, fun hm i hi s hs => ?_⟩
    exact hm i s hs ((hof hs).mp hi)
  have hold : ∀ i s, v.ecms i = some s → w.ecms i = some s ∧ i ∉ l := by
    intro i s hs
    rw [h.ecms] at hs
    split at hs
    · cases hs
    · exact ⟨hs, ‹_›⟩
  refine ⟨⟨fun i s hs ha => ?_, fun i s hs => (hold i s hs).1, fun b _ => by rw [h.assocs], fun m hm => ((hids m).mp hm).1,
    fun m hm hn => ?_, fun e he => ?_⟩, ?_, hids⟩
  · rw [h.ecms, if_neg fun hi => ha ((hof hs).mp hi), hs]
  · by_contra hall
    refine hn ((hids m).mpr ⟨hm, fun i s hs ha hsm => hall ⟨i, s, hs, ha, hsm, ?_⟩⟩)
    rw [h.ecms, if_pos ((hof hs).mpr ha)]
  · exact h.emms e fun i hi s hs => he i s hs ((hof hs).mp hi)
  · rintro i ⟨n, hn, ha⟩
    obtain ⟨s, hs, rfl⟩ := ids_eq_some.mp hn
    obtain ⟨hws, hi⟩ := hold i s hs
    exact hi ((hof hws).mpr ha)

/-- What the end of all sessions of an association leaves. -/
structure ClearsAll (a : Nat) (w v : MME) : Prop where
  spares : Spares a w v
  none : ∀ i, ¬ v.Of a i
  localIDs : ∀ m, m ∈ v.s1LocalIDs ↔ m ∈ w.s1LocalIDs ∧ ∀ i s, w.ecms i = some s → s.assoc = a → s.mmeUEId ≠ m

/-- A loop that closes all sessions of an association, which then gets an empty table or goes. -/
theorem filed_clearAll {f : MME → Nat → Outcome MME}
    (hf : ∀ {w id s}, w.Filed (· = a) → w.ecms id = some s → s.assoc = a →
      Post (f w id) fun v => v.Filed (· = a) ∧ w.Closes id s v)
    (h : w.AllFiled) (ht : w.assocs a = some t) (o : HashOrder) {r : Option S1Assoc}
    (hr : ∀ t', r = some t' → t'.ecmSessions = []) :
    Post ((o (t.ecmSessions.map (·.value))).foldlM f w >>= fun v =>
      pure { v with assocs := Function.update v.assocs a r }) fun v =>
        v.AllFiled ∧ ClearsAll a w v ∧ v.assocs a = r := by
  obtain ⟨hmem, hnodup⟩ := h.mem_order ht o
  refine .bind (filed_foldlM hf _ hnodup (h.mono nofun) fun i hi => (hmem i).mp hi) fun v ⟨hv, hclears⟩ => .ok ?_
  obtain ⟨hspares, hnone, hids⟩ := hclears.spares hmem
  have ha : a < v.fresh := by
    by_contra hle
    have hdead := hv.freshAssoc a (Nat.le_of_not_lt hle)
    rw [hclears.assocs, ht] at hdead
    cases hdead
  refine ⟨hv.drop hnone ha hr, ⟨⟨hspares.kept, hspares.old, fun b hb => ?_, hspares.localIDs, hspares.freed, hspares.emms⟩,
    hnone, hids⟩, Function.update_self ..⟩
  exact (Function.update_of_ne hb ..).trans (hspares.assocs b hb)

theorem filed_s1AssocFree (h : w.AllFiled) : Post (w.s1AssocFree x a) AllFiled := by
  refine .bind_of_eq fun t ht => ?_
  obtain ⟨_, ⟨⟩, ht⟩ := deref_eq_ok.mp ht
  exact (filed_clearAll (r := none) filed_mmeDeregisterECM h ht x.order nofun).mono fun v hv => hv.1

theorem filed_resetAll (h : w.AllFiled) (ht : w.assocs a = some t) {msg : S1APMsg}
    (hmsg : msg.resetType = some .s1Interface) :
    Post (w.processReset x a t msg) fun v => v.AllFiled ∧ ClearsAll a w v ∧
      v.assocs a = some { t with ecmSessions := [] } := by
  unfold processReset
  rw [hmsg]
  refine filed_clearAll (filed_s1AssocResetECM) h ht x.order ?_
  rintro _ ⟨⟩
  rfl

/-! ## The items of a list -/

/-- The item of a reset names no session of another association by its MME identifier. -/
def ItemOf (w : MME) (a : Nat) (item : ResetItem) : Prop :=
  item.eNBUEId = none → ∀ i < w.fresh, ∀ s ∈ w.ecms i, item.mmeUEId = some s.mmeUEId → s.assoc = a

/-- The item does nothing, or it finds a session: in the association, or by its MME identifier. -/
theorem resetItem_cases (h : w.AllFiled) (ht : w.assocs a = some t) (item : ResetItem) :
    w.resetItem x a item = .ok w ∨ ∃ id s, w.ecms id = some s ∧
      (s.assoc = a ∨ item.eNBUEId = none ∧ item.mmeUEId = some s.mmeUEId) ∧
      w.resetItem x a item = w.s1AssocDeregisterECMSession a id >>= fun v => v.s1AssocResetECM x id := by
  unfold resetItem
  rcases hj : item.eNBUEId with _ | j
  · rcases hm : item.mmeUEId with _ | m
    · exact .inl rfl
    · rcases h.lookupECM m with hnone | ⟨id, s, hs, rfl, hsome⟩
      · exact .inl (by simp [hnone])
      · exact .inr ⟨id, s, hs, .inr ⟨rfl, rfl⟩, by simp [hsome]⟩
  · rcases h.getECMSession ht j with hnone | ⟨id, s, hs, ha, -, hsome⟩
    · exact .inl (by simp [hnone])
    · exact .inr ⟨id, s, hs, .inl ha, by simp [hsome]⟩

theorem filed_resetItem (h : w.AllFiled) (ht : w.assocs a = some t) {item : ResetItem} (hitem : w.ItemOf a item) :
    Post (w.resetItem x a item) fun v => v.AllFiled ∧ Spares a w v ∧ (v.assocs a).isSome := by
  rcases resetItem_cases h ht item with hsame | ⟨id, s, hs, hfound, heq⟩
  · rw [hsame]
    exact .ok ⟨h, .refl a w, by rw [ht]; rfl⟩
  · have ha : s.assoc = a := by
      rcases hfound with ha | ⟨hnone, hsome⟩
      · exact ha
      · exact hitem hnone id (h.lt_fresh hs) s hs hsome
    rw [heq]
    refine (filed_remove filed_s1AssocResetECM h hs ha).mono fun v ⟨hv, hremoves⟩ => ?_
    subst ha
    exact ⟨hv, hremoves.spares hs h.nodup, hremoves.assoc⟩

theorem filed_resetItems (items : List ResetItem) (h : w.AllFiled) (ht : (w.assocs a).isSome)
    (hitems : ∀ item ∈ items, w.ItemOf a item) :
    Post (items.foldlM (fun w item => w.resetItem x a item) w) fun v => v.AllFiled ∧ Spares a w v ∧
      (v.assocs a).isSome := by
  induction items generalizing w with
  | nil => exact .ok ⟨h, .refl a w, ht⟩
  | cons item items ih =>
    obtain ⟨hitem, hitems⟩ := List.forall_mem_cons.mp hitems
    obtain ⟨t, ht⟩ := Option.isSome_iff_exists.mp ht
    refine .bind (filed_resetItem h ht hitem) fun v ⟨hv, hspares, hva⟩ => ?_
    -- the sessions that are left are old ones
    have hof : ∀ item ∈ items, v.ItemOf a item := by
      intro item hmem hnone i _ s hs hsome
      have hold := hspares.old i s hs
      exact hitems item hmem hnone i (h.lt_fresh hold) s hold hsome
    exact (ih hv hva hof).mono fun u ⟨hu, hspares', hua⟩ => ⟨hu, hspares.trans hspares', hua⟩

/-! ## An item of another association -/

/-- The session is gone, but another association than `a` has it. -/
structure Stale (a id : Nat) (w : MME) : Prop where
  gone : w.ecms id = none
  entry : ∃ b t, b ≠ a ∧ w.assocs b = some t ∧ ∃ f ∈ t.ecmSessions, f.value = id

theorem post_mmeDeregisterECM (id : Nat) :
    Post (w.mmeDeregisterECM id) fun v => v.assocs = w.assocs ∧ ∀ i, w.ecms i = none → v.ecms i = none := by
  refine .of_bind fun _ => .of_bind fun ⟨t, old⟩ => ?_
  cases old with
  | none => exact .ok ⟨rfl, fun _ hi => hi⟩
  | some o =>
    refine .of_bind fun s => ?_
    cases s.emm with
    | none => exact .error
    | some e =>
      refine .of_bind fun _ => .of_bind fun _ => .ok ⟨rfl, fun i hi => ?_⟩
      by_cases ho : i = o
      · rw [ho]
        exact Function.update_self ..
      · exact (Function.update_of_ne ho ..).trans hi

theorem stale_resetItem (h : w.Stale a id) (item : ResetItem) : Post (w.resetItem x a item) (Stale a id) := by
  have hfound : ∀ k, Post (w.s1AssocDeregisterECMSession a k >>= fun v => v.s1AssocResetECM x k) (Stale a id) := by
    intro k
    refine .bind (Q := fun v => v.Stale a id) ?_ fun v hv => ?_
    · refine .of_bind fun t => .of_bind fun _ => .of_bind fun _ => .ok ⟨h.gone, ?_⟩
      obtain ⟨b, r, hb, hr, hf⟩ := h.entry
      exact ⟨b, r, hb, (assocs_setAssoc_of_ne hb).trans hr, hf⟩
    · refine .bind (.of_bind fun _ => sameTables_onEMM _ _) fun u hu => ?_
      refine (post_mmeDeregisterECM k).mono fun y ⟨hassocs, hecms⟩ => ⟨hecms id (by rw [hu.ecms, hv.gone]), ?_⟩
      rw [hassocs, hu.assocs]
      exact hv.entry
  unfold resetItem
  dsimp only
  split
  all_goals
    refine .of_bind fun found => ?_
    cases found with
    | none => exact .ok h
    | some k => exact hfound k

theorem stale_resetItems (items : List ResetItem) (h : w.Stale a id) :
    Post (items.foldlM (fun w item => w.resetItem x a item) w) (Stale a id) :=
  Post.foldlM (fun _ item hv => stale_resetItem hv item) items h

/-- An item that finds a session of another association by its MME identifier. -/
theorem stale_of_item (h : w.AllFiled) (ht : w.assocs a = some t) {item : ResetItem} (hs : w.ecms id = some s)
    (ha : s.assoc ≠ a) (hnone : item.eNBUEId = none) (hsome : item.mmeUEId = some s.mmeUEId) :
    Post (w.resetItem x a item) (Stale a id) := by
  have hlive : (w.ids id).isSome := by
    rw [ids_of_ecms hs]
    rfl
  have hlookup : w.mmeLookupECM s.mmeUEId = .ok (some id) :=
    h.byLocalID.lookup_eq hlive (mmeUEIdKey_of_ids (ids_of_ecms hs))
  obtain ⟨r, hr⟩ := Option.isSome_iff_exists.mp (h.assoc id _ (ids_of_ecms hs))
  have hindex := h.byENBUEId _ r hr not_false
  obtain ⟨f, hf, hfid⟩ := (hindex.mem id).mp ⟨_, ids_of_ecms hs, rfl⟩
  have hentry : ∃ f ∈ r.ecmSessions, f.value = id := ⟨f, hf, (hindex.self f hf).trans hfid⟩
  have heq : w.resetItem x a item = w.s1AssocDeregisterECMSession a id >>= fun v => v.s1AssocResetECM x id := by
    simp [resetItem, hnone, hsome, hlookup]
  rw [heq]
  refine .bind (Q := fun v => v.Filed (fun _ => True) ∧ v.ecms id = some s ∧ v.assocs s.assoc = some r) ?_ ?_
  · refine .bind_of_eq fun t' ht' => .of_bind fun _ => .of_bind fun _ => .ok ⟨?_, hs, ?_⟩
    · exact (h.setAssoc (by rw [ht]; rfl)).mono fun _ _ => trivial
    · exact (assocs_setAssoc_of_ne ha).trans hr
  · rintro v ⟨hv, hvs, hvr⟩
    refine (filed_s1AssocResetECM hv hvs trivial).mono fun u ⟨_, hcloses⟩ => ⟨?_, s.assoc, r, ha, ?_, hentry⟩
    · rw [hcloses.ecms, Function.update_self]
    · rw [hcloses.assocs, hvr]

theorem stale_of_items (items : List ResetItem) (h : w.AllFiled) (ht : (w.assocs a).isSome)
    (hitems : ¬ ∀ item ∈ items, w.ItemOf a item) :
    Post (items.foldlM (fun w item => w.resetItem x a item) w) fun v =>
      ∃ id s, w.ecms id = some s ∧ s.assoc ≠ a ∧ v.Stale a id := by
  induction items generalizing w with
  | nil => exact absurd nofun hitems
  | cons item items ih =>
    obtain ⟨t, ht'⟩ := Option.isSome_iff_exists.mp ht
    rw [List.foldlM_cons]
    by_cases hitem : w.ItemOf a item
    · refine .bind (filed_resetItem h ht' hitem) fun v ⟨hv, hspares, hva⟩ => ?_
      -- the session that a later item finds is spared by this one
      have hlater : ¬ ∀ item ∈ items, v.ItemOf a item := by
        intro hof
        refine hitems (List.forall_mem_cons.mpr ⟨hitem, fun item hmem hnone i _ s hs hsome => ?_⟩)
        by_contra ha
        have hkept := hspares.kept i s hs ha
        exact ha (hof item hmem hnone i (hv.lt_fresh hkept) s hkept hsome)
      refine (ih hv hva hlater).mono ?_
      rintro u ⟨id, s, hs, ha, hstale⟩
      exact ⟨id, s, hspares.old id s hs, ha, hstale⟩
    · obtain ⟨hnone, id, -, s, hs, hsome, ha⟩ : item.eNBUEId = none ∧ ∃ i < w.fresh, ∃ s, w.ecms i = some s ∧
          item.mmeUEId = some s.mmeUEId ∧ s.assoc ≠ a := by
        simpa [ItemOf] using hitem
      refine .bind (stale_of_item h ht' hs ha hnone hsome) fun v hv => ?_
      exact (stale_resetItems items hv).mono fun u hu => ⟨id, s, hs, ha, hu⟩

/-! ## A reset -/

/-- The reset names no session of another association by its MME identifier. -/
def ResetOf (w : MME) (a : Nat) : ResetType → Prop
  | .s1Interface => True
  | .partOfS1Interface items => ∀ item ∈ items, w.ItemOf a item

end MME

end AaltoMME
