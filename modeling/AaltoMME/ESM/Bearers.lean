import AaltoMME.EMM.Completion

/-!
# The identities of the default bearers

`esm_processMsg` takes the identity of a new default bearer from a counter that starts at 5.  The counter is reset
whenever a session is deleted and whenever `esm_errorEMM` frees all of them, and it never stops at 15.
`esm_errorEMM` leaves the bearers in their table, and `sendDeleteSessionReq` always asks to delete the bearer 5.

As long as no new session meets a counter that is too large or whose value is in use, no error meets a session,
and a detach meets a first session whose default bearer is 5, the identities are distinct and between 5 and 15, the
table has exactly the default bearers of the sessions, and a Delete Session Request carries the bearer of its
session.
-/

namespace AaltoMME

open Base NAS Relation

variable {P : Prims} {c₀ c d : EMMCtx} {e : Env × EMMEvent} {es : List (Env × EMMEvent)} {v w : SessionView}

/-! ## Identifiers -/

namespace SessionView

/-- The identifiers of sessions and bearer contexts come from the allocator, and none occurs twice. -/
structure Sound (v : SessionView) : Prop where
  sessions : (v.sessions.map (·.id)).Nodup
  sessions_lt : ∀ s ∈ v.sessions, s.id < v.fresh ∧ s.bearer < v.fresh
  ebis : (v.ebis.map (·.1)).Nodup
  ebis_lt : ∀ b ∈ v.ebis, b.1 < v.fresh

namespace Sound

theorem eq_of_id (h : v.Sound) {s t : SessionRef} (hs : s ∈ v.sessions) (ht : t ∈ v.sessions) (hid : s.id = t.id) :
    s = t := List.inj_on_of_nodup_map h.sessions hs ht hid

theorem map_write (h : v.Sound) {s : SessionRef} (hs : s ∈ v.sessions) :
    (v.sessions.map fun t => if t.id = s.id then s else t) = v.sessions :=
  map_replace_self h.sessions hs

theorem map_writeBearer (h : v.Sound) {b : Nat × UInt8} (hb : b ∈ v.ebis) :
    (v.ebis.map fun t => if t.1 = b.1 then b else t) = v.ebis :=
  map_replace_self h.ebis hb

end Sound

theorem mem_of_session {s : SessionRef} {id : Nat} (h : v.session id = some s) : s ∈ v.sessions :=
  List.mem_of_find?_eq_some h

theorem map_id_newUser (s : SessionRef) (u : S11User) :
    (v.newUser s u).sessions.map (·.id) = v.sessions.map (·.id) := by
  rw [newUser, List.map_map]
  refine List.map_congr_left fun t _ => ?_
  show (if t.id = s.id then { s with s11 := some v.nextUser } else t).id = t.id
  split
  · exact (‹t.id = s.id›).symm
  · rfl

/-- A session after one of them got a user: only the user can differ. -/
theorem Sound.mem_newUser (h : v.Sound) {s t : SessionRef} (hs : v.session s.id = some s) {u : S11User}
    (ht : t ∈ (v.newUser s u).sessions) : ∃ t' ∈ v.sessions, t'.id = t.id ∧ t'.bearer = t.bearer := by
  obtain ⟨t', ht', rfl⟩ := List.mem_map.mp ht
  refine ⟨t', ht', ?_⟩
  split
  · rename_i hid
    obtain rfl := h.eq_of_id ht' (mem_of_session hs) hid
    exact ⟨rfl, rfl⟩
  · exact ⟨rfl, rfl⟩

theorem Sound.change (h : v.Sound) (hw : SessionChange P c₀ e v w) : w.Sound := by
  cases hw with
  | error => exact ⟨.nil, nofun, h.ebis, h.ebis_lt⟩
  | newSession =>
    refine ⟨List.nodup_cons.mpr ⟨?_, h.sessions⟩, ?_, List.nodup_cons.mpr ⟨?_, h.ebis⟩, ?_⟩
    · intro hmem
      obtain ⟨s, hs, hid⟩ := List.mem_map.mp hmem
      have hlt : s.id < v.fresh := (h.sessions_lt s hs).1
      have heq : s.id = v.fresh + 1 := hid
      omega
    · intro s hs
      rcases List.mem_cons.mp hs with rfl | hs
      · exact ⟨Nat.lt_succ_self _, Nat.lt_add_of_pos_right (by decide)⟩
      · exact ⟨Nat.lt_add_right 2 (h.sessions_lt s hs).1, Nat.lt_add_right 2 (h.sessions_lt s hs).2⟩
    · intro hmem
      obtain ⟨b, hb, hid⟩ := List.mem_map.mp hmem
      exact Nat.lt_irrefl _ (hid ▸ h.ebis_lt b hb)
    · intro b hb
      rcases List.mem_cons.mp hb with rfl | hb
      · exact Nat.lt_add_of_pos_right (by decide)
      · exact Nat.lt_add_right 2 (h.ebis_lt b hb)
  | newUser hs =>
    refine ⟨?_, fun t ht => ?_, h.ebis, h.ebis_lt⟩
    · rw [map_id_newUser]
      exact h.sessions
    · obtain ⟨t', ht', hid, hbearer⟩ := h.mem_newUser hs ht
      rw [← hid, ← hbearer]
      exact h.sessions_lt t' ht'
  | drop =>
    refine ⟨h.sessions.sublist (List.filter_sublist.map _), fun t ht => ?_, h.ebis, h.ebis_lt⟩
    exact h.sessions_lt t (List.mem_filter.mp ht).1
  | write hs =>
    rw [h.map_write hs]
    exact h
  | writeBearer hb =>
    rw [h.map_writeBearer hb]
    exact h
  | detach | touch | remove | stack => exact ⟨h.sessions, h.sessions_lt, h.ebis, h.ebis_lt⟩

/-! ## Default bearers -/

/-- The default bearers of the sessions have distinct identities between 5 and 15 and make up the table. -/
structure Exact (v : SessionView) : Prop extends Sound v where
  counter : 5 ≤ v.nextEbi ∧ v.nextEbi ≤ 16
  range : ∀ s ∈ v.sessions, ∃ k, v.ebi s.bearer = some k ∧ 5 ≤ k ∧ k ≤ 15
  distinct : ∀ s ∈ v.sessions, ∀ t ∈ v.sessions, s.id ≠ t.id → v.ebi s.bearer ≠ v.ebi t.bearer
  table : ∀ k id, (k, id) ∈ v.bearers ↔ ∃ s ∈ v.sessions, s.bearer = id ∧ v.ebi id = some k

theorem ebi_newSession_self : v.newSession.ebi v.fresh = some v.nextEbi := by
  simp [ebi, newSession]

theorem ebi_newSession_of_lt {id : Nat} (h : id < v.fresh) : v.newSession.ebi id = v.ebi id := by
  have hne := (Nat.ne_of_gt h)
  simp [ebi, newSession, hne]

theorem Exact.newSession (h : v.Exact) (hsound : v.newSession.Sound) (hmax : v.nextEbi ≤ 15)
    (hfree : ∀ s ∈ v.sessions, v.ebi s.bearer ≠ some v.nextEbi) : v.newSession.Exact := by
  have hold : ∀ s ∈ v.sessions, v.newSession.ebi s.bearer = v.ebi s.bearer := fun s hs =>
    ebi_newSession_of_lt (h.sessions_lt s hs).2
  refine { hsound with counter := ?_, range := ?_, distinct := ?_, table := ?_ }
  · obtain ⟨hmin, -⟩ := h.counter
    show 5 ≤ v.nextEbi + 1 ∧ v.nextEbi + 1 ≤ 16
    simp only [UInt8.le_iff_toNat_le, UInt8.toNat_add, UInt8.toNat_ofNat] at hmin hmax ⊢
    omega
  · intro s hs
    rcases List.mem_cons.mp hs with rfl | hs
    · exact ⟨v.nextEbi, ebi_newSession_self, h.counter.1, hmax⟩
    · rw [hold s hs]
      exact h.range s hs
  · intro s hs t ht hne
    rcases List.mem_cons.mp hs with rfl | hs <;> rcases List.mem_cons.mp ht with rfl | ht
    · exact absurd rfl hne
    · rw [hold t ht]
      exact fun heq => hfree t ht (heq.symm.trans ebi_newSession_self)
    · rw [hold s hs]
      exact fun heq => hfree s hs (heq.trans ebi_newSession_self)
    · rw [hold s hs, hold t ht]
      exact h.distinct s hs t ht hne
  · intro k id
    rw [show v.newSession.bearers = v.bearers.insert v.nextEbi v.fresh from rfl, Table.mem_insert]
    constructor
    · rintro (heq | ⟨hmem, -⟩)
      · obtain ⟨rfl, rfl⟩ := Prod.mk.inj heq
        exact ⟨_, List.mem_cons_self, rfl, ebi_newSession_self⟩
      · obtain ⟨s, hs, rfl, hk⟩ := (h.table k id).mp hmem
        exact ⟨s, List.mem_cons_of_mem _ hs, rfl, (hold s hs).trans hk⟩
    · rintro ⟨s, hs, rfl, hk⟩
      rcases List.mem_cons.mp hs with rfl | hs
      · exact .inl (congrArg (·, _) (Option.some.inj (hk.symm.trans ebi_newSession_self)))
      · have hk' : v.ebi s.bearer = some k := (hold s hs).symm.trans hk
        refine .inr ⟨(h.table k _).mpr ⟨s, hs, rfl, hk'⟩, ?_⟩
        rintro rfl
        exact hfree s hs hk'

theorem Exact.dropSession {s : SessionRef} {k : UInt8} (h : v.Exact) (hsound : (v.dropSession s k).Sound)
    (hs : v.session s.id = some s) (hk : v.ebi s.bearer = some k) : (v.dropSession s k).Exact := by
  have hmem := mem_of_session hs
  have hold : ∀ t ∈ (v.dropSession s k).sessions, t ∈ v.sessions ∧ t.id ≠ s.id := by
    intro t ht
    simpa using List.mem_filter.mp ht
  refine { hsound with counter := ?_, range := ?_, distinct := ?_, table := ?_ }
  · show (5 : UInt8) ≤ 5 ∧ (5 : UInt8) ≤ 16
    decide
  · exact fun t ht => h.range t (hold t ht).1
  · exact fun t ht u hu hne => h.distinct t (hold t ht).1 u (hold u hu).1 hne
  · intro l id
    rw [show (v.dropSession s k).bearers = v.bearers.remove k from rfl, Table.mem_remove, h.table]
    constructor
    · rintro ⟨⟨t, ht, rfl, hl⟩, hne⟩
      refine ⟨t, List.mem_filter.mpr ⟨ht, ?_⟩, rfl, hl⟩
      have hid : t.id ≠ s.id := by
        intro hid
        obtain rfl := h.eq_of_id ht hmem hid
        exact hne (Option.some.inj (hl.symm.trans hk))
      simpa using hid
    · rintro ⟨t, ht, rfl, hl⟩
      obtain ⟨ht, hid⟩ := hold t ht
      refine ⟨⟨t, ht, rfl, hl⟩, fun hlk => h.distinct t ht s hmem hid ?_⟩
      have hlk' : l = k := hlk
      rw [hk, ← hlk']
      exact hl

theorem Exact.newUser {s : SessionRef} {u : S11User} (h : v.Exact) (hsound : (v.newUser s u).Sound)
    (hs : v.session s.id = some s) : (v.newUser s u).Exact := by
  refine { hsound with counter := h.counter, range := ?_, distinct := ?_, table := ?_ }
  · intro t ht
    obtain ⟨t', ht', -, hbearer⟩ := h.mem_newUser hs ht
    rw [← hbearer]
    exact h.range t' ht'
  · intro t ht t₂ ht₂ hne
    obtain ⟨t', ht', hid, hbearer⟩ := h.mem_newUser hs ht
    obtain ⟨t₂', ht₂', hid₂, hbearer₂⟩ := h.mem_newUser hs ht₂
    rw [← hbearer, ← hbearer₂]
    refine h.distinct t' ht' t₂' ht₂' ?_
    rwa [hid, hid₂]
  · intro k id
    refine (h.table k id).trans ⟨?_, ?_⟩
    · rintro ⟨t, ht, rfl, hk⟩
      obtain ⟨t', ht', hid⟩ : ∃ t' ∈ (v.newUser s u).sessions, t'.id = t.id := by
        have hids : t.id ∈ (v.newUser s u).sessions.map (·.id) := by
          rw [map_id_newUser]
          exact List.mem_map_of_mem ht
        exact List.mem_map.mp hids
      obtain ⟨t₀, ht₀, hid₀, hbearer⟩ := h.mem_newUser hs ht'
      obtain rfl := h.eq_of_id ht ht₀ (hid.symm.trans hid₀.symm)
      exact ⟨t', ht', hbearer.symm, hk⟩
    · rintro ⟨t, ht, rfl, hk⟩
      obtain ⟨t', ht', -, hbearer⟩ := h.mem_newUser hs ht
      exact ⟨t', ht', hbearer, hk⟩

end SessionView

namespace EMMCtx

/-! ## The property and the condition -/

/-- The identity of the default bearer of a session. -/
def defaultEbi (c : EMMCtx) (s : EPSSession) : Option UInt8 :=
  (c.esm.contexts.find? (·.id == s.defaultBearer)).map (·.ebi)

/-- The session that `esm_detach` takes, the first one of the hash table. -/
def firstSession (env : Env) (c : EMMCtx) : Option EPSSession :=
  (c.esmGetSessions env).head?.bind fun id => c.esm.sessions.find? (·.id == id)

/-- The identities of the default bearers are distinct and between 5 and 15, and the table has exactly these
bearers. -/
structure DistinctBearers (c : EMMCtx) : Prop where
  range : ∀ s ∈ c.esm.sessions, ∃ k ∈ c.defaultEbi s, 5 ≤ k ∧ k ≤ 15
  distinct : ∀ s ∈ c.esm.sessions, ∀ t ∈ c.esm.sessions, s.id ≠ t.id → c.defaultEbi s ≠ c.defaultEbi t
  table : ∀ k id, (k, id) ∈ c.esm.bearers ↔ ∃ s ∈ c.esm.sessions, s.defaultBearer = id ∧ k ∈ c.defaultEbi s

/-- The Delete Session Requests that were sent, newest first: the TEID of the user and the identity of the bearer. -/
def deletions (c : EMMCtx) : List (UInt32 × UInt8) := c.trace.filterMap Act.deletion

/-- A Delete Session Request is sent by the user of a session and carries the default bearer of that session. -/
def OwnDeletion (c : EMMCtx) (req : UInt32 × UInt8) : Prop :=
  ∃ s ∈ c.esm.sessions, ∃ u, c.s11.user s.s11 = .ok u ∧ u.lTEID = req.1 ∧ c.defaultEbi s = some req.2

/-- The requests that were sent between two contexts are such requests. -/
def DeletesOwn (c d : EMMCtx) : Prop := ∃ new, d.deletions = new ++ c.deletions ∧ ∀ req ∈ new, c.OwnDeletion req

/-- A PDN Connectivity Request finds a counter that is at most 15 and that no session uses, an error finds no
session, and a detach that is sent to the serving gateway is for a session with the bearer 5. -/
def KeepsBearers (P : Prims) (c : EMMCtx) (e : Env × EMMEvent) : Prop :=
  (c.HandlesESM P e pdnConnectivityRequest →
    c.esm.nextEbi ≤ 15 ∧ ∀ s ∈ c.esm.sessions, c.defaultEbi s ≠ some c.esm.nextEbi) ∧
  (c.MayStop P e → c.esm.sessions = []) ∧
  (c.Detaches P e → ∀ s ∈ c.firstSession e.1, ∀ u ∈ (c.s11.user s.s11).toOption,
    S11Op.detach.accepts u.state = true → c.defaultEbi s = some 5)

instance : Decidable (c.KeepsBearers P e) := by
  unfold KeepsBearers
  infer_instance

/-! ## One event -/

theorem ebi_sessionView (s : EPSSession) : c.sessionView.ebi s.ref.bearer = c.defaultEbi s := by
  show ((c.esm.contexts.map fun b => (b.id, b.ebi)).find? (·.1 == s.defaultBearer)).map (·.2) = _
  rw [List.find?_map, Option.map_map]
  rfl

theorem mem_sessionView {r : SessionRef} : r ∈ c.sessionView.sessions ↔ ∃ s ∈ c.esm.sessions, s.ref = r := List.mem_map

theorem firstSession_of_first {env : Env} {r : SessionRef} (hsessions : v.sessions = c.sessionView.sessions)
    (h : v.First env r) : ∃ s ∈ c.firstSession env, s ∈ c.esm.sessions ∧ s.ref = r := by
  unfold SessionView.First SessionView.session at h
  rw [hsessions] at h
  obtain ⟨hhead, hfind⟩ := h
  have hids : c.sessionView.sessions.map (·.id) = c.esm.sessions.map (·.id) := by
    simp [sessionView, EPSSession.ref]
  have hfind' : (c.esm.sessions.map EPSSession.ref).find? (·.id == r.id) = some r := hfind
  rw [List.find?_map] at hfind'
  obtain ⟨s, hs, href⟩ := Option.map_eq_some_iff.mp hfind'
  have hs' := hs
  refine ⟨s, ?_, List.mem_of_find?_eq_some hs', href⟩
  rw [hids] at hhead
  rw [firstSession, esmGetSessions, hhead]
  exact hs'

theorem user_of_first {env : Env} {r : SessionRef} {i : Nat} {u : S11User}
    (hsessions : v.sessions = c.sessionView.sessions) (husers : v.users = c.s11.users) (hfirst : v.First env r)
    (hi : r.s11 = some i) (hu : v.user i = some u) :
    ∃ s ∈ c.firstSession env, s ∈ c.esm.sessions ∧ c.s11.user s.s11 = .ok u := by
  obtain ⟨s, hs, hmem, rfl⟩ := firstSession_of_first hsessions hfirst
  refine ⟨s, hs, hmem, deref_eq_ok.mpr ⟨i, hi, ?_⟩⟩
  rw [← husers]
  exact hu

theorem ownDeletion_of_detach {env : Env} {r : SessionRef} {i : Nat} {u : S11User}
    (hebi : ∀ s ∈ c.firstSession env, ∀ u ∈ (c.s11.user s.s11).toOption,
      S11Op.detach.accepts u.state = true → c.defaultEbi s = some 5)
    (hsessions : v.sessions = c.sessionView.sessions) (husers : v.users = c.s11.users) (hfirst : v.First env r)
    (hi : r.s11 = some i) (hu : v.user i = some u) (hstate : u.state = .ulCtx ∨ u.state = .ctx) :
    c.OwnDeletion (u.lTEID, 5) := by
  obtain ⟨s, hs, hmem, huser⟩ := user_of_first hsessions husers hfirst hi hu
  refine ⟨s, hmem, u, huser, rfl, hebi s hs u ?_ ?_⟩
  · rw [huser]
    rfl
  · rcases hstate with hstate | hstate <;> rw [hstate] <;> rfl

theorem DistinctBearers.of_exact (h : c.sessionView.Exact) : c.DistinctBearers := by
  refine ⟨?_, ?_, ?_⟩
  · intro s hs
    obtain ⟨k, hk, hrange⟩ := h.range s.ref (mem_sessionView.mpr ⟨s, hs, rfl⟩)
    exact ⟨k, (ebi_sessionView s).symm.trans hk, hrange⟩
  · intro s hs t ht hne
    rw [← ebi_sessionView s, ← ebi_sessionView t]
    exact h.distinct s.ref (mem_sessionView.mpr ⟨s, hs, rfl⟩) t.ref (mem_sessionView.mpr ⟨t, ht, rfl⟩) hne
  · intro k id
    refine (h.table k id).trans ⟨?_, ?_⟩
    · rintro ⟨r, hr, rfl, hk⟩
      obtain ⟨s, hs, rfl⟩ := mem_sessionView.mp hr
      exact ⟨s, hs, rfl, (ebi_sessionView s).symm.trans hk⟩
    · rintro ⟨s, hs, rfl, hk⟩
      exact ⟨s.ref, mem_sessionView.mpr ⟨s, hs, rfl⟩, rfl, (ebi_sessionView s).trans hk⟩

end EMMCtx

/-- What holds in the middle of an event that the context `c` found: the bearers are exact, the bearer contexts that
`c` had keep their identities, and the requests that were sent are those of sessions of `c`. -/
structure SessionView.Keeps (c : EMMCtx) (v : SessionView) : Prop where
  exact : v.Exact
  ebi : ∀ id < c.esm.fresh, v.ebi id = c.sessionView.ebi id
  fresh : c.esm.fresh ≤ v.fresh
  deletes : ∃ new, v.deletes = new ++ c.deletions ∧ ∀ req ∈ new, c.OwnDeletion req

namespace SessionView.Keeps

theorem refl (h : c.sessionView.Exact) : Keeps c c.sessionView := ⟨h, fun _ _ => rfl, le_rfl, [], rfl, nofun⟩

theorem change (h₀ : c.sessionView.Exact) (hq : c.KeepsBearers P e) (h : Keeps c v) (hw : SessionChange P c e v w) :
    Keeps c w := by
  obtain ⟨hrequest, hstop, hdetach⟩ := hq
  have hsound : w.Sound := h.exact.toSound.change hw
  cases hw with
  | error hmay hs hnil =>
    have hempty : v.sessions = [] := by
      rw [hs]
      exact List.map_eq_nil_iff.mpr (hstop hmay)
    obtain ⟨rfl, rfl⟩ := hnil hempty
    refine ⟨{ hsound with counter := ?_, range := nofun, distinct := nofun, table := ?_ }, h.ebi, h.fresh, h.deletes⟩
    · show (5 : UInt8) ≤ 5 ∧ (5 : UInt8) ≤ 16
      decide
    · intro k id
      refine (h.exact.table k id).trans ?_
      rw [hempty]
      exact Iff.rfl
  | newSession hpdn hkept =>
    obtain ⟨hmax, hfree⟩ : v.nextEbi ≤ 15 ∧ ∀ s ∈ v.sessions, v.ebi s.bearer ≠ some v.nextEbi := by
      obtain ⟨hmax, hfree⟩ := hrequest hpdn
      rcases hkept with ⟨hs, hnext⟩ | ⟨hs, hnext⟩
      · rw [hs, hnext]
        refine ⟨hmax, fun r hr => ?_⟩
        have hlt : r.bearer < c.esm.fresh := (h₀.sessions_lt r hr).2
        obtain ⟨s, hs, rfl⟩ := EMMCtx.mem_sessionView.mp hr
        rw [h.ebi _ hlt, EMMCtx.ebi_sessionView]
        exact hfree s hs
      · rw [hs, hnext]
        exact ⟨by decide, nofun⟩
    refine ⟨h.exact.newSession hsound hmax hfree, fun id hid => ?_, Nat.le_add_right_of_le h.fresh, h.deletes⟩
    rw [SessionView.ebi_newSession_of_lt (Nat.lt_of_lt_of_le hid h.fresh)]
    exact h.ebi id hid
  | newUser hs => exact ⟨h.exact.newUser hsound hs, h.ebi, h.fresh, h.deletes⟩
  | detach hdet hs husers hfirst hi hu howner _ hran =>
    refine ⟨{ h.exact with }, h.ebi, h.fresh, ?_⟩
    rcases hran with ⟨hacc, -, rfl⟩ | ⟨-, -, rfl⟩
    · obtain ⟨new, hnew, hown⟩ := h.deletes
      refine ⟨_ :: new, by rw [hnew]; rfl, fun req hreq => ?_⟩
      rcases List.mem_cons.mp hreq with rfl | hreq
      · exact EMMCtx.ownDeletion_of_detach (hdetach hdet) hs husers hfirst hi hu hacc
      · exact hown req hreq
    · exact h.deletes
  | drop _ _ _ _ _ hs hk => exact ⟨h.exact.dropSession hsound hs hk, h.ebi, h.fresh, h.deletes⟩
  | write hs =>
    rw [h.exact.map_write hs]
    exact h
  | writeBearer hb =>
    rw [h.exact.map_writeBearer hb]
    exact h
  | touch | remove | stack => exact ⟨{ h.exact with }, h.ebi, h.fresh, h.deletes⟩

end SessionView.Keeps

/-! ## Runs -/

namespace EMMCtx

theorem exact_emmInit (self ecm : Nat) (s11 : S11Stack) : (emmInit self ecm s11).sessionView.Exact where
  sessions := .nil
  sessions_lt := nofun
  ebis := .nil
  ebis_lt := nofun
  counter := by
    show (5 : UInt8) ≤ 5 ∧ (5 : UInt8) ≤ 16
    decide
  range := nofun
  distinct := nofun
  table _ _ := ⟨nofun, nofun⟩

theorem keeps_of_step (h : c.sessionView.Exact) (hq : c.KeepsBearers P e) (hd : c.step P e = .ok d) :
    d.sessionView.Keeps c :=
  (changes_step c e d hd).invariant_session (fun _ _ hv hw => hv.change h hq hw) (.refl h)

/-- In every run from `emm_init` that meets the condition, the identities of the default bearers are distinct and
between 5 and 15, the table of bearers has exactly these bearers, and every Delete Session Request of the next event
carries the default bearer of its session. -/
theorem distinctBearers_of_run {self ecm : Nat} {s11 : S11Stack}
    (h : Run (step P) (KeepsBearers P) (emmInit self ecm s11) es c) :
    c.DistinctBearers ∧ ∀ e d, c.KeepsBearers P e → c.step P e = .ok d → c.DeletesOwn d := by
  have hexact : c.sessionView.Exact := by
    refine h.invariant (I := fun c => c.sessionView.Exact) ?_ (exact_emmInit self ecm s11)
    intro c e d hc hq hd
    exact (keeps_of_step hc hq hd).exact
  exact ⟨.of_exact hexact, fun e d hq hd => (keeps_of_step hexact hq hd).deletes⟩

/-- The sample UE has one session, with the bearer 5. -/
theorem distinctBearers_of_run_attach :
    ∃ c, Run (step Prims.zeroKasme) (KeepsBearers Prims.zeroKasme) Sample.init
        (Sample.authentication ++ Sample.activation) c ∧
      c.esm.sessions.map c.defaultEbi = [some 5] ∧ c.DistinctBearers := by
  refine Run.exists_of_exec (fun c => c.esm.sessions.map c.defaultEbi = [some 5]) (by decide +kernel) fun c hrun hebi => ?_
  exact ⟨hebi, (distinctBearers_of_run hrun).1⟩

/-- The sample UE attaches once more: its session is freed, and its bearer stays in the table. -/
theorem bearer_without_session :
    ∃ c, Run (step Prims.zeroKasme) (fun _ _ => True) Sample.init
        (Sample.authentication ++ Sample.activation ++
          [(Sample.env (.vector (Sample.quadruplet (List.replicate 32 0))), Sample.attachRequest)]) c ∧
      c.esm.sessions = [] ∧ c.esm.bearers = [(5, 0)] ∧ ¬ c.DistinctBearers := by
  refine Run.exists_of_exec (fun c => c.esm.sessions = [] ∧ c.esm.bearers = [(5, 0)]) (by decide +kernel) ?_
  rintro c - ⟨hsessions, hbearers⟩
  refine ⟨hsessions, hbearers, fun h => ?_⟩
  obtain ⟨s, hs, -⟩ := (h.table 5 0).mp (by rw [hbearers]; exact List.mem_cons_self)
  rw [hsessions] at hs
  cases hs

end EMMCtx

end AaltoMME
