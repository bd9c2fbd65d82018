import AaltoMME.ESM.Bearers
import AaltoMME.MME.Identities

/-!
# The sessions of the S11 users

An EPS session points to its S11 user, and the user points back to the EMM context and the session, but each of
them can go without the other.  `esm_errorEMM` frees the sessions while their users may still wait for a response,
`esm_detach` of a session whose user waits for the Create Session Response makes that response delete the session
under its user, an ESM Information Response gives the first session another user, and `mme_registerEMMCtxt` frees a
whole context.  If none of this meets a session, or a user in the wrong state, the users lead to live sessions of live
contexts, one user to a session.
-/

namespace AaltoMME

open Base NAS PtrTable Relation

variable {P : Prims} {c d : EMMCtx} {e : Env × EMMEvent} {v w : SessionView}

/-! ## Tables of users -/

/-- The users are in the table under their TEIDs, no two have one identifier, and a user whose response deletes a
session waits for the Delete Session Response of its own session. -/
structure SoundUsers (users : Table UInt32 S11User) (next : Nat) : Prop where
  keys : (users.map Prod.fst).Nodup
  key : ∀ k u, (k, u) ∈ users → k = u.lTEID
  lt : ∀ k u, (k, u) ∈ users → u.id < next
  ids : ∀ k u k' u', (k, u) ∈ users → (k', u') ∈ users → u.id = u'.id → k = k'
  cb : ∀ k u, (k, u) ∈ users → ∀ id, u.cb = some (.deleteEPSSession id) → id = u.session ∧ u.state = .wDel

namespace SoundUsers

variable {users : Table UInt32 S11User} {next : Nat} {k : UInt32} {u u' : S11User}

theorem nil (next : Nat) : SoundUsers [] next where
  keys := .nil
  key _ _ hu := absurd hu List.not_mem_nil
  lt _ _ hu := absurd hu List.not_mem_nil
  ids _ _ _ _ hu := absurd hu List.not_mem_nil
  cb _ _ hu := absurd hu List.not_mem_nil

theorem remove (h : SoundUsers users next) (k : UInt32) : SoundUsers (users.remove k) next where
  keys := Table.nodup_remove h.keys k
  key k u hu := h.key k u (Table.mem_remove.mp hu).1
  lt k u hu := h.lt k u (Table.mem_remove.mp hu).1
  ids k u k' u' hu hu' := h.ids k u k' u' (Table.mem_remove.mp hu).1 (Table.mem_remove.mp hu').1
  cb k u hu := h.cb k u (Table.mem_remove.mp hu).1

theorem replace (h : SoundUsers users next) (hu : (k, u) ∈ users) (howner : u.SameOwner u')
    (hcb : ∀ id, u'.cb = some (.deleteEPSSession id) → id = u'.session ∧ u'.state = .wDel) :
    SoundUsers (users.insert u.lTEID u') next := by
  have hk := h.key k u hu
  refine ⟨Table.nodup_insert h.keys _ _, fun l t ht => ?_, fun l t ht => ?_, fun l t l' t' ht ht' hid => ?_, fun l t ht => ?_⟩
  · rcases Table.mem_insert.mp ht with heq | ⟨ht, -⟩
    · obtain ⟨rfl, rfl⟩ := Prod.mk.inj heq
      exact howner.lTEID.symm
    · exact h.key l t ht
  · rcases Table.mem_insert.mp ht with heq | ⟨ht, -⟩
    · obtain ⟨rfl, rfl⟩ := Prod.mk.inj heq
      rw [howner.id]
      exact h.lt k u hu
    · exact h.lt l t ht
  · rcases Table.mem_insert.mp ht with heq | ⟨hold, hne⟩ <;> rcases Table.mem_insert.mp ht' with heq' | ⟨hold', hne'⟩
    · exact (congrArg Prod.fst heq).trans (congrArg Prod.fst heq').symm
    · obtain ⟨rfl, rfl⟩ := Prod.mk.inj heq
      exact absurd ((h.ids k u l' t' hu hold' (howner.id.symm.trans hid)).symm.trans hk) hne'
    · obtain ⟨rfl, rfl⟩ := Prod.mk.inj heq'
      exact absurd ((h.ids l t k u hold hu (hid.trans howner.id)).trans hk) hne
    · exact h.ids l t l' t' hold hold' hid
  · rcases Table.mem_insert.mp ht with heq | ⟨ht, -⟩
    · obtain ⟨rfl, rfl⟩ := Prod.mk.inj heq
      exact hcb
    · exact h.cb l t ht

theorem add (h : SoundUsers users next) (hid : u.id = next) (hcb : ∀ id, u.cb ≠ some (.deleteEPSSession id)) :
    SoundUsers (users.insert u.lTEID u) (next + 1) := by
  refine ⟨Table.nodup_insert h.keys _ _, fun l t ht => ?_, fun l t ht => ?_, fun l t l' t' ht ht' heq => ?_,
    fun l t ht id hcb' => ?_⟩
  · rcases Table.mem_insert.mp ht with heq | ⟨ht, -⟩
    · obtain ⟨rfl, rfl⟩ := Prod.mk.inj heq
      rfl
    · exact h.key l t ht
  · rcases Table.mem_insert.mp ht with heq | ⟨ht, -⟩
    · obtain ⟨rfl, rfl⟩ := Prod.mk.inj heq
      rw [hid]
      exact Nat.lt_succ_self _
    · exact Nat.lt_succ_of_lt (h.lt l t ht)
  · rcases Table.mem_insert.mp ht with hl | ⟨hold, -⟩ <;> rcases Table.mem_insert.mp ht' with hl' | ⟨hold', -⟩
    · exact (congrArg Prod.fst hl).trans (congrArg Prod.fst hl').symm
    · obtain ⟨rfl, rfl⟩ := Prod.mk.inj hl
      exact absurd (heq.symm.trans hid) (Nat.ne_of_lt (h.lt l' t' hold'))
    · obtain ⟨rfl, rfl⟩ := Prod.mk.inj hl'
      exact absurd (heq.trans hid) (Nat.ne_of_lt (h.lt l t hold))
    · exact h.ids l t l' t' hold hold' heq
  · rcases Table.mem_insert.mp ht with heq | ⟨ht, -⟩
    · obtain ⟨rfl, rfl⟩ := Prod.mk.inj heq
      exact absurd hcb' (hcb id)
    · exact h.cb l t ht id hcb'

end SoundUsers

theorem S11User.SameOwner.trans {u u' u'' : S11User} (h : u.SameOwner u') (h' : u'.SameOwner u'') : u.SameOwner u'' :=
  ⟨h'.id.trans h.id, h'.emm.trans h.emm, h'.session.trans h.session, h'.lTEID.trans h.lTEID⟩

/-! ## One event of a context -/

/-- A session of the context, or a new one; if it had a user, it still has the same one. -/
def SessionRef.Continues (c : EMMCtx) (t : SessionRef) : Prop :=
  c.esm.fresh ≤ t.id ∨ ∃ s ∈ c.sessionView.sessions, s.id = t.id ∧ ∀ n, s.s11 = some n → t.s11 = some n

/-- What holds in the course of an event that finds the context as `c`: the users of the context lead to its sessions
and the sessions to their users, and the users of the stack are those that it had and new ones of the context. -/
structure SessionView.Owns (c : EMMCtx) (v : SessionView) : Prop where
  self : v.self = c.self
  sound : v.Sound
  fresh : c.esm.fresh ≤ v.fresh
  nextUser : c.s11.fresh ≤ v.nextUser
  table : SoundUsers v.users v.nextUser
  owner : ∀ k u, (k, u) ∈ v.users →
    (c.s11.fresh ≤ u.id ∧ u.emm = c.self) ∨ ∃ u₀, (k, u₀) ∈ c.s11.users ∧ u₀.SameOwner u
  live : ∀ k u, (k, u) ∈ v.users → u.emm = c.self → ∃ s ∈ v.sessions, s.id = u.session ∧ s.s11 = some u.id
  points : ∀ s ∈ v.sessions, ∀ n, s.s11 = some n →
    n < v.nextUser ∧ ∀ k u, (k, u) ∈ v.users → u.id = n → u.emm = c.self ∧ u.session = s.id
  old : ∀ t ∈ v.sessions, t.Continues c

namespace SessionView.Owns

theorem remove (h : Owns c v) (k : UInt32) : Owns c { v with users := v.users.remove k } where
  self := h.self
  sound := ⟨h.sound.sessions, h.sound.sessions_lt, h.sound.ebis, h.sound.ebis_lt⟩
  fresh := h.fresh
  nextUser := h.nextUser
  table := h.table.remove k
  owner l u hu := h.owner l u (Table.mem_remove.mp hu).1
  live l u hu := h.live l u (Table.mem_remove.mp hu).1
  points s hs n hn := ⟨(h.points s hs n hn).1, fun l u hu => (h.points s hs n hn).2 l u (Table.mem_remove.mp hu).1⟩
  old := h.old

theorem touch {k : UInt32} {u u' : S11User} (h : Owns c v) (hu : (k, u) ∈ v.users) (howner : u.SameOwner u')
    (hcb : ∀ id, u'.cb = some (.deleteEPSSession id) → id = u'.session ∧ u'.state = .wDel)
    (deletes : List (UInt32 × UInt8)) : Owns c { v with users := v.users.insert u.lTEID u', deletes } := by
  have hk : k = u.lTEID := h.table.key k u hu
  subst hk
  refine ⟨h.self, ⟨h.sound.sessions, h.sound.sessions_lt, h.sound.ebis, h.sound.ebis_lt⟩, h.fresh, h.nextUser,
    h.table.replace hu howner hcb, fun l t ht => ?_, fun l t ht hself => ?_, fun s hs n hn => ?_, h.old⟩
  · rcases Table.mem_insert.mp ht with heq | ⟨ht, -⟩
    · obtain ⟨rfl, rfl⟩ := Prod.mk.inj heq
      rcases h.owner _ u hu with ⟨hnew, hemm⟩ | ⟨u₀, hu₀, h₀⟩
      · exact .inl ⟨howner.id ▸ hnew, howner.emm.trans hemm⟩
      · exact .inr ⟨u₀, hu₀, h₀.trans howner⟩
    · exact h.owner l t ht
  · rcases Table.mem_insert.mp ht with heq | ⟨ht, -⟩
    · obtain ⟨rfl, rfl⟩ := Prod.mk.inj heq
      rw [howner.session, howner.id]
      exact h.live _ u hu (howner.emm.symm.trans hself)
    · exact h.live l t ht hself
  · obtain ⟨hlt, huser⟩ := h.points s hs n hn
    refine ⟨hlt, fun l t ht hid => ?_⟩
    rcases Table.mem_insert.mp ht with heq | ⟨ht, -⟩
    · obtain ⟨rfl, rfl⟩ := Prod.mk.inj heq
      rw [howner.emm, howner.session]
      exact huser _ u hu (howner.id.symm.trans hid)
    · exact huser l t ht hid

theorem newSession (h : Owns c v) (hsound : v.newSession.Sound) : Owns c v.newSession where
  self := h.self
  sound := hsound
  fresh := Nat.le_add_right_of_le h.fresh
  nextUser := h.nextUser
  table := h.table
  owner := h.owner
  live k u hu hself := by
    obtain ⟨s, hs, hid⟩ := h.live k u hu hself
    exact ⟨s, List.mem_cons_of_mem _ hs, hid⟩
  points s hs n hn := by
    rcases List.mem_cons.mp hs with rfl | hs
    · cases hn
    · exact h.points s hs n hn
  old t ht := by
    rcases List.mem_cons.mp ht with rfl | ht
    · exact .inl (Nat.le_add_right_of_le h.fresh)
    · exact h.old t ht

end SessionView.Owns

theorem SessionView.mem_newUser_iff {s t : SessionRef} (hs : v.session s.id = some s) {u : S11User} :
    t ∈ (v.newUser s u).sessions ↔ t = { s with s11 := some v.nextUser } ∨ t ∈ v.sessions ∧ t.id ≠ s.id := by
  constructor
  · intro ht
    obtain ⟨t', ht', rfl⟩ := List.mem_map.mp ht
    split
    · exact .inl rfl
    · exact .inr ⟨ht', ‹_›⟩
  · rintro (rfl | ⟨ht, hne⟩)
    · exact List.mem_map.mpr ⟨s, mem_of_session hs, if_pos rfl⟩
    · exact List.mem_map.mpr ⟨t, ht, if_neg hne⟩

namespace SessionView.Owns

theorem newUser {s : SessionRef} {u : S11User} (h : Owns c v) (hsound : (v.newUser s u).Sound)
    (hs : v.session s.id = some s) (hnone : s.s11 = none) (hid : u.id = v.nextUser) (hemm : u.emm = v.self)
    (hsession : u.session = s.id) (hteid : u.lTEID = v.nextTeid) (hcb : ∀ id, u.cb ≠ some (.deleteEPSSession id)) :
    Owns c (v.newUser s u) := by
  have hmem : ∀ {t}, t ∈ (v.newUser s u).sessions ↔ t = { s with s11 := some v.nextUser } ∨ t ∈ v.sessions ∧ t.id ≠ s.id :=
    mem_newUser_iff hs
  have husers : ∀ {k t}, (k, t) ∈ (v.newUser s u).users → (k, t) = (v.nextTeid, u) ∨ (k, t) ∈ v.users :=
    fun ht => (Table.mem_insert.mp ht).imp_right And.left
  refine ⟨h.self, hsound, h.fresh, Nat.le_succ_of_le h.nextUser, ?_, fun k t ht => ?_, fun k t ht hself => ?_,
    fun t ht n hn => ?_, fun t ht => ?_⟩
  · have hadd := h.table.add hid hcb
    rw [hteid] at hadd
    exact hadd
  · rcases husers ht with heq | ht
    · obtain ⟨rfl, rfl⟩ := Prod.mk.inj heq
      exact .inl ⟨hid ▸ h.nextUser, hemm.trans h.self⟩
    · exact h.owner k t ht
  · rcases husers ht with heq | ht
    · obtain ⟨rfl, rfl⟩ := Prod.mk.inj heq
      exact ⟨_, hmem.mpr (.inl rfl), hsession.symm, by rw [hid]⟩
    · obtain ⟨s', hs', hs'id, hs'11⟩ := h.live k t ht hself
      refine ⟨s', hmem.mpr (.inr ⟨hs', fun heq => ?_⟩), hs'id, hs'11⟩
      obtain rfl := h.sound.eq_of_id hs' (mem_of_session hs) heq
      cases hnone.symm.trans hs'11
  · rcases hmem.mp ht with rfl | ⟨ht, -⟩
    · obtain rfl : v.nextUser = n := Option.some.inj hn
      refine ⟨Nat.lt_succ_self _, fun k t ht htid => ?_⟩
      rcases husers ht with heq | ht
      · obtain ⟨rfl, rfl⟩ := Prod.mk.inj heq
        exact ⟨hemm.trans h.self, hsession⟩
      · exact absurd htid (Nat.ne_of_lt (h.table.lt k t ht))
    · obtain ⟨hlt, huser⟩ := h.points t ht n hn
      refine ⟨Nat.lt_succ_of_lt hlt, fun k t ht htid => ?_⟩
      rcases husers ht with heq | ht
      · obtain ⟨rfl, rfl⟩ := Prod.mk.inj heq
        exact absurd (htid.symm.trans hid) (Nat.ne_of_lt hlt)
      · exact huser k t ht htid
  · rcases hmem.mp ht with rfl | ⟨ht, -⟩
    · rcases h.old s (mem_of_session hs) with hnew | ⟨s₀, hs₀, hid₀, h₀⟩
      · exact .inl hnew
      · refine .inr ⟨s₀, hs₀, hid₀, fun n hn => ?_⟩
        cases hnone.symm.trans (h₀ n hn)
    · exact h.old t ht

/-- The session of a Delete Session Response goes.  Its user, which the table no longer has, was its only one. -/
theorem dropSession {tei : UInt32} {u : S11User} {s : SessionRef} {ebi : UInt8} (h : Owns c v)
    (h₀ : Owns c c.sessionView) (hsound : (v.dropSession s ebi).Sound) (hget : c.s11.users.get tei = some u)
    (hemm : u.emm = c.self) (hcb : u.cb = some (.deleteEPSSession s.id))
    (hgone : u.state = .wDel → v.users.get u.lTEID = none) (hs : v.session s.id = some s) :
    Owns c (v.dropSession s ebi) := by
  have hmem : ∀ {t}, t ∈ (v.dropSession s ebi).sessions ↔ t ∈ v.sessions ∧ t.id ≠ s.id := by
    intro t
    simp [SessionView.dropSession]
  have hu : (tei, u) ∈ c.sessionView.users := Table.mem_of_get hget
  obtain ⟨hsession, hwdel⟩ := h₀.table.cb tei u hu s.id hcb
  have htei : tei = u.lTEID := h₀.table.key tei u hu
  have hpoints : s.s11 = some u.id := by
    obtain ⟨s₀, hs₀, hid₀, h11⟩ := h₀.live tei u hu hemm
    rcases h.old s (mem_of_session hs) with hnew | ⟨s₁, hs₁, hid₁, hsame⟩
    · have hlt : s₀.id < c.esm.fresh := (h₀.sound.sessions_lt s₀ hs₀).1
      rw [hid₀, ← hsession] at hlt
      exact absurd hnew (Nat.not_le_of_lt hlt)
    · obtain rfl := h₀.sound.eq_of_id hs₁ hs₀ (hid₁.trans (hsession.trans hid₀.symm))
      exact hsame _ h11
  refine ⟨h.self, hsound, h.fresh, h.nextUser, h.table, h.owner, fun k t ht hself => ?_,
    fun t ht => h.points t (hmem.mp ht).1, fun t ht => h.old t (hmem.mp ht).1⟩
  obtain ⟨s', hs', hid', h11'⟩ := h.live k t ht hself
  refine ⟨s', hmem.mpr ⟨hs', fun heq => ?_⟩, hid', h11'⟩
  obtain rfl := h.sound.eq_of_id hs' (mem_of_session hs) heq
  have hid : t.id = u.id := Option.some.inj (h11'.symm.trans hpoints)
  -- the user of the session would be the one that is gone
  rcases h.owner k t ht with ⟨hnew, -⟩ | ⟨u₀, hu₀, howner⟩
  · exact absurd (hid ▸ hnew) (Nat.not_le_of_lt (h₀.table.lt tei u hu))
  · have hk : k = tei := h₀.table.ids k u₀ tei u hu₀ hu (howner.id.symm.trans hid)
    have hsome := Table.get_of_mem h.table.keys ht
    rw [hk, htei, hgone hwdel] at hsome
    cases hsome

end SessionView.Owns

/-! ## The condition -/

namespace EMMCtx

/-- An error finds no session, an ESM Information Response finds a first session without a user, and a detach finds the
user of the first session ready to delete it or deleting it already. -/
def KeepsSessions (P : Prims) (c : EMMCtx) (e : Env × EMMEvent) : Prop :=
  (c.MayStop P e → c.esm.sessions = []) ∧
  (c.HandlesESM P e esmInformationResponse → ∀ s ∈ c.firstSession e.1, s.s11 = none) ∧
  (c.Detaches P e → ∀ s ∈ c.firstSession e.1, ∀ u ∈ (c.s11.user s.s11).toOption,
    S11Op.detach.accepts u.state = true ∨ u.state = .wDel)

instance : Decidable (c.KeepsSessions P e) := by
  unfold KeepsSessions
  infer_instance

theorem KeepsSessions.of_not_watched (h : ¬ e.2.Watched) : c.KeepsSessions P e := by
  obtain ⟨env, ev⟩ := e
  cases ev with
  | uplink | s11 | timer | stop => exact absurd trivial h
  | _ =>
    refine ⟨fun hstop => ?_, fun hesm => ?_, fun hdet => ?_⟩
    · simp [MayStop, FailsAuth, Handles, takes, Exhausts, Expires, lastT3450, EMMEvent.headerType, EMMEvent.timerCode,
        EMMEvent.isStop] at hstop
    · simp [HandlesESM, esmMsg, leaves, takes] at hesm
    · simp [Detaches, takes] at hdet

theorem keepsSessions_rebind (ecm : Option Nat) (trace : List Act) :
    { c with ecm, trace }.KeepsSessions P e ↔ c.KeepsSessions P e := by
  unfold KeepsSessions
  rw [show ({ c with ecm, trace } : EMMCtx).MayStop P e ↔ c.MayStop P e from mayStop_rebind P c e c.s11 ecm trace,
    show ({ c with ecm, trace } : EMMCtx).Detaches P e ↔ c.Detaches P e from detaches_rebind P c e c.s11 ecm trace,
    HandlesESM,
    show ({ c with ecm, trace } : EMMCtx).esmMsg P e = c.esmMsg P e from esmMsg_rebind P c e c.s11 ecm trace]
  exact Iff.rfl

end EMMCtx

namespace SessionView.Owns

theorem detach {env : Env} {s : SessionRef} {i : Nat} {u u' : S11User} {deletes : List (UInt32 × UInt8)}
    (h : Owns c v) (hfirst : v.First env s) (hi : s.s11 = some i) (hu : v.user i = some u)
    (howner : u.SameOwner u') (hcb : u'.cb = some (.deleteEPSSession s.id)) (hstate : u'.state = .wDel) :
    Owns c { v with users := v.users.insert u.lTEID u', deletes } := by
  obtain ⟨⟨k, u₁⟩, hfind, heq⟩ := Option.map_eq_some_iff.mp hu
  obtain rfl : u₁ = u := heq
  have hmem : (k, u₁) ∈ v.users := List.mem_of_find?_eq_some hfind
  have hid : u₁.id = i := by simpa using List.find?_some hfind
  refine h.touch hmem howner (fun id heq => ⟨?_, hstate⟩) deletes
  obtain rfl : s.id = id := by simpa [hcb] using heq
  obtain ⟨-, hsession⟩ := (h.points s (mem_of_session hfirst.2) i hi).2 k u₁ hmem hid
  rw [howner.session, hsession]

theorem change (h₀ : Owns c c.sessionView) (hq : c.KeepsSessions P e) (hst : ∀ s, e.2 ≠ .s11Stack s) (h : Owns c v)
    (hw : SessionChange P c e v w) : Owns c w := by
  obtain ⟨hstop, hinfo, hdetach⟩ := hq
  have hsound : w.Sound := h.sound.change hw
  cases hw with
  | error hmay hs hnil =>
    have hempty : v.sessions = [] := by
      rw [hs]
      exact List.map_eq_nil_iff.mpr (hstop hmay)
    obtain ⟨rfl, rfl⟩ := hnil hempty
    refine ⟨h.self, hsound, h.fresh, h.nextUser, h.table, h.owner, ?_, nofun, nofun⟩
    rw [← hempty]
    exact h.live
  | newSession => exact h.newSession hsound
  | newUser hs hnone hid hemm hsession hteid _ hcb =>
    refine h.newUser hsound hs ?_ hid hemm hsession hteid (by rw [hcb]; exact nofun)
    rcases hnone with hnone | ⟨hhandles, hsame, hfirst⟩
    · exact hnone
    · obtain ⟨t, ht, -, rfl⟩ := EMMCtx.firstSession_of_first hsame hfirst
      exact hinfo hhandles t ht
  | detach hdet hs husers hfirst hi hu howner hcb hran =>
    refine h.detach hfirst hi hu howner hcb ?_
    obtain ⟨t, ht, -, huser⟩ := EMMCtx.user_of_first hs husers hfirst hi hu
    rcases hran with ⟨-, hstate, -⟩ | ⟨⟨hul, hctx⟩, hstate, -⟩
    · exact hstate
    · rcases hdetach hdet t ht _ (by rw [huser]; rfl) with hacc | hwdel
      · simp [S11Op.accepts, hul, hctx] at hacc
      · rw [hstate, hwdel]
  | touch hu howner hcb hstate =>
    refine h.touch hu howner (fun id hid => ?_) v.deletes
    rcases hcb with hcb | hcb
    · obtain ⟨rfl, hwdel⟩ := h.table.cb _ _ hu id (hcb.symm.trans hid)
      refine ⟨howner.session.symm, ?_⟩
      rcases hstate with hstate | ⟨hne, -⟩
      · rw [hstate, hwdel]
      · exact absurd hwdel hne
    · exact absurd hid (hcb id)
  | remove => exact h.remove _
  | drop _ hget hemm hcb hgone hs => exact h.dropSession h₀ hsound hget hemm hcb hgone hs
  | write hs =>
    rw [h.sound.map_write hs]
    exact h
  | writeBearer hb =>
    rw [h.sound.map_writeBearer hb]
    exact h
  | stack heq => exact absurd heq (hst _)

end SessionView.Owns

namespace EMMCtx

theorem owns_step (h₀ : c.sessionView.Owns c) (hq : c.KeepsSessions P e) (hst : ∀ s, e.2 ≠ .s11Stack s)
    (hd : c.step P e = .ok d) : d.sessionView.Owns c :=
  (changes_step c e d hd).invariant_session (fun _ _ hv hw => SessionView.Owns.change h₀ hq hst hv hw) h₀

end EMMCtx

namespace MME

variable {w v : MME} {i j : Nat}

/-- The events of a context keep its sessions, and a context that has no M-TMSI gets one that is not 0 and that no
registered context with a session has. -/
def KeepsOwners (P : Prims) (w : MME) (c : EMMCtx) (e : Env × EMMEvent) : Prop :=
  c.KeepsSessions P e ∧
    (c.guti.mtmsi = 0 → c.MayGetGUTI P e →
      P.gInt64Hash (c.imsiAfter P e) ≠ 0 ∧
        ∀ en ∈ w.emmSessions, ∀ d ∈ w.emms en.value,
          d.guti.mtmsi = P.gInt64Hash (c.imsiAfter P e) → d.esm.sessions = [])

instance : Decidable (KeepsOwners P w c e) := by
  unfold KeepsOwners
  infer_instance

theorem KeepsOwners.update (h : KeepsOwners P w c e) (hv : v.emmSessions = w.emmSessions) {o : Option EMMCtx}
    (hemms : v.emms = Function.update w.emms i o)
    (ho : ∀ d ∈ o, d.esm.sessions = [] ∨
      ∃ d' ∈ w.emms i, d.guti.mtmsi = d'.guti.mtmsi ∧ d.esm.sessions = d'.esm.sessions) : KeepsOwners P v c e := by
  refine ⟨h.1, fun hzero hmay => ?_⟩
  obtain ⟨hne, hnew⟩ := h.2 hzero hmay
  refine ⟨hne, fun en hen d hd hm => ?_⟩
  rw [hv] at hen
  rw [hemms, Function.update_apply] at hd
  split at hd
  · rename_i heq
    rcases ho d hd with hnil | ⟨d', hd', hsame, hsessions⟩
    · exact hnil
    · rw [hsessions]
      exact hnew en hen d' (heq ▸ hd') (hsame.symm.trans hm)
  · exact hnew en hen d hd hm

/-- The condition on the events of the contexts. -/
def keepsOwners (P : Prims) : CtxCondition where
  holds := KeepsOwners P
  lower hlow h := by
    rw [← hlow]
    exact h
  new id h := h.update rfl rfl fun d hd => .inl (by obtain rfl := Option.mem_some.mp hd; rfl)
  rebind {w i c e} ecm trace hc h := by
    have hrebind : KeepsOwners P w { c with s11 := w.s11, ecm, trace } e := by
      refine ⟨(EMMCtx.keepsSessions_rebind ecm trace).mpr h.1, fun hzero hmay => ?_⟩
      rw [EMMCtx.imsiAfter_rebind P { c with s11 := w.s11 } e w.s11 ecm trace]
      exact h.2 hzero ((EMMCtx.mayGetGUTI_rebind P { c with s11 := w.s11 } e w.s11 ecm trace).mp hmay)
    refine hrebind.update rfl rfl fun d hd => .inr ⟨c, hc, ?_⟩
    obtain rfl := Option.mem_some.mp hd
    exact ⟨rfl, rfl⟩
  env {w c x ev} u h := by
    cases ev with
    | timer code => cases code <;> exact h
    | _ => exact h
  other hun := ⟨.of_not_watched hun, fun _ hmay => absurd hmay.watched hun⟩

instance (w : MME) (c : EMMCtx) (e : Env × EMMEvent) : Decidable ((keepsOwners P).holds w c e) :=
  inferInstanceAs (Decidable (KeepsOwners P w c e))

/-! ## The MME -/

/-- An entry of the table leads to the context that its key is in, unless that context is gone. -/
def TableOf (w : MME) : Prop :=
  ∀ en ∈ w.emmSessions, en.key < w.fresh ∧ (w.HasTMSI en.key → en.value = en.key) ∧ w.mtmsis en.key ≠ some 0

/-- The users of the S11 stack and the sessions of the contexts lead to each other. -/
structure Owned (w : MME) : Prop where
  fresh : ∀ i, w.fresh ≤ i → w.emms i = none
  table : w.TableOf
  users : SoundUsers w.s11.users w.s11.fresh
  self : ∀ i c, w.emms i = some c → c.self = i
  sound : ∀ i c, w.emms i = some c → c.sessionView.Sound
  live : ∀ k u, (k, u) ∈ w.s11.users →
    ∃ c, w.emms u.emm = some c ∧ ∃ s ∈ c.sessionView.sessions, s.id = u.session ∧ s.s11 = some u.id
  points : ∀ i c, w.emms i = some c → ∀ s ∈ c.sessionView.sessions, ∀ n, s.s11 = some n →
    n < w.s11.fresh ∧ ∀ k u, (k, u) ∈ w.s11.users → u.id = n → u.emm = i ∧ u.session = s.id

/-- Every context continues one of before or is new, and so do its sessions. -/
structure Continues (w v : MME) : Prop where
  fresh : w.fresh ≤ v.fresh
  sessions : ∀ i d, v.emms i = some d → w.fresh ≤ i ∨
    ∃ c, w.emms i = some c ∧ c.esm.fresh ≤ d.esm.fresh ∧ ∀ t ∈ d.sessionView.sessions, t.Continues c

namespace Continues

theorem refl (w : MME) : w.Continues w :=
  ⟨le_rfl, fun _ c hc => .inr ⟨c, hc, le_rfl, fun t ht => .inr ⟨t, ht, rfl, fun _ hn => hn⟩⟩⟩

theorem trans {u : MME} (h : w.Continues v) (h' : v.Continues u) : w.Continues u := by
  refine ⟨le_trans h.fresh h'.fresh, fun i d hd => ?_⟩
  rcases h'.sessions i d hd with hnew | ⟨c', hc', hfresh', hs'⟩
  · exact .inl (le_trans h.fresh hnew)
  · rcases h.sessions i c' hc' with hnew | ⟨c, hc, hfresh, hs⟩
    · exact .inl hnew
    · refine .inr ⟨c, hc, le_trans hfresh hfresh', fun t ht => ?_⟩
      rcases hs' t ht with hnew | ⟨t', ht', hid', hn'⟩
      · exact .inl (le_trans hfresh hnew)
      · rcases hs t' ht' with hnew | ⟨s, hs, hid, hn⟩
        · exact .inl (hid' ▸ hnew)
        · exact .inr ⟨s, hs, hid.trans hid', fun n h => hn' n (hn n h)⟩

theorem of_subset (h : ∀ i d, v.emms i = some d → w.emms i = some d) (hfresh : w.fresh ≤ v.fresh) : w.Continues v :=
  ⟨hfresh, fun i d hd => (refl w).sessions i d (h i d hd)⟩

theorem update (hc : w.emms i = some c) (hv : v.emms = Function.update w.emms i (some d)) (hfresh : v.fresh = w.fresh)
    (hesm : c.esm.fresh ≤ d.esm.fresh) (hs : ∀ t ∈ d.sessionView.sessions, t.Continues c) : w.Continues v := by
  refine ⟨Nat.le_of_eq hfresh.symm, fun j d' hd' => ?_⟩
  rw [hv, Function.update_apply] at hd'
  split at hd'
  · rename_i heq
    cases hd'
    exact .inr ⟨c, heq ▸ hc, hesm, hs⟩
  · exact (refl w).sessions j d' hd'

end Continues

theorem cases_of_setEMM {c' : EMMCtx} (h : (w.setEMM i d).emms j = some c') :
    (j = i ∧ c' = d) ∨ j ≠ i ∧ w.emms j = some c' := by
  have h : Function.update w.emms i (some d) j = some c' := h
  rw [Function.update_apply] at h
  split at h
  · exact .inl ⟨‹_›, (Option.some.inj h).symm⟩
  · exact .inr ⟨‹_›, h⟩

namespace Owned

theorem owns (h : w.Owned) (hc : w.emms i = some c) :
    ({ c with s11 := w.s11 } : EMMCtx).sessionView.Owns { c with s11 := w.s11 } where
  self := rfl
  sound := ⟨(h.sound i c hc).sessions, (h.sound i c hc).sessions_lt, (h.sound i c hc).ebis, (h.sound i c hc).ebis_lt⟩
  fresh := Nat.le_refl _
  nextUser := Nat.le_refl _
  table := h.users
  owner k u hu := .inr ⟨u, hu, rfl, rfl, rfl, rfl⟩
  live k u hu hemm := by
    obtain ⟨c', hc', hs⟩ := h.live k u hu
    have hemm : u.emm = i := hemm.trans (h.self i c hc)
    rw [hemm, hc] at hc'
    cases hc'
    exact hs
  points s hs n hn := by
    obtain ⟨hlt, huser⟩ := h.points i c hc s hs n hn
    refine ⟨hlt, fun k u hu hid => ?_⟩
    obtain ⟨hemm, hsession⟩ := huser k u hu hid
    exact ⟨hemm.trans (h.self i c hc).symm, hsession⟩
  old t ht := .inr ⟨t, ht, rfl, fun _ hn => hn⟩

theorem set (h : w.Owned) (hc : w.emms i = some c) (hd : d.sessionView.Owns { c with s11 := w.s11 })
    (htable : ({ w.setEMM i d with s11 := d.s11 } : MME).TableOf) : ({ w.setEMM i d with s11 := d.s11 } : MME).Owned := by
  have hself : c.self = i := h.self i c hc
  have hcases : ∀ {j c'}, ({ w.setEMM i d with s11 := d.s11 } : MME).emms j = some c' →
      (j = i ∧ c' = d) ∨ j ≠ i ∧ w.emms j = some c' := cases_of_setEMM
  refine ⟨fun j hj => ?_, htable, hd.table, fun j c' hc' => ?_, fun j c' hc' => ?_, fun k u hu => ?_, fun j c' hc' s hs n hn => ?_⟩
  · have hne : j ≠ i := by
      rintro rfl
      cases (h.fresh j hj).symm.trans hc
    exact (Function.update_of_ne hne ..).trans (h.fresh j hj)
  · rcases hcases hc' with ⟨rfl, rfl⟩ | ⟨-, hc'⟩
    · exact hd.self.trans hself
    · exact h.self j c' hc'
  · rcases hcases hc' with ⟨rfl, rfl⟩ | ⟨-, hc'⟩
    · exact hd.sound
    · exact h.sound j c' hc'
  · by_cases hemm : u.emm = i
    · refine ⟨d, ?_, hd.live k u hu (hemm.trans hself.symm)⟩
      rw [hemm]
      exact Function.update_self ..
    · -- a user of another context is one that the stack had
      rcases hd.owner k u hu with ⟨-, hown⟩ | ⟨u₀, hu₀, howner⟩
      · exact absurd (hown.trans hself) hemm
      · obtain ⟨c', hc', hs⟩ := h.live k u₀ hu₀
        rw [← howner.emm] at hc'
        rw [← howner.session, ← howner.id] at hs
        exact ⟨c', (Function.update_of_ne hemm ..).trans hc', hs⟩
  · rcases hcases hc' with ⟨rfl, rfl⟩ | ⟨-, hc'⟩
    · obtain ⟨hlt, huser⟩ := hd.points s hs n hn
      refine ⟨hlt, fun k u hu hid => ?_⟩
      obtain ⟨hemm, hsession⟩ := huser k u hu hid
      exact ⟨hemm.trans hself, hsession⟩
    · obtain ⟨hlt, huser⟩ := h.points j c' hc' s hs n hn
      refine ⟨Nat.lt_of_lt_of_le hlt hd.nextUser, fun k u hu hid => ?_⟩
      rcases hd.owner k u hu with ⟨hnew, -⟩ | ⟨u₀, hu₀, howner⟩
      · exact absurd hnew (Nat.not_le_of_lt (hid ▸ hlt))
      · rw [howner.emm, howner.session]
        exact huser k u₀ hu₀ (howner.id.symm.trans hid)

/-- A context comes that has no sessions, or the sessions that it had. -/
theorem replace (h : w.Owned) (hself : d.self = i) (hsound : d.sessionView.Sound)
    (hs : (∃ c, w.emms i = some c ∧ d.sessionView.sessions = c.sessionView.sessions) ∨
      w.emms i = none ∧ d.sessionView.sessions = [])
    (hv : v.emms = (w.setEMM i d).emms) (hs11 : v.s11 = w.s11) (hi : i < v.fresh) (hfresh : w.fresh ≤ v.fresh)
    (htable : v.TableOf) : v.Owned := by
  refine ⟨fun j hj => ?_, htable, by rw [hs11]; exact h.users, fun j c' hc' => ?_, fun j c' hc' => ?_, fun k u hu => ?_,
    fun j c' hc' s hmem n hn => ?_⟩
  · have hne : j ≠ i := Nat.ne_of_gt (Nat.lt_of_lt_of_le hi hj)
    rw [hv]
    exact (Function.update_of_ne hne ..).trans (h.fresh j (Nat.le_trans hfresh hj))
  · rw [hv] at hc'
    rcases cases_of_setEMM hc' with ⟨rfl, rfl⟩ | ⟨-, hc'⟩
    · exact hself
    · exact h.self j c' hc'
  · rw [hv] at hc'
    rcases cases_of_setEMM hc' with ⟨rfl, rfl⟩ | ⟨-, hc'⟩
    · exact hsound
    · exact h.sound j c' hc'
  · rw [hs11] at hu
    obtain ⟨c', hc', hlive⟩ := h.live k u hu
    rw [hv]
    by_cases hemm : u.emm = i
    · rw [hemm] at hc' ⊢
      refine ⟨d, Function.update_self .., ?_⟩
      rcases hs with ⟨c, hc, hs⟩ | ⟨hnone, -⟩
      · cases hc.symm.trans hc'
        rw [hs]
        exact hlive
      · cases hnone.symm.trans hc'
    · exact ⟨c', (Function.update_of_ne hemm ..).trans hc', hlive⟩
  · rw [hv] at hc'
    rw [hs11]
    rcases cases_of_setEMM hc' with ⟨rfl, rfl⟩ | ⟨-, hc'⟩
    · rcases hs with ⟨c, hc, hs⟩ | ⟨-, hnil⟩
      · exact h.points j c hc s (hs ▸ hmem) n hn
      · rw [hnil] at hmem
        cases hmem
    · exact h.points j c' hc' s hmem n hn

theorem free (h : w.Owned) (hc : w.emms i = some c) (hnil : c.esm.sessions = []) {t : PtrTable UInt32}
    (htable : ({ w with emms := Function.update w.emms i none, emmSessions := t } : MME).TableOf) :
    ({ w with emms := Function.update w.emms i none, emmSessions := t } : MME).Owned := by
  have hcases : ∀ {j c'}, Function.update w.emms i none j = some c' → w.emms j = some c' := by
    intro j c' hc'
    rw [Function.update_apply] at hc'
    split at hc'
    · cases hc'
    · exact hc'
  refine ⟨fun j hj => ?_, htable, h.users, fun j c' hc' => h.self j c' (hcases hc'),
    fun j c' hc' => h.sound j c' (hcases hc'), fun k u hu => ?_, fun j c' hc' => h.points j c' (hcases hc')⟩
  · show Function.update w.emms i none j = none
    rw [Function.update_apply, h.fresh j hj]
    split <;> rfl
  · obtain ⟨c', hc', s, hs, hlive⟩ := h.live k u hu
    have hne : u.emm ≠ i := by
      rintro rfl
      cases hc.symm.trans hc'
      rw [EMMCtx.sessionView, hnil] at hs
      cases hs
    exact ⟨c', (Function.update_of_ne hne ..).trans hc', s, hs, hlive⟩

/-- A context that no key points into is registered under an M-TMSI; the context that had it, if any, had no
sessions. -/
theorem register {m : UInt32} (h : w.Owned) (hm : w.mtmsis i = some m) (hne : m ≠ 0)
    (hfree : ∀ en ∈ w.emmSessions, en.value = en.key → ∀ c ∈ w.emms en.key, c.guti.mtmsi = m → c.esm.sessions = []) :
    Post (w.mmeRegisterEMMCtxt i) fun v => v.Owned ∧ w.Continues v := by
  have hlt : i < w.fresh := by
    by_contra hle
    rw [mtmsis, h.fresh i (Nat.le_of_not_lt hle)] at hm
    cases hm
  refine .bind_of_eq fun k hk => .bind_of_eq fun r hins => ?_
  obtain ⟨t, o⟩ := r
  obtain rfl : m = k := Option.some.inj (hm.symm.trans (mtmsiKey_eq_ok.mp hk))
  obtain ⟨found, hfind, hins⟩ := bind_eq_ok.mp hins
  cases found with
  | none =>
    obtain ⟨rfl, rfl⟩ := Prod.mk.inj (Except.ok.inj hins)
    have htable : ({ w with emmSessions := ⟨gIntHash m, i, i⟩ :: w.emmSessions } : MME).TableOf := by
      intro en hen
      rcases List.mem_cons.mp hen with rfl | hen
      · refine ⟨hlt, fun _ => rfl, fun hzero => hne ?_⟩
        exact Option.some.inj (hm.symm.trans hzero)
      · exact h.table en hen
    exact .ok ⟨{ h with table := htable }, .of_subset (fun _ _ hd => hd) (Nat.le_refl _)⟩
  | some en =>
    obtain ⟨rfl, rfl⟩ := Prod.mk.inj (Except.ok.inj hins)
    obtain ⟨hen, hread⟩ := mem_of_find hfind
    obtain ⟨c, hc, hcm⟩ := Option.map_eq_some_iff.mp (mtmsiKey_eq_ok.mp hread)
    have hself : en.value = en.key := (h.table en hen).2.1 ⟨m, mtmsiKey_eq_ok.mp hread, hne⟩
    refine .of_bind fun _ => .ok ?_
    rw [hself]
    have hgone : ({ w with emms := Function.update w.emms en.key none, emmSessions := { en with value := i } ::
        w.emmSessions.erase en } : MME).mtmsis = Function.update w.mtmsis en.key none :=
      mtmsis_update (w := w) (i := en.key) (o := none) rfl
    refine ⟨h.free hc (hfree en hen hself c hc hcm) fun en' hen' => ?_, .of_subset (fun j d hd => ?_) (Nat.le_refl _)⟩
    · rw [HasTMSI, hgone, Function.update_apply]
      rcases List.mem_cons.mp hen' with rfl | hen'
      · refine ⟨(h.table en hen).1, ?_, ?_⟩
        · rw [if_pos rfl]
          rintro ⟨_, ⟨⟩, _⟩
        · rw [if_pos rfl]
          rintro ⟨_, ⟨⟩, _⟩
      · have hold := h.table en' (List.mem_of_mem_erase hen')
        split
        · exact ⟨hold.1, by simp, by simp⟩
        · exact hold
    · have hd : Function.update w.emms en.key none j = some d := hd
      rw [Function.update_apply] at hd
      split at hd
      · cases hd
      · exact hd

end Owned

/-! ## One event of the contexts -/

namespace TableOf

theorem congr (h : w.TableOf) (hm : v.mtmsis = w.mtmsis) (ht : v.emmSessions = w.emmSessions)
    (hfresh : w.fresh ≤ v.fresh) : v.TableOf := by
  intro en hen
  rw [ht] at hen
  rw [HasTMSI, hm]
  exact ⟨lt_of_lt_of_le (h en hen).1 hfresh, (h en hen).2⟩

/-- A context without an M-TMSI, which no key points into, gets one or comes. -/
theorem update {o : Option UInt32} (h : w.TableOf) (hm : v.mtmsis = Function.update w.mtmsis i o)
    (ht : v.emmSessions = w.emmSessions) (hfresh : w.fresh ≤ v.fresh) (hkey : ∀ en ∈ w.emmSessions, en.key ≠ i) :
    v.TableOf := by
  intro en hen
  rw [ht] at hen
  rw [HasTMSI, hm, Function.update_of_ne (hkey en hen)]
  exact ⟨lt_of_lt_of_le (h en hen).1 hfresh, (h en hen).2⟩

end TableOf

theorem owned_ctxStep {ce : CtxEvent} (h : w.Owned) (hq : Guarded (keepsOwners P) w ce)
    (hv : w.ctxStep P ce = .ok v) : v.Owned ∧ w.Continues v := by
  cases ce with
  | on x i ev =>
    obtain ⟨c, d, hc, hd, hreg⟩ := ctxStep_on hv
    obtain ⟨hst, hhold, hlinked⟩ := hq
    obtain ⟨hself, hcoh, hlinked⟩ := hlinked c hc
    obtain ⟨hkeeps, hnew⟩ := (keepsOwners P).env w (hhold i rfl c hc)
    have howns := EMMCtx.owns_step (h.owns hc) hkeeps hst hd
    obtain ⟨acts, htrace, -, hcases⟩ := EMMCtx.registrations_step (c := { c with s11 := w.s11 })
      hcoh hlinked (fun hz hm => (hnew hz hm).1) hd
    have htake : d.trace.take (d.trace.length - c.trace.length) = acts := by simp [htrace]
    have hcont : w.Continues { w.setEMM i d with s11 := d.s11 } :=
      .update hc rfl rfl howns.fresh howns.old
    have hmt : ({ w.setEMM i d with s11 := d.s11 } : MME).mtmsis = Function.update w.mtmsis i (some d.guti.mtmsi) :=
      mtmsis_update (o := some d) rfl
    have hci : w.mtmsis i = some c.guti.mtmsi := by
      rw [mtmsis, hc]
      rfl
    rw [htake, register_eq] at hreg
    rcases hcases with ⟨hm, hnone⟩ | ⟨hzero, hmay, hm, hone⟩
    · rw [hnone] at hreg
      cases hreg
      refine ⟨h.set hc howns (h.table.congr ?_ rfl le_rfl), hcont⟩
      rw [hmt, hm, ← hci, Function.update_eq_self]
    · rw [hone, hself] at hreg
      obtain ⟨v', hreg', hv'⟩ := bind_eq_ok.mp hreg
      obtain rfl := Except.ok.inj hv'
      obtain ⟨hne, hother⟩ := hnew hzero hmay
      rw [← hm] at hne hother
      have hkey : ∀ en ∈ w.emmSessions, en.key ≠ i := by
        rintro en hen rfl
        exact (h.table en hen).2.2 (hci.trans (congrArg some hzero))
      have howned := h.set hc howns (h.table.update hmt rfl le_rfl hkey)
      have hmi : ({ w.setEMM i d with s11 := d.s11 } : MME).mtmsis i = some d.guti.mtmsi := by
        rw [hmt, Function.update_self]
      have hfree : ∀ en ∈ w.emmSessions, en.value = en.key → ∀ c' ∈ (w.setEMM i d).emms en.key,
          c'.guti.mtmsi = d.guti.mtmsi → c'.esm.sessions = [] := by
        intro en hen heq c' hc'
        have hc' : Function.update w.emms i (some d) en.key = some c' := hc'
        rw [Function.update_of_ne (hkey en hen), ← heq] at hc'
        exact hother en hen c' hc'
      obtain ⟨hv, hcont'⟩ := howned.register hmi hne hfree v' hreg'
      exact ⟨hv, hcont.trans hcont'⟩
  | new id =>
    cases hv
    have hnone := h.fresh _ le_rfl
    have htable : (w.newEMM id).TableOf :=
      h.table.update (mtmsis_update rfl) rfl (Nat.le_succ _)
        fun en hen => Nat.ne_of_lt (h.table en hen).1
    refine ⟨h.replace rfl (EMMCtx.exact_emmInit ..).toSound (.inr ⟨hnone, rfl⟩) rfl rfl (Nat.lt_succ_self _)
      (Nat.le_succ _) htable, Nat.le_succ _, fun j d hd => ?_⟩
    rcases cases_of_setEMM hd with ⟨rfl, -⟩ | ⟨-, hd⟩
    · exact .inl le_rfl
    · exact (Continues.refl w).sessions j d hd
  | deregister i =>
    obtain ⟨c, hc, hv⟩ := bind_eq_ok.mp hv
    obtain ⟨_, ⟨⟩, hc⟩ := deref_eq_ok.mp hc
    cases hv
    have hsame : c.emmDeregister.esm = c.esm ∧ c.emmDeregister.guti = c.guti ∧ c.emmDeregister.self = c.self := by
      unfold EMMCtx.emmDeregister
      split <;> exact ⟨rfl, rfl, rfl⟩
    obtain ⟨hesm, hguti, hself⟩ := hsame
    have hs : c.emmDeregister.sessionView.sessions = c.sessionView.sessions := by
      rw [EMMCtx.sessionView, hesm]
      rfl
    have hsound : c.emmDeregister.sessionView.Sound := by
      obtain ⟨hnodup, hlt, hebis, hebis_lt⟩ := h.sound i c hc
      refine ⟨?_, ?_, ?_, ?_⟩ <;> rw [EMMCtx.sessionView, hesm] <;> assumption
    have hm : (w.setEMM i c.emmDeregister).mtmsis = w.mtmsis := by
      have hci : w.mtmsis i = some c.emmDeregister.guti.mtmsi := by
        rw [mtmsis, hc, hguti]
        rfl
      rw [mtmsis_update rfl, Option.map_some, ← hci, Function.update_eq_self]
    have hlt : i < w.fresh := by
      by_contra hle
      cases (h.fresh i (not_lt.mp hle)).symm.trans hc
    refine ⟨h.replace (hself.trans (h.self i c hc)) hsound (.inl ⟨c, hc, hs⟩) rfl rfl hlt le_rfl
      (h.table.congr hm rfl le_rfl), .update hc rfl rfl ?_ fun t ht => ?_⟩
    · rw [hesm]
    · rw [hs] at ht
      exact .inr ⟨t, ht, rfl, fun _ hn => hn⟩
  | lower u =>
    cases hv
    refine ⟨{ h with fresh := fun j hj => ?_, table := h.table.congr rfl rfl hq }, .of_subset (fun _ _ hd => hd) hq⟩
    exact h.fresh j (le_trans hq hj)

/-! ## Every run -/

/-- Every user of the S11 stack leads to a session of a context, which leads back to the user; so a session has one
user at most. -/
structure UsersLive (w : MME) : Prop where
  live : ∀ k u, (k, u) ∈ w.s11.users →
    ∃ c, w.emms u.emm = some c ∧ ∃ s ∈ c.esm.sessions, s.id = u.session ∧ s.s11 = some u.id
  one : ∀ k u k' u', (k, u) ∈ w.s11.users → (k', u') ∈ w.s11.users → u.emm = u'.emm → u.session = u'.session →
    k = k' ∧ u = u'

/-- A session that has a user keeps it. -/
def KeepsUsers (w v : MME) : Prop :=
  ∀ i c d, w.emms i = some c → v.emms i = some d → ∀ s ∈ c.esm.sessions, ∀ t ∈ d.esm.sessions, t.id = s.id →
    ∀ n, s.s11 = some n → t.s11 = some n

theorem Owned.usersLive (h : w.Owned) : w.UsersLive where
  live k u hu := by
    obtain ⟨c, hc, r, hr, hid, hs11⟩ := h.live k u hu
    obtain ⟨s, hs, rfl⟩ := EMMCtx.mem_sessionView.mp hr
    exact ⟨c, hc, s, hs, hid, hs11⟩
  one k u k' u' hu hu' hemm hsession := by
    obtain ⟨c, hc, s, hs, hid, hs11⟩ := h.live k u hu
    obtain ⟨c', hc', s', hs', hid', hs11'⟩ := h.live k' u' hu'
    rw [← hemm, hc] at hc'
    cases hc'
    obtain rfl := (h.sound _ c hc).eq_of_id hs hs' (hid.trans (hsession.trans hid'.symm))
    obtain rfl := h.users.ids k u k' u' hu hu' (Option.some.inj (hs11.symm.trans hs11'))
    refine ⟨rfl, Option.some.inj ?_⟩
    rw [← Table.get_of_mem h.users.keys hu, ← Table.get_of_mem h.users.keys hu']

theorem Continues.keepsUsers (h : w.Continues v) (hw : w.Owned) : w.KeepsUsers v := by
  intro i c d hc hd s hs t ht hid n hn
  rcases h.sessions i d hd with hnew | ⟨c', hc', -, hall⟩
  · cases (hw.fresh i hnew).symm.trans hc
  · cases hc.symm.trans hc'
    have hsref := EMMCtx.mem_sessionView.mpr ⟨s, hs, rfl⟩
    rcases hall t.ref (EMMCtx.mem_sessionView.mpr ⟨t, ht, rfl⟩) with hnew | ⟨r, hr, hrid, hsame⟩
    · have hlt := ((hw.sound i c hc).sessions_lt s.ref hsref).1
      have hle : c.esm.fresh ≤ t.id := hnew
      rw [hid] at hle
      exact absurd hle (Nat.not_le_of_lt hlt)
    · obtain rfl := (hw.sound i c hc).eq_of_id hr hsref (hrid.trans hid)
      exact hsame n hn

theorem init_owned (r : UInt8) : (init r).Owned where
  fresh _ _ := rfl
  table _ hen := absurd hen List.not_mem_nil
  users := .nil 0
  self _ _ hc := by cases hc
  sound _ _ hc := by cases hc
  live _ _ hu := absurd hu List.not_mem_nil
  points _ _ hc := by cases hc

theorem owned_ctxRun {ces : List CtxEvent} (h : Run (ctxStep P) (Guarded (keepsOwners P)) w ces v) (hw : w.Owned) :
    v.Owned ∧ w.Continues v := by
  refine h.invariant (I := fun v => v.Owned ∧ w.Continues v) ?_ ⟨hw, .refl w⟩
  rintro u ce v ⟨hu, hwu⟩ hq hv
  obtain ⟨hv, huv⟩ := owned_ctxStep hu hq hv
  exact ⟨hv, hwu.trans huv⟩

/-- In every run whose events meet the condition, every S11 user leads to a live session of a live context, a session
has at most one user, and it keeps the user that it got. -/
theorem usersLive_of_run {r : UInt8} {es : List (Env × MMEEvent)}
    (h : Run (step P) (Meets (keepsOwners P)) (init r) es w) :
    w.UsersLive ∧ ∀ e v, Meets (keepsOwners P) w e → w.step P e = .ok v → w.KeepsUsers v := by
  obtain ⟨ces, hces⟩ := ctxRun_of_run h
  obtain ⟨howned, -⟩ := owned_ctxRun hces (init_owned r)
  refine ⟨howned.usersLive, fun e v hq hv => ?_⟩
  obtain ⟨ces', hces'⟩ := ctxRun_of_step (h.mono fun _ _ _ => trivial) hq hv
  exact (owned_ctxRun hces' howned).2.keepsUsers howned

/-- The UE attaches; its session has a user. -/
theorem usersLive_of_run_attach :
    ∃ w, Run (step Prims.zeroKasme) (Meets (keepsOwners Prims.zeroKasme)) (init 0) Sample.attach w ∧
      w.s11.users.map (·.1) = [1] ∧ w.UsersLive := by
  refine Run.exists_of_exec (fun w => w.s11.users.map (·.1) = [1]) (by decide +kernel) fun w hrun husers => ?_
  exact ⟨husers, (usersLive_of_run hrun).1⟩

/-- After the Create Session Request of an attach the UE sends a Service Request.  The session is freed; its user stays
in the table and waits for the response. -/
theorem user_outlives_session :
    ∃ w c u, Run (step Prims.zeroKasme) (fun _ _ => True) (init 0)
        (Sample.attach.take 5 ++ [(Sample.env .manyRows, Sample.uplinkNASTransport 1 7 [0xc7, 0x00, 0x00, 0x00])]) w ∧
      w.s11.users.get 1 = some u ∧ u.state = .wCtxRsp ∧ u.emm = 2 ∧ w.emms 2 = some c ∧ c.esm.sessions = [] := by
  simp only [exists_and_left]
  refine Run.exists_of_exec (fun w => (w.s11.users.get 1).map (fun u => (u.state, u.emm)) = some (.wCtxRsp, 2) ∧
    (w.emms 2).map (fun c => c.esm.sessions.length) = some 0) (by decide +kernel) ?_
  rintro w - ⟨hu, hc⟩
  obtain ⟨u, hu, hstate⟩ := Option.map_eq_some_iff.mp hu
  obtain ⟨c, hc, hlen⟩ := Option.map_eq_some_iff.mp hc
  obtain ⟨hstate, hemm⟩ := Prod.mk.inj hstate
  exact ⟨c, u, hu, hstate, hemm, hc, List.length_eq_zero_iff.mp hlen⟩

end MME

end AaltoMME
