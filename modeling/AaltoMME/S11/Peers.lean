import AaltoMME.Base.RefCount
import AaltoMME.S11.Correlation

/-!
# The peers of the S11 interface

A serving gateway is tracked as a peer while users have sessions with it.  The number of its sessions is raised
where the Create Session Request is built and lowered where the table of users frees a user.  The stack is taken
here by itself: users are attached on behalf of any EMM context, operations are called for them, and packets come
in, up to the point where control returns to the caller.
-/

namespace AaltoMME

open Base NAS

/-! ## The stack by itself -/

/-- What happens to the stack. -/
inductive S11StackEvent
  | newUserAttach (emm : EMMCtx) (session : Nat) (cb : S11Cb)
  | call (emm : EMMCtx) (op : S11Op) (u : Option Nat) (cb : Option S11Cb)
  | packet (emm : EMMCtx) (pkt : GtpPacket)

namespace S11Stack

/-- `s11_init`, with the restart counter. -/
def init (restartCounter : UInt8) : S11Stack := ⟨0, 1, [], [], restartCounter, 0⟩

def step (s : S11Stack) : Env × S11StackEvent → Outcome S11Stack
  | (env, .newUserAttach emm session cb) => do
    let (c, _) ← EMMCtx.s11NewUserAttach env { emm with s11 := s } session cb
    pure c.s11
  | (env, .call emm op u cb) => do
    let c ← op.run env { emm with s11 := s } u cb
    pure c.s11
  | (env, .packet emm pkt) => do
    let (c, _) ← EMMCtx.s11Deliver env { emm with s11 := s } pkt
    pure c.s11

def live (s : S11Stack) : List S11User := s.users.map Prod.snd

/-- The number of sessions of a peer. -/
def numSessions (s : S11Stack) (a : Option SockAddr) : Option ℕ := (s.peers.get a).map (·.numSessions.toNat)

/-- The invariant.  The TEIDs of the users are the ones that `newTeid` gave out, each to one user, and the peers
count the users. -/
structure Counted (s : S11Stack) : Prop where
  key : ∀ e ∈ s.users, e.1 = e.2.lTEID ∧ e.1 = UInt32.ofNat (e.2.id + 1) ∧ e.2.id < s.fresh ∧ e.2.state ≠ .noCtx
  nodup : (s.users.map Prod.fst).Nodup
  next : s.nextTeid = UInt32.ofNat (s.fresh + 1)
  length : s.users.length ≤ s.fresh
  counts : Counts (s.live.map (·.rAddr)) s.numSessions

theorem counted_init (r : UInt8) : (init r).Counted where
  key := nofun
  nodup := List.nodup_nil
  next := rfl
  length := Nat.le_refl 0
  counts := .nil

variable {s t : S11Stack} {u v : S11User}

theorem Counted.congr (h : s.Counted) (husers : t.users = s.users) (hnext : t.nextTeid = s.nextTeid)
    (hfresh : t.fresh = s.fresh) (hnum : t.numSessions = s.numSessions) : t.Counted where
  key := by
    rw [husers, hfresh]
    exact h.key
  nodup := husers ▸ h.nodup
  next := by rw [hnext, hfresh, h.next]
  length := by
    rw [husers, hfresh]
    exact h.length
  counts := by
    rw [hnum, live, husers]
    exact h.counts

theorem Counted.user_eq_ok (h : s.Counted) {p : Option Nat} (hu : s.user p = .ok u) :
    s.users.get u.lTEID = some u := by
  obtain ⟨i, rfl, hfind⟩ := deref_eq_ok.mp hu
  obtain ⟨e, he, rfl⟩ := Option.map_eq_some_iff.mp hfind
  have hmem := List.mem_of_find?_eq_some he
  obtain ⟨hkey, -⟩ := h.key e hmem
  refine Table.get_of_mem h.nodup ?_
  rw [← hkey]
  exact hmem

/-- The addresses of the users are the one of a user and those of the others. -/
theorem Counted.addresses (h : s.Counted) (hu : s.users.get u.lTEID = some u) :
    (s.live.map (·.rAddr)).Perm (u.rAddr :: ((s.users.remove u.lTEID).map Prod.snd).map (·.rAddr)) :=
  ((Table.perm_cons_remove h.nodup hu).map Prod.snd).map (·.rAddr)

/-- What is written back of a user keeps its TEID, its pointer and its peer. -/
structure Updates (u v : S11User) : Prop where
  lTEID : v.lTEID = u.lTEID
  id : v.id = u.id
  rAddr : v.rAddr = u.rAddr
  state : v.state ≠ .noCtx

theorem Counted.insert (h : s.Counted) (hu : s.users.get u.lTEID = some u) (hv : Updates u v)
    (husers : t.users = s.users.insert u.lTEID v) (hnext : t.nextTeid = s.nextTeid) (hfresh : t.fresh = s.fresh)
    (hnum : t.numSessions = s.numSessions) : t.Counted := by
  obtain ⟨-, hid, hlt, -⟩ := h.key _ (Table.mem_of_get hu)
  refine ⟨?_, ?_, by rw [hnext, hfresh, h.next], ?_, ?_⟩
  · rw [husers, hfresh]
    refine List.forall_mem_cons.mpr ⟨?_, fun e he => h.key e (List.mem_filter.mp he).1⟩
    rw [hv.lTEID, hv.id]
    exact ⟨rfl, hid, hlt, hv.state⟩
  · rw [husers]
    exact Table.nodup_insert h.nodup _ _
  · have hlen := (Table.perm_cons_remove h.nodup hu).length_eq
    rw [husers, hfresh]
    exact hlen.symm.le.trans h.length
  · rw [hnum, live, husers]
    refine h.counts.perm ((h.addresses hu).trans (.of_eq ?_))
    rw [← hv.rAddr]
    rfl

theorem Counted.setUser (h : s.Counted) (hu : s.users.get u.lTEID = some u) (hv : Updates u v) :
    (s.setUser v).Counted :=
  h.insert hu hv (by rw [← hv.lTEID]; rfl) rfl rfl rfl

theorem Counted.numSessions_le (h : s.Counted) (a : Option SockAddr) : (s.numSessions a).getD 0 ≤ s.fresh := by
  refine (h.counts.getD_le_length a).trans ?_
  simpa [live] using h.length

/-! ## The two ends of a session -/

/-- The first session of a peer is the one that finds no other user of it. -/
theorem Counted.isFirstSession_iff (h : s.Counted) (a : Option SockAddr) :
    (s.isFirstSession a).1 = true ↔ ∀ u ∈ s.live, u.rAddr ≠ a := by
  have hsome := h.counts.isSome_iff (k := a)
  have hfirst : (s.isFirstSession a).1 = true ↔ ¬ (s.numSessions a).isSome = true := by
    unfold isFirstSession numSessions
    split <;> simp_all
  rw [hfirst, hsome, List.mem_map]
  constructor
  · intro hno u hu ha
    exact hno ⟨u, hu, ha⟩
  · rintro hall ⟨u, hu, ha⟩
    exact hall u hu ha

theorem numSessions_isFirstSession (a : Option SockAddr) (hlt : (s.numSessions a).getD 0 + 1 < 2 ^ 32) :
    (s.isFirstSession a).2.numSessions = Function.update s.numSessions a (some ((s.numSessions a).getD 0 + 1)) := by
  funext b
  unfold isFirstSession
  cases hp : s.peers.get a with
  | none =>
    by_cases hb : b = a
    · simp [hb, numSessions, hp]
    · simp [hb, numSessions, Table.get_insert_of_ne]
  | some p =>
    by_cases hb : b = a
    · have hp' : p.numSessions.toNat + 1 < 2 ^ 32 := by simpa [numSessions, hp] using hlt
      have hadd : (p.numSessions + 1).toNat = p.numSessions.toNat + 1 := by
        exact Nat.mod_eq_of_lt hp'
      simp [hb, numSessions, hp, hadd]
    · simp [hb, numSessions, Table.get_insert_of_ne]

theorem unrefSession_eq_ok {a : Option SockAddr} {p : S11Peer} (hp : s.peers.get a = some p) :
    s.unrefSession a = .ok { s with
      peers := if p.numSessions = 1 then s.peers.remove a
        else s.peers.insert a { p with numSessions := p.numSessions - 1 } } := by
  rw [S11Stack.unrefSession, hp]

/-- The counters after the last session of a peer, and after another one. -/
theorem numSessions_unref {a : Option SockAddr} {p : S11Peer} {n : ℕ} (hp : p.numSessions.toNat = n + 1) :
    ({ s with
      peers := if p.numSessions = 1 then s.peers.remove a
        else s.peers.insert a { p with numSessions := p.numSessions - 1 } } : S11Stack).numSessions =
      Function.update s.numSessions a (if n = 0 then none else some n) := by
  have hone : p.numSessions = 1 ↔ n = 0 := by
    rw [← UInt32.toNat_inj, hp]
    show n + 1 = 1 ↔ _
    omega
  funext b
  by_cases hlast : n = 0
  · by_cases hb : b = a
    · simp [numSessions, hone.mpr hlast, hlast, hb, Table.get_remove_self]
    · simp [numSessions, hone.mpr hlast, hb, Table.get_remove_of_ne _ _ _ hb]
  · have hne : p.numSessions ≠ 1 := fun h => hlast (hone.mp h)
    have hsub : (p.numSessions - 1).toNat = n := by
      rw [UInt32.toNat_sub_of_le]
      · show p.numSessions.toNat - 1 = n
        omega
      · show 1 ≤ p.numSessions.toNat
        omega
    by_cases hb : b = a
    · simp [numSessions, hne, hlast, hb, hsub]
    · simp [numSessions, hne, hb, Table.get_insert_of_ne _ _ _ _ hb]

/-- The user that goes is counted by its peer, and the counter goes with the last user. -/
theorem Counted.unrefSession (h : s.Counted) (hu : s.users.get u.lTEID = some u) :
    (∃ p, s.peers.get u.rAddr = some p ∧ 0 < p.numSessions.toNat) ∧
      ∃ t, ({ s with users := s.users.remove u.lTEID } : S11Stack).unrefSession u.rAddr = .ok t ∧
        t.fresh = s.fresh ∧ t.Counted := by
  obtain ⟨hnum, hcounts⟩ := (h.counts.perm (h.addresses hu)).release
  obtain ⟨p, hp, hpnum⟩ := Option.map_eq_some_iff.mp hnum
  refine ⟨⟨p, hp, by omega⟩, _, unrefSession_eq_ok hp, rfl, ?_⟩
  refine ⟨fun e he => h.key e (List.mem_filter.mp he).1, Table.nodup_remove h.nodup _, h.next,
    (List.length_filter_le _ _).trans h.length, ?_⟩
  rw [numSessions_unref hpnum]
  exact hcounts

end S11Stack

/-! ## Requests -/

namespace EMMCtx

open S11Stack

variable {env : Env} {c : EMMCtx} {u : S11User}

/-- The Create Session Request counts the session, and carries the Recovery element if it is the first. -/
theorem post_sendCreateSessionReq (u : S11User) :
    Post (c.sendCreateSessionReq env u) fun r => ∃ seq trxns number imsi msisdn sn pgw subs pco ebi,
      r.1.s11 = { (c.s11.isFirstSession u.rAddr).2 with seq } ∧ r.2 = { u with trxns } ∧
        r.1.trace = .s11Send u.lTEID u.rTEID number (.createSession imsi msisdn sn pgw subs pco ebi
          (if (c.s11.isFirstSession u.rAddr).1 then some (c.s11.isFirstSession u.rAddr).2.restartCounter
            else none)) :: c.trace := by
  refine .of_bind fun ecm => .of_bind fun session => .of_bind fun bearer => ?_
  refine (post_s11Request u _).mono ?_
  rintro _ ⟨trxns, -, rfl⟩
  exact ⟨_, trxns, _, _, _, _, _, _, _, _, rfl, rfl, rfl⟩

theorem counted_run (hc : c.s11.Counted) (op : S11Op) (p : Option Nat) (cb : Option S11Cb) :
    Post (op.run env c p cb) fun d => d.s11.Counted ∧ d.s11.fresh = c.s11.fresh := by
  rw [S11Op.run_eq]
  refine .bind_of_eq fun u hu => ?_
  have hget := hc.user_eq_ok hu
  obtain ⟨-, -, -, hstate⟩ := hc.key _ (Table.mem_of_get hget)
  refine .ite (fun haccepts => ?_) fun _ => .ok ⟨hc.setUser hget ⟨rfl, rfl, rfl, hstate⟩, rfl⟩
  have hop : op ≠ .attach := by
    rintro rfl
    exact hstate (by simpa [S11Op.accepts] using haccepts)
  refine (post_send op _).bind ?_
  rintro _ ⟨req, peers, trxns, -, -, hpeers, -, rfl⟩
  obtain rfl := hpeers hop
  have hnext : op.next ≠ .noCtx := by cases op <;> nofun
  exact .ok ⟨hc.insert (v := { u with cb, trxns, state := op.next }) hget ⟨rfl, rfl, rfl, hnext⟩ rfl rfl rfl rfl, rfl⟩

theorem post_s11Attach {p : Option Nat} (hu : c.s11.user p = .ok u) (hs : u.state = .noCtx) (cb : Option S11Cb) :
    Post (c.s11Attach env p cb) fun d => ∃ trxns seq number imsi msisdn sn pgw subs pco ebi,
      d.s11 = { (c.s11.isFirstSession u.rAddr).2 with
        seq
        users := (c.s11.isFirstSession u.rAddr).2.users.insert u.lTEID { u with cb, trxns, state := .wCtxRsp } } ∧
      d.trace = .s11Send u.lTEID u.rTEID number (.createSession imsi msisdn sn pgw subs pco ebi
        (if (c.s11.isFirstSession u.rAddr).1 then some (c.s11.isFirstSession u.rAddr).2.restartCounter
          else none)) :: c.trace := by
  refine .bind_of_eq fun v hv => ?_
  cases hu.symm.trans hv
  refine .ite (fun _ => ?_) fun hno => absurd (by simp [hs]) hno
  refine (post_sendCreateSessionReq _).bind fun r hr => .ok ?_
  obtain ⟨seq, trxns, number, imsi, msisdn, sn, pgw, subs, pco, ebi, hstack, hv, htrace⟩ := hr
  refine ⟨trxns, seq, number, imsi, msisdn, sn, pgw, subs, pco, ebi, ?_, htrace⟩
  rw [hv]
  show S11Stack.setUser r.1.s11 _ = _
  rw [hstack]
  rfl

theorem isFirstSession_of_peers {s t : S11Stack} (h : t.peers = s.peers) (a : Option SockAddr) :
    (t.isFirstSession a).1 = (s.isFirstSession a).1 ∧
      (t.isFirstSession a).2 = { t with peers := (s.isFirstSession a).2.peers } := by
  unfold S11Stack.isFirstSession
  rw [h]
  split <;> exact ⟨rfl, rfl⟩

/-- A new user is counted, waits for its response, and has sent a Create Session Request. -/
theorem post_s11NewUserAttach (session : Nat) (cb : S11Cb) :
    Post (c.s11NewUserAttach env session cb) fun r =>
      (∃ v, v.rAddr = c.sgwIP ∧ v.lTEID = c.s11.nextTeid ∧ v.id = c.s11.fresh ∧ v.state = .wCtxRsp ∧
        r.1.s11.users = c.s11.users.insert c.s11.nextTeid v) ∧
      r.1.s11.peers = (c.s11.isFirstSession c.sgwIP).2.peers ∧ r.1.s11.nextTeid = c.s11.nextTeid + 1 ∧
      r.1.s11.fresh = c.s11.fresh + 1 ∧
      ∃ lTEID rTEID number imsi msisdn sn pgw subs pco ebi,
        r.1.trace = .s11Send lTEID rTEID number (.createSession imsi msisdn sn pgw subs pco ebi
          (if (c.s11.isFirstSession c.sgwIP).1 then some c.s11.restartCounter else none)) :: c.trace := by
  let u : S11User :=
    { id := c.s11.fresh, emm := c.self, session, lTEID := c.s11.nextTeid, rTEID := 0, rAddr := c.sgwIP,
      state := .noCtx, cb := none, trxns := [], loose := 0 }
  have hnew : (c.s11NewUser session).1.s11.user (some c.s11.fresh) = .ok u := by
    simp [s11NewUser, S11Stack.user, S11Stack.setUser, Table.insert, u]
  refine (post_s11Attach hnew rfl (some cb)).bind fun d hd => .ok ?_
  obtain ⟨trxns, seq, number, imsi, msisdn, sn, pgw, subs, pco, ebi, hs, htrace⟩ := hd
  -- the peers are as they were when the user was created
  have hpeers : (c.s11NewUser session).1.s11.peers = c.s11.peers := rfl
  obtain ⟨hfirst, hstack⟩ := isFirstSession_of_peers hpeers u.rAddr
  rw [hstack] at hs
  rw [hfirst, hstack] at htrace
  refine ⟨⟨{ u with cb := some cb, trxns, state := .wCtxRsp }, rfl, rfl, rfl, rfl, ?_⟩, ?_, ?_, ?_,
    _, _, number, imsi, msisdn, sn, pgw, subs, pco, ebi, htrace⟩
  · rw [hs]
    show (c.s11.users.insert c.s11.nextTeid u).insert c.s11.nextTeid _ = _
    rw [Table.insert, Table.remove_insert_self]
    rfl
  · rw [hs]
  · rw [hs]
    rfl
  · rw [hs]
    rfl

theorem counted_s11NewUserAttach (hc : c.s11.Counted) (hlt : c.s11.fresh + 1 < 2 ^ 32) (session : Nat) (cb : S11Cb) :
    Post (c.s11NewUserAttach env session cb) fun r => r.1.s11.Counted := by
  refine (post_s11NewUserAttach session cb).mono
    fun r ⟨⟨v, haddr, hteid, hid, hstate, husers⟩, hpeers, hnext, hfresh, _⟩ => ?_
  have hnone : c.s11.users.get c.s11.nextTeid = none := by
    cases hget : c.s11.users.get c.s11.nextTeid with
    | none => rfl
    | some u =>
      obtain ⟨-, hkey, hid, -⟩ := hc.key _ (Table.mem_of_get hget)
      dsimp only at hkey hid
      rw [hc.next, ← UInt32.toNat_inj, UInt32.toNat_ofNat', UInt32.toNat_ofNat'] at hkey
      omega
  have hrest := Table.remove_eq_self hnone
  refine ⟨?_, ?_, ?_, ?_, ?_⟩
  · rw [husers, hfresh]
    refine List.forall_mem_cons.mpr ⟨⟨hteid.symm, ?_, ?_, ?_⟩, fun e he => ?_⟩
    · rw [hid]
      exact hc.next
    · rw [hid]
      exact Nat.lt_succ_self _
    · rw [hstate]
      nofun
    · obtain ⟨h₁, h₂, h₃, h₄⟩ := hc.key e (List.mem_filter.mp he).1
      exact ⟨h₁, h₂, Nat.lt_succ_of_lt h₃, h₄⟩
  · rw [husers]
    exact Table.nodup_insert hc.nodup _ _
  · rw [hnext, hfresh, hc.next]
    exact (UInt32.ofNat_add _ _).symm
  · rw [husers, hfresh, Table.insert, hrest]
    exact Nat.succ_le_succ hc.length
  · have hfit := lt_of_le_of_lt (Nat.succ_le_succ (hc.numSessions_le c.sgwIP)) hlt
    have hnum : r.1.s11.numSessions = (c.s11.isFirstSession c.sgwIP).2.numSessions := by
      funext a
      rw [S11Stack.numSessions, hpeers]
      rfl
    have hlive : r.1.s11.live.map (·.rAddr) = c.sgwIP :: c.s11.live.map (·.rAddr) := by
      rw [live, husers, Table.insert, hrest, List.map_cons, List.map_cons, haddr]
      rfl
    rw [hnum, hlive, numSessions_isFirstSession _ hfit]
    exact hc.counts.acquire c.sgwIP

/-! ## Packets -/

theorem numSessions_checkPeerRestart (s : S11Stack) (a : Option SockAddr) (n : UInt8) :
    (s.checkPeerRestart a n).numSessions = s.numSessions := by
  funext b
  unfold S11Stack.checkPeerRestart
  cases hp : s.peers.get a with
  | none => rfl
  | some p =>
    by_cases hb : b = a
    · simp [hb, S11Stack.numSessions, hp]
    · simp [S11Stack.numSessions, Table.get_insert_of_ne _ _ _ _ hb]

theorem counted_s11Dispatch (hc : c.s11.Counted) (hu : c.s11.users.get u.lTEID = some u) (pkt : GtpPacket) :
    Post (c.s11Dispatch env u pkt) fun r => r.1.s11.Counted ∧ r.1.s11.fresh = c.s11.fresh := by
  obtain ⟨-, -, -, hstate⟩ := hc.key _ (Table.mem_of_get hu)
  refine (dispatched_s11Dispatch u pkt).mono fun r hr => ?_
  cases hr with
  | ignored => exact ⟨hc, rfl⟩
  | notified =>
    obtain ⟨trxns, loose, hack⟩ := acknowledged_eq u pkt.seq
    rw [hack]
    exact ⟨Counted.setUser hc hu ⟨rfl, rfl, rfl, hstate⟩, rfl⟩
  | created _ _ hr =>
    obtain ⟨esm, peers, rTEID, hpeers, hr⟩ := post_parseCtxRsp u pkt _ hr
    cases hr
    have hd : ({ c.s11 with peers } : S11Stack).Counted := by
      rcases hpeers with rfl | ⟨n, rfl⟩
      · exact hc
      · exact hc.congr rfl rfl rfl (numSessions_checkPeerRestart _ _ _)
    exact ⟨hd.setUser hu ⟨rfl, rfl, rfl, by simp⟩, rfl⟩
  | @answered s hs hresp =>
    have hs : s ≠ .noCtx := by
      rintro rfl
      simp only [S11State.onResponse, hs] at hresp
      split_ifs at hresp <;> cases hresp
    exact ⟨hc.setUser hu ⟨rfl, rfl, rfl, hs⟩, rfl⟩
  | deleted _ _ hunref =>
    obtain ⟨-, t, ht, hfresh, hcounted⟩ := hc.unrefSession hu
    cases ht.symm.trans hunref
    exact ⟨hcounted, hfresh⟩

theorem counted_s11Deliver (hc : c.s11.Counted) (pkt : GtpPacket) :
    Post (c.s11Deliver env pkt) fun r => r.1.s11.Counted ∧ r.1.s11.fresh = c.s11.fresh := by
  unfold s11Deliver
  split
  · exact .ok ⟨hc, rfl⟩
  · rename_i u hu
    refine .ite (fun _ => (post_findTrxn u pkt.seq).bind fun v ⟨loose, hv⟩ => ?_) fun _ => .ok ⟨hc, rfl⟩
    obtain ⟨hkey, -, -, hstate⟩ := hc.key _ (Table.mem_of_get hu)
    have hkey : pkt.tei = u.lTEID := hkey
    rw [hkey] at hu
    subst hv
    have hset : (c.setUser { u with loose }).s11.Counted := hc.setUser hu ⟨rfl, rfl, rfl, hstate⟩
    refine .ite (fun _ => .ok ⟨hset, rfl⟩) fun _ => ?_
    exact counted_s11Dispatch hset (Table.get_insert_self ..) pkt

end EMMCtx

/-! ## Every sequence of events -/

namespace S11Stack

variable {s t : S11Stack}

/-- Whether an event attaches a user. -/
def attaches : Env × S11StackEvent → Bool
  | (_, .newUserAttach ..) => true
  | _ => false

/-- Every event keeps the peers right, and `fresh` counts the users. -/
theorem counted_step (hs : s.Counted) {e : Env × S11StackEvent}
    (hlt : s.fresh + (if attaches e then 1 else 0) < 2 ^ 32) (h : s.step e = .ok t) :
    t.Counted ∧ t.fresh = s.fresh + if attaches e then 1 else 0 := by
  obtain ⟨env, e⟩ := e
  cases e with
  | newUserAttach emm session cb =>
    obtain ⟨⟨c, p⟩, hc, ht⟩ := bind_eq_ok.mp h
    obtain ⟨-, -, -, hfresh, -⟩ := EMMCtx.post_s11NewUserAttach session cb _ hc
    cases ht
    exact ⟨EMMCtx.counted_s11NewUserAttach hs hlt session cb _ hc, hfresh⟩
  | call emm op u cb =>
    obtain ⟨c, hc, ht⟩ := bind_eq_ok.mp h
    cases ht
    exact EMMCtx.counted_run hs op u cb _ hc
  | packet emm pkt =>
    obtain ⟨⟨c, _⟩, hc, ht⟩ := bind_eq_ok.mp h
    cases ht
    exact EMMCtx.counted_s11Deliver hs pkt _ hc

theorem counted_of_run {r : UInt8} {es : List (Env × S11StackEvent)}
    (h : Run step (fun _ _ => True) (init r) es t) (hlt : es.countP attaches < 2 ^ 32) :
    t.Counted ∧ t.fresh = es.countP attaches := by
  induction h with
  | nil => exact ⟨counted_init r, rfl⟩
  | @snoc es s t e _ _ ht ih =>
    have hcount : (es ++ [e]).countP attaches = es.countP attaches + if attaches e then 1 else 0 := by
      rw [List.countP_append, List.countP_singleton]
    rw [hcount] at hlt ⊢
    obtain ⟨hs, hfresh⟩ := ih (lt_of_le_of_lt (Nat.le_add_right _ _) hlt)
    rw [← hfresh] at hlt ⊢
    exact counted_step hs hlt ht

/-- After every sequence of events with fewer than `2 ^ 32` attached users: a serving gateway has a peer exactly
while a user has its address, the peer counts these users, the peer of a user that is freed is found and counts
at least this user, and the next Create Session Request carries the Recovery element exactly if no user of its
serving gateway is live. -/
theorem peers_counted {r : UInt8} {es : List (Env × S11StackEvent)}
    (h : Run step (fun _ _ => True) (init r) es s) (hlt : es.countP attaches < 2 ^ 32) :
    (∀ a, ((s.peers.get a).isSome = true ↔ ∃ u ∈ s.live, u.rAddr = a) ∧
      ∀ p, s.peers.get a = some p → p.numSessions.toNat = s.live.countP (·.rAddr = a)) ∧
    (∀ u ∈ s.live, (∃ p, s.peers.get u.rAddr = some p ∧ 0 < p.numSessions.toNat) ∧
      ∃ t, ({ s with users := s.users.remove u.lTEID } : S11Stack).unrefSession u.rAddr = .ok t) ∧
    ∀ (env : Env) (c : EMMCtx) (session : Nat) (cb : S11Cb) (d : EMMCtx) (p : Nat),
      EMMCtx.s11NewUserAttach env { c with s11 := s } session cb = .ok (d, p) →
      ∃ lTEID rTEID number imsi msisdn sn pgw subs pco ebi recovery,
        d.trace = .s11Send lTEID rTEID number (.createSession imsi msisdn sn pgw subs pco ebi recovery) :: c.trace ∧
          (recovery.isSome = true ↔ ∀ u ∈ s.live, u.rAddr ≠ c.sgwIP) := by
  obtain ⟨hs, -⟩ := counted_of_run h hlt
  refine ⟨fun a => ⟨?_, fun p hp => ?_⟩, fun u hu => ?_, fun env c session cb d p hd => ?_⟩
  · have hsome := hs.counts.isSome_iff (k := a)
    rw [numSessions, Option.isSome_map, List.mem_map] at hsome
    exact hsome
  · have hnum : s.numSessions a = some p.numSessions.toNat := by rw [numSessions, hp, Option.map_some]
    rw [hs.counts.eq_countP hnum, List.countP_map]
    rfl
  · obtain ⟨e, he, rfl⟩ := List.mem_map.mp hu
    obtain ⟨hkey, -⟩ := hs.key e he
    have hget : s.users.get e.2.lTEID = some e.2 := by
      refine Table.get_of_mem hs.nodup ?_
      rw [← hkey]
      exact he
    obtain ⟨hpeer, t, ht, -⟩ := hs.unrefSession hget
    exact ⟨hpeer, t, ht⟩
  · obtain ⟨-, -, -, -, lTEID, rTEID, number, imsi, msisdn, sn, pgw, subs, pco, ebi, htrace⟩ :=
      EMMCtx.post_s11NewUserAttach session cb _ hd
    refine ⟨lTEID, rTEID, number, imsi, msisdn, sn, pgw, subs, pco, ebi, _, htrace, ?_⟩
    rw [← hs.isFirstSession_iff]
    split <;> simp_all

/-- Two users of one serving gateway: the peer counts both. -/
theorem peers_counted_two :
    ∃ s, Run step (fun _ _ => True) (init 0)
        [(S11Session.Sample.env, .newUserAttach S11Session.Sample.ctx 1 (.sendActivateDefault 1)),
          (S11Session.Sample.env, .newUserAttach S11Session.Sample.ctx 1 (.sendActivateDefault 1))] s ∧
      ∃ p, s.peers.get (some ⟨0x0a000001, 2123⟩) = some p ∧ p.numSessions.toNat = 2 ∧
        s.live.countP (·.rAddr = some ⟨0x0a000001, 2123⟩) = 2 := by
  refine Run.exists_of_exec (fun s => (s.peers.get (some ⟨0x0a000001, 2123⟩)).isSome = true ∧
    s.live.countP (·.rAddr = some ⟨0x0a000001, 2123⟩) = 2) (by decide +kernel) ?_
  rintro s hrun ⟨hsome, hcount⟩
  obtain ⟨p, hp⟩ := Option.isSome_iff_exists.mp hsome
  exact ⟨p, hp, (((peers_counted hrun (by decide)).1 _).2 p hp).trans hcount, hcount⟩

end S11Stack

end AaltoMME
