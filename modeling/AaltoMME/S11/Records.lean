import AaltoMME.S11.Correlation
import Mathlib.Data.List.Nodup
import Mathlib.Data.List.Perm.Subperm

/-!
# The transaction records of an S11 user

A record is allocated for every request of a user and for every packet whose sequence number is not in the
table of the user.  The records in the table are freed when the user is freed, or when the sequence number,
which has 24 bits, comes round; those outside the table are freed by an acknowledgement and by nothing else.
-/

namespace AaltoMME

open Base NAS

/-- The records of a user, in the table and outside of it.  A record of the table that an acknowledgement has
freed is still counted. -/
def S11User.records (u : S11User) : Nat := u.trxns.length + u.loose

/-- Each key of a table of transactions is a sequence number of 24 bits and occurs once. -/
structure Numbered (trxns : Table UInt32 Bool) : Prop where
  nodup : (trxns.map Prod.fst).Nodup
  lt : ∀ e ∈ trxns, e.1.toNat < 2 ^ 24

namespace Numbered

variable {trxns : Table UInt32 Bool} {seq : UInt32}

theorem nil : Numbered [] := ⟨List.nodup_nil, nofun⟩

theorem insert (h : Numbered trxns) (hseq : seq.toNat < 2 ^ 24) (live : Bool) :
    Numbered (trxns.insert seq live) where
  nodup := Table.nodup_insert h.nodup seq live
  lt e he := by
    rcases List.mem_cons.mp he with rfl | he
    · exact hseq
    · exact h.lt e (List.mem_filter.mp he).1

theorem length_le (h : Numbered trxns) : trxns.length ≤ 2 ^ 24 := by
  have hnodup : (trxns.map fun e => e.1.toNat).Nodup := by
    have hmap := List.Nodup.map (fun _ _ => UInt32.toNat_inj.mp) h.nodup
    rwa [List.map_map] at hmap
  have hsub : (trxns.map fun e => e.1.toNat) ⊆ List.range (2 ^ 24) := by
    intro n hn
    obtain ⟨e, he, rfl⟩ := List.mem_map.mp hn
    exact List.mem_range.mpr (h.lt e he)
  have hle := (hnodup.subperm hsub).length_le
  rwa [List.length_map, List.length_range] at hle

end Numbered

/-- The state between the events of a user: its table has one record for a sequence number, and there is no
record outside of it. -/
structure S11User.Tidy (u : S11User) : Prop where
  table : Numbered u.trxns
  loose : u.loose = 0

theorem S11User.Tidy.records_le {u : S11User} (h : u.Tidy) : u.records ≤ 2 ^ 24 := by
  rw [S11User.records, h.loose]
  exact h.table.length_le

/-! ## Operations and packets -/

theorem seq_and_lt (n : UInt32) : ((n + 1) &&& 0xFFFFFF).toNat < 2 ^ 24 :=
  lt_of_le_of_lt Nat.and_le_right (by decide)

/-! ## Sessions -/

namespace S11Session

variable {P : Prims} {c : EMMCtx} {session : Nat} {t t' : S11Session} {env : Env} {es : List (Env × S11Event)}

/-- A packet for the user has the sequence number of a request of the user, or it is a Downlink Data Notification
of its serving gateway that arrives while the user waits for one.  The sequence numbers that others take have 24
bits. -/
def Expected (t : S11Session) (e : Env × S11Event) : Prop :=
  t.Allowed e ∧
    match e.2 with
    | .call _ _ => True
    | .packet pkt => ∀ u ∈ t.user, (u.trxns.get pkt.seq).isSome = true ∨
        u.state = .ulCtx ∧ pkt.type = 176 ∧ u.rAddr = pkt.peer
    | .rest c => c.s11.seq.toNat < 2 ^ 24

instance (t : S11Session) (e : Env × S11Event) : Decidable (t.Expected e) :=
  match e with
  | (_, .call _ _) => inferInstanceAs (Decidable (_ ∧ True))
  | (_, .packet _) => inferInstanceAs (Decidable (_ ∧ ∀ u ∈ t.user, _ ∨ _))
  | (_, .rest _) => inferInstanceAs (Decidable (_ ∧ _ < _))

/-- The records of a session between its events. -/
structure Tidy (t : S11Session) : Prop where
  seq : t.ctx.s11.seq.toNat < 2 ^ 24
  user : ∀ u, t.user = some u → u.Tidy

theorem tidy_start (hseq : c.s11.seq.toNat < 2 ^ 24) : (start c session).Tidy where
  seq := hseq
  user u hu := by
    cases (Table.get_insert_self ..).symm.trans hu
    exact ⟨.nil, rfl⟩

/-- The records of a session are those of the user that its TEID leads to. -/
theorem tidy_of_insert {d : EMMCtx} {users : Table UInt32 S11User} {v : S11User} {k : UInt32} (hk : k = t.lTEID)
    (hseq : d.s11.seq.toNat < 2 ^ 24) (hd : d.s11.users = users.insert k v) (hv : v.Tidy) (p : Option S11Pending) (ps : List S11Pending)
    (r : List (Option S11Cb)) : Tidy ⟨d, t.id, t.lTEID, p, ps, r⟩ where
  seq := hseq
  user w hw := by
    have hget : S11Session.user ⟨d, t.id, t.lTEID, p, ps, r⟩ = some v := by
      rw [S11Session.user, hd, hk, Table.get_insert_self]
    cases hget.symm.trans hw
    exact hv

/-- A call adds at most one record, under the next sequence number. -/
theorem tidy_call (ht : t.Tracked) (hv : t.Tidy) (op : S11Op) (cb : Option S11Cb) :
    Post (t.step P (env, .call op cb)) Tidy := by
  rw [step, S11Op.run_eq]
  refine .bind_of_eq fun d hd => .ok ?_
  obtain ⟨u, hu, hd⟩ := bind_eq_ok.mp hd
  replace hu := ht.user_eq_ok hu
  have hu' := hv.user u hu
  have hl := (ht.owned u hu).1
  dsimp only at hd
  split at hd
  · obtain ⟨r, hr, hd⟩ := bind_eq_ok.mp hd
    obtain ⟨req, peers, trxns, -, -, -, htrxns, rfl⟩ := EMMCtx.post_send op _ r hr
    cases hd
    refine tidy_of_insert (v := { u with cb, trxns, state := op.next }) hl (seq_and_lt _) rfl ⟨?_, hu'.loose⟩ _ _ _
    rw [htrxns]
    exact hu'.table.insert hv.seq _
  · cases hd
    exact tidy_of_insert (d := t.ctx.setUser { u with cb }) hl hv.seq rfl ⟨hu'.table, hu'.loose⟩ _ _ _

/-- An acknowledgement frees the record of a packet that is not in the table. -/
theorem tidy_acknowledged {u v : S11User} {seq : UInt32} (hu : u.Tidy) (hv : EMMCtx.findTrxn u seq = .ok v) :
    (EMMCtx.acknowledged v seq).Tidy := by
  unfold EMMCtx.findTrxn at hv
  unfold EMMCtx.acknowledged
  split at hv
  · rename_i hget
    cases hv
    rw [if_pos (by rw [hget]; rfl)]
    have hmem := hu.table.lt _ (Table.mem_of_get hget)
    exact ⟨hu.table.insert hmem false, hu.loose⟩
  · cases hv
  · rename_i hget
    cases hv
    rw [if_neg (by rw [hget]; exact Bool.false_ne_true)]
    exact ⟨hu.table, hu.loose⟩

/-- A packet that is expected leaves no record outside the table. -/
theorem tidy_packet (ht : t.Tracked) (hv : t.Tidy) {pkt : GtpPacket} (he : t.Expected (env, .packet pkt)) :
    Post (t.step P (env, .packet pkt)) Tidy := by
  obtain ⟨hpkt, hexp⟩ := he
  cases hu : t.user with
  | none =>
    have hget : t.ctx.s11.users.get pkt.tei = none := hpkt ▸ hu
    simp only [step, EMMCtx.s11Deliver, hget, EMMCtx.returnControl]
    exact .ok ⟨hv.seq, hv.user⟩
  | some u =>
    have hget : t.ctx.s11.users.get pkt.tei = some u := hpkt ▸ hu
    obtain ⟨hl, hemm⟩ := ht.owned u hu
    have hu' := hv.user u hu
    replace hexp := hexp u hu
    simp only [step, EMMCtx.s11Deliver, hget, hemm, if_true, bind_assoc]
    refine .bind_of_eq fun v hfind => ?_
    obtain ⟨loose, hloose⟩ := EMMCtx.post_findTrxn u pkt.seq v hfind
    have hvl : v.lTEID = t.lTEID := by rw [hloose]; exact hl
    have hvr : v.rAddr = u.rAddr := by rw [hloose]
    have hvs : v.state = u.state := by rw [hloose]
    -- unless the packet is acknowledged, its record is in the table
    have htidy : ¬ (u.state = .ulCtx ∧ pkt.type = 176 ∧ u.rAddr = pkt.peer) → v.Tidy := by
      intro hno
      obtain ⟨b, hb⟩ := Option.isSome_iff_exists.mp (hexp.resolve_right hno)
      unfold EMMCtx.findTrxn at hfind
      rw [hb] at hfind
      cases b with
      | false => cases hfind
      | true =>
        cases hfind
        exact hu'
    split
    · rename_i hpeer
      exact .ok (tidy_of_insert (d := t.ctx.setUser v) hvl hv.seq rfl (htidy fun h => hpeer (hvr.trans h.2.2)) _ _ _)
    · refine (EMMCtx.dispatched_s11Dispatch v pkt).bind fun r hr => ?_
      refine (EMMCtx.sameS11_returnControl r).bind fun d' hsame => .ok ?_
      have hs11 := hsame.1
      have hvt : ¬ (v.state = .ulCtx ∧ pkt.type = 176) → v.Tidy :=
        fun hno => htidy fun h => hno ⟨hvs.trans h.1, h.2.1⟩
      cases hr with
      | ignored hno => exact tidy_of_insert hvl (by rw [hs11]; exact hv.seq) (by rw [hs11]; rfl) (hvt hno) _ _ _
      | notified =>
        obtain ⟨trxns, loose', hack⟩ := EMMCtx.acknowledged_eq v pkt.seq
        have hkey : (EMMCtx.acknowledged v pkt.seq).lTEID = t.lTEID := by rw [hack, ← hvl]
        exact tidy_of_insert hkey (by rw [hs11]; exact hv.seq) (by rw [hs11]; rfl) (tidy_acknowledged hu' hfind) _ _ _
      | created hs _ hr =>
        obtain ⟨esm, peers, rTEID, -, hr⟩ := EMMCtx.post_parseCtxRsp _ pkt _ hr
        obtain ⟨rfl, rfl⟩ := Prod.mk.inj hr
        obtain ⟨htable, hloose⟩ := hvt (by simp [hs])
        exact tidy_of_insert (v := { v with rTEID, state := .ulCtx }) hvl (by rw [hs11]; exact hv.seq)
          (by rw [hs11]; rfl) ⟨htable, hloose⟩ _ _ _
      | @answered s hs =>
        obtain ⟨htable, hloose⟩ := hvt (by simp [hs])
        exact tidy_of_insert (v := { v with state := s }) hvl (by rw [hs11]; exact hv.seq)
          (by rw [hs11]; rfl) ⟨htable, hloose⟩ _ _ _
      | deleted _ _ hunref =>
        obtain ⟨peers, rfl⟩ := EMMCtx.unrefSession_peers hunref
        refine ⟨by rw [hs11]; exact hv.seq, fun w hw => ?_⟩
        have hget : d'.s11.users.get t.lTEID = none := by rw [hs11, ← hvl, Table.get_remove_self]
        cases hget.symm.trans hw

/-- A packet for the TEID of the first user, with a sequence number that no request has and from an address that
is not the one of the serving gateway. -/
def Sample.stray : GtpPacket := ⟨none, 1, 1, 0xABC, []⟩

variable (P env) in
theorem step_stray {u : S11User} (ht : t.Tracked) (hl : t.lTEID = 1) (hu : t.user = some u)
    (hget : u.trxns.get 0xABC = none) (haddr : u.rAddr ≠ none) :
    ∃ t', t.step P (env, .packet Sample.stray) = .ok t' ∧ t'.lTEID = 1 ∧
      t'.user = some { u with loose := u.loose + 1 } := by
  have hget' : t.ctx.s11.users.get 1 = some u := hl ▸ hu
  have hfind : EMMCtx.findTrxn u 0xABC = .ok { u with loose := u.loose + 1 } := by
    unfold EMMCtx.findTrxn
    rw [hget]
  have hstep : t.step P (env, .packet Sample.stray) =
      .ok { t with ctx := t.ctx.setUser { u with loose := u.loose + 1 } } := by
    simp only [step, EMMCtx.s11Deliver, Sample.stray, hget', (ht.owned u hu).2, if_true, hfind, ok_bind, ne_eq,
      haddr, not_false_eq_true, pure_eq_ok, EMMCtx.returnControl]
    rfl
  refine ⟨_, hstep, hl, ?_⟩
  show (t.ctx.s11.users.insert u.lTEID { u with loose := u.loose + 1 }).get t.lTEID = _
  rw [(ht.owned u hu).1, Table.get_insert_self]

theorem exists_run_stray (n : Nat) :
    ∃ t, Run (step Prims.zeroKasme) Allowed (start Sample.ctx 1)
        (List.replicate n (Sample.env, .packet Sample.stray)) t ∧ t.Tracked ∧ t.lTEID = 1 ∧
      ∃ u, t.user = some u ∧ u.rAddr ≠ none ∧ u.trxns = [] ∧ u.loose = n := by
  induction n with
  | zero => exact ⟨_, .nil, tracked_start Sample.newPointer_ctx 1, rfl, _, rfl, by decide, rfl, rfl⟩
  | succ n ih =>
    obtain ⟨t, hrun, htr, hl, u, hu, haddr, htable, hloose⟩ := ih
    obtain ⟨t', hstep, hl', hu'⟩ := step_stray Prims.zeroKasme Sample.env htr hl hu
      (by rw [htable]; rfl) haddr
    have hallowed : t.Allowed (Sample.env, .packet Sample.stray) := hl.symm
    rw [List.replicate_succ']
    exact ⟨t', hrun.snoc hallowed hstep, (simulates htr hallowed t' hstep).1, hl', _, hu', haddr, htable,
      congrArg (· + 1) hloose⟩

end S11Session

end AaltoMME
