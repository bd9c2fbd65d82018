import AaltoMME.S11.Responses

/-!
# The PDN address

The serving gateway allocates the address of the UE and sends it as a `struct PAA_t`.  `parseCtxRsp` stores the
octets after the type as they are, and the Activate Default EPS Bearer Context Request is built from them.  In the
combined form of the structure the IPv6 address comes first; the octets are taken as if the IPv4 address did.
-/

namespace AaltoMME

open Base

/-- The type, the IPv4 address and the IPv6 address of a `struct PAA_t`. -/
def paaParts (paa : List UInt8) : UInt8 × List UInt8 × List UInt8 :=
  let type := paa.headD 0 &&& 0x07
  if type = 1 then (type, paa.tail.take 4, [])
  else if type = 2 then (type, [], paa.tail.take 16)
  else (type, (paa.tail.drop 16).take 4, paa.tail.take 16)

/-- The three layouts of a `struct PAA_t`. -/
inductive PAALayout : List UInt8 → Prop
  | ipv4 {first : UInt8} {addr : List UInt8} : first &&& 0x07 = 1 → addr.length = 4 → PAALayout (first :: addr)
  | ipv6 {first : UInt8} {addr : List UInt8} : first &&& 0x07 = 2 → addr.length = 16 → PAALayout (first :: addr)
  | both {first : UInt8} {addr : List UInt8} : first &&& 0x07 = 3 → addr.length = 20 → PAALayout (first :: addr)

variable {first : UInt8} {addr : List UInt8}

theorem paaParts_ipv4 (h : first &&& 0x07 = 1) : paaParts (first :: addr) = (1, addr.take 4, []) := by
  simp [paaParts, h]

theorem paaParts_ipv6 (h : first &&& 0x07 = 2) : paaParts (first :: addr) = (2, [], addr.take 16) := by
  simp [paaParts, h]

theorem paaParts_both (h : first &&& 0x07 = 3) (hlen : addr.length = 20) :
    paaParts (first :: addr) = (3, addr.drop 16, addr.take 16) := by
  have hrest : (addr.drop 16).take 4 = addr.drop 16 := List.take_of_length_le (by simp [hlen])
  simp [paaParts, h, hrest]

namespace EMMCtx

variable {c d : EMMCtx} {env : Env} {pkt : GtpPacket}

/-! ## One session -/

theorem session_setSession {s₀ s : EPSSession} {id : Nat} (h : c.session id = .ok s₀) (hid : s.id = s₀.id) :
    (c.setSession s).session id = .ok s := by
  obtain ⟨_, ⟨⟩, hfind⟩ := deref_eq_ok.mp h
  refine deref_eq_ok.mpr ⟨id, rfl, ?_⟩
  have hsame : ((fun t : EPSSession => t.id == id) ∘ fun t => if t.id = s.id then s else t) = fun t => t.id == id := by
    funext t
    by_cases ht : t.id = s.id <;> simp [ht]
  rw [setSession, List.find?_map, hsame, hfind]
  simp [hid]

/-- What `parseCtxRsp` makes of a PAA: the octets of the session start with those of the address. -/
theorem post_parseCtxRsp_paa
    (hv : gtp2ieGettliv pkt.ies gtpv2cIEPAA 0 = some (first :: addr)) (u : S11User) :
    Post (c.parseCtxRsp env u pkt) fun r => ∃ s rest, r.1.session u.session = .ok s ∧
      s.pdnAddrType = first &&& 0x07 ∧ s.pdnAddr = addr ++ rest := by
  have hfteid : Post (parseSgwFteid u pkt) fun r => r.2.session = u.session := by
    unfold parseSgwFteid
    split
    · exact .ok rfl
    · exact .ite (fun _ => .error) fun _ => .ok rfl
  have hpaa : ∀ value s, Post (parseInto setPDNAddress gtpv2cIEPAA value s pkt) fun r =>
      r.2.id = s.id ∧ r.2.pdnAddrType = first &&& 0x07 ∧ ∃ rest, r.2.pdnAddr = addr ++ rest := by
    intro value s
    rw [parseInto, hv]
    exact .bind (.ite (fun _ => .error) fun _ => .ok ⟨rfl, rfl, _, rfl⟩) fun _ h => .ok h
  have hpco : ∀ value s, Post (parseInto setPCO gtpv2cIEPCO value s pkt) fun r =>
      r.2.id = s.id ∧ r.2.pdnAddrType = s.pdnAddrType ∧ r.2.pdnAddr = s.pdnAddr := by
    intro value s
    unfold parseInto
    split
    · exact .ok ⟨rfl, rfl, rfl⟩
    · exact .bind (.ite (fun _ => .error) fun _ => .ok ⟨rfl, rfl, rfl⟩) fun _ h => .ok h
  have hbearer : ∀ (d : EMMCtx) value s, Post (d.parseBearer env value s pkt) fun r => r.1.esm.sessions = d.esm.sessions := by
    intro d value s
    unfold parseBearer
    split
    · exact .ok rfl
    · exact .of_bind fun _ => .of_bind fun _ => .ok rfl
  refine hfteid.bind fun r hr => .of_bind fun value => .bind_of_eq fun s₀ hs₀ => ?_
  refine (hpaa _ _).bind fun p ⟨hpid, htype, rest, haddr⟩ => (hpco _ _).bind fun q ⟨hqid, hqtype, hqaddr⟩ => ?_
  refine (hbearer _ _ _).bind fun b hb => .ok ⟨q.2, rest, ?_, hqtype.trans htype, hqaddr.trans haddr⟩
  have hset := session_setSession hs₀ (hqid.trans hpid)
  have hsessions : (if b.2.2 then b.1.parseRecovery b.2.1 r.2 pkt else b.1).esm.sessions = (c.setSession q.2).esm.sessions := by
    unfold parseRecovery
    split
    · split <;> exact hb
    · exact hb
  rw [← hr]
  dsimp only [session] at hset ⊢
  rwa [hsessions]

/-! ## The address that is sent -/

/-- Twenty octets that are the same when they are turned by four. -/
theorem turned_iff {l : List UInt8} (h : l.length = 20) : (l.take 4 = l.drop 16 ∧ l.drop 4 = l.take 16) ↔
    l.take 16 = l.drop 16 ++ l.drop 16 ++ l.drop 16 ++ l.drop 16 := by
  constructor
  · rintro ⟨hfirst, hrest⟩
    have hstep : ∀ k ≤ 16, l.take (4 + k) = l.drop 16 ++ l.take k := by
      intro k hk
      rw [List.take_add, hfirst, hrest, List.take_take, Nat.min_eq_left hk]
    rw [hstep 12 (by decide), hstep 8 (by decide), hstep 4 (by decide), hfirst]
    simp only [List.append_assoc]
  · intro h16
    have hlen : (l.drop 16).length = 4 := by simp [h]
    have hl : l = l.drop 16 ++ (l.drop 16 ++ l.drop 16 ++ l.drop 16 ++ l.drop 16) := by
      conv_lhs => rw [← List.take_append_drop 16 l, h16]
      simp only [List.append_assoc]
    constructor
    · conv_lhs => rw [hl]
      exact List.take_left' hlen
    · conv_lhs => rw [hl]
      exact (List.drop_left' hlen).trans h16.symm

/-- **The PDN address.** For every PAA of a Create Session Response, the address that is sent to the UE has the type,
the IPv4 address and the IPv6 address of the PAA if and only if it has one of them only, or the IPv6 address is four
times the IPv4 address. -/
theorem pdnAddress_relayed_iff {v : List UInt8} (hv : gtp2ieGettliv pkt.ies gtpv2cIEPAA 0 = some v) (hlayout : PAALayout v)
    {u u' : S11User} (h : c.parseCtxRsp env u pkt = .ok (d, u')) :
    (∃ s paa, d.session u.session = .ok s ∧ pdnAddress s = .ok paa ∧ paaParts paa = paaParts v) ↔
      v.headD 0 &&& 0x07 ≠ 3 ∨ ∃ ipv4, (paaParts v).2 = (ipv4, ipv4 ++ ipv4 ++ ipv4 ++ ipv4) := by
  cases hlayout with
  | @ipv4 first addr htype hlen =>
    obtain ⟨s, rest, hs, hstype, haddr⟩ := post_parseCtxRsp_paa hv u _ h
    refine iff_of_true ⟨s, _, hs, by rw [pdnAddress, if_pos (hstype.trans htype)], ?_⟩ (.inl (by simp [htype]))
    rw [paaParts_ipv4 (by decide), paaParts_ipv4 htype, haddr]
    simp [hlen]
  | @ipv6 first addr htype hlen =>
    obtain ⟨s, rest, hs, hstype, haddr⟩ := post_parseCtxRsp_paa hv u _ h
    rw [htype] at hstype
    refine iff_of_true ⟨s, _, hs, by rw [pdnAddress, hstype, if_neg (by decide), if_pos rfl], ?_⟩ (.inl (by simp [htype]))
    rw [paaParts_ipv6 (by decide), paaParts_ipv6 htype, haddr]
    simp [hlen]
  | @both first addr htype hlen =>
    obtain ⟨s, rest, hs, hstype, haddr⟩ := post_parseCtxRsp_paa hv u _ h
    rw [htype] at hstype
    have hpaa : pdnAddress s = .ok (3 :: (addr.drop 4 ++ addr.take 4)) := by
      rw [pdnAddress, hstype, if_neg (by decide), if_neg (by decide), if_pos rfl, haddr,
        List.drop_append_of_le_length (by omega), List.take_left' (by simp [hlen]), List.take_append_of_le_length (by omega)]
    have hparts := paaParts_both htype hlen
    have hparts' : paaParts (3 :: (addr.drop 4 ++ addr.take 4)) = (3, addr.take 4, addr.drop 4) := by
      rw [paaParts_both (by decide) (by simp [hlen])]
      simp [hlen]
    have hsent : (∃ s paa, d.session u.session = .ok s ∧ pdnAddress s = .ok paa ∧ paaParts paa = paaParts (first :: addr)) ↔
        addr.take 4 = addr.drop 16 ∧ addr.drop 4 = addr.take 16 := by
      rw [hparts]
      constructor
      · rintro ⟨s', paa, hs', hpaa', heq⟩
        cases hs.symm.trans hs'
        rw [← Except.ok.inj (hpaa.symm.trans hpaa'), hparts'] at heq
        simpa using heq
      · rintro ⟨h4, h16⟩
        exact ⟨s, _, hs, hpaa, by rw [hparts', h4, h16]⟩
    rw [hsent, turned_iff hlen, hparts]
    simp [htype]

/-! A context with one session, and a Create Session Response that has a PAA only. -/

def sampleSession : EMMCtx := ((emmInit 0 1 ⟨0, 1, [], [], 0, 0⟩).newSession 1 none).1

def sampleUser : S11User := ⟨0, 0, 1, 1, 0, none, .wCtxRsp, none, [], 0⟩

def sampleResponse (paa : List UInt8) : GtpPacket := ⟨none, 33, 1, 0, [⟨gtpv2cIEPAA, 0, paa⟩]⟩

theorem pdnAddress_relayed_ipv4 : ∃ d u' s paa,
    sampleSession.parseCtxRsp default sampleUser (sampleResponse [1, 10, 0, 0, 7]) = .ok (d, u') ∧
      d.session sampleUser.session = .ok s ∧ pdnAddress s = .ok paa ∧ paaParts paa = (1, [10, 0, 0, 7], []) := by
  have h : ∃ r, sampleSession.parseCtxRsp default sampleUser (sampleResponse [1, 10, 0, 0, 7]) = .ok r := ⟨_, rfl⟩
  obtain ⟨⟨d, u'⟩, h⟩ := h
  obtain ⟨s, paa, hs, hpaa, hparts⟩ :=
    (pdnAddress_relayed_iff rfl (.ipv4 (by decide) rfl) h).mpr (.inl (by decide))
  exact ⟨d, u', s, paa, h, hs, hpaa, hparts⟩

/-- The addresses 2001:db8::1 and 10.0.0.7 are sent as 0:0:0:0:0:1:a00:7 and 32.1.13.184. -/
theorem not_pdnAddress_relayed : ∃ d u' s paa,
    sampleSession.parseCtxRsp default sampleUser
      (sampleResponse [3, 0x20, 0x01, 0x0d, 0xb8, 0, 0, 0, 0, 0, 0, 0, 0, 0, 0, 0, 1, 10, 0, 0, 7]) = .ok (d, u') ∧
      d.session sampleUser.session = .ok s ∧ pdnAddress s = .ok paa ∧
      paaParts paa = (3, [0x20, 0x01, 0x0d, 0xb8], [0, 0, 0, 0, 0, 0, 0, 0, 0, 0, 0, 1, 10, 0, 0, 7]) :=
  ⟨_, _, _, _, rfl, rfl, rfl, by decide⟩

end EMMCtx

end AaltoMME
