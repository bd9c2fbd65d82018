import AaltoMME.EMM.Common
import Mathlib.Logic.Function.Iterate

/-!
# The next hop chain

`emm_getNH` hands out a key and its chaining count and derives the next key.  The chain starts with K_eNB; that it has
not started yet is told by a key of zeros.
-/

namespace AaltoMME

open Base NAS

/-! ## The chain -/

/-- The key after a key of the chain. -/
def nextHopKey (P : Prims) (kasme nh : List UInt8) : List UInt8 := P.hmacSha256 kasme (0x12 :: nh ++ [0x00, 0x20])

def hopChain (P : Prims) (kasme : List UInt8) (ulNASCount : UInt32) : Nat → List UInt8
  | 0 => EMMCtx.generateKeNB P kasme ulNASCount
  | i + 1 => nextHopKey P kasme (hopChain P kasme ulNASCount i)

/-- No derived key is the sentinel. -/
def Prims.NeverZero (P : Prims) : Prop := ∀ k m, P.hmacSha256 k m ≠ List.replicate 32 0

/-- A derived key determines what it was derived from, and the chain never comes back to a key. -/
structure Prims.Unrepeated (P : Prims) : Prop where
  injective : ∀ {k k' m m'}, P.hmacSha256 k m = P.hmacSha256 k' m' → k = k' ∧ m = m'
  acyclic : ∀ k key n, 0 < n → (nextHopKey P k)^[n] key ≠ key

namespace EMMCtx

variable {P : Prims} {c d : EMMCtx} {i : Nat}

/-- `i` keys were handed out. -/
structure Handed (P : Prims) (c : EMMCtx) (i : Nat) : Prop where
  nh : c.hop.nh = if i = 0 then List.replicate 32 0 else hopChain P c.kasme c.nasUlCountForSC i
  ncc : c.hop.ncc = UInt8.ofNat i

theorem and_seven (i : Nat) : UInt8.ofNat i &&& 7 = UInt8.ofNat (i % 8) := by
  refine UInt8.toNat_inj.mp ?_
  rw [UInt8.toNat_and, UInt8.toNat_ofNat', UInt8.toNat_ofNat', show (7 : UInt8).toNat = 2 ^ 3 - 1 from rfl,
    Nat.and_two_pow_sub_one_eq_mod]
  omega

theorem ofNat_succ (i : Nat) : UInt8.ofNat i + 1 = UInt8.ofNat (i + 1) := by
  refine UInt8.toNat_inj.mp ?_
  rw [UInt8.toNat_add, UInt8.toNat_ofNat', UInt8.toNat_ofNat']
  simp only [UInt8.reduceToNat]
  omega

theorem emmGetNH_first (h : c.hop.nh = List.replicate 32 0) :
    c.emmGetNH P = (c.emmGetKeNB P, 0,
      { c with hop := ⟨nextHopKey P c.kasme (c.emmGetKeNB P), 1, c.emmGetKeNB P, 0⟩ }) := by
  rw [emmGetNH, if_pos h]
  rfl

theorem emmGetNH_next (h : c.hop.nh ≠ List.replicate 32 0) :
    c.emmGetNH P = (c.hop.nh, c.hop.ncc &&& 7,
      { c with hop := ⟨nextHopKey P c.kasme c.hop.nh, c.hop.ncc + 1, c.hop.nh, c.hop.ncc⟩ }) := by
  rw [emmGetNH, if_neg h]
  rfl

/-- The next call hands out the next key, and the count wraps around unnoticed. -/
theorem Handed.emmGetNH (h : c.Handed P i) (hP : P.NeverZero) :
    ∃ d, c.emmGetNH P = (hopChain P c.kasme c.nasUlCountForSC i, UInt8.ofNat (i % 8), d) ∧
      d.kasme = c.kasme ∧ d.nasUlCountForSC = c.nasUlCountForSC ∧ d.Handed P (i + 1) := by
  cases i with
  | zero =>
    have hzero := h.nh
    exact ⟨_, emmGetNH_first hzero, rfl, rfl, rfl, rfl⟩
  | succ i =>
    have hnh := h.nh
    have hne : c.hop.nh ≠ List.replicate 32 0 := by
      rw [hnh]
      exact hP _ _
    have hnext := emmGetNH_next (P := P) hne
    rw [hnh, h.ncc, and_seven] at hnext
    exact ⟨_, hnext, rfl, rfl, rfl, ofNat_succ _⟩

/-! ## Every sequence of calls -/

/-- Calls of `emm_getNH`, with what they returned; in between, anything may happen to the context but a change of
K_ASME, of the count that K_eNB is derived from, and of the chain. -/
inductive NHCalls (P : Prims) (c : EMMCtx) : List (List UInt8 × UInt8) → EMMCtx → Prop
  | nil : NHCalls P c [] c
  | call {l d nh ncc d'} (h : NHCalls P c l d) (hcall : d.emmGetNH P = (nh, ncc, d')) :
    NHCalls P c (l ++ [(nh, ncc)]) d'
  | other {l d d'} (h : NHCalls P c l d) (hhop : d'.hop = d.hop) (hkasme : d'.kasme = d.kasme)
    (hcount : d'.nasUlCountForSC = d.nasUlCountForSC) : NHCalls P c l d'

/-- What the first `n` calls return. -/
def handedOut (P : Prims) (c : EMMCtx) (n : Nat) : List (List UInt8 × UInt8) :=
  (List.range n).map fun i => (hopChain P c.kasme c.nasUlCountForSC i, UInt8.ofNat (i % 8))

theorem NHCalls.handed {l : List (List UInt8 × UInt8)} (h : NHCalls P c l d) (hP : P.NeverZero) (hc : c.hop = .zero) :
    d.kasme = c.kasme ∧ d.nasUlCountForSC = c.nasUlCountForSC ∧ d.Handed P l.length ∧ l = c.handedOut P l.length := by
  induction h with
  | nil =>
    refine ⟨rfl, rfl, ⟨?_, ?_⟩, rfl⟩
    · rw [hc]
      rfl
    · rw [hc]
      rfl
  | @call l d nh ncc d' _ hcall ih =>
    obtain ⟨hkasme, hcount, hhanded, hl⟩ := ih
    obtain ⟨e, he, hkasme', hcount', hnext⟩ := hhanded.emmGetNH hP
    obtain ⟨rfl, hrest⟩ := Prod.mk.inj (hcall.symm.trans he)
    cases hrest
    rw [List.length_append, List.length_singleton]
    refine ⟨hkasme'.trans hkasme, hcount'.trans hcount, hnext, ?_⟩
    rw [handedOut, List.range_succ, List.map_append, hkasme, hcount]
    exact congrArg (· ++ _) hl
  | other _ hhop hkasme' hcount' ih =>
    obtain ⟨hkasme, hcount, ⟨hnh, hncc⟩, hl⟩ := ih
    refine ⟨hkasme'.trans hkasme, hcount'.trans hcount, ⟨?_, ?_⟩, hl⟩
    · rw [hhop, hkasme', hcount']
      exact hnh
    · rw [hhop]
      exact hncc

theorem hop_emmDeregister (c : EMMCtx) : c.emmDeregister.hop = .zero := rfl

theorem hop_emmRemoveCurrentSC (c : EMMCtx) : c.emmRemoveCurrentSC.hop = .zero := rfl

/-- After `emm_deregister` or `emm_removeCurrentSC`, the calls of `emm_getNH` return the keys of the chain with their
indices modulo 8.  Before the first call K_ASME and the count may still change; `c` is the context as it is then. -/
theorem nhCalls_eq {b : EMMCtx} {l : List (List UInt8 × UInt8)} (hP : P.NeverZero)
    (hb : c.hop = b.emmDeregister.hop ∨ c.hop = b.emmRemoveCurrentSC.hop) (h : NHCalls P c l d) :
    ∀ n, 1 ≤ n → n ≤ l.length →
      l[n - 1]? = some (hopChain P c.kasme c.nasUlCountForSC (n - 1), UInt8.ofNat ((n - 1) % 8)) := by
  have hzero : c.hop = .zero := by
    rcases hb with hb | hb
    · exact hb.trans (hop_emmDeregister b)
    · exact hb.trans (hop_emmRemoveCurrentSC b)
  obtain ⟨-, -, -, hl⟩ := h.handed hP hzero
  intro n hpos hle
  have hlt : n - 1 < l.length := by omega
  rw [hl, handedOut, List.getElem?_map, List.getElem?_range hlt]
  rfl

/-- A keyed function that never returns zeros, in place of HMAC. -/
def samplePrims : Prims where
  aes128 _ b := b
  hmacSha256 _ m := (m.foldl (fun n b => n + b) 1) :: List.replicate 31 1
  gInt64Hash x := x.toUInt32

/-- The second call of a new context. -/
theorem nhCalls_eq_second :
    ∃ l d, NHCalls samplePrims (emmInit 0 0 ⟨0, 1, [], [], 0, 0⟩).emmDeregister l d ∧
      l[2 - 1]? = some (hopChain samplePrims (List.replicate 32 0) 0 1, 1) := by
  refine ⟨_, _, .call (.call .nil rfl) rfl, ?_⟩
  have hnever : samplePrims.NeverZero := by
    intro k m h
    exact absurd (List.cons.inj h).2 (by decide)
  exact nhCalls_eq hnever (.inl rfl) (.call (.call .nil rfl) rfl) 2 (by decide)
    (by decide)

/-! ## The keys of a connection -/

theorem emmGetNH_stored {nh : List UInt8} {ncc : UInt8} (hcall : c.emmGetNH P = (nh, ncc, d)) :
    d.kasme = c.kasme ∧ d.hop.nh = nextHopKey P c.kasme nh := by
  by_cases hzero : c.hop.nh = List.replicate 32 0
  · obtain ⟨rfl, -, rfl⟩ := hcall
    exact ⟨rfl, rfl⟩
  · obtain ⟨rfl, -, rfl⟩ := hcall
    exact ⟨rfl, rfl⟩

theorem generateKeNB_inj (hrep : P.Unrepeated) {k k' : List UInt8} {m n : UInt32}
    (h : generateKeNB P k m = generateKeNB P k' n) : (k, m) = (k', n) := by
  obtain ⟨rfl, hmessage⟩ := hrep.injective h
  have hoctets := (List.cons.inj (List.append_cancel_right hmessage)).2
  rw [octets32_injective hoctets]

theorem generateKeNB_ne_nextHopKey (hrep : P.Unrepeated) (k k' key : List UInt8) (n : UInt32) :
    generateKeNB P k n ≠ nextHopKey P k' key := by
  intro h
  exact absurd (List.cons.inj (hrep.injective h).2).1 (by decide)

/-- A connection, with the keys that were sent on it, the K_ASME and the count of each InitialContextSetupRequest, and
the K_ASMEs that were in use.  A new authentication starts the chain anew. -/
inductive Connection (P : Prims) (c : EMMCtx) :
    List (List UInt8) → List (List UInt8 × UInt32) → List (List UInt8) → EMMCtx → Prop
  | start : Connection P c [] [] [c.kasme] c
  | contextSetup {keys setups kasmes d} (h : Connection P c keys setups kasmes d) :
    Connection P c (keys ++ [d.emmGetKeNB P]) (setups ++ [(d.kasme, d.nasUlCountForSC)]) kasmes d
  | pathSwitch {keys setups kasmes d nh ncc d'} (h : Connection P c keys setups kasmes d)
    (hcall : d.emmGetNH P = (nh, ncc, d')) : Connection P c (keys ++ [nh]) setups kasmes d'
  | authentication {keys setups kasmes d d'} (h : Connection P c keys setups kasmes d)
    (hhop : d'.hop = d.emmRemoveCurrentSC.hop) (hkasme : d'.kasme ∉ kasmes) :
    Connection P c keys setups (kasmes ++ [d'.kasme]) d'
  | other {keys setups kasmes d d'} (h : Connection P c keys setups kasmes d) (hhop : d'.hop = d.hop)
    (hkasme : d'.kasme = d.kasme) : Connection P c keys setups kasmes d'

/-- The stored key is not the sentinel. -/
def ChainStarted (c : EMMCtx) : Prop := c.hop.nh ≠ List.replicate 32 0

/-- A chain that has started holds a derived key. -/
def Chained (P : Prims) (c : EMMCtx) : Prop := c.ChainStarted → ∃ key, c.hop.nh = nextHopKey P c.kasme key

/-- A key that was sent: that of a context setup, one of an earlier chain, or a predecessor of the stored key. -/
inductive Sent (P : Prims) (setups : List (List UInt8 × UInt32)) (kasmes : List (List UInt8)) (c : EMMCtx)
    (key : List UInt8) : Prop
  | kenb (k : List UInt8) (n : UInt32) (hmem : (k, n) ∈ setups) (hkey : key = generateKeNB P k n)
  | earlier (k m : List UInt8) (hmem : k ∈ kasmes) (hne : k ≠ c.kasme) (hkey : key = P.hmacSha256 k m)
  | predecessor (m : List UInt8) (n : Nat) (hpos : 0 < n) (hstart : c.ChainStarted)
    (hkey : key = P.hmacSha256 c.kasme m) (hnh : (nextHopKey P c.kasme)^[n] key = c.hop.nh)

structure Connection.Tracked (P : Prims) (keys : List (List UInt8)) (setups : List (List UInt8 × UInt32))
    (kasmes : List (List UInt8)) (c : EMMCtx) : Prop where
  chained : c.Chained P
  kasme : c.kasme ∈ kasmes
  kenb : ∀ p ∈ setups, generateKeNB P p.1 p.2 ∈ keys
  sent : ∀ key ∈ keys, Sent P setups kasmes c key

variable {keys kasmes : List (List UInt8)} {setups : List (List UInt8 × UInt32)} {nh : List UInt8} {ncc : UInt8}

open Connection (Tracked)

theorem Connection.Tracked.contextSetup (h : Tracked P keys setups kasmes c) :
    Tracked P (keys ++ [c.emmGetKeNB P]) (setups ++ [(c.kasme, c.nasUlCountForSC)]) kasmes c where
  chained := h.chained
  kasme := h.kasme
  kenb p hp := by
    rcases List.mem_append.mp hp with hp | hp
    · exact List.mem_append_left _ (h.kenb p hp)
    · rw [List.mem_singleton.mp hp]
      exact List.mem_append_right _ (List.mem_singleton_self _)
  sent key hkey := by
    rcases List.mem_append.mp hkey with hkey | hkey
    · cases h.sent key hkey with
      | kenb k n hmem hkey => exact .kenb k n (List.mem_append_left _ hmem) hkey
      | earlier k m hmem hne hkey => exact .earlier k m hmem hne hkey
      | predecessor m n hpos hstart hkey hnh => exact .predecessor m n hpos hstart hkey hnh
    · exact .kenb _ _ (List.mem_append_right _ (List.mem_singleton_self _)) (List.mem_singleton.mp hkey)

/-- What is sent is a key of the current chain. -/
theorem Connection.Tracked.derived (h : Tracked P keys setups kasmes c) (hcall : c.emmGetNH P = (nh, ncc, d)) :
    ∃ m, nh = P.hmacSha256 c.kasme m := by
  by_cases hstart : c.ChainStarted
  · rw [emmGetNH_next hstart] at hcall
    obtain ⟨rfl, -, -⟩ := hcall
    obtain ⟨key, hkey⟩ := h.chained hstart
    exact ⟨_, hkey⟩
  · rw [emmGetNH_first (not_not.mp hstart)] at hcall
    obtain ⟨rfl, -, -⟩ := hcall
    exact ⟨_, rfl⟩

theorem Connection.Tracked.pathSwitch (h : Tracked P keys setups kasmes c) (hP : P.NeverZero)
    (hcall : c.emmGetNH P = (nh, ncc, d)) : Tracked P (keys ++ [nh]) setups kasmes d := by
  obtain ⟨hkasme, hstored⟩ := emmGetNH_stored hcall
  have hstart : d.ChainStarted := by
    rw [ChainStarted, hstored]
    exact hP _ _
  refine ⟨fun _ => ⟨nh, by rw [hstored, hkasme]⟩, hkasme ▸ h.kasme, fun p hp => List.mem_append_left _ (h.kenb p hp), ?_⟩
  intro key hkey
  rcases List.mem_append.mp hkey with hkey | hkey
  · cases h.sent key hkey with
    | kenb k n hmem hkey => exact .kenb k n hmem hkey
    | earlier k m hmem hne hkey => exact .earlier k m hmem (hkasme ▸ hne) hkey
    | predecessor m n hpos hstart' hkey hnh =>
      rw [emmGetNH_next hstart'] at hcall
      refine .predecessor m (n + 1) n.succ_pos hstart (hkasme ▸ hkey) ?_
      rw [Function.iterate_succ_apply', hkasme, hnh, hstored, ← (Prod.mk.inj hcall).1]
  · obtain ⟨m, hm⟩ := h.derived hcall
    rw [List.mem_singleton.mp hkey]
    exact .predecessor m 1 Nat.one_pos hstart (hkasme ▸ hm) (by rw [hstored, hkasme]; rfl)

theorem Connection.Tracked.authentication (h : Tracked P keys setups kasmes c) (hhop : d.hop = c.emmRemoveCurrentSC.hop)
    (hkasme : d.kasme ∉ kasmes) : Tracked P keys setups (kasmes ++ [d.kasme]) d := by
  have hother : ∀ k ∈ kasmes, k ≠ d.kasme := fun k hk heq => hkasme (heq ▸ hk)
  refine ⟨fun hstart => absurd (by rw [hhop]; rfl) hstart, List.mem_append_right _ (List.mem_singleton_self _),
    h.kenb, ?_⟩
  intro key hkey
  cases h.sent key hkey with
  | kenb k n hmem hkey => exact .kenb k n hmem hkey
  | earlier k m hmem _ hkey => exact .earlier k m (List.mem_append_left _ hmem) (hother k hmem) hkey
  | predecessor m _ _ _ hkey _ =>
    exact .earlier c.kasme m (List.mem_append_left _ h.kasme) (hother c.kasme h.kasme) hkey

theorem Connection.Tracked.other (h : Tracked P keys setups kasmes c) (hhop : d.hop = c.hop) (hkasme : d.kasme = c.kasme) :
    Tracked P keys setups kasmes d := by
  have hstart : d.ChainStarted ↔ c.ChainStarted := by rw [ChainStarted, hhop, ChainStarted]
  refine ⟨?_, hkasme ▸ h.kasme, h.kenb, ?_⟩
  · rw [Chained, hstart, hhop, hkasme]
    exact h.chained
  · intro key hkey
    cases h.sent key hkey with
    | kenb k n hmem hkey => exact .kenb k n hmem hkey
    | earlier k m hmem hne hkey => exact .earlier k m hmem (hkasme ▸ hne) hkey
    | predecessor m n hpos hc hkey hnh =>
      exact .predecessor m n hpos (hstart.mpr hc) (hkasme ▸ hkey) (by rw [hkasme, hhop, hnh])

theorem Connection.tracked (h : Connection P c keys setups kasmes d) (hP : P.NeverZero) (hc : c.Chained P) :
    Tracked P keys setups kasmes d := by
  induction h with
  | start => exact ⟨hc, List.mem_singleton_self _, fun p hp => absurd hp List.not_mem_nil,
      fun key hkey => absurd hkey List.not_mem_nil⟩
  | contextSetup _ ih => exact ih.contextSetup
  | pathSwitch _ hcall ih => exact ih.pathSwitch hP hcall
  | authentication _ hhop hkasme ih => exact ih.authentication hhop hkasme
  | other _ hhop hkasme ih => exact ih.other hhop hkasme

/-- The key in front of the message, octet by octet: longer than what it is derived from. -/
def growingPrims : Prims where
  aes128 _ b := b
  hmacSha256 k m := 1 :: (k.flatMap fun b => [1, b]) ++ 0 :: m
  gInt64Hash x := x.toUInt32

theorem growingPrims_inj {k k' m m' : List UInt8}
    (h : growingPrims.hmacSha256 k m = growingPrims.hmacSha256 k' m') : k = k' ∧ m = m' := by
  replace h := (List.cons.inj h).2
  induction k generalizing k' with
  | nil =>
    cases k' with
    | nil => exact ⟨rfl, (List.cons.inj h).2⟩
    | cons b k' => exact absurd (List.cons.inj h).1 (by decide)
  | cons b k ih =>
    cases k' with
    | nil => exact absurd (List.cons.inj h).1 (by decide)
    | cons b' k' =>
      obtain ⟨rfl, htail⟩ := List.cons.inj (List.cons.inj h).2
      obtain ⟨rfl, rfl⟩ := ih htail
      exact ⟨rfl, rfl⟩

theorem length_iterate_growing (k key : List UInt8) (n : Nat) :
    key.length + n ≤ ((nextHopKey growingPrims k)^[n] key).length := by
  induction n with
  | zero => exact Nat.le_refl _
  | succ n ih =>
    rw [Function.iterate_succ_apply']
    simp only [nextHopKey, growingPrims, List.length_cons, List.length_append] at ih ⊢
    omega

theorem growingPrims_unrepeated : growingPrims.Unrepeated where
  injective := growingPrims_inj
  acyclic k key n hpos h := by
    have hlength := length_iterate_growing k key n
    rw [h] at hlength
    omega

end EMMCtx

end AaltoMME
