import AaltoMME.NAS.EIA2
import Mathlib.Algebra.BigOperators.Ring.List

/-!
# The CMAC of a message in parts

`NAS_CMAC_Update` may be called again and again, as in the code for octets that it was made from.  There
`nlast_block` counted octets; it counts bits now, and is still the offset in octets at which a part is appended to a
block that is not complete.  So the parts have the tag of the message only if every part but the last ends with a
block.
-/

namespace AaltoMME.NAS

open Base

section

variable (C : BlockCipher)

/-- `NAS_CMAC_Update` on one part of a message after the other, of `lens` bits. -/
def nasCMACUpdates : CMACCtx → Mem → List Nat → Outcome CMACCtx
  | ctx, _, [] => .ok ctx
  | ctx, data, n :: lens => do
    let ctx ← nasCMACUpdate C ctx data n
    nasCMACUpdates ctx (data.shift (n / 8)) lens

/-- The tag of a message that is taken in parts. -/
def nasCMAC (key : List UInt8) (data : Mem) (lens : List Nat) : Outcome (List UInt8) := do
  let ctx ← nasCMACUpdates C (nasCMACInit C key) data lens
  .ok (nasCMACFinal C ctx)

end

variable {C : BlockCipher} {c d : CMACCtx} {data data' : Mem} {n j : Nat} {lens : List Nat}

theorem nasCMACUpdates_append {l : List Nat} (h : ∀ n ∈ l, n % 8 = 0) (lens : List Nat) :
    nasCMACUpdates C c data (l ++ lens) =
      nasCMACUpdates C c data l >>= fun c => nasCMACUpdates C c (data.shift (l.sum / 8)) lens := by
  induction l generalizing c data with
  | nil =>
    have hshift : data.shift 0 = data := funext fun i => by simp
    simp [nasCMACUpdates, hshift]
  | cons n l ih =>
    have hn : n % 8 = 0 := h n List.mem_cons_self
    have hshift : (data.shift (n / 8)).shift (l.sum / 8) = data.shift ((n + l.sum) / 8) := by
      funext i
      exact congrArg data (by omega)
    simp only [List.cons_append, nasCMACUpdates, List.sum_cons, bind_assoc,
      ih fun m hm => h m (List.mem_cons_of_mem _ hm), hshift]

theorem nasCMACUpdates_singleton : nasCMACUpdates C c data [n] = nasCMACUpdate C c data n := bind_pure _

theorem nasCMACUpdates_of_sum_eq_zero (h : lens.sum = 0) : nasCMACUpdates C c data lens = .ok c := by
  induction lens generalizing data with
  | nil => rfl
  | cons n lens ih =>
    rw [List.sum_cons] at h
    rw [nasCMACUpdates, nasCMACUpdate, if_pos (by omega), ok_bind, ih (by omega)]

/-! ## The bits in the last block -/

theorem lt_bitOctets {i : Nat} : i < bitOctets n ↔ i * 8 < n := by
  unfold bitOctets
  split <;> omega

/-- The bits in the last block after `n` bits: a block is held back until more follows. -/
def held (bl n : Nat) : Nat := if n = 0 then 0 else (n - 1) % (bl * 8) + 1

theorem held_add_mul {bl : Nat} (hn : 0 < n) (h : n ≤ bl * 8) (q : Nat) : held bl (n + bl * 8 * q) = n := by
  have hsub : n + bl * 8 * q - 1 = n - 1 + bl * 8 * q := Nat.sub_add_comm hn
  rw [held, if_neg (by omega), hsub, Nat.add_mul_mod_self_left, Nat.mod_eq_of_lt (by omega), Nat.sub_add_cancel hn]

theorem held_of_le {bl : Nat} (h : n ≤ bl * 8) : held bl n = n := by
  rcases Nat.eq_zero_or_pos n with rfl | hn
  · rfl
  · exact held_add_mul hn h 0

theorem held_sub {bl : Nat} (h : bl * 8 < n) : held bl (n - bl * 8) = held bl n := by
  rw [held, held, if_neg (by omega), if_neg (by omega), Nat.mod_eq_sub_mod (a := n - 1) (by omega), Nat.sub_right_comm]

theorem held_le {bl : Nat} (hbl : 0 < bl) (n : Nat) : held bl n ≤ bl * 8 := by
  have hlt := Nat.mod_lt (n - 1) (y := bl * 8) (by omega)
  unfold held
  split <;> omega

theorem held_add (bl s n : Nat) : held bl (held bl s + n) = held bl (s + n) := by
  by_cases hs : s = 0
  · rw [hs]
    rfl
  · have hleft : (s - 1) % (bl * 8) + 1 + n - 1 = (s - 1) % (bl * 8) + n := by omega
    have hright : s + n - 1 = s - 1 + n := by omega
    rw [held, held, held, if_neg hs, if_neg (by omega), if_neg (by omega), hleft, hright, Nat.mod_add_mod]

theorem nlastBlock_cmacAbsorb (hbl : 0 < C.blockSize) (c : CMACCtx) (data : Mem) (n : Nat) :
    (cmacAbsorb C c data n).nlastBlock = held C.blockSize n := by
  induction n using Nat.strong_induction_on generalizing c data with
  | _ n ih =>
    by_cases hlt : C.blockSize * 8 < n
    · rw [cmacAbsorb_of_lt hbl hlt, ih _ (by omega), held_sub hlt]
    · rw [cmacAbsorb_of_le (not_lt.mp hlt), held_of_le (not_lt.mp hlt)]

theorem nlastBlock_nasCMACUpdate (hbl : 0 < C.blockSize) (hc : c.nlastBlock ≤ C.blockSize * 8)
    (h : nasCMACUpdate C c data n = .ok d) : d.nlastBlock = held C.blockSize (c.nlastBlock + n) := by
  unfold nasCMACUpdate at h
  dsimp only at h
  split_ifs at h with h0 hpos hover hall <;> cases h
  · rw [h0, Nat.add_zero, held_of_le hc]
  · have hmin : min n (C.blockSize * 8 - c.nlastBlock) = n := by omega
    rw [held_of_le (by omega)]
    exact congrArg _ hmin
  · rw [nlastBlock_cmacAbsorb hbl, ← held_sub (n := c.nlastBlock + n) (by omega)]
    exact congrArg (held _) (by omega)
  · rw [nlastBlock_cmacAbsorb hbl, Nat.eq_zero_of_not_pos hpos, Nat.zero_add]

theorem nlastBlock_nasCMACUpdates (hbl : 0 < C.blockSize) (hc : c.nlastBlock ≤ C.blockSize * 8)
    (h : nasCMACUpdates C c data lens = .ok d) : d.nlastBlock = held C.blockSize (c.nlastBlock + lens.sum) := by
  induction lens generalizing c data with
  | nil =>
    cases h
    exact (held_of_le hc).symm
  | cons n lens ih =>
    obtain ⟨c', hc', h⟩ := bind_eq_ok.mp h
    have hlast := nlastBlock_nasCMACUpdate hbl hc hc'
    rw [ih (hlast ▸ held_le hbl _) h, hlast, held_add, Nat.add_assoc, List.sum_cons]

/-! ## Parts that end with a block -/

/-- What the last block holds behind its bits is not used. -/
theorem nasCMACFinal_congr {m : Mem} (h : ∀ i, i * 8 < c.nlastBlock → m i = c.lastBlock i) :
    nasCMACFinal C { c with lastBlock := m } = nasCMACFinal C c := by
  have hread : ∀ k, k * 8 ≤ c.nlastBlock → m.read 0 k = c.lastBlock.read 0 k := fun k hk =>
    Mem.read_congr fun i hi => h _ (by omega)
  by_cases hfull : c.nlastBlock = C.blockSize * 8
  · simp only [nasCMACFinal, hfull, if_true, hread _ hfull.ge]
    rfl
  · simp only [nasCMACFinal, hfull, if_false, hread _ (Nat.div_mul_le_self _ 8)]
    split_ifs with hr
    · rfl
    · rw [h _ (by omega)]
      rfl

/-- Nor is the last block that is there before. -/
theorem final_cmacAbsorb_congr (hbl : 0 < C.blockSize) (c : CMACCtx) (m : Mem) (k : Nat) (data : Mem) (n : Nat) :
    nasCMACFinal C (cmacAbsorb C { c with lastBlock := m, nlastBlock := k } data n) =
      nasCMACFinal C (cmacAbsorb C c data n) := by
  induction n using Nat.strong_induction_on generalizing c data with
  | _ n ih =>
    by_cases hlt : C.blockSize * 8 < n
    · rw [cmacAbsorb_of_lt hbl hlt, cmacAbsorb_of_lt hbl hlt]
      exact ih _ (by omega) (evpCipher C c (data.read 0 C.blockSize)) _
    · rw [cmacAbsorb_of_le (not_lt.mp hlt), cmacAbsorb_of_le (not_lt.mp hlt)]
      refine nasCMACFinal_congr (c := { c with lastBlock := _, nlastBlock := n }) fun i hi => ?_
      have hi : 0 ≤ i ∧ i < 0 + bitOctets n := ⟨Nat.zero_le i, by simpa using lt_bitOctets.mpr hi⟩
      exact (if_pos hi).trans (if_pos hi).symm

/-- The context with the block that was held back enciphered. -/
def CMACCtx.resumed (C : BlockCipher) (c : CMACCtx) : CMACCtx :=
  if c.nlastBlock = 0 then c else evpCipher C c (c.lastBlock.read 0 C.blockSize)

theorem nasCMACUpdate_of_block (hc : c.nlastBlock = 0 ∨ c.nlastBlock = C.blockSize * 8) (hn : n ≠ 0) :
    nasCMACUpdate C c data n = .ok (cmacAbsorb C (c.resumed C) data n) := by
  rw [nasCMACUpdate, if_neg hn, CMACCtx.resumed]
  by_cases h0 : c.nlastBlock = 0
  · simp [h0]
  · have hfull := hc.resolve_left h0
    have hcopy : c.lastBlock.copy data (C.blockSize * 8) 0 = c.lastBlock := funext fun i => if_neg (by omega)
    have hshift : data.shift 0 = data := funext fun i => by simp
    have hctx : { c with lastBlock := c.lastBlock, nlastBlock := C.blockSize * 8 } = c := by rw [← hfull]
    rw [if_neg h0, if_pos (Nat.pos_of_ne_zero h0)]
    simp only [hfull, Nat.sub_self, Nat.min_zero, lt_irrefl, false_and, if_false, Nat.sub_zero, hn, bitOctets,
      if_true, Nat.add_zero, hcopy, hshift, hctx]

/-- A message of whole blocks and what follows it.  The induction is on its length. -/
theorem final_cmacAbsorb_add (hbl : 0 < C.blockSize) (hn : 0 < n) (hdvd : C.blockSize * 8 ∣ n) {s : Nat} (hs : 0 < s)
    (c : CMACCtx) (data : Mem) :
    nasCMACFinal C (cmacAbsorb C ((cmacAbsorb C c data n).resumed C) (data.shift (n / 8)) s) =
      nasCMACFinal C (cmacAbsorb C c data (n + s)) := by
  induction n using Nat.strong_induction_on generalizing c data with
  | _ n ih =>
    have hle : C.blockSize * 8 ≤ n := Nat.le_of_dvd hn hdvd
    rcases Nat.eq_or_lt_of_le hle with rfl | hlt
    · have hread : (c.lastBlock.copy data 0 (bitOctets (C.blockSize * 8))).read 0 C.blockSize =
          data.read 0 C.blockSize := Mem.read_congr fun k hk =>
        Mem.copy_of_mem _ _ _ _ _ (Nat.zero_le _) (Nat.add_lt_add_left (lt_bitOctets.mpr (by omega)) 0)
      have hdiv : C.blockSize * 8 / 8 = C.blockSize := by omega
      rw [cmacAbsorb_of_lt hbl (n := _ + s) (by omega), cmacAbsorb_of_le le_rfl, CMACCtx.resumed, if_neg hn.ne', hread,
        hdiv, Nat.add_sub_cancel_left]
      exact final_cmacAbsorb_congr hbl (evpCipher C c (data.read 0 C.blockSize)) _ _ _ s
    · have hshift : (data.shift C.blockSize).shift ((n - C.blockSize * 8) / 8) = data.shift (n / 8) := by
        funext i
        exact congrArg data (by omega)
      rw [cmacAbsorb_of_lt hbl hlt, cmacAbsorb_of_lt hbl (n := n + s) (by omega), Nat.sub_add_comm hle, ← hshift]
      exact ih _ (by omega) (by omega) (Nat.dvd_sub hdvd dvd_rfl) _ _

/-- Every part of a message but the last ends with a block; parts without bits do not count. -/
def BlockParts (bl : Nat) (lens : List Nat) : Prop :=
  ∀ l l', lens = l ++ l' → l'.sum ≠ 0 → bl * 8 ∣ l.sum

theorem BlockParts.tail {bl : Nat} (h : BlockParts bl (n :: lens)) : BlockParts bl lens := by
  rintro l l' rfl hne
  have hn : bl * 8 ∣ n := by
    have hdvd := h [n] (l ++ l') rfl (by simp at hne ⊢; omega)
    rwa [List.sum_singleton] at hdvd
  exact (Nat.dvd_add_right hn).mp (by simpa using h (n :: l) l' rfl hne)

theorem final_nasCMACUpdates (hbl : 0 < C.blockSize) (hc : c.nlastBlock = 0 ∨ c.nlastBlock = C.blockSize * 8)
    (h : BlockParts C.blockSize lens) :
    (nasCMACUpdates C c data lens >>= fun c => .ok (nasCMACFinal C c)) =
      nasCMACUpdate C c data lens.sum >>= fun c => .ok (nasCMACFinal C c) := by
  induction lens generalizing c data with
  | nil => rfl
  | cons n lens ih =>
    have hshift : data.shift 0 = data := funext fun i => by simp
    rw [nasCMACUpdates, List.sum_cons]
    by_cases hn : n = 0
    · rw [hn, nasCMACUpdate, if_pos rfl, ok_bind, hshift, ih hc h.tail, Nat.zero_add]
    rw [nasCMACUpdate_of_block hc hn, ok_bind, nasCMACUpdate_of_block hc (by omega)]
    by_cases hlast : lens.sum = 0
    · rw [nasCMACUpdates_of_sum_eq_zero hlast, hlast, Nat.add_zero]
    have hdvd : C.blockSize * 8 ∣ n := by simpa using h [n] lens rfl hlast
    have hfull : (cmacAbsorb C (c.resumed C) data n).nlastBlock = C.blockSize * 8 := by
      obtain ⟨q, hq⟩ := Nat.dvd_sub hdvd dvd_rfl
      rw [nlastBlock_cmacAbsorb hbl, ← held_add_mul (by omega) le_rfl q, ← hq]
      exact congrArg (held _) (Nat.add_sub_cancel' (Nat.le_of_dvd (Nat.pos_of_ne_zero hn) hdvd)).symm
    rw [ih (.inr hfull) h.tail, nasCMACUpdate_of_block (.inr hfull) hlast]
    exact congrArg Except.ok (final_cmacAbsorb_add hbl (Nat.pos_of_ne_zero hn) hdvd (Nat.pos_of_ne_zero hlast) _ _)

/-! ## A part that follows a block that is not complete -/

/-- The cipher that changes nothing: the tag shows the octets of the message. -/
def identityCipher (bl : Nat) : BlockCipher := ⟨bl, fun _ block => block⟩

section

variable {bl : Nat} {x y : UInt8}

theorem getElem?_xorBlock {a b : List UInt8} (ha : a[j]? = some x) (hb : b[j]? = some y) :
    (xorBlock a b)[j]? = some (x ^^^ y) := by
  simp [xorBlock, List.getElem?_zipWith, ha, hb]

/-- Octet `j` of the chaining value is `x`; octet `j` of the last block and the subkeys of the cipher that changes
nothing are zero. -/
structure CMACCtx.Shows (bl j : Nat) (x : UInt8) (c : CMACCtx) : Prop where
  iv : c.iv[j]? = some x
  last : c.lastBlock j = 0
  k1 : c.k1 = List.replicate bl 0
  k2 : c.k2 = List.replicate bl 0

theorem shows_nasCMACInit (hj : j < bl) (key : List UInt8) : (nasCMACInit (identityCipher bl) key).Shows bl j 0 := by
  have hzero : makeKn bl (List.replicate bl 0) = List.replicate bl 0 := by
    refine List.eq_replicate_iff.mpr ⟨by simp [makeKn], ?_⟩
    simp [makeKn]
  have hxor : xorBlock (List.replicate bl 0) (List.replicate bl 0) = List.replicate bl 0 := by simp [xorBlock]
  refine ⟨by simp [nasCMACInit, identityCipher, hj], rfl, ?_, ?_⟩ <;>
    simp only [nasCMACInit, identityCipher, hxor, hzero]

/-- A block is enciphered. -/
theorem CMACCtx.Shows.evpCipher (h : c.Shows bl j x) (hj : j < bl) {m : Mem} (hm : m j = y) :
    (NAS.evpCipher (identityCipher bl) c (m.read 0 bl)).Shows bl j (y ^^^ x) := by
  have hb := Mem.getElem_read m 0 j bl hj
  rw [Nat.zero_add, hm] at hb
  exact ⟨getElem?_xorBlock hb h.iv, h.last, h.k1, h.k2⟩

/-- Octets are appended to the last block. -/
theorem CMACCtx.Shows.copy (h : c.Shows bl j x) {i k : Nat} (hdata : i ≤ j → j < i + k → data (j - i) = 0) :
    CMACCtx.Shows bl j x { c with lastBlock := c.lastBlock.copy data i k, nlastBlock := n } where
  iv := h.iv
  last := by
    dsimp only [Mem.copy]
    split_ifs with hj
    · exact hdata hj.1 hj.2
    · exact h.last
  k1 := h.k1
  k2 := h.k2

theorem shows_cmacAbsorb (hj : j < bl) (h : c.Shows bl j x) (hdata : ∀ i, i * 8 < n → data i = 0) :
    (cmacAbsorb (identityCipher bl) c data n).Shows bl j x := by
  have hbl := Nat.zero_lt_of_lt hj
  induction n using Nat.strong_induction_on generalizing c data with
  | _ n ih =>
    by_cases hlt : (identityCipher bl).blockSize * 8 < n
    · have hlt' : bl * 8 < n := hlt
      have hfirst := h.evpCipher hj (hdata j (by omega))
      rw [UInt8.zero_xor] at hfirst
      rw [cmacAbsorb_of_lt hbl hlt]
      exact ih (n - bl * 8) (by omega) hfirst fun i hi => hdata (bl + i) (by omega)
    · rw [cmacAbsorb_of_le (not_lt.mp hlt)]
      exact h.copy fun _ hi => hdata _ (by have := lt_bitOctets.mp (Nat.sub_lt_left_of_lt_add (Nat.zero_le _) hi); omega)

/-- The first octet of a part that is appended to a block goes behind octet `j`, wherever the block ends. -/
theorem shows_nasCMACUpdate (hj : j < bl) (h : c.Shows bl j x) (hdata : ∀ i, i * 8 < n → data i = 0 ∨
      i = 0 ∧ j < c.nlastBlock ∧ c.nlastBlock + 8 ≤ bl * 8)
    (hd : nasCMACUpdate (identityCipher bl) c data n = .ok d) : d.Shows bl j x := by
  rw [nasCMACUpdate] at hd
  dsimp only [identityCipher] at hd
  have hcopy : c.nlastBlock ≤ j → j < c.nlastBlock + bitOctets (min n (bl * 8 - c.nlastBlock)) →
      data (j - c.nlastBlock) = 0 := fun hle hlt => by
    have hlt := lt_bitOctets.mp (Nat.sub_lt_left_of_lt_add hle hlt)
    exact (hdata _ (by omega)).resolve_right (by omega)
  split_ifs at hd with h0 hpos hover hall <;> cases hd
  · exact h
  · exact h.copy hcopy
  · have hblock := (h.copy (n := c.nlastBlock + min n (bl * 8 - c.nlastBlock)) hcopy)
    have hfirst := hblock.evpCipher hj hblock.last
    rw [UInt8.zero_xor] at hfirst
    exact shows_cmacAbsorb hj hfirst fun i hi => (hdata _ (by omega)).resolve_right (by omega)
  · exact shows_cmacAbsorb hj h fun i hi => (hdata i hi).resolve_right (by omega)

theorem shows_nasCMACUpdates (hj : j < bl) (h : c.Shows bl j x) (hdata : ∀ i, i * 8 < lens.sum → data i = 0)
    (hd : nasCMACUpdates (identityCipher bl) c data lens = .ok d) : d.Shows bl j x := by
  induction lens generalizing c data with
  | nil =>
    cases hd
    exact h
  | cons n lens ih =>
    rw [List.sum_cons] at hdata
    obtain ⟨c', hc', hd⟩ := bind_eq_ok.mp hd
    have h' := shows_nasCMACUpdate hj h (fun i hi => .inl (hdata i (by omega))) hc'
    exact ih h' (fun i hi => hdata _ (by omega)) hd

/-- The octet of the padded last block that `x` becomes. -/
def lastOctet (bl n j : Nat) (x : UInt8) : UInt8 :=
  if n = bl * 8 ∨ j < n / 8 then x else if j = n / 8 then paddedOctet x (n % 8) else 0

theorem lastOctet_ne (hj : j * 8 < n) : lastOctet bl n j 0x80 ≠ lastOctet bl n j 0 := by
  unfold lastOctet
  split_ifs with hfull heq
  · decide
  · have hr : 0 < n % 8 ∧ n % 8 < 8 := by omega
    generalize n % 8 = r at hr
    obtain ⟨hpos, hlt⟩ := hr
    interval_cases r <;> decide
  · omega

theorem getElem?_padded (m : Mem) (h : n < bl * 8) (hj : j < bl) :
    (m.read 0 (n / 8) ++ paddedOctet (m (n / 8)) (n % 8) :: List.replicate (bl - n / 8 - 1) 0)[j]? =
      some (lastOctet bl n j (m j)) := by
  rcases lt_trichotomy j (n / 8) with hlt | rfl | hlt
  · rw [List.getElem?_append_left (by simpa using hlt), Mem.getElem_read _ _ _ _ hlt]
    simp [lastOctet, hlt]
  · simp [lastOctet, h.ne]
  · obtain ⟨k, hk⟩ : ∃ k, j - n / 8 = k + 1 := ⟨j - n / 8 - 1, by omega⟩
    rw [List.getElem?_append_right (by simpa using hlt.le), Mem.length_read, hk, List.getElem?_cons_succ,
      List.getElem?_replicate_of_lt (by omega)]
    simp [lastOctet, h.ne, hlt.ne', hlt.not_gt]

/-- Octet `j` of the tag. -/
theorem CMACCtx.Shows.final (h : c.Shows bl j x) (hj : j < bl) (m : Mem) (hn : n ≤ bl * 8) :
    (nasCMACFinal (identityCipher bl) { c with lastBlock := m, nlastBlock := n })[j]? =
      some (lastOctet bl n j (m j) ^^^ x) := by
  have hmask : (List.replicate bl (0 : UInt8))[j]? = some 0 := by simp [hj]
  have hxor : ∀ {b : List UInt8} {y : UInt8}, b[j]? = some y →
      (xorBlock (xorBlock b (List.replicate bl 0)) c.iv)[j]? = some (y ^^^ x) := fun hb => by
    have hmasked := getElem?_xorBlock hb hmask
    rw [UInt8.xor_zero] at hmasked
    exact getElem?_xorBlock hmasked h.iv
  by_cases hfull : n = bl * 8
  · simp only [nasCMACFinal, identityCipher, NAS.evpCipher, hfull, if_true, h.k1]
    refine hxor ?_
    rw [Mem.getElem_read _ _ _ _ hj]
    simp [lastOctet]
  · simp only [nasCMACFinal, identityCipher, NAS.evpCipher, hfull, if_false, h.k2]
    exact hxor (getElem?_padded _ (by omega) hj)

theorem CMACCtx.Shows.final_held (h : c.Shows bl j x) (hj : j < bl) (hn : c.nlastBlock = held bl n) :
    (nasCMACFinal (identityCipher bl) c)[j]? = some (lastOctet bl (held bl n) j 0 ^^^ x) := by
  have hfinal := h.final hj c.lastBlock (held_le (Nat.zero_lt_of_lt hj) n)
  rw [h.last] at hfinal
  rw [← hfinal, ← hn]

/-- The tag of a message that is taken at once shows an octet that is not zero. -/
theorem getElem?_nasCMACFinal_ne (hj : j < bl) (h : c.Shows bl j 0) {t : Nat} (ht : t % bl = j) (hlt : t * 8 < n)
    (hdata : ∀ i, data i = if i = t then 0x80 else 0) :
    (nasCMACFinal (identityCipher bl) (cmacAbsorb (identityCipher bl) c data n))[j]? ≠
      some (lastOctet bl (held bl n) j 0) := by
  have hbl := Nat.zero_lt_of_lt hj
  induction n using Nat.strong_induction_on generalizing c data t with
  | _ n ih =>
    by_cases hn : (identityCipher bl).blockSize * 8 < n
    · have hn' : bl * 8 < n := hn
      rw [cmacAbsorb_of_lt hbl hn, ← held_sub hn']
      rcases Nat.lt_or_ge t bl with htb | htb
      · -- The octet is in the first block, so the chaining value shows it from there on.
        obtain rfl : t = j := by rwa [Nat.mod_eq_of_lt htb] at ht
        have hrest := shows_cmacAbsorb hj (n := n - bl * 8) (h.evpCipher hj ((hdata t).trans (if_pos rfl)))
          fun i _ => (show data.shift bl i = _ from hdata _).trans (if_neg (by omega))
        intro heq
        have hxor := Option.some.inj ((hrest.final_held hj (nlastBlock_cmacAbsorb hbl _ _ _)).symm.trans heq)
        cases (UInt8.xor_right_inj _).mp (hxor.trans UInt8.xor_zero.symm)
      · have hfirst := h.evpCipher hj ((hdata j).trans (if_neg (by omega)))
        have hmod : (t - bl) % bl = j := by rwa [← Nat.mod_eq_sub_mod htb]
        exact ih (n - bl * 8) (by omega) hfirst hmod (by omega) fun i =>
          (hdata (bl + i)).trans (if_congr (by omega) rfl rfl)
    · have hle : n ≤ bl * 8 := not_lt.mp hn
      obtain rfl : t = j := by rwa [Nat.mod_eq_of_lt (by omega)] at ht
      have hcopy : c.lastBlock.copy data 0 (bitOctets n) t = 0x80 :=
        (if_pos ⟨Nat.zero_le t, by simpa using lt_bitOctets.mpr hlt⟩).trans ((hdata t).trans (if_pos rfl))
      rw [cmacAbsorb_of_le hle, held_of_le hle, h.final hj _ hle, UInt8.xor_zero, hcopy]
      exact fun heq => lastOctet_ne hlt (Option.some.inj heq)

end

/-! ## Messages in parts -/

theorem exists_part_of_sum_ne_zero (h : lens.sum ≠ 0) : ∃ l n l', lens = l ++ n :: l' ∧ l.sum = 0 ∧ n ≠ 0 := by
  induction lens with
  | nil => exact absurd rfl h
  | cons n lens ih =>
    by_cases hn : n = 0
    · obtain ⟨l, m, l', rfl, hl, hm⟩ := ih (by simpa [hn] using h)
      exact ⟨n :: l, m, l', rfl, by simp [hn, hl], hm⟩
    · exact ⟨[], n, lens, rfl, rfl, hn⟩

theorem nasCMAC_singleton (hn : n ≠ 0) (key : List UInt8) (data : Mem) : nasCMAC C key data [n] =
    .ok (nasCMACFinal C (cmacAbsorb C (nasCMACInit C key) data n)) := by
  rw [nasCMAC, nasCMACUpdates_singleton, nasCMACUpdate_of_block (.inl rfl) hn]
  rfl

/-- The cut before a part with bits.  If it is inside of a block, the first octet behind it is not where the tag of
the whole message shows it. -/
theorem dvd_sum_of_nasCMAC {bl : Nat} (hbl : 0 < bl) {l post : List Nat} (hl : ∀ m ∈ l, m % 8 = 0) (hn : n ≠ 0)
    (hpost : post = [] ∨ n % 8 = 0) (h : ∀ data, nasCMAC (identityCipher bl) [] data (l ++ n :: post) =
      nasCMAC (identityCipher bl) [] data [(l ++ n :: post).sum]) : bl * 8 ∣ l.sum := by
  have hsum8 : 8 ∣ l.sum := List.dvd_sum fun m hm => Nat.dvd_of_mod_eq_zero (hl m hm)
  obtain ⟨t, ht⟩ : ∃ t, l.sum = t * 8 := hsum8.imp fun t ht => ht.trans (Nat.mul_comm ..)
  rw [ht]
  refine Nat.mul_dvd_mul_right (Nat.dvd_of_mod_eq_zero (Nat.eq_zero_of_not_pos fun hpos => ?_)) 8
  have hj : t % bl < bl := Nat.mod_lt t hbl
  have hsum : (l ++ n :: post).sum = t * 8 + (n + post.sum) := by simp [ht]
  have hdata : ∀ i, i ≠ t → (Mem.zero.set t 0x80) i = 0 := fun i hi => Mem.set_of_ne _ _ _ _ hi
  have hwhole := getElem?_nasCMACFinal_ne hj (shows_nasCMACInit hj []) (n := (l ++ n :: post).sum) rfl (by omega)
    fun i => show Mem.zero.set t 0x80 i = _ from rfl
  have heq := h (Mem.zero.set t 0x80)
  rw [nasCMAC_singleton (by omega)] at heq
  obtain ⟨d, hd, hfinal⟩ := bind_eq_ok.mp heq
  have hdlast := (nlastBlock_nasCMACUpdates hbl (Nat.zero_le _) hd).trans (congrArg (held bl) (Nat.zero_add _))
  rw [nasCMACUpdates_append hl] at hd
  obtain ⟨c, hc, hd⟩ := bind_eq_ok.mp hd
  obtain ⟨c', hc', hd⟩ := bind_eq_ok.mp hd
  have hlast : c.nlastBlock = t % bl * 8 := by
    have hsplit : 0 + l.sum = t % bl * 8 + bl * 8 * (t / bl) := by
      rw [Nat.zero_add, ht, Nat.mul_right_comm, ← Nat.add_mul, Nat.mod_add_div]
    rw [nlastBlock_nasCMACUpdates hbl (Nat.zero_le _) hc]
    exact (congrArg _ hsplit).trans (held_add_mul (by omega) (show _ ≤ bl * 8 by omega) _)
  have hshows := shows_nasCMACUpdates hj (shows_nasCMACInit hj []) (fun i hi => hdata i (by omega)) hc
  have hshows' := shows_nasCMACUpdate hj hshows (fun i _ => (Nat.eq_zero_or_pos i).elim
    (fun hi => .inr ⟨hi, by omega, by omega⟩) fun hi => .inl (hdata _ (by omega))) hc'
  have hdshows := shows_nasCMACUpdates hj hshows' (fun i hi => hdata _ (by
    rcases hpost with rfl | hn8
    · cases hi
    · omega)) hd
  refine hwhole ?_
  rw [← Except.ok.inj hfinal, hdshows.final_held hj hdlast, UInt8.xor_zero]

theorem blockParts_of_nasCMAC {bl : Nat} (hbl : 0 < bl) (hwhole : ∀ n ∈ lens.dropLast, n % 8 = 0)
    (h : ∀ data, nasCMAC (identityCipher bl) [] data lens = nasCMAC (identityCipher bl) [] data [lens.sum]) :
    BlockParts bl lens := by
  rintro l l' rfl hne
  obtain ⟨z, n, post, rfl, hz, hn⟩ := exists_part_of_sum_ne_zero hne
  rw [← List.append_assoc] at hwhole h
  have hdvd := dvd_sum_of_nasCMAC hbl (fun m hm => hwhole m ?_) hn ?_ h
  · rwa [List.sum_append, hz] at hdvd
  · rw [List.dropLast_append_cons]
    exact List.mem_append_left _ hm
  · cases post with
    | nil => exact .inl rfl
    | cons m post =>
      refine .inr (hwhole n ?_)
      rw [List.dropLast_append_cons]
      exact List.mem_append_right _ List.mem_cons_self

/-- A message of any length, cut into parts that are whole octets except for the last one: the parts have the tag of
the message for every cipher and key only if every part that is followed by further bits ends with a block. -/
theorem nasCMAC_streaming_iff {bl : Nat} (hbl : 0 < bl) {lens : List Nat}
    (hwhole : ∀ n ∈ lens.dropLast, n % 8 = 0) :
    (∀ (C : BlockCipher) (key : List UInt8) (data : Mem), C.blockSize = bl →
      (∀ k b, b.length = bl → (C.encrypt k b).length = bl) →
      nasCMAC C key data lens = nasCMAC C key data [lens.sum]) ↔ BlockParts bl lens := by
  refine ⟨fun h => blockParts_of_nasCMAC hbl hwhole fun data => h (identityCipher bl) [] data rfl fun _ _ hb => hb, ?_⟩
  rintro h C key data rfl -
  rw [nasCMAC, nasCMAC, nasCMACUpdates_singleton]
  exact final_nasCMACUpdates hbl (.inl rfl) h

/-- A part of one block and one more octet. -/
theorem nasCMAC_streaming_block : BlockParts 16 [128, 8] ∧
    ∀ (C : BlockCipher) (key : List UInt8) (data : Mem), C.blockSize = 16 →
      (∀ k b, b.length = 16 → (C.encrypt k b).length = 16) →
      nasCMAC C key data [128, 8] = nasCMAC C key data [136] := by
  have hparts : BlockParts 16 [128, 8] := by
    rintro l l' h hne
    rcases l with _ | ⟨a, _ | ⟨b, l⟩⟩
    · exact dvd_zero _
    · obtain ⟨rfl, -⟩ := List.cons.inj h
      exact dvd_rfl
    · obtain ⟨-, h⟩ := List.cons.inj h
      obtain ⟨-, h⟩ := List.cons.inj h
      obtain ⟨-, rfl⟩ := List.append_eq_nil_iff.mp h.symm
      exact absurd rfl hne
  exact ⟨hparts, (nasCMAC_streaming_iff (by decide) (by decide)).mpr hparts⟩

/-- Two parts of one octet: the second one is written at octet 8 of the block, and the octet in its place is not part
of the message. -/
theorem not_nasCMAC_streaming : ¬ ∀ (C : BlockCipher) (key : List UInt8) (data : Mem), C.blockSize = 16 →
    (∀ k b, b.length = 16 → (C.encrypt k b).length = 16) →
    nasCMAC C key data [8, 8] = nasCMAC C key data [16] := by
  intro h
  have heq := congrArg Except.toOption (h (identityCipher 16) [] (Mem.ofList [0, 0x80]) rfl fun _ _ hb => hb)
  revert heq
  decide +kernel

end AaltoMME.NAS
