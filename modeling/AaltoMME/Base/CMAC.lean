import AaltoMME.Base.BitString

/-!
# CMAC

The block cipher mode CMAC of NIST SP 800-38B over strings of bits, for any block cipher `ciph` on blocks
of `b` bits and any constant `r` of the field the subkeys are doubled in.
-/

namespace Base.CMAC

/-- Doubling in the field of `2 ^ b` elements: a shift to the left, and `r` if a bit was shifted out. -/
def double (r l : List Bool) : List Bool :=
  let shifted := l.tail ++ [false]
  if l.headD false then xorBits shifted r else shifted

section

variable (ciph : List Bool → List Bool) (b : Nat) (r : List Bool)

/-- The subkey for a last block that is complete. -/
def k1 : List Bool := double r (ciph (List.replicate b false))

/-- The subkey for a last block that is padded. -/
def k2 : List Bool := double r (k1 ciph b r)

/-- The number of blocks of a message, at least one. -/
def numBlocks (len : Nat) : Nat := if len = 0 then 1 else (len + b - 1) / b

/-- The last block: masked with `K1` if it is complete, and otherwise padded by one 1 and 0s and masked
with `K2`. -/
def lastBlock (m : List Bool) : List Bool :=
  if m.length = b then xorBits (k1 ciph b r) m
  else xorBits (k2 ciph b r) (m ++ true :: List.replicate (b - m.length - 1) false)

/-- CBC from the chaining value `c` on, over all blocks but the last, and then over the last one. -/
def chain (c msg : List Bool) : List Bool :=
  let n := numBlocks b msg.length
  let c := ((List.range (n - 1)).map fun i => (msg.drop (i * b)).take b).foldl
    (fun c m => ciph (xorBits c m)) c
  ciph (xorBits c (lastBlock ciph b r (msg.drop ((n - 1) * b))))

/-- The tag of a message; a shorter one is a string of its first bits. -/
def cmac (msg : List Bool) : List Bool := chain ciph b r (List.replicate b false) msg

end

variable {ciph : List Bool → List Bool} {b : Nat} {r c msg : List Bool}

theorem numBlocks_of_le (hb : 0 < b) {len : Nat} (h : len ≤ b) : numBlocks b len = 1 := by
  unfold numBlocks
  split
  · rfl
  · rw [Nat.div_eq_iff hb]
    omega

theorem numBlocks_of_lt (hb : 0 < b) {len : Nat} (h : b < len) :
    numBlocks b len = numBlocks b (len - b) + 1 := by
  have hlen : len + b - 1 = (len - b + b - 1) + b := by omega
  rw [numBlocks, numBlocks, if_neg (by omega), if_neg (by omega), hlen, Nat.add_div_right _ hb]

/-- A message of one block. -/
theorem chain_of_length_le (hb : 0 < b) (h : msg.length ≤ b) :
    chain ciph b r c msg = ciph (xorBits c (lastBlock ciph b r msg)) := by
  simp [chain, numBlocks_of_le hb h]

/-- A longer message: the first block is absorbed into the chaining value. -/
theorem chain_of_lt_length (hb : 0 < b) (h : b < msg.length) :
    chain ciph b r c msg = chain ciph b r (ciph (xorBits c (msg.take b))) (msg.drop b) := by
  obtain ⟨n, hn⟩ : ∃ n, numBlocks b (msg.length - b) = n + 1 := by
    refine Nat.exists_eq_succ_of_ne_zero ?_
    unfold numBlocks
    split
    · exact Nat.one_ne_zero
    · exact (Nat.div_pos (by omega) hb).ne'
  have hsucc : ∀ i, (i + 1) * b = b + i * b := fun i => by rw [Nat.succ_mul, Nat.add_comm]
  simp only [chain, List.length_drop, numBlocks_of_lt hb h, hn, Nat.add_sub_cancel, List.range_succ_eq_map,
    List.map_cons, List.map_map, List.foldl_cons, Nat.zero_mul, List.drop_drop, hsucc]
  congr 4
  funext i
  simp only [Function.comp_apply, hsucc]

end Base.CMAC
