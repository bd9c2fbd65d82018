import AaltoMME.Platform

/-!
# NAS security algorithms

The integrity algorithms EIA0 and EIA2, the ciphering algorithm EEA0 and the key derivation
function of the NAS library.  EIA2 is AES-128 in CMAC mode over a message whose length is given
in bits; the CMAC code keeps the last, possibly partial, block in a buffer of 32 octets and counts
its length in bits.
-/

namespace AaltoMME.NAS

open Base

variable (P : Prims)

/-- `NAS_EIA`. -/
inductive NASEIA
  | eia0 | eia1 | eia2 | eia3 | eia4 | eia5 | eia6 | eia7
  deriving DecidableEq, Repr

/-- `NAS_EEA`. -/
inductive NASEEA
  | eea0 | eea1 | eea2 | eea3 | eea4 | eea5 | eea6 | eea7
  deriving DecidableEq, Repr

/-- `NAS_Direction`. -/
inductive NASDirection
  | upLink | downLink
  deriving DecidableEq, Repr

/-- The value of the enumerator, which is also the algorithm identity of the key derivation. -/
def NASEIA.octet : NASEIA → UInt8
  | .eia0 => 0 | .eia1 => 1 | .eia2 => 2 | .eia3 => 3
  | .eia4 => 4 | .eia5 => 5 | .eia6 => 6 | .eia7 => 7

/-- The value of the enumerator, which is also the algorithm identity of the key derivation. -/
def NASEEA.octet : NASEEA → UInt8
  | .eea0 => 0 | .eea1 => 1 | .eea2 => 2 | .eea3 => 3
  | .eea4 => 4 | .eea5 => 5 | .eea6 => 6 | .eea7 => 7

def NASDirection.octet : NASDirection → UInt8
  | .upLink => 0
  | .downLink => 1

/-- `htonl` followed by a copy of the four octets. -/
def octets32 (n : UInt32) : List UInt8 :=
  [(n >>> 24).toUInt8, (n >>> 16).toUInt8, (n >>> 8).toUInt8, n.toUInt8]

theorem octets32_injective : Function.Injective octets32 := by
  intro m n h
  have hoctet : ∀ {a b : UInt8}, a = b → a.toNat = b.toNat := (congrArg UInt8.toNat)
  simp only [octets32, List.cons.injEq, and_true] at h
  have h₁ := hoctet h.1
  have h₂ := hoctet h.2.1
  have h₃ := hoctet h.2.2.1
  have h₄ := hoctet h.2.2.2
  simp only [UInt32.toNat_toUInt8, UInt32.toNat_shiftRight, UInt32.reduceToNat, Nat.shiftRight_eq_div_pow, Nat.reduceMod,
    Nat.reducePow] at h₁ h₂ h₃ h₄
  have hm := m.toNat_lt
  have hn := n.toNat_lt
  refine UInt32.toNat_inj.mp ?_
  omega

/-! ## CMAC -/

/-- `EVP_MAX_BLOCK_LENGTH`, the size of the buffer for the last block. -/
def evpMaxBlockLength : Nat := 32

/-- `make_kn`: shift left by one bit, and fix up with the constant of the field when the most significant bit was
set. -/
def makeKn (bl : Nat) (l : List UInt8) : List UInt8 :=
  let carry := l.getD 0 0 >>> 7
  (List.range bl).map fun i =>
    if i < bl - 1 then (l.getD i 0 <<< 1) ||| (l.getD (i + 1) 0 >>> 7)
    else (l.getD i 0 <<< 1) ^^^ (if carry = 1 then if bl = 16 then 0x87 else 0x1b else 0)

/-- `NAS_CMAC_CTX` after `NAS_CMAC_Init`; `iv` is the chaining value held by the cipher context
and `nlastBlock` counts bits. -/
structure CMACCtx where
  key : List UInt8
  iv : List UInt8
  k1 : List UInt8
  k2 : List UInt8
  lastBlock : Mem
  nlastBlock : Nat

/-- Bitwise exclusive or of two blocks. -/
def xorBlock (a b : List UInt8) : List UInt8 := List.zipWith (· ^^^ ·) a b

section CMAC

variable (C : BlockCipher)

/-- `EVP_Cipher` on one block in CBC mode: the output is also the next chaining value. -/
def evpCipher (ctx : CMACCtx) (block : List UInt8) : CMACCtx :=
  { ctx with iv := C.encrypt ctx.key (xorBlock block ctx.iv) }

/-- `NAS_CMAC_Init`. -/
def nasCMACInit (key : List UInt8) : CMACCtx :=
  let zeroIv := List.replicate C.blockSize 0
  let k1 := makeKn C.blockSize (C.encrypt key (xorBlock zeroIv zeroIv))
  { key, iv := zeroIv, k1, k2 := makeKn C.blockSize k1, lastBlock := Mem.zero, nlastBlock := 0 }

/-- The number of octets that hold `n` bits. -/
def bitOctets (n : Nat) : Nat := n / 8 + if n % 8 = 0 then 0 else 1

/-- The `while (dlen > bl*8)` loop of `NAS_CMAC_Update`; `fuel` bounds its iterations. -/
def cmacBlocks : Nat → CMACCtx → Mem → Nat → CMACCtx × Mem × Nat
  | 0, ctx, data, dlen => (ctx, data, dlen)
  | fuel + 1, ctx, data, dlen =>
    if dlen > C.blockSize * 8 then
      cmacBlocks fuel (evpCipher C ctx (data.read 0 C.blockSize)) (data.shift C.blockSize) (dlen - C.blockSize * 8)
    else (ctx, data, dlen)

/-- The part of `NAS_CMAC_Update` after a partial block was filled up. -/
def cmacAbsorb (ctx : CMACCtx) (data : Mem) (dlen : Nat) : CMACCtx :=
  let (ctx, data, dlen) := cmacBlocks C dlen ctx data dlen
  { ctx with lastBlock := ctx.lastBlock.copy data 0 (bitOctets dlen), nlastBlock := dlen }

/-- `NAS_CMAC_Update`, with the length in bits.  A partial block is appended at the octet offset
`nlast_block`, which counts bits. -/
def nasCMACUpdate (ctx : CMACCtx) (data : Mem) (dlen : Nat) : Outcome CMACCtx :=
  if dlen = 0 then .ok ctx
  else if ctx.nlastBlock > 0 then
    let nleft := min dlen (C.blockSize * 8 - ctx.nlastBlock)
    if nleft > 0 ∧ ctx.nlastBlock + bitOctets nleft > evpMaxBlockLength then .error .overflow
    else
      let ctx := { ctx with
        lastBlock := ctx.lastBlock.copy data ctx.nlastBlock (bitOctets nleft)
        nlastBlock := ctx.nlastBlock + nleft }
      if dlen - nleft = 0 then .ok ctx
      else
        .ok (cmacAbsorb C (evpCipher C ctx (ctx.lastBlock.read 0 C.blockSize))
          (data.shift (nleft / 8)) (dlen - nleft))
  else .ok (cmacAbsorb C ctx data dlen)

/-- `NAS_CMAC_Final`: pad the last block, mask it with `k1` or `k2` and encipher it. -/
def nasCMACFinal (ctx : CMACCtx) : List UInt8 :=
  let lb := ctx.nlastBlock
  let lastbyte := lb / 8
  if lb = C.blockSize * 8 then
    (evpCipher C ctx (xorBlock (ctx.lastBlock.read 0 C.blockSize) ctx.k1)).iv
  else
    let bit := UInt8.ofNat (7 - lb % 8)
    let last : UInt8 :=
      if lb % 8 = 0 then 0x80
      else (ctx.lastBlock lastbyte ||| (1 <<< bit)) &&& (0xFF <<< bit)
    let block := ctx.lastBlock.read 0 lastbyte ++ last :: List.replicate (C.blockSize - lastbyte - 1) 0
    (evpCipher C ctx (xorBlock block ctx.k2)).iv

variable {C} {ctx : CMACCtx} {data : Mem} {n : Nat}

theorem cmacBlocks_of_le (h : n ≤ C.blockSize * 8) (fuel : Nat) : cmacBlocks C fuel ctx data n = (ctx, data, n) := by
  cases fuel with
  | zero => rfl
  | succ fuel => rw [cmacBlocks, if_neg (by omega)]

/-- The loop ends before its bound. -/
theorem cmacBlocks_fuel (hbl : 0 < C.blockSize) {fuel fuel' : Nat} (h : n ≤ fuel) (h' : n ≤ fuel') :
    cmacBlocks C fuel ctx data n = cmacBlocks C fuel' ctx data n := by
  induction fuel generalizing fuel' ctx data n with
  | zero => rw [cmacBlocks_of_le (by omega), cmacBlocks_of_le (by omega)]
  | succ fuel ih =>
    by_cases hlt : n > C.blockSize * 8
    · obtain ⟨fuel', rfl⟩ := Nat.exists_eq_succ_of_ne_zero (n := fuel') (by omega)
      rw [cmacBlocks, cmacBlocks, if_pos hlt, if_pos hlt]
      exact ih (by omega) (by omega)
    · rw [cmacBlocks_of_le (by omega), cmacBlocks_of_le (by omega)]

theorem cmacAbsorb_of_le (h : n ≤ C.blockSize * 8) : cmacAbsorb C ctx data n =
    { ctx with lastBlock := ctx.lastBlock.copy data 0 (bitOctets n), nlastBlock := n } := by
  rw [cmacAbsorb, cmacBlocks_of_le h]

theorem cmacAbsorb_of_lt (hbl : 0 < C.blockSize) (h : C.blockSize * 8 < n) : cmacAbsorb C ctx data n =
    cmacAbsorb C (evpCipher C ctx (data.read 0 C.blockSize)) (data.shift C.blockSize) (n - C.blockSize * 8) := by
  obtain ⟨fuel, rfl⟩ := Nat.exists_eq_succ_of_ne_zero (n := n) (by omega)
  rw [cmacAbsorb, cmacBlocks, if_pos h, cmacBlocks_fuel hbl (by omega) (Nat.le_refl _)]
  rfl

end CMAC

/-! ## EIA, EEA and key derivation -/

/-- `eia0`: an all zero digest. -/
def eia0 : List UInt8 := [0, 0, 0, 0]

/-- `eia2`, with the message length in bits. -/
def eia2 (k count : List UInt8) (bearer direction : UInt8) (msg : Mem) (mLen : Nat) :
    Outcome (List UInt8) := do
  let s := (Mem.ofList (count ++ [(bearer <<< 3) ||| (direction <<< 2)])).copy msg 8
    (bitOctets mLen)
  let ctx ← nasCMACUpdate P.aes (nasCMACInit P.aes k) s (64 + mLen)
  .ok ((nasCMACFinal P.aes ctx).take 4)

/-- `eia_cb[i]` applied to its arguments; the entries other than EIA0 and EIA2 are NULL. -/
def eiaCb (i : NASEIA) (k count : List UInt8) (bearer direction : UInt8) (msg : Mem)
    (mLen : Nat) : Outcome (List UInt8) :=
  match i with
  | .eia0 => .ok eia0
  | .eia2 => eia2 P k count bearer direction msg mLen
  | _ => .error .nullCall

/-- `eea_dec_cb[e]` and `eea_cyph_cb[e]`: EEA0 copies the text, the other entries are NULL. -/
def eeaCb (e : NASEEA) (text : Mem) : Outcome Mem :=
  match e with
  | .eea0 => .ok text
  | _ => .error .nullCall

/-- `kdf`: a 128 bit key, the least significant bits of the HMAC. -/
def kdf (kasme : List UInt8) (distinguisher algId : UInt8) : List UInt8 :=
  let res := P.hmacSha256 kasme [0x15, distinguisher, 0x00, 0x01, algId, 0x00, 0x01]
  res.drop (res.length - 16)

/-- The answers of OpenSSL for the all zero KASME and the keys derived from it, at the inputs that
the concrete runs of this development use. -/
def Prims.zeroKasme : Prims := .ofAnswers
  (List.map (Prod.mk 0x90351763c301c40c9a1a9efcf4fe1d72) [
    (0x0, 0xd5c72d2d12d644f75e895d4d6fb1ef51),
    (0x571cb4b44b5913dd7a222bb5bec7bccd, 0x2dfd7f9aaa2a263629215be8bbfd3c29),
    (0x571cb4b54b5913dd7b222bb5bec7bccd, 0x8643346155a397ce67e39ddeee1c5405),
    (0x400000000075d020105e0e0, 0x870f9300642eec8c4400aaa319c46353),
    (0xd0132775af77ff513e25df96a703df9e, 0x514559c6cef9c5c5a8676413a26e161a),
    (0xab8e5a5b25ac89eebc15f99adc31dee7, 0x196ab455d1cbb4966721d412c6aaa50b),
    (0x200000000020745110bf602f8, 0x518ecbbfd965dca5b5004735dd4d4be7),
    (0x3f127e0a93e8a1364f253200638af72a, 0xc84d2e8ea169a13002fa09e28f4de60c),
    (0x200000000020745190bf602f8, 0xb80c3217746d995a9ad038d982e51d9e),
    (0xd69087a23ee0e4c960f54dec3c22a153, 0xb1d7853e005ca8274b5350b71e182ffe),
    (0x571cb4b64b5913dd782777e5af47bccd, 0xd391096cead89aecfb37857b46c6e8e0),
    (0x571cb4b64b5913dd782734e5af47bccd, 0x7590449a7735961a5ce135992ed6324f),
    (0x1040000000107420149060002, 0x842219366ac78ade65d3dc5b4900c7d6),
    (0x7c1b19376ad7d8dfa4d2d55f4a69a9a2, 0x3402767377438e2fda94430f7f253913),
    (0x31037c737744de242c96bb36ff243812, 0x4434fe1f7676701593cdc59fa4f17753),
    (0xc746042b3d2f63c8e9e8b0aa1a36cb9e, 0x1ce8b07040b1f45e2774374f158d30ad),
    (0x571cb4b44b5913dd7a223635be47bccd, 0xf6d468c5fbc98dcc6bb072a7b77f8d46),
    (0x571cb4b54b5913ddbd24f535bec7bccd, 0xf6da8688b3a5475989eaa05ef0423c3f),
    (0x571cb5b44b5913dd7a223635be47bccd, 0x934fe101b080f68b5795e441189fbf1f),
    (0x571cb4944b5913ddbd25f535bec7bccd, 0x59f420c5dce9b3101f20ea607fe8b806)])
  (List.map (Prod.mk 0) [
    (0x15020001020001, 0xff9a7da924e41c879376945e7cbaa7bd90351763c301c40c9a1a9efcf4fe1d72),
    (0x15010001000001, 0x95c817ebf0ecb2be90080bcf636256e5507bcb71f76b271694d6527466a4b3b9),
    (0x11000000000004, 0x6444f8ced617f9bc4ae964abf4d558f657c813f089f2e590e7708e007ca4f6b3),
    (0x11000000010004, 0x450ab01e92eb6268359ffb6fab5a36a32d03f2450456efa9ec68fb9b972c409e)])
  fun n => n.toUInt32

/-- EIA2 starts from an empty context, so the partial block branch of the CMAC is never taken and
every call returns a digest. -/
theorem eia2_eq_ok (k count : List UInt8) (bearer direction : UInt8) (msg : Mem) (mLen : Nat) :
    ∃ mac, eia2 P k count bearer direction msg mLen = .ok mac := by
  simp [eia2, nasCMACUpdate, nasCMACInit]

variable {P}

theorem length_of_eiaCb (hP : P.BlockSized) {i : NASEIA} {k count : List UInt8} {bearer d : UInt8}
    {msg : Mem} {mLen : Nat} {mac : List UInt8} (h : eiaCb P i k count bearer d msg mLen = .ok mac) :
    mac.length = 4 := by
  unfold eiaCb at h
  split at h
  · cases h
    rfl
  · obtain ⟨ctx, -, h⟩ := bind_eq_ok.mp h
    cases h
    have hlen : (nasCMACFinal P.aes ctx).length = 16 := by
      unfold nasCMACFinal
      dsimp only
      split <;> exact hP _ _
    rw [List.length_take, hlen]
    rfl
  · cases h

end AaltoMME.NAS
