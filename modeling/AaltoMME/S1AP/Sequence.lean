import AaltoMME.S1AP.Decoders

/-!
# SEQUENCE types with OPTIONAL components

The encoders and decoders of `S1AP_IEenc.c` and `S1AP_IEdec.c` for a SEQUENCE have one shape: the
extension bit, the presence bits, and then the components in order, each of them under a test of the field
`opt`.  The two sides choose the number of presence bits and the tests on their own.  An encoder and a
decoder are therefore two separate pieces of data here, and running them takes the codecs of the components
as parameters.

A decoder reads what an encoder wrote when the octet that it gets for `opt` makes its tests pick the
components that the tests of the encoder picked.
-/

namespace AaltoMME.S1AP

open Base PER

variable {κ α : Type}

/-! ## Encoders and decoders -/

/-- A test of the field `opt`. -/
inductive OptTest
  /-- The component is mandatory. -/
  | always
  /-- `opt != 0` -/
  | nonzero
  /-- `opt == 1` -/
  | one
  /-- `(opt & m) == m` -/
  | mask (m : UInt8)
  deriving DecidableEq, Repr

/-- The result of the test. -/
def OptTest.holds : OptTest → UInt8 → Bool
  | .always, _ => true
  | .nonzero, opt => opt != 0
  | .one, opt => opt == 1
  | .mask m, opt => opt &&& m == m

/-- The bit of `opt` that the test is about. -/
def OptTest.bit : OptTest → UInt8
  | .always => 0
  | .nonzero => 1
  | .one => 1
  | .mask m => m

/-- A component in an encoder.  Some are only reported and not written. -/
structure EncField (κ : Type) where
  name : κ
  test : OptTest
  writes : Bool
  deriving DecidableEq, Repr

/-- What a decoder does with a component that it finds. -/
inductive DecAct
  | reads
  /-- It is only reported. -/
  | logs
  /-- It is read and handed to `iEext->addIe`, but `iEext` is NULL in a new structure. -/
  | adds
  deriving DecidableEq, Repr

/-- A component in a decoder. -/
structure DecField (κ : Type) where
  name : κ
  test : OptTest
  act : DecAct
  deriving DecidableEq, Repr

/-- How a decoder reads `opt`. -/
inductive OptRead
  /-- `getbit(bytes, &opt)` -/
  | bit
  /-- `getbits(&tmp, bytes, n)` and `opt = tmp.data[0] & m`. -/
  | bits (n : Nat) (m : UInt8)
  deriving DecidableEq, Repr

/-- The number of bits that are read. -/
def OptRead.width : OptRead → Nat
  | .bit => 1
  | .bits n _ => n

/-- An encoder: `setbits(bytes, width, opt >> shift)` and the components. -/
structure SeqEncoder (κ : Type) where
  width : Nat
  shift : Nat
  fields : List (EncField κ)
  deriving DecidableEq, Repr

/-- A decoder. -/
structure SeqDecoder (κ : Type) where
  read : OptRead
  fields : List (DecField κ)
  deriving DecidableEq, Repr

/-- The components that an encoder takes for present, and whether it writes them. -/
def EncField.chosen (opt : UInt8) (fs : List (EncField κ)) : List (κ × Bool) :=
  (fs.filter (·.test.holds opt)).map fun f => (f.name, f.writes)

/-- The components that a decoder takes for present. -/
def DecField.chosen (opt : UInt8) (fs : List (DecField κ)) : List (κ × DecAct) :=
  (fs.filter (·.test.holds opt)).map fun f => (f.name, f.act)

/-- Write the components that were chosen. -/
def encChosen (enc : κ → BinaryData → BinaryData) (l : List (κ × Bool)) (bytes : BinaryData) : BinaryData :=
  l.foldl (fun bytes c => if c.2 then enc c.1 bytes else bytes) bytes

/-- The encoder with the encoders of its components. -/
def SeqEncoder.run (s : SeqEncoder κ) (enc : κ → BinaryData → BinaryData) (ext : Nat) (opt : UInt8)
    (bytes : BinaryData) : BinaryData :=
  let bytes := setbits bytes 1 ext
  let bytes := setbits bytes s.width (opt.toNat >>> s.shift)
  encChosen enc (EncField.chosen opt s.fields) bytes

/-- Read `opt`. -/
def OptRead.run : OptRead → Decoder UInt8
  | .bit => do return UInt8.ofNat (← getbit)
  | .bits n m => do return (← getbits n).headD 0 &&& m

/-- Read the components that were chosen. -/
def decChosen (dec : κ → Decoder α) : List (κ × DecAct) → Decoder (List (κ × Option α))
  | [] => return []
  | (k, .reads) :: l => do
    let a ← dec k
    let rest ← decChosen dec l
    return (k, some a) :: rest
  | (k, .logs) :: l => do
    let rest ← decChosen dec l
    return (k, none) :: rest
  | (_, .adds) :: _ => throw .nullDeref

/-- The decoder with the decoders of its components: the extension bit, `opt`, and the components that it
found with their values. -/
def SeqDecoder.run (s : SeqDecoder κ) (dec : κ → Decoder α) : Decoder (Nat × UInt8 × List (κ × Option α)) := do
  let ext ← getbit
  let opt ← s.read.run
  let fields ← decChosen dec (DecField.chosen opt s.fields)
  return (ext, opt, fields)

/-! ## What an encoder writes -/

def chosenFormat (format : κ → BitFormat) (l : List (κ × Bool)) : BitFormat :=
  .concat ((l.filter (·.2)).map fun c => format c.1)

def SeqEncoder.format (s : SeqEncoder κ) (format : κ → BitFormat) (ext : Nat) (opt : UInt8) : BitFormat :=
  (BitFormat.raw (natBits 1 ext)).seq ((BitFormat.raw (natBits s.width (opt.toNat >>> s.shift))).seq
    (chosenFormat format (EncField.chosen opt s.fields)))

/-- The components that were written, with their values. -/
def SeqEncoder.written (s : SeqEncoder κ) (value : κ → α) (opt : UInt8) : List (κ × Option α) :=
  (EncField.chosen opt s.fields).map fun c => (c.1, if c.2 then some (value c.1) else none)

theorem encodes_encChosen {enc : κ → BinaryData → BinaryData} {format : κ → BitFormat} {l : List (κ × Bool)}
    (h : ∀ c ∈ l, c.2 = true → Encodes (enc c.1) (format c.1)) :
    Encodes (encChosen enc l) (chosenFormat format l) := by
  induction l with
  | nil => exact Encodes.nil
  | cons c l ih =>
    have hl := ih fun c' hc' => h c' (List.mem_cons_of_mem c hc')
    obtain ⟨k, w⟩ := c
    cases w with
    | false => exact hl
    | true => exact (h (k, true) List.mem_cons_self rfl).seq hl

theorem SeqEncoder.encodes_run {s : SeqEncoder κ} {enc : κ → BinaryData → BinaryData}
    {format : κ → BitFormat} {opt : UInt8} (hpos : 0 < s.width) (hle : s.width ≤ 8) (ext : Nat)
    (h : ∀ c ∈ EncField.chosen opt s.fields, c.2 = true → Encodes (enc c.1) (format c.1)) :
    Encodes (s.run enc ext opt) (s.format format ext opt) :=
  (encodes_setbits ext (by omega) (by omega) (by omega)).seq
    ((encodes_setbits _ hpos (by omega) (.inl hle)).seq (encodes_encChosen h))

/-! ## What a decoder reads -/

/-- The decoder makes of each component that was written what it should. -/
def DecAct.ofWrites (w : Bool) : DecAct := if w then .reads else .logs

theorem decodes_decChosen {dec : κ → Decoder α} {value : κ → α} {format : κ → BitFormat}
    {l : List (κ × Bool)} (h : ∀ c ∈ l, c.2 = true → Decodes (dec c.1) (value c.1) (format c.1)) :
    Decodes (decChosen dec (l.map fun c => (c.1, DecAct.ofWrites c.2)))
      (l.map fun c => (c.1, if c.2 then some (value c.1) else none)) (chosenFormat format l) := by
  induction l with
  | nil => exact Decodes.pure []
  | cons c l ih =>
    have hl := ih fun c' hc' => h c' (List.mem_cons_of_mem c hc')
    obtain ⟨k, w⟩ := c
    cases w with
    | false => exact hl.map fun rest => (k, none) :: rest
    | true => exact (h (k, true) List.mem_cons_self rfl).bind (hl.map fun rest => (k, some (value k)) :: rest)

/-- What a decoder can get for `opt` where the memory holds `m` at the position `p`.  After the bits that
`getbits` was asked for, the octet can hold further bits of the source. -/
def OptRead.Reads : OptRead → Mem → Nat → UInt8 → Prop
  | .bit, m, p, opt => opt = UInt8.ofNat (m.bit p).toNat
  | .bits n mask, m, p, opt => ∃ x : UInt8, opt = x &&& mask ∧ (octetBits x).take n = m.bits p n ∧
      ∀ i < 8, x.toNat.testBit (7 - i) = true → m.bit (p + i) = true ∧ (p % 8 + n ≤ 8 → p % 8 + i < 8)

theorem testBit_shiftOctet {pos i : Nat} (hi : i < 8) (m : Mem) (k : Nat) :
    (UInt8.ofNat ((m k).toNat <<< pos)).toNat.testBit (7 - i) = (decide (pos + i < 8) && m.bit (8 * k + pos + i)) := by
  have hlt : 7 - i < 8 := by omega
  rw [testBit_ofNat, Mem.bit]
  by_cases hin : pos + i < 8
  · have hle : pos ≤ 7 - i := by omega
    have hdiv : (8 * k + pos + i) / 8 = k := by omega
    have hidx : 7 - (8 * k + pos + i) % 8 = 7 - i - pos := by omega
    simp [hlt, hin, hle, hdiv, hidx]
  · have hle : ¬ pos ≤ 7 - i := by omega
    simp [hin, hle]

theorem getbits_octet {d : BinaryData} (hpos : d.pos < 8) {n : Nat} (hn : 0 < n) (hlt : n < 8) :
    ∃ x d', getbits n d = .ok ([x], d') ∧ (octetBits x).take n = d.mem.bits d.decPos n ∧ d.Advances d' n ∧
      ∀ i < 8, x.toNat.testBit (7 - i) = true →
        d.mem.bit (d.decPos + i) = true ∧ (d.pos + n ≤ 8 → d.pos + i < 8) := by
  obtain ⟨l, d', hget, hlen, hbits, hadv⟩ := getbits_eq (n := n) hpos hn (.inl (by omega))
  have hone : octetsFor n = 1 := by
    have hle := le_octetsFor n
    have hlt' := octetsFor_lt n
    omega
  obtain ⟨x, rfl⟩ := List.length_eq_one_iff.mp (hlen.trans hone)
  refine ⟨x, d', hget, by simpa using hbits, hadv, fun i hi hx => ?_⟩
  have hnot : ¬ (n % 8 = 0 ∧ d.pos = 0) := by omega
  simp only [getbits, if_neg hnot] at hget
  have hget := congrArg Prod.fst (Except.ok.inj hget)
  by_cases hfit : d.pos + n ≤ 8
  · have hget : [UInt8.ofNat ((d.mem d.data).toNat <<< d.pos)] = [x] := (if_pos hfit).symm.trans hget
    rw [← List.singleton_inj.mp hget, testBit_shiftOctet hi, Bool.and_eq_true] at hx
    exact ⟨hx.2, fun _ => of_decide_eq_true hx.1⟩
  · have hget : [joinOctets d.pos (d.mem d.data) (d.mem (d.data + 1))] = [x] := by
      have hhead := (if_neg hfit).symm.trans hget
      rw [hone] at hhead
      have hsmall : (0 + 1) * 8 ≤ n ∨ n < 8 := .inr hlt
      simpa only [List.range_one, List.map_singleton, if_pos hsmall, Mem.shift_apply, Nat.add_zero]
        using hhead
    rw [← List.singleton_inj.mp hget, testBit_joinOctets hpos hi] at hx
    exact ⟨hx, fun h => absurd h hfit⟩

theorem OptRead.run_eq {r : OptRead} {d : BinaryData} (hpos : d.pos < 8) (hr : 0 < r.width) (hlt : r.width < 8)
    (hc : d.Covers (d.decPos + r.width)) :
    ∃ opt d', r.run d = .ok (opt, d') ∧ r.Reads d.mem d.decPos opt ∧ d.Advances d' r.width := by
  cases r with
  | bit =>
    have hv : (d.mem.bit d.decPos).toNat < 2 := Bool.toNat_lt _
    have hat : (BitFormat.raw (natBits 1 (d.mem.bit d.decPos).toNat)).At d.mem d.decPos := by
      show d.mem.bits d.decPos 1 = natBits 1 _
      cases hbit : d.mem.bit d.decPos <;> simp [Mem.bits, natBits, hbit]
    obtain ⟨d', hget, hadv⟩ := decodes_getbit hv d hpos hat hc
    have hrun : OptRead.bit.run d = getbit d >>= fun x => .ok (UInt8.ofNat x.1, x.2) := rfl
    exact ⟨_, d', by rw [hrun, hget]; rfl, rfl, hadv⟩
  | bits n mask =>
    obtain ⟨x, d', hget, hbits, hadv, hjunk⟩ := getbits_octet (n := n) hpos hr hlt
    have hmod : d.decPos % 8 = d.pos := by
      rw [BinaryData.decPos]
      omega
    refine ⟨x &&& mask, d', ?_, ⟨x, rfl, hbits, ?_⟩, hadv⟩
    · show getbits n d >>= _ = _
      rw [hget]
      rfl
    · rw [hmod]
      exact hjunk

theorem OptRead.Reads.eq_of_bit {m : Mem} {p v : Nat} {opt : UInt8} (h : OptRead.bit.Reads m p opt)
    (hat : (BitFormat.raw (natBits 1 v)).At m p) : opt = UInt8.ofNat (v % 2) := by
  have hat : m.bits p 1 = natBits 1 v := hat
  have hbit : m.bit p = v.testBit 0 := by simpa [Mem.bits, natBits] using hat
  have hval : (v.testBit 0).toNat = v % 2 := by
    rcases Nat.mod_two_eq_zero_or_one v with h | h <;> simp [h]
  rw [← hval, ← hbit]
  exact h

/-- The first `n` bits of an octet. -/
def topBits (n : Nat) : UInt8 := UInt8.ofNat (0xFF <<< (8 - n))

theorem and_topBits_eq {x y : UInt8} {n : Nat} (h : x.toNat >>> (8 - n) = y.toNat >>> (8 - n)) :
    x &&& topBits n = y &&& topBits n := by
  refine UInt8.toNat_inj.mp (Nat.eq_of_testBit_eq fun i => ?_)
  rw [UInt8.toNat_and, UInt8.toNat_and, Nat.testBit_and, Nat.testBit_and, topBits, testBit_ofNat]
  by_cases hi : 8 - n ≤ i
  · have hbit := congrArg (Nat.testBit · (i - (8 - n))) h
    simp only [Nat.testBit_shiftRight, Nat.add_sub_cancel' hi] at hbit
    rw [hbit]
  · simp [hi]

/-- The test depends only on the first `n` bits. -/
def OptTest.within (n : Nat) : OptTest → Bool
  | .always => true
  | .nonzero => false
  | .one => false
  | .mask m => topBits n &&& m == m

theorem OptTest.holds_congr {t : OptTest} {n : Nat} {x y : UInt8} (ht : t.within n = true)
    (h : x &&& topBits n = y &&& topBits n) : t.holds x = t.holds y := by
  cases t with
  | always => rfl
  | nonzero => exact absurd ht Bool.false_ne_true
  | one => exact absurd ht Bool.false_ne_true
  | mask m =>
    have hm := eq_of_beq ht
    have hxy : x &&& m = y &&& m := by rw [← hm, ← UInt8.and_assoc, ← UInt8.and_assoc, h]
    rw [OptTest.holds, OptTest.holds, hxy]

theorem DecField.chosen_congr {fs : List (DecField κ)} {x y : UInt8}
    (h : ∀ f ∈ fs, f.test.holds x = f.test.holds y) : chosen x fs = chosen y fs := by
  rw [chosen, chosen, List.filter_congr h]

theorem OptRead.Reads.and_topBits {n p : Nat} {mask opt opt' : UInt8} {m : Mem} (hn : n ≤ 8)
    (hmask : mask &&& topBits n = topBits n)
    (hat : (BitFormat.raw (natBits n (opt.toNat >>> (8 - n)))).At m p) (h : (OptRead.bits n mask).Reads m p opt') :
    opt' &&& topBits n = opt &&& topBits n := by
  obtain ⟨x, rfl, htake, -⟩ := h
  have hat : m.bits p (natBits n (opt.toNat >>> (8 - n))).length = natBits n (opt.toNat >>> (8 - n)) := hat
  rw [length_natBits] at hat
  have hlt : opt.toNat >>> (8 - n) < 2 ^ n := by
    rw [Nat.shiftRight_eq_div_pow, Nat.div_lt_iff_lt_mul (Nat.two_pow_pos _), ← Nat.pow_add,
      Nat.add_sub_cancel' hn]
    exact opt.toNat_lt
  rw [UInt8.and_assoc, hmask, and_topBits_eq (shiftRight_eq_of_take hlt (htake.trans hat))]

/-- A decoder whose tests depend only on the presence bits makes the same choice for every octet that
starts with them. -/
theorem DecField.chosen_of_reads {fs : List (DecField κ)} {n p : Nat} {mask opt opt' : UInt8} {m : Mem}
    (hn : n ≤ 8) (hmask : mask &&& topBits n = topBits n) (hfs : ∀ f ∈ fs, f.test.within n = true)
    (hat : (BitFormat.raw (natBits n (opt.toNat >>> (8 - n)))).At m p)
    (h : (OptRead.bits n mask).Reads m p opt') : chosen opt' fs = chosen opt fs := by
  have hsame := h.and_topBits hn hmask hat
  exact chosen_congr fun f hf => OptTest.holds_congr (hfs f hf) hsame

/-- A decoder reads what an encoder wrote when whatever it can get for `opt` makes it choose the components
that the encoder chose. -/
theorem SeqDecoder.run_eq {s : SeqEncoder κ} {r : SeqDecoder κ} {dec : κ → Decoder α} {v : κ → α}
    {format : κ → BitFormat} {ext : Nat} {opt : UInt8} {d : BinaryData} (hext : ext < 2) (hpos : 0 < s.width)
    (hlt : s.width < 8) (hwidth : s.width = r.read.width)
    (hdec : ∀ c ∈ EncField.chosen opt s.fields, c.2 = true → Decodes (dec c.1) (v c.1) (format c.1))
    (hopt : ∀ opt', r.read.Reads d.mem (d.decPos + 1) opt' → DecField.chosen opt' r.fields =
      (EncField.chosen opt s.fields).map fun c => (c.1, DecAct.ofWrites c.2))
    (hd : d.pos < 8) (hat : (s.format format ext opt).At d.mem d.decPos)
    (hc : d.Covers ((s.format format ext opt).stop d.decPos)) :
    ∃ opt' d', r.run dec d = .ok ((ext, opt', s.written v opt), d') ∧
      r.read.Reads d.mem (d.decPos + 1) opt' ∧ d.Advances d' (s.format format ext opt d.decPos).length := by
  have hstop : (s.format format ext opt).stop d.decPos =
      (chosenFormat format (EncField.chosen opt s.fields)).stop (d.decPos + 1 + s.width) := by
    simp [SeqEncoder.format]
  have hle := BitFormat.le_stop (chosenFormat format (EncField.chosen opt s.fields)) (d.decPos + 1 + s.width)
  have hlen : (s.format format ext opt d.decPos).length = 1 + (s.width +
      (chosenFormat format (EncField.chosen opt s.fields) (d.decPos + 1 + s.width)).length) := by
    simp [SeqEncoder.format, BitFormat.seq, BitFormat.raw]
  obtain ⟨hbit, hrest⟩ := BitFormat.at_seq.mp hat
  obtain ⟨-, hfields⟩ := BitFormat.at_seq.mp hrest
  simp only [BitFormat.stop_raw, length_natBits] at hfields
  rw [hstop] at hc
  -- the extension bit
  obtain ⟨d₁, h₁, hadv₁⟩ := decodes_getbit hext d hd hbit (hc.mono (by simp; omega))
  have hadv₁ : d.Advances d₁ 1 := by simpa [BitFormat.raw] using hadv₁
  have hdec₁ := hadv₁.decPos_eq
  have hc₁ := hadv₁.covers _ (by omega) hc
  -- `opt`
  obtain ⟨opt', d₂, h₂, hreads, hadv₂⟩ := OptRead.run_eq (r := r.read) hadv₁.pos_lt (by omega) (by omega)
    (hc₁.mono (by omega))
  rw [hadv₁.mem_eq, hdec₁] at hreads
  have hdec₂ := hadv₂.decPos_eq
  have hc₂ := hadv₂.covers _ (by omega) hc₁
  -- the components
  have hpieces := decodes_decChosen hdec
  rw [← hopt opt' hreads] at hpieces
  have hat₂ : (chosenFormat format (EncField.chosen opt s.fields)).At d₂.mem d₂.decPos := by
    rw [hadv₂.mem_eq, hadv₁.mem_eq, hdec₂, hdec₁, ← hwidth]
    exact hfields
  obtain ⟨d₃, h₃, hadv₃⟩ := hpieces d₂ hadv₂.pos_lt hat₂ (by rw [hdec₂, hdec₁, ← hwidth]; exact hc₂)
  refine ⟨opt', d₃, ?_, hreads, ?_⟩
  · have hrun : r.run dec d = getbit d >>= fun x => r.read.run x.2 >>= fun y =>
        decChosen dec (DecField.chosen y.1 r.fields) y.2 >>= fun z => .ok ((x.1, y.1, z.1), z.2) := rfl
    rw [hrun, h₁, ok_bind, h₂, ok_bind, h₃]
    rfl
  · rw [hdec₂, hdec₁, ← hwidth] at hadv₃
    rw [hlen]
    exact hadv₁.trans ((hwidth ▸ hadv₂).trans hadv₃)

/-! ## Where the decoder gets `opt` back -/

/-- The decoder gets the value of `opt` back, given the bits that follow the presence bits. -/
def OptRead.Exact (r : OptRead) (opt : UInt8) (shift : Nat) (f : BitFormat) : Prop :=
  ∀ (m : Mem) (p : Nat) (opt' : UInt8), (BitFormat.raw (natBits r.width (opt.toNat >>> shift))).At m p →
    f.At m (p + r.width) → r.Reads m p opt' → opt' = opt

theorem OptRead.exact_bit {opt : UInt8} (h : opt.toNat < 2) (f : BitFormat) : OptRead.bit.Exact opt 0 f :=
  fun m p opt' hat _ hreads => by
    rw [hreads.eq_of_bit hat, Nat.shiftRight_zero, Nat.mod_eq_of_lt h, UInt8.ofNat_toNat]

theorem OptRead.exact_masked {n : Nat} {opt : UInt8} (hn : n ≤ 8) (hopt : opt &&& topBits n = opt) (f : BitFormat) :
    (OptRead.bits n (topBits n)).Exact opt (8 - n) f := fun m p opt' hat _ hreads => by
  have htop := hreads.and_topBits hn UInt8.and_self hat
  obtain ⟨x, rfl, -⟩ := hreads
  rwa [UInt8.and_assoc, UInt8.and_self, hopt] at htop

theorem OptRead.exact_aligned {n : Nat} {opt : UInt8} (hpos : 0 < n) (hn : n < 8) (hopt : opt &&& topBits n = opt)
    (f : BitFormat) : (OptRead.bits n 0xFF).Exact opt (8 - n) (BitFormat.align.seq f) := fun m p opt' hat hrest hreads => by
  have htop := hreads.and_topBits hn.le (UInt8.and_comm .. ▸ UInt8.and_neg_one) hat
  obtain ⟨x, rfl, -, hjunk⟩ := hreads
  rw [show x &&& 0xFF = x from UInt8.and_neg_one] at htop ⊢
  rw [← hopt, ← htop]
  refine UInt8.toNat_inj.mp (Nat.eq_of_testBit_eq fun k => ?_)
  rw [UInt8.toNat_and, Nat.testBit_and, topBits, testBit_ofNat, Nat.testBit_shiftLeft]
  by_cases hk : x.toNat.testBit k = true
  · have hlt : k < 8 := by
      by_contra hge
      have hpow : 2 ^ 8 ≤ 2 ^ k := Nat.pow_le_pow_right (by omega) (by omega)
      rw [Nat.testBit_lt_two_pow (lt_of_lt_of_le x.toNat_lt hpow)] at hk
      exact Bool.false_ne_true hk
    have hle : 8 - n ≤ k := by
      -- a bit after the presence bits lies in the padding
      by_contra hge
      obtain ⟨hbit, hin⟩ := hjunk (7 - k) (by omega) (by rwa [show 7 - (7 - k) = k by omega])
      have hpad := (BitFormat.at_seq.mp hrest).1.bit_align (i := 7 - k - n) (by rw [OptRead.width]; omega)
      rw [OptRead.width, show p + n + (7 - k - n) = p + (7 - k) by omega, hbit] at hpad
      exact Bool.false_ne_true hpad.symm
    rw [testBit_mask]
    simp [hlt]
    omega
  · rw [Bool.eq_false_iff.mpr hk, Bool.false_and]

/-- A decoder that gets `opt` back reads the value that the encoder wrote. -/
theorem SeqDecoder.decodes_run {s : SeqEncoder κ} {r : SeqDecoder κ} {dec : κ → Decoder α} {v : κ → α}
    {format : κ → BitFormat} {ext : Nat} {opt : UInt8} (hext : ext < 2) (hpos : 0 < s.width) (hlt : s.width < 8)
    (hwidth : s.width = r.read.width)
    (hdec : ∀ c ∈ EncField.chosen opt s.fields, c.2 = true → Decodes (dec c.1) (v c.1) (format c.1))
    (hexact : r.read.Exact opt s.shift (chosenFormat format (EncField.chosen opt s.fields)))
    (hchosen : DecField.chosen opt r.fields =
      (EncField.chosen opt s.fields).map fun c => (c.1, DecAct.ofWrites c.2)) :
    Decodes (r.run dec) (ext, opt, s.written v opt) (s.format format ext opt) := fun d hd hat hc => by
  obtain ⟨-, hrest⟩ := BitFormat.at_seq.mp hat
  obtain ⟨hbits, hfields⟩ := BitFormat.at_seq.mp hrest
  simp only [BitFormat.stop_raw, length_natBits] at hbits hfields
  have hopt : ∀ opt', r.read.Reads d.mem (d.decPos + 1) opt' → opt' = opt := fun opt' hreads =>
    hexact d.mem (d.decPos + 1) opt' (hwidth ▸ hbits) (hwidth ▸ hfields) hreads
  obtain ⟨opt', d', hrun, hreads, hadv⟩ := SeqDecoder.run_eq hext hpos hlt hwidth hdec
    (fun opt' hreads => by rw [hopt opt' hreads, hchosen]) hd hat hc
  rw [hopt opt' hreads] at hrun
  exact ⟨d', hrun, hadv⟩

/-! ## Structures -/

/-- Assign the components that were found to the fields of a structure. -/
def assign {σ : Type} (v : σ) (fields : List (κ × Option (σ → σ))) : σ := fields.foldl (fun v f => f.2.elim v (· v)) v

/-- A decoder that assigns the components to the fields of a new structure. -/
def SeqDecoder.build {σ : Type} (r : SeqDecoder κ) (dec : κ → Decoder (σ → σ)) (new : Nat → UInt8 → σ) :
    Decoder σ := do
  let v ← r.run dec
  return assign (new v.1 v.2.1) v.2.2

theorem SeqDecoder.decodes_build {σ : Type} (s : SeqEncoder κ) (r : SeqDecoder κ) {dec : κ → Decoder (σ → σ)}
    {v : κ → σ → σ} {format : κ → BitFormat} {w : σ} (ext : Nat) (opt : UInt8) (new : Nat → UInt8 → σ)
    (hw : assign (new ext opt) (s.written v opt) = w) (hext : ext < 2) (hpos : 0 < s.width) (hlt : s.width < 8)
    (hwidth : s.width = r.read.width)
    (hchosen : DecField.chosen opt r.fields =
      (EncField.chosen opt s.fields).map fun c => (c.1, DecAct.ofWrites c.2))
    (hexact : r.read.Exact opt s.shift (chosenFormat format (EncField.chosen opt s.fields)))
    (hdec : ∀ c ∈ EncField.chosen opt s.fields, c.2 = true → Decodes (dec c.1) (v c.1) (format c.1)) :
    Decodes (r.build dec new) w (s.format format ext opt) := by
  rw [← hw]
  exact (decodes_run hext hpos hlt hwidth hdec hexact hchosen).map fun v => assign (new v.1 v.2.1) v.2.2

end AaltoMME.S1AP
