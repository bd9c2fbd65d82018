import AaltoMME.S1AP.Decoders

/-!
# Constrained numbers

What becomes of a number that is encoded and read back, and which numbers the decoder can return.  Where the octets of
a number are counted, the encoder writes the number itself and the decoder adds the lower bound to what it reads; and
the decoder works with 32 bits.  The check of the bounds in the decoder asks for a value above the upper bound and below
the lower one, so it never reports anything, and a field with more code points than the range has values lets the
others through.
-/

namespace AaltoMME.PER

open Base

/-! ## The size of a number -/

theorem atMost_octetsFormat (l : List UInt8) : (octetsFormat l).AtMost (7 + 8 * l.length) := by
  have hraw := BitFormat.atMost_raw (bitsOfOctets l)
  rw [length_bitsOfOctets] at hraw
  exact BitFormat.atMost_align.seq hraw

theorem length_eintLoop (k val : Nat) : (eintLoop k val).length ≤ k := by
  induction k generalizing val with
  | zero => exact Nat.le_refl 0
  | succ k ih =>
    rw [eintLoop]
    split
    · exact Nat.zero_le _
    · exact Nat.succ_le_succ (ih _)

theorem length_eint (val : Nat) : (eint val).length ≤ 8 := by
  have hloop := length_eintLoop 8 val
  rw [eint]
  split
  · simp
  · rwa [List.length_reverse]

theorem atMost_bitFieldFormat (val lb ub : Nat) : (bitFieldFormat val lb ub).AtMost 8 := by
  have hraw := BitFormat.atMost_raw (natBits (fieldWidth (rangeOf lb ub)) (val2 val lb))
  rw [length_natBits] at hraw
  exact hraw.mono (fieldWidth_le _)

theorem atMost_countedFormat (val ub : Nat) : (countedFormat val ub).AtMost 79 := by
  have hlen := length_eint val
  exact ((atMost_bitFieldFormat _ 1 ub).seq (atMost_octetsFormat (eint val))).mono (by omega)

theorem atMost_numberFormat (val lb ub : Nat) : (numberFormat val lb ub).AtMost 79 := by
  simp only [numberFormat]
  split_ifs
  · exact (atMost_bitFieldFormat val lb ub).mono (by omega)
  · exact (atMost_octetsFormat _).mono (by simp)
  · exact (atMost_octetsFormat _).mono (by simp)
  · exact atMost_countedFormat val 3
  · exact atMost_countedFormat val 4
  · exact atMost_countedFormat val 5
  · exact BitFormat.atMost_nil.mono (by omega)

/-! ## Round trips -/

/-- A number that is encoded at any position of any buffer is read back there, and the decoder stops where the encoder
did. -/
def RoundTrips (lb ub val : Nat) : Prop :=
  ∀ b d : BinaryData, b.Clean → d.pos < 8 → d.mem = (encodeConstrainedNumber b val lb ub).mem → d.decPos = b.encPos →
    d.Covers (encodeConstrainedNumber b val lb ub).encPos →
    ∃ d', decodeConstrainedNumber lb ub d = .ok (val, d') ∧
      d'.decPos = (encodeConstrainedNumber b val lb ub).encPos

/-- The decoder returns 32 bits. -/
theorem post_decodeConstrainedNumber_lt (lb ub : Nat) (d : BinaryData) :
    Post (decodeConstrainedNumber lb ub d) fun r => r.1 < 2 ^ 32 := by
  have hreturn : ∀ {α : Type} (x : Decoder α) (f : α → Nat),
      Post ((x >>= fun a => (pure ((f a + lb) % 2 ^ 32) : Decoder Nat)) d) fun r => r.1 < 2 ^ 32 :=
    fun x f => Post.of_bind fun _ => .ok (Nat.mod_lt _ (by decide))
  simp only [decodeConstrainedNumber]
  split_ifs
  · exact hreturn (getbits _) _
  all_goals exact hreturn _ id

/-- **Round trips of constrained numbers.** For all bounds whose range has at most 40 bits and every number between
them, at every position: the number is read back, from as many bits as were written, if and only if it has 32 bits and
the range has 16 bits or starts at zero. -/
theorem constrainedNumber_roundTrips_iff {lb ub val : Nat} (hlb : lb < 2 ^ 32) (hle : ub - lb + 1 ≤ 2 ^ 40)
    (hval : lb ≤ val) (hub : val ≤ ub) :
    RoundTrips lb ub val ↔ val < 2 ^ 32 ∧ (ub - lb + 1 ≤ 65536 ∨ lb = 0) := by
  constructor
  · intro h
    obtain ⟨b', hb'⟩ : ∃ b', encodeConstrainedNumber .empty val lb ub = b' := ⟨_, rfl⟩
    have happ : BinaryData.empty.Appends b' (numberFormat val lb ub BinaryData.empty.encPos) :=
      hb' ▸ encodes_encodeConstrainedNumber val lb ub _ BinaryData.clean_empty
    have hsize := atMost_numberFormat val lb ub BinaryData.empty.encPos
    have hcovers : (BinaryData.ofBuffer b'.mem 79).Covers b'.encPos := by
      rw [happ.encPos_eq]
      exact hsize
    obtain ⟨d', hd', -⟩ := h .empty (.ofBuffer b'.mem 79) BinaryData.clean_empty (Nat.zero_lt_succ _)
      (by rw [hb']; rfl) rfl (by rw [hb']; exact hcovers)
    have hlt : val < 2 ^ 32 := post_decodeConstrainedNumber_lt lb ub _ _ hd'
    obtain ⟨d'', hd'', -⟩ := (decodes_number hval hub hlt (by omega)).read_appended happ
      (d := .ofBuffer b'.mem 79) (Nat.zero_lt_succ _) rfl rfl hcovers
    have hsame := congrArg Prod.fst (Except.ok.inj (hd''.symm.trans hd'))
    refine ⟨hlt, ?_⟩
    split at hsame <;> omega
  · rintro ⟨hlt, hrange⟩ b d hb hpos hmem hdec hc
    have happ : b.Appends (encodeConstrainedNumber b val lb ub) (numberFormat val lb ub b.encPos) :=
      encodes_encodeConstrainedNumber val lb ub b hb
    have hread := (decodes_number hval hub hlt (by omega)).read_appended happ hpos hmem hdec hc
    have hsame : (if ub - lb < 65536 then val else (val + lb) % 2 ^ 32) = val := by
      split <;> omega
    rwa [hsame] at hread

/-- A bit rate of 32 bits. -/
theorem constrainedNumber_roundTrips_bitRate : RoundTrips 0 10000000000 4294967295 :=
  (constrainedNumber_roundTrips_iff (by decide) (by decide) (by decide) (by decide)).mpr (by decide)

/-- The number 1 of the range from 1 to 70000 is read back as 2. -/
theorem not_constrainedNumber_roundTrips : ¬ RoundTrips 1 70000 1 := by
  intro h
  obtain ⟨d', hd', -⟩ := h .empty (.ofBuffer (encodeConstrainedNumber .empty 1 1 70000).mem 16) BinaryData.clean_empty
    (by decide) rfl rfl (show _ ≤ _ by decide)
  have hread : (decodeConstrainedNumber 1 70000
      (.ofBuffer (encodeConstrainedNumber .empty 1 1 70000).mem 16)).toOption.map Prod.fst = some 2 := by decide +kernel
  rw [hd'] at hread
  cases hread

/-! ## The values that are returned -/

/-- The number of values that the field of a range has room for. -/
def codePoints (range : Nat) : Nat :=
  if range ≤ 255 then 2 ^ fieldWidth range else if range ≤ 256 then 256 else 65536

theorem codePoints_eq_iff {range : Nat} (h : range ≤ 65536) :
    codePoints range = range ↔ range ∈ [2, 4, 8, 16, 32, 64, 128, 256, 65536] := by
  simp only [codePoints, fieldWidth, List.mem_cons, List.not_mem_nil, or_false]
  split_ifs <;> omega

theorem le_codePoints {range : Nat} (h : range ≤ 65536) : range ≤ codePoints range := by
  unfold codePoints
  split_ifs
  · exact le_two_pow_fieldWidth ‹_›
  · assumption
  · exact h

theorem codePoints_le (range : Nat) : codePoints range ≤ 65536 := by
  have hwidth := Nat.pow_le_pow_right Nat.two_pos (fieldWidth_le range)
  unfold codePoints
  split_ifs <;> omega

theorem hostNat_lt (l : List UInt8) : hostNat l < 256 ^ l.length := by
  induction l with
  | nil => exact Nat.one_pos
  | cons x l ih =>
    have hx := x.toNat_lt
    rw [hostNat, List.foldr_cons, ← hostNat, List.length_cons]
    omega

theorem post_takeOctets (n : Nat) (d : BinaryData) : Post (takeOctets n d) fun r => r.1.length = n := by
  have hget : Post (getoctets n d) fun r => ∀ l ∈ r.1, l.length = n := by
    refine Post.of_bind fun p => ?_
    show Post ((if p.2.length.toNat / 8 < n then _ else _ : Decoder _) p.2) _
    split
    · exact .ok nofun
    · refine .ok fun l hl => ?_
      rw [← Option.some.inj hl]
      exact Mem.length_read ..
  refine Post.bind hget fun r hr => ?_
  obtain ⟨o, d'⟩ := r
  cases o with
  | none => exact .error
  | some l => exact .ok (hr l rfl)

theorem post_numberOfOctets {n : Nat} (d : BinaryData) :
    Post ((takeOctets n >>= numberOfOctets) d) fun r => r.1 < 256 ^ n := by
  refine Post.bind (post_takeOctets n d) fun r hr => ?_
  show Post ((if 4 < r.1.length then _ else _ : Decoder _) r.2) _
  split
  · exact .error
  · refine .ok ?_
    have hlt := hostNat_lt r.1.reverse
    rw [List.length_reverse, hr] at hlt
    rwa [correctEndianness_eq_reverse (by omega)]

/-- What the decoder can return: the values of the field. -/
theorem post_decodeConstrainedNumber {lb ub : Nat} (hrange : rangeOf lb ub ≤ 65536) (d : BinaryData) :
    Post (decodeConstrainedNumber lb ub d) fun r => ∃ x < codePoints (rangeOf lb ub), r.1 = (x + lb) % 2 ^ 32 := by
  simp only [decodeConstrainedNumber, codePoints]
  split_ifs
  · refine Post.of_bind fun r => .ok ⟨_, ?_, rfl⟩
    rw [Nat.shiftRight_eq_div_pow, Nat.div_lt_iff_lt_mul (Nat.two_pow_pos _), ← Nat.pow_add,
      Nat.add_sub_cancel' (fieldWidth_le _)]
    exact UInt8.toNat_lt _
  · exact Post.bind (post_numberOfOctets d) fun r hr => .ok ⟨r.1, hr, rfl⟩
  · exact Post.bind (post_numberOfOctets d) fun r hr => .ok ⟨r.1, hr, rfl⟩

/-- A format that an encoder writes is read from some buffer. -/
theorem exists_read {x : Decoder Nat} {v : Nat} {f : BitFormat} (h : Decodes x v f) {enc : BinaryData → BinaryData}
    (henc : Encodes enc f) (hsize : f.stop 0 ≤ 79) : ∃ d d', d.pos < 8 ∧ x d = .ok (v, d') := by
  obtain ⟨d', hd', -⟩ := h.run_ofBuffer 79 henc.at_empty hsize
  exact ⟨_, d', Nat.zero_lt_succ _, hd'⟩

/-- Every value of the field is returned for some octets. -/
theorem exists_decodeConstrainedNumber {lb ub x : Nat} (hrange : rangeOf lb ub ≤ 65536)
    (hx : x < codePoints (rangeOf lb ub)) :
    ∃ d d', d.pos < 8 ∧ decodeConstrainedNumber lb ub d = .ok ((x + lb) % 2 ^ 32, d') := by
  have hoctets : ∀ l : List UInt8, l.length ≤ 2 → (octetsFormat l).stop 0 ≤ 79 :=
    fun l hl => (atMost_octetsFormat l 0).trans (by omega)
  simp only [codePoints] at hx
  simp only [decodeConstrainedNumber]
  split_ifs at hx ⊢
  · refine exists_read (decodes_bitField hx) (encodes_setbits x (fieldWidth_pos _) ?_ (.inl (fieldWidth_le _))) ?_
    · exact (fieldWidth_le _).trans (by decide)
    · have hwidth := fieldWidth_le (rangeOf lb ub)
      rw [BitFormat.stop_raw, length_natBits]
      omega
  · have hread := (decodes_numberOfOctets (l := [UInt8.ofNat x]) (k := 1) rfl (by decide)).map fun n => (n + lb) % 2 ^ 32
    rw [hostNat_singleton, Nat.mod_eq_of_lt hx] at hread
    exact exists_read hread (encodes_setoctets _) (hoctets _ (by simp))
  · have hread := (decodes_numberOfOctets (l := [UInt8.ofNat ((x &&& 0xFF00) >>> 8), UInt8.ofNat (x &&& 0xFF)]) (k := 2)
      rfl (by decide)).map fun n => (n + lb) % 2 ^ 32
    rw [hostNat_pair, Nat.mod_eq_of_lt hx] at hread
    exact exists_read hread (encodes_setoctets _) (hoctets _ (by simp))

/-- **Bounds of decoded numbers.** For all bounds of 32 bits whose range has at most 16 bits: whatever the octets and the
position, the decoder returns a number between the bounds, if and only if the range is one of those that a field is made
for.  There is no other way to report a number out of bounds. -/
theorem decoded_inBounds_iff {lb ub : Nat} (hle : lb ≤ ub) (hub : ub < 2 ^ 32) (hrange : ub - lb + 1 ≤ 65536) :
    (∀ d v d', d.pos < 8 → decodeConstrainedNumber lb ub d = .ok (v, d') → lb ≤ v ∧ v ≤ ub) ↔
      ub - lb + 1 ∈ [2, 4, 8, 16, 32, 64, 128, 256, 65536] := by
  have hr := rangeOf_eq hle (by omega)
  have hcode := le_codePoints hrange
  rw [← codePoints_eq_iff hrange]
  constructor
  · intro h
    by_contra hne
    obtain ⟨d, d', hpos, hd⟩ := @exists_decodeConstrainedNumber lb ub
      (codePoints (ub - lb + 1) - 1) (by omega) (by rw [hr]; omega)
    have hbounds := h d _ d' hpos hd
    have hsmall := codePoints_le (ub - lb + 1)
    omega
  · intro hfull d v d' _ hd
    obtain ⟨x, hx, rfl⟩ := post_decodeConstrainedNumber (by omega) d _ hd
    rw [hr] at hx
    omega

/-- The ids of information elements have all values of two octets. -/
theorem decoded_inBounds_octets : 65535 - 0 + 1 ≤ 65536 ∧
    ∀ d v d', d.pos < 8 → decodeConstrainedNumber 0 65535 d = .ok (v, d') → 0 ≤ v ∧ v ≤ 65535 :=
  ⟨by decide, (decoded_inBounds_iff (by decide) (by decide) (by decide)).mpr (by decide)⟩

/-- The length of a name of 1 to 150 characters can be 256. -/
theorem not_decoded_inBounds :
    ¬ ∀ d v d', d.pos < 8 → decodeConstrainedNumber 1 150 d = .ok (v, d') → 1 ≤ v ∧ v ≤ 150 := by
  intro h
  obtain ⟨d', hd⟩ : ∃ d', decodeConstrainedNumber 1 150 (.ofBuffer (Mem.ofList [0xFF]) 8) = .ok (256, d') := ⟨_, rfl⟩
  exact absurd (h _ _ _ (by decide) hd).2 (by decide)

end AaltoMME.PER
