import AaltoMME.S1AP.Decoders

/-!
# Bit strings and printable strings

`getbits` takes every octet that it stores from two octets of the stream, except the last one of a number of bits that
does not fill its octets: that one is masked and gets nothing from the next octet.  The decoder of a printable string
counts on the length that it has read, which can be larger than the field it writes to, and puts a terminator behind
the characters.
-/

namespace AaltoMME.PER

open Base

/-! ## Bit strings -/

/-- `decode_bit_string`.  `tmp` is what the four octets of the local variable hold before they are written; `ntohl` of
four octets is the number of their bits. -/
def decodeBitString (tmp : List UInt8) (num : Nat) : Decoder Nat := do
  (if 16 ≤ num then alignDec else pure () : Decoder Unit)
  let bitstr ← getbits (num % 256)
  let numbytes := octetsFor num
  if 4 < numbytes then throw .overflow
  return natOfBits (bitsOfOctets (bitstr.take numbytes ++ tmp.drop numbytes)) >>> (32 - num)

/-- Where a bit string starts. -/
def bitStringStart (num : Nat) (d : BinaryData) : Nat := if 16 ≤ num then BitFormat.align.stop d.decPos else d.decPos

/-- `getbits` stores the next bits and moves over them. -/
def Extracts (num : Nat) (d : BinaryData) : Prop :=
  ∃ l d', getbits num d = .ok (l, d') ∧ (bitsOfOctets l).take num = d.mem.bits d.decPos num ∧
    d'.decPos = d.decPos + num

/-- `decode_bit_string` returns the number of the bits. -/
def ReturnsBits (num : Nat) (d : BinaryData) : Prop :=
  ∀ tmp : List UInt8, tmp.length = 4 →
    ∃ d', decodeBitString tmp num d = .ok (natOfBits (d.mem.bits (bitStringStart num d) num), d')

theorem extracts {num : Nat} {d : BinaryData} (hpos : d.pos < 8) (hnum : 0 < num)
    (hsize : num ≤ 8 ∨ num % 8 = 0 ∨ d.pos + num % 8 < 8) : Extracts num d := by
  obtain ⟨l, d', hget, -, hbits, hadv⟩ := getbits_eq hpos hnum hsize
  exact ⟨l, d', hget, hbits, hadv.decPos_eq⟩

/-- The last bit of a part that crosses into the next octet is lost. -/
theorem not_extracts {num : Nat} {d : BinaryData} (hpos : d.pos < 8) (hsize : 8 < num ∧ num % 8 ≠ 0 ∧ 8 ≤ d.pos + num % 8)
    (hset : d.mem.bit (d.decPos + (num - 1)) = true) : ¬ Extracts num d := by
  rintro ⟨l, d', hget, hbits, -⟩
  have hlast := congrArg (·[num - 1]?) hbits
  rw [getbits_part hsize.1 hsize.2.1 hget] at hlast
  simp only [d.mem.getElem?_bits (show num - 1 < num by omega), hset, List.getElem?_take_of_lt (show num - 1 < num by omega),
    bitsOfOctets_append, bitsOfOctets_joinOctets hpos, bitsOfOctets_cons, bitsOfOctets_nil, List.append_nil] at hlast
  rw [List.getElem?_append_right (by rw [Mem.length_bits]; omega), Mem.length_bits, octetBits,
    getElem?_natBits (by omega)] at hlast
  have hbit := testBit_lastOctet (x := (d.mem (d.data + num / 8)).toNat <<< d.pos) (k := num % 8 - 1)
    (u := (num + d.pos) % 8) (by omega) (by omega)
  rw [decide_eq_false (by omega), Bool.and_false] at hbit
  rw [show num - 1 - 8 * (num / 8) = num % 8 - 1 by omega] at hlast
  exact absurd (Option.some.inj hlast) (by rw [hbit]; decide)

theorem alignDec_eq {d : BinaryData} (hpos : d.pos < 8) :
    ∃ e, alignDec d = .ok ((), e) ∧ e.mem = d.mem ∧ e.pos = 0 ∧ e.decPos = BitFormat.align.stop d.decPos := by
  simp only [alignDec, BitFormat.stop_align, BinaryData.decPos]
  split
  · exact ⟨_, rfl, rfl, rfl, by dsimp only; omega⟩
  · exact ⟨_, rfl, rfl, by omega, by omega⟩

/-- The shift keeps the bits that `getbits` was asked for, and neither those behind them nor what `tmp` held. -/
theorem natOfBits_shiftRight {l tmp : List UInt8} {num : Nat} (hlen : l.length = octetsFor num) (htmp : tmp.length = 4)
    (hle : num ≤ 32) :
    natOfBits (bitsOfOctets (l.take (octetsFor num) ++ tmp.drop (octetsFor num))) >>> (32 - num) =
      natOfBits ((bitsOfOctets l).take num) := by
  have hcount := le_octetsFor num
  have hcount' := octetsFor_lt num
  have htake := List.take_of_length_le hlen.le
  have hword : bitsOfOctets (l ++ tmp.drop (octetsFor num)) = (bitsOfOctets l).take num ++
      ((bitsOfOctets l).drop num ++ bitsOfOctets (tmp.drop (octetsFor num))) := by
    rw [bitsOfOctets_append, ← List.append_assoc, List.take_append_drop]
  have hrest : ((bitsOfOctets l).drop num ++ bitsOfOctets (tmp.drop (octetsFor num))).length = 32 - num := by
    rw [List.length_append, List.length_drop, length_bitsOfOctets, length_bitsOfOctets, List.length_drop]
    omega
  rw [htake, hword, ← hrest, natOfBits_append_shiftRight]

theorem returnsBits {num : Nat} {d : BinaryData} (hpos : d.pos < 8) (hnum : 0 < num) (hle : num ≤ 32)
    (hsize : num ≤ 8 ∨ num % 8 = 0 ∨ d.pos + num % 8 < 8) : ReturnsBits num d := by
  intro tmp htmp
  have hcount' := octetsFor_lt num
  obtain ⟨e, he, hmem, hpos', hsize', hdec⟩ : ∃ e, (if 16 ≤ num then alignDec else pure () : Decoder Unit) d = .ok ((), e) ∧
      e.mem = d.mem ∧ e.pos < 8 ∧ (num ≤ 8 ∨ num % 8 = 0 ∨ e.pos + num % 8 < 8) ∧ e.decPos = bitStringStart num d := by
    by_cases hlong : 16 ≤ num
    · obtain ⟨e, he, hmem, hzero, hdec⟩ := alignDec_eq hpos
      exact ⟨e, by rw [if_pos hlong, he], hmem, by omega, by omega, by rw [bitStringStart, if_pos hlong, hdec]⟩
    · exact ⟨d, by rw [if_neg hlong]; rfl, rfl, hpos, hsize, by rw [bitStringStart, if_neg hlong]⟩
  obtain ⟨l, d', hget, hlen, hbits, -⟩ := getbits_eq hpos' hnum hsize'
  refine ⟨d', ?_⟩
  have hvalue := natOfBits_shiftRight hlen htmp hle
  rw [hbits, hmem, hdec] at hvalue
  rw [← hvalue]
  refine (bind_of_ok _ he).trans ?_
  rw [Nat.mod_eq_of_lt (by omega)]
  refine (bind_of_ok _ hget).trans ?_
  rw [if_neg (by omega)]
  rfl

/-- **Bit strings.** At every bit position and for every number of bits, whatever the buffer: `getbits` stores the next
bits and the cursor stands behind them, and `decode_bit_string` returns their number, if and only if they are not more
than an octet, fill whole octets, or end with a part that lies in one octet of the stream. -/
theorem getbits_extracts_iff {pos num : Nat} (hpos : pos < 8) (hnum : 0 < num) (hle : num ≤ 255) :
    (∀ d : BinaryData, d.pos = pos → pos + num ≤ d.length.toNat →
        Extracts num d ∧ (num ≤ 32 → ReturnsBits num d)) ↔
      num ≤ 8 ∨ num % 8 = 0 ∨ pos + num % 8 < 8 := by
  constructor
  · intro h
    by_contra hsize
    have hones : ∀ i, Mem.bit (fun _ => 0xFF) i = true := fun i => by
      rw [Mem.bit, show (0xFF : UInt8).toNat = 2 ^ 8 - 1 from rfl, Nat.testBit_two_pow_sub_one]
      exact decide_eq_true (by omega)
    have hlength : (4096 : UInt32).toNat = 4096 := rfl
    refine not_extracts (d := ⟨fun _ => 0xFF, 0, 0, pos, 4096⟩) hpos (by dsimp only; omega) (hones _) (h _ rfl ?_).1
    dsimp only
    omega
  · rintro hsize d rfl -
    exact ⟨extracts hpos hnum hsize, fun hle => returnsBits hpos hnum hle hsize⟩

/-- A bit string of 20 bits that starts at the second bit of an octet. -/
theorem getbits_extracts_unaligned : Extracts 20 ⟨Mem.ofList [0x12, 0x34, 0x56], 0, 0, 1, 24⟩ :=
  ((getbits_extracts_iff (by decide) (by decide) (by decide)).mpr (by decide) _ rfl (by decide)).1

/-- Twelve ones that start in the middle of an octet are read as eight ones and four zeros. -/
theorem not_getbits_extracts :
    (getbits 12 ⟨Mem.ofList [0x0F, 0xFF], 0, 0, 4, 16⟩).toOption.map Prod.fst = some [0xFF, 0x00] ∧
      ¬ Extracts 12 ⟨Mem.ofList [0x0F, 0xFF], 0, 0, 4, 16⟩ :=
  ⟨by decide +kernel, not_extracts (by decide) (by decide) (by decide)⟩

/-! ## Printable strings -/

/-- `encode_known_multiplier_string_PrintableString_withExt`; the octet behind the string is only read for a
warning. -/
def encodePrintableString (bytes : BinaryData) (lb ub : Nat) (str : List UInt8) (slen ext : Nat) : BinaryData :=
  let bytes := setbits bytes 1 ext
  if ext ≠ 0 then bytes
  else
    let bytes := encodeConstrainedNumber bytes slen lb ub
    let bytes := alignEnc bytes
    (str.take slen).foldl (fun bytes x => setbits bytes 8 x.toNat) bytes

/-- The loop of `decode_known_multiplier_string_PrintableString_withExt`. -/
def decodeChars : Nat → Decoder (List UInt8)
  | 0 => return []
  | n + 1 => do
    let c ← getbits 8
    let str ← decodeChars n
    return c.headD 0 :: str

/-- `decode_known_multiplier_string_PrintableString_withExt`: the octets that it stores in `str`, from the first one
on. -/
def decodePrintableString (lb ub : Nat) : Decoder (List UInt8) := do
  let bit ← getbit
  if bit = 0 then do
    let len ← decodeConstrainedNumber lb ub
    alignDec
    let str ← decodeChars len
    return str ++ [0]
  else return []

/-- The size of `name` in `ENBname_t` and `MMEname_t`. -/
def nameSize : Nat := 150

/-- `strlen`. -/
def strlen (str : List UInt8) : Nat := (str.takeWhile (· ≠ 0)).length

/-- `enc_ENBname` and `enc_MMEname`, with the octets of `name` up to its terminator; the constructors clear `ext`. -/
def encName (bytes : BinaryData) (name : List UInt8) : BinaryData :=
  encodePrintableString bytes 1 150 name (strlen name) 0

/-- `dec_ENBname` and `dec_MMEname`. -/
def decName : Decoder (List UInt8) := decodePrintableString 1 150

theorem strlen_terminated {name : List UInt8} (h : 0 ∉ name) : strlen (name ++ [0]) = name.length := by
  have hall : ∀ x ∈ name, decide (x ≠ 0) = true := fun x hx => decide_eq_true fun hzero => h (hzero ▸ hx)
  rw [strlen, List.takeWhile_append_of_pos hall]
  simp

def nameFormat (name : List UInt8) : BitFormat :=
  (BitFormat.raw (natBits 1 0)).seq ((numberFormat name.length 1 150).seq (octetsFormat name))

theorem encodes_encName {name : List UInt8} (h : 0 ∉ name) : Encodes (encName · (name ++ [0])) (nameFormat name) := by
  have hall := (encodes_setbits (n := 1) 0 (by omega) (by omega) (by omega)).seq
    ((encodes_encodeConstrainedNumber name.length 1 150).seq (encodes_setoctets name))
  simp only [encName, encodePrintableString, strlen_terminated h, List.take_left]
  exact hall

theorem decodes_decodeChars (l : List UInt8) : Decodes (decodeChars l.length) l (.raw (bitsOfOctets l)) := by
  induction l with
  | nil => exact Decodes.pure []
  | cons x l ih =>
    have hraw : BitFormat.raw (bitsOfOctets (x :: l)) = (BitFormat.raw (bitsOfOctets [x])).seq (.raw (bitsOfOctets l)) :=
      rfl
    rw [hraw]
    exact (decodes_getbits_octets (by simp)).bind (ih.map (x :: ·))

theorem decodes_decName {name : List UInt8} (hne : name ≠ []) (hle : name.length ≤ 150) :
    Decodes decName (name ++ [0]) (nameFormat name) := by
  have hpos := List.length_pos_iff.mpr hne
  have hlen := decodes_decodeConstrainedNumber hpos hle (by decide) (.inl (by decide))
  exact (decodes_getbit (by decide)).bind (hlen.bind (decodes_alignDec.bind
    ((decodes_decodeChars name).map (· ++ [0]))))

theorem decodeChars_eq {d : BinaryData} (hpos : d.pos < 8) (n : Nat) :
    ∃ l d', decodeChars n d = .ok (l, d') ∧ l.length = n := by
  induction n generalizing d with
  | zero => exact ⟨[], d, rfl, rfl⟩
  | succ n ih =>
    obtain ⟨c, d', hget, -, hadv⟩ := getbits_number hpos (n := 8) (by decide) (by decide)
    obtain ⟨l, d'', hrest, hlen⟩ := ih hadv.pos_lt
    exact ⟨c.headD 0 :: l, d'', (bind_of_ok _ hget).trans (bind_of_ok _ hrest), by rw [List.length_cons, hlen]⟩

/-- The length that the input announces for a name. -/
def announced (d : BinaryData) : Nat := natOfBits (d.mem.bits (d.decPos + 1) 8) + 1

theorem decName_extended {d : BinaryData} (hpos : d.pos < 8) (hext : d.mem.bit d.decPos = true) :
    ∃ d', decName d = .ok ([], d') := by
  obtain ⟨d', hbit, -⟩ := getbit_eq hpos
  rw [hext] at hbit
  exact ⟨d', bind_of_ok _ hbit⟩

/-- Whatever the input, as many characters are stored as it announces, and the terminator behind them. -/
theorem decName_eq {d : BinaryData} (hpos : d.pos < 8) (hext : d.mem.bit d.decPos = false) :
    ∃ l d', decName d = .ok (l, d') ∧ l.length = announced d + 1 := by
  obtain ⟨d₁, hbit, hadv₁⟩ := getbit_eq hpos
  obtain ⟨d₂, hlen, hadv₂⟩ := decodeBitField_eq hadv₁.pos_lt 1 150
  obtain ⟨d₃, halign, -, hzero, -⟩ := alignDec_eq hadv₂.pos_lt
  obtain ⟨l, d₄, hchars, hsize⟩ := decodeChars_eq (d := d₃) (by omega) (announced d)
  rw [hext] at hbit
  have hlen : decodeConstrainedNumber 1 150 d₁ = .ok (announced d, d₂) := by
    have hlt : announced d < 2 ^ 32 := by
      have hbits := natOfBits_lt (d.mem.bits (d.decPos + 1) 8)
      rw [Mem.length_bits] at hbits
      rw [announced]
      omega
    rw [hadv₁.mem_eq, hadv₁.decPos_eq] at hlen
    exact hlen.trans (by rw [← Nat.mod_eq_of_lt hlt]; rfl)
  exact ⟨l ++ [0], d₄, (bind_of_ok _ hbit).trans ((bind_of_ok _ hlen).trans ((bind_of_ok _ halign).trans
    (bind_of_ok _ hchars))), by rw [List.length_append, List.length_singleton, hsize]⟩

/-- The decoder returns and has stored nothing behind the field. -/
def StoresWithin (size : Nat) (d : BinaryData) : Prop := ∃ l d', decName d = .ok (l, d') ∧ l.length ≤ size

/-- **Names.** Every name of 1 to 150 characters is read back, with a terminator; and whatever the input, the decoder
stores within the field if and only if the input has the extension bit, for which nothing is stored, or announces less
than 150 characters. -/
theorem name_stored_iff {name : List UInt8} (hne : name ≠ []) (hle : name.length ≤ 150) (hnul : 0 ∉ name)
    {d : BinaryData} (hpos : d.pos < 8) :
    (Decodes.ReadsBack (encName · (name ++ [0])) decName (name ++ [0]) ∧ StoresWithin nameSize d) ↔
      (d.mem.bit d.decPos = false → announced d < nameSize) := by
  constructor
  · rintro ⟨-, l, d', hd', hlen⟩ hext
    obtain ⟨l', d'', hd'', hlen'⟩ := decName_eq hpos hext
    rw [hd'] at hd''
    cases hd''
    omega
  · intro h
    refine ⟨(decodes_decName hne hle).readsBack (encodes_encName hnul), ?_⟩
    cases hext : d.mem.bit d.decPos with
    | true =>
      obtain ⟨d', hd'⟩ := decName_extended hpos hext
      exact ⟨[], d', hd', Nat.zero_le _⟩
    | false =>
      obtain ⟨l, d', hd', hlen⟩ := decName_eq hpos hext
      exact ⟨l, d', hd', by have hlt := h hext; omega⟩

/-- A name of three characters. -/
theorem name_stored_short : StoresWithin nameSize (.ofBuffer (encName .empty [0x65, 0x4E, 0x42, 0]).mem 40) :=
  ((@name_stored_iff [0x65, 0x4E, 0x42] (by decide) (by decide) (by decide) _
    (by decide)).mpr (by decide +kernel)).2

/-- The terminator of a name of 150 characters is stored behind the field. -/
theorem not_name_stored : ¬ StoresWithin nameSize
    (.ofBuffer (encName .empty (List.replicate 150 0x41 ++ [0])).mem 1216) := by
  rintro ⟨l, d', hd', hlen⟩
  obtain ⟨l', d'', hd'', hlen'⟩ := decName_eq
    (d := .ofBuffer (encName .empty (List.replicate 150 0x41 ++ [0])).mem 1216) (by decide) (by decide +kernel)
  rw [hd'] at hd''
  cases hd''
  rw [hlen'] at hlen
  exact absurd hlen (by decide +kernel)

end AaltoMME.PER
