import AaltoMME.Base.Memory
import Mathlib.Data.Nat.Bitwise
import Mathlib.Data.UInt

/-!
# Strings of bits

A string of bits is a list with the most significant bit first.  Octets, lists of octets and ranges of
a byte memory have strings of bits; bit `i` of a memory is the bit of weight `7 - i % 8` of the octet
`i / 8`.
-/

namespace Base

/-! ## Numbers -/

/-- The `w` low bits of a number. -/
def natBits (w n : Nat) : List Bool := (List.range w).map fun i => n.testBit (w - 1 - i)

/-- The number that a string of bits denotes. -/
def natOfBits (l : List Bool) : Nat := l.foldl (fun n b => 2 * n + b.toNat) 0

@[simp] theorem length_natBits (w n : Nat) : (natBits w n).length = w := by simp [natBits]

@[simp] theorem natBits_zero_left (n : Nat) : natBits 0 n = [] := rfl

theorem getElem?_natBits {w n i : Nat} (h : i < w) : (natBits w n)[i]? = some (n.testBit (w - 1 - i)) := by
  simp [natBits, h]

/-- The bits of a number in two parts. -/
theorem natBits_add (a b n : Nat) : natBits (a + b) n = natBits a (n / 2 ^ b) ++ natBits b n := by
  simp only [natBits, List.range_add, List.map_append, List.map_map]
  congr 1
  · refine List.map_congr_left fun i hi => ?_
    have hi := List.mem_range.mp hi
    rw [Nat.testBit_div_two_pow]
    congr 1
    omega
  · refine List.map_congr_left fun i hi => ?_
    simp only [Function.comp_apply]
    congr 1
    omega

theorem natBits_succ (w n : Nat) : natBits (w + 1) n = natBits w (n / 2) ++ [n.testBit 0] := by
  simpa [natBits] using natBits_add w 1 n

/-- Only the low bits matter. -/
theorem natBits_mod (w n : Nat) : natBits w (n % 2 ^ w) = natBits w n := by
  refine List.map_congr_left fun i hi => ?_
  have hi := List.mem_range.mp hi
  simp
  omega

@[simp] theorem natBits_zero_right (w : Nat) : natBits w 0 = List.replicate w false := by
  simp [natBits]

theorem natOfBits_append_singleton (l : List Bool) (b : Bool) :
    natOfBits (l ++ [b]) = 2 * natOfBits l + b.toNat := by
  simp [natOfBits]

theorem natOfBits_lt (l : List Bool) : natOfBits l < 2 ^ l.length := by
  induction l using List.reverseRecOn with
  | nil => exact Nat.one_pos
  | append_singleton l b ih =>
    have hlt := b.toNat_lt
    rw [natOfBits_append_singleton, List.length_append, List.length_singleton]
    omega

/-- The first bits of a string are the number without its low bits. -/
theorem natOfBits_append_shiftRight (l l' : List Bool) : natOfBits (l ++ l') >>> l'.length = natOfBits l := by
  induction l' using List.reverseRecOn with
  | nil => rw [List.append_nil, List.length_nil, Nat.shiftRight_zero]
  | append_singleton l' b ih =>
    have hlt := b.toNat_lt
    have hhalf : (2 * natOfBits (l ++ l') + b.toNat) / 2 = natOfBits (l ++ l') := by omega
    rw [← List.append_assoc, natOfBits_append_singleton, List.length_append, List.length_singleton,
      Nat.add_comm l'.length, Nat.shiftRight_add, Nat.shiftRight_one, hhalf, ih]

theorem natOfBits_natBits (w n : Nat) : natOfBits (natBits w n) = n % 2 ^ w := by
  induction w generalizing n with
  | zero => simp [natOfBits, Nat.mod_one]
  | succ w ih =>
    have hbit : (n.testBit 0).toNat = n % 2 := by
      rcases Nat.mod_two_eq_zero_or_one n with h | h <;> simp [h]
    rw [natBits_succ, natOfBits_append_singleton, ih, hbit, Nat.pow_succ', Nat.mod_mul, Nat.add_comm]

/-! ## Octets -/

/-- The bits of an octet. -/
def octetBits (x : UInt8) : List Bool := natBits 8 x.toNat

/-- The bits of a string of octets. -/
def bitsOfOctets (l : List UInt8) : List Bool := l.flatMap octetBits

/-- The octets of a string of bits. -/
def octetsOfBits (l : List Bool) : List UInt8 :=
  (List.range (l.length / 8)).map fun i => UInt8.ofNat (natOfBits ((l.drop (8 * i)).take 8))

@[simp] theorem length_octetBits (x : UInt8) : (octetBits x).length = 8 := length_natBits ..

@[simp] theorem bitsOfOctets_nil : bitsOfOctets [] = [] := rfl

@[simp] theorem bitsOfOctets_cons (x : UInt8) (l : List UInt8) :
    bitsOfOctets (x :: l) = octetBits x ++ bitsOfOctets l := rfl

@[simp] theorem bitsOfOctets_append (l l' : List UInt8) :
    bitsOfOctets (l ++ l') = bitsOfOctets l ++ bitsOfOctets l' := by
  simp [bitsOfOctets]

@[simp] theorem length_bitsOfOctets (l : List UInt8) : (bitsOfOctets l).length = 8 * l.length := by
  induction l with
  | nil => rfl
  | cons x l ih => simp [ih]; omega

@[simp] theorem bitsOfOctets_replicate_zero (n : Nat) :
    bitsOfOctets (List.replicate n 0) = List.replicate (8 * n) false := by
  induction n with
  | zero => rfl
  | succ n ih =>
    rw [List.replicate_succ, bitsOfOctets_cons, ih, octetBits, UInt8.toNat_zero, natBits_zero_right,
      List.replicate_append_replicate]
    congr 1
    omega

theorem natOfBits_octetBits (x : UInt8) : UInt8.ofNat (natOfBits (octetBits x)) = x := by
  rw [octetBits, natOfBits_natBits, Nat.mod_eq_of_lt x.toNat_lt, UInt8.ofNat_toNat]

theorem bitsOfOctets_drop (l : List UInt8) (i : Nat) : bitsOfOctets (l.drop i) = (bitsOfOctets l).drop (8 * i) := by
  induction l generalizing i with
  | nil => simp
  | cons x l ih =>
    cases i with
    | zero => rfl
    | succ i =>
      have hsplit : 8 * (i + 1) = (octetBits x).length + 8 * i := by rw [length_octetBits]; omega
      rw [List.drop_succ_cons, ih, bitsOfOctets_cons, hsplit, List.drop_length_add_append]

theorem bitsOfOctets_take (l : List UInt8) (i : Nat) : bitsOfOctets (l.take i) = (bitsOfOctets l).take (8 * i) := by
  induction l generalizing i with
  | nil => simp
  | cons x l ih =>
    cases i with
    | zero => rfl
    | succ i =>
      have hsplit : 8 * (i + 1) = (octetBits x).length + 8 * i := by rw [length_octetBits]; omega
      rw [List.take_succ_cons, bitsOfOctets_cons, ih, bitsOfOctets_cons, hsplit, List.take_length_add_append]

/-- Octets can be recovered from their bits. -/
@[simp] theorem octetsOfBits_bitsOfOctets (l : List UInt8) : octetsOfBits (bitsOfOctets l) = l := by
  refine List.ext_getElem (by simp [octetsOfBits]) fun i h₁ h₂ => ?_
  have hdrop := List.drop_eq_getElem_cons h₂
  have htake : ((bitsOfOctets l).drop (8 * i)).take 8 = octetBits l[i] := by
    rw [← bitsOfOctets_drop, hdrop, bitsOfOctets_cons, List.take_left' (length_octetBits _)]
  simp only [octetsOfBits, List.getElem_map, List.getElem_range, htake]
  exact natOfBits_octetBits _

theorem bitsOfOctets_injective : Function.Injective bitsOfOctets :=
  Function.LeftInverse.injective octetsOfBits_bitsOfOctets

/-! ## Exclusive or -/

/-- Bitwise exclusive or. -/
def xorBits (a b : List Bool) : List Bool := List.zipWith xor a b

@[simp] theorem length_xorBits (a b : List Bool) : (xorBits a b).length = min a.length b.length := by
  simp [xorBits]

theorem xorBits_comm (a b : List Bool) : xorBits a b = xorBits b a :=
  List.zipWith_comm_of_comm Bool.xor_comm

theorem xorBits_replicate_false {l : List Bool} {n : Nat} (h : l.length ≤ n) :
    xorBits l (List.replicate n false) = l := by
  refine List.ext_getElem (by simp [h]) fun i h₁ h₂ => ?_
  simp [xorBits]

theorem natBits_xor (w a b : Nat) : natBits w (a ^^^ b) = xorBits (natBits w a) (natBits w b) := by
  refine List.ext_getElem (by simp) fun i h₁ h₂ => ?_
  simp [xorBits, natBits]

theorem octetBits_xor (x y : UInt8) : octetBits (x ^^^ y) = xorBits (octetBits x) (octetBits y) := by
  rw [octetBits, UInt8.toNat_xor, natBits_xor]
  rfl

theorem bitsOfOctets_zipWith_xor (a b : List UInt8) :
    bitsOfOctets (List.zipWith (· ^^^ ·) a b) = xorBits (bitsOfOctets a) (bitsOfOctets b) := by
  induction a generalizing b with
  | nil => rfl
  | cons x a ih =>
    cases b with
    | nil => simp [xorBits]
    | cons y b =>
      have hlen : (octetBits x).length = (octetBits y).length := by simp
      rw [List.zipWith_cons_cons, bitsOfOctets_cons, ih, octetBits_xor, bitsOfOctets_cons, bitsOfOctets_cons,
        xorBits, xorBits, xorBits, List.zipWith_append hlen]

/-! ## Memory -/

namespace Mem

variable (m : Mem)

/-- Bit `i` of a memory. -/
def bit (i : Nat) : Bool := (m (i / 8)).toNat.testBit (7 - i % 8)

/-- The `n` bits from bit `i` on. -/
def bits (i n : Nat) : List Bool := (List.range n).map fun k => m.bit (i + k)

@[simp] theorem length_bits (i n : Nat) : (m.bits i n).length = n := by simp [bits]

@[simp] theorem bits_zero (i : Nat) : m.bits i 0 = [] := rfl

theorem getElem?_bits {i n k : Nat} (h : k < n) : (m.bits i n)[k]? = some (m.bit (i + k)) := by
  simp [bits, h]

theorem bits_add (i a b : Nat) : m.bits i (a + b) = m.bits i a ++ m.bits (i + a) b := by
  simp only [bits, List.range_add, List.map_append, List.map_map]
  congr 1
  refine List.map_congr_left fun k _ => ?_
  simp [Nat.add_assoc]

theorem take_bits {i n k : Nat} (h : k ≤ n) : (m.bits i n).take k = m.bits i k := by
  obtain ⟨r, rfl⟩ := Nat.exists_eq_add_of_le h
  rw [bits_add, List.take_left' (length_bits ..)]

/-- Two memories with the same bits in a range. -/
theorem bits_congr {m m' : Mem} {i i' n : Nat} (h : ∀ k, k < n → m.bit (i + k) = m'.bit (i' + k)) :
    m.bits i n = m'.bits i' n :=
  List.map_congr_left fun k hk => h k (List.mem_range.mp hk)

theorem bit_shift (i k : Nat) : (m.shift i).bit k = m.bit (8 * i + k) := by
  have hdiv : (8 * i + k) / 8 = i + k / 8 := by omega
  have hmod : (8 * i + k) % 8 = k % 8 := by omega
  rw [bit, bit, shift_apply, hdiv, hmod]

theorem bits_shift (i k n : Nat) : (m.shift i).bits k n = m.bits (8 * i + k) n :=
  List.map_congr_left fun j _ => by rw [bit_shift, Nat.add_assoc]

theorem bits_octet (i : Nat) : m.bits (8 * i) 8 = octetBits (m i) := by
  unfold bits octetBits natBits
  refine List.map_congr_left fun k hk => ?_
  have hk := List.mem_range.mp hk
  have hdiv : (8 * i + k) / 8 = i := by omega
  have hmod : 7 - (8 * i + k) % 8 = 8 - 1 - k := by omega
  rw [bit, hdiv, hmod]

/-- The bits of a range of octets. -/
theorem bitsOfOctets_read (i n : Nat) : bitsOfOctets (m.read i n) = m.bits (8 * i) (8 * n) := by
  induction n with
  | zero => rfl
  | succ n ih =>
    have hread : m.read i (n + 1) = m.read i n ++ [m (i + n)] := by simp [read, List.range_succ]
    have hlast : 8 * i + 8 * n = 8 * (i + n) := by omega
    rw [hread, bitsOfOctets_append, ih, Nat.mul_succ, bits_add, hlast, bits_octet]
    simp

/-- The octets of a range are known from its bits. -/
theorem read_eq_of_bits {i : Nat} {l : List UInt8} (h : m.bits (8 * i) (8 * l.length) = bitsOfOctets l) :
    m.read i l.length = l :=
  bitsOfOctets_injective ((bitsOfOctets_read m i l.length).trans h)

end Mem

end Base
