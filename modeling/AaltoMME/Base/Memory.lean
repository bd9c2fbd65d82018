import Mathlib.Algebra.Group.Nat.Defs
import Mathlib.Data.List.Basic
import Mathlib.Logic.Function.Basic

/-!
# Byte memory

A byte memory is a total function from addresses to octets.  A C pointer into a buffer is the
memory seen from that pointer on, so pointer arithmetic is `Mem.shift`, `memcpy` is `Mem.copy`
and reading past the end of a buffer returns whatever the memory holds there.  A C structure or
union is a memory addressed by the offsets of its members, so two members of a union that overlap
in C overlap here too.
-/

namespace Base

/-- A byte memory, indexed from the address a pointer points to. -/
abbrev Mem : Type := Nat → UInt8

namespace Mem

variable (m src : Mem) (i j n : Nat) (b : UInt8)

/-- Memory cleared by `memset(p, 0, …)`. -/
def zero : Mem := fun _ => 0

/-- A buffer holding the given octets, and zeros after them. -/
def ofList (l : List UInt8) : Mem := fun i => l.getD i 0

/-- The memory seen from the address `i` on: the pointer `p + i`. -/
def shift : Mem := fun j => m (i + j)

/-- Store one octet. -/
def set : Mem := fun k => if k = i then b else m k

/-- Store a value in the low nibble of an octet and keep the high one. -/
def setLow : Mem := m.set i ((m i &&& 0xF0) ||| (b &&& 0x0F))

/-- Store a value in the high nibble of an octet and keep the low one. -/
def setHigh : Mem := m.set i ((m i &&& 0x0F) ||| (b <<< (4 : UInt8)))

/-- `memcpy(m + i, src, n)`. -/
def copy : Mem := fun k => if i ≤ k ∧ k < i + n then src (k - i) else m k

/-- The `n` octets that start at the address `i`. -/
def read : List UInt8 := (List.range n).map fun k => m (i + k)

/-- Read a host (little endian) 16 bit integer. -/
def read16 : Nat := (m i).toNat + 256 * (m (i + 1)).toNat

@[simp] theorem zero_apply : zero i = 0 := rfl

@[simp] theorem shift_apply : m.shift i j = m (i + j) := rfl

@[simp] theorem set_self : m.set i b i = b := by simp [set]

theorem set_of_ne (h : j ≠ i) : m.set i b j = m j := by simp [set, h]

theorem setLow_of_ne (h : j ≠ i) : m.setLow i b j = m j := set_of_ne _ _ _ _ h

theorem setHigh_of_ne (h : j ≠ i) : m.setHigh i b j = m j := set_of_ne _ _ _ _ h

theorem copy_of_lt (h : j < i) : m.copy src i n j = m j := by
  simp [copy]; omega

theorem copy_of_le (h : i + n ≤ j) : m.copy src i n j = m j := by
  simp [copy]; omega

theorem copy_of_mem (h₁ : i ≤ j) (h₂ : j < i + n) : m.copy src i n j = src (j - i) := by
  simp [copy, h₁, h₂]

theorem copy_congr {src src' : Mem} {n : Nat} (h : ∀ k, k < n → src k = src' k) :
    m.copy src i n = m.copy src' i n := by
  funext k
  unfold copy
  split
  · exact h _ (by omega)
  · rfl

@[simp] theorem length_read : (m.read i n).length = n := by simp [read]

@[simp] theorem read_zero : m.read i 0 = [] := rfl

theorem getElem_read (h : j < n) : (m.read i n)[j]? = some (m (i + j)) := by
  simp [read, h]

/-- Two memories that agree on a range read the same there. -/
theorem read_congr {m m' : Mem} {i i' n : Nat} (h : ∀ k, k < n → m (i + k) = m' (i' + k)) :
    m.read i n = m'.read i' n := by
  refine List.map_congr_left fun k hk => h k (List.mem_range.mp hk)

theorem shift_read : (m.shift i).read j n = m.read (i + j) n :=
  read_congr fun k _ => by rw [shift_apply, Nat.add_assoc]

theorem read_add (k : Nat) : m.read i (n + k) = m.read i n ++ m.read (i + n) k := by
  unfold read
  rw [List.range_add, List.map_append, List.map_map]
  refine congrArg _ (List.map_congr_left fun j _ => ?_)
  rw [Function.comp_apply, Nat.add_assoc]

theorem read_succ : m.read i (n + 1) = m i :: m.read (i + 1) n := by
  rw [Nat.add_comm n 1, read_add]
  rfl

theorem drop_read (k : Nat) : (m.read i n).drop k = m.read (i + k) (n - k) := by
  by_cases hk : k ≤ n
  · obtain ⟨l, rfl⟩ := Nat.exists_eq_add_of_le hk
    rw [read_add, List.drop_left' (length_read _ _ _), Nat.add_sub_cancel_left]
  · rw [List.drop_eq_nil_of_le (by rw [length_read]; omega), Nat.sub_eq_zero_of_le (by omega), read_zero]

/-- What a range of the memory holds, octet by octet. -/
theorem read_eq_iff {m : Mem} {i : Nat} {l : List UInt8} :
    m.read i l.length = l ↔ ∀ k, (h : k < l.length) → m (i + k) = l[k] := by
  constructor
  · intro h k hk
    have hget := getElem_read m i k l.length hk
    rw [h, List.getElem?_eq_getElem hk] at hget
    exact (Option.some.inj hget).symm
  · intro h
    refine List.ext_getElem? fun k => ?_
    by_cases hk : k < l.length
    · rw [getElem_read _ _ _ _ hk, List.getElem?_eq_getElem hk, h k hk]
    · rw [List.getElem?_eq_none (by simpa using hk), List.getElem?_eq_none (by simpa using hk)]

theorem ofList_shift (l : List UInt8) : (ofList l).shift i = ofList (l.drop i) := by
  funext k
  simp [ofList]

theorem ofList_read (l : List UInt8) (h : i + n ≤ l.length) : (ofList l).read i n = (l.drop i).take n := by
  refine List.ext_getElem? fun k => ?_
  by_cases hk : k < n
  · have hlt : i + k < l.length := by omega
    rw [getElem_read _ _ _ _ hk, List.getElem?_take_of_lt hk]
    simp [ofList, List.getElem?_eq_getElem hlt]
  · have hle : n ≤ k := Nat.le_of_not_lt hk
    rw [List.getElem?_eq_none (by simpa using hle), List.getElem?_take_eq_none hle]

end Mem

end Base
