import AaltoMME.Base.Memory

/-!
# How far a parser reads

A parser written against raw pointers walks over a buffer and, at best, subtracts what it consumed
from a counter of the octets left.  A `Cursor` keeps what can go wrong in such a walk: how far the
parser read, whether the unsigned counter went below zero, and how many optional elements it stored.
The elements of a message are values of one octet and values behind a length of one or two octets;
`Element.rest` says on the octets of the message alone which messages hold an element completely.
-/

namespace Base

/-! ## Elements -/

/-- A mandatory element: one octet, a value behind a length octet, or behind two of them. -/
inductive Element
  | v | lv | lvE
  deriving DecidableEq, Repr

namespace Element

/-- A length of two octets in network order. -/
def length16 (a b : UInt8) : Nat := a.toNat * 256 + b.toNat

/-- The length of an element that starts at `pos`, as the length octets in the memory give it. -/
def length (buf : Mem) (pos : Nat) : Element → Nat
  | .v => 1
  | .lv => (buf pos).toNat + 1
  | .lvE => length16 (buf pos) (buf (pos + 1)) + 2

/-- The octets behind an element, when a list of octets holds all of the element. -/
def rest : Element → List UInt8 → Option (List UInt8)
  | .v, _ :: l => some l
  | .lv, a :: l => if a.toNat ≤ l.length then some (l.drop a.toNat) else none
  | .lvE, a :: b :: l =>
    if length16 a b ≤ l.length then some (l.drop (length16 a b)) else none
  | _, _ => none

variable {buf : Mem} {pos n : Nat}

theorem rest_read_of_le {e : Element} (h : e.length buf pos ≤ n) :
    e.rest (buf.read pos n) = some (buf.read (pos + e.length buf pos) (n - e.length buf pos)) := by
  cases e with
  | v =>
    obtain ⟨n, rfl⟩ : ∃ k, n = k + 1 := ⟨n - 1, by simp only [length] at h; omega⟩
    rw [Mem.read_succ]
    rfl
  | lv =>
    simp only [length] at h ⊢
    obtain ⟨n, rfl⟩ : ∃ k, n = k + 1 := ⟨n - 1, by omega⟩
    rw [Mem.read_succ]
    simp only [rest, Mem.length_read]
    rw [if_pos (by omega), Mem.drop_read, Nat.add_assoc, Nat.add_comm 1, Nat.add_sub_add_right]
  | lvE =>
    simp only [length] at h ⊢
    obtain ⟨n, rfl⟩ : ∃ k, n = k + 1 + 1 := ⟨n - 2, by omega⟩
    rw [Mem.read_succ, Mem.read_succ]
    simp only [rest, Mem.length_read]
    rw [if_pos (by omega), Mem.drop_read, Nat.add_assoc pos, Nat.add_assoc pos, Nat.add_comm (1 + 1),
      Nat.add_sub_add_right, Nat.add_sub_add_right]

theorem rest_read_of_lt {e : Element} (h : n < e.length buf pos) : e.rest (buf.read pos n) = none := by
  cases e with
  | v =>
    obtain rfl : n = 0 := by simp only [length] at h; omega
    rfl
  | lv =>
    simp only [length] at h
    cases n with
    | zero => rfl
    | succ n =>
      rw [Mem.read_succ]
      simp only [rest, Mem.length_read]
      rw [if_neg (by omega)]
  | lvE =>
    simp only [length] at h
    match n with
    | 0 => rfl
    | 1 => rfl
    | n + 2 =>
      rw [Mem.read_succ, Mem.read_succ]
      simp only [rest, Mem.length_read]
      rw [if_neg (by omega)]

/-- An element that is all inside a range has its length there. -/
theorem length_congr {buf' : Mem} {e : Element} (h : e.length buf pos ≤ n)
    (hagree : ∀ i, i < pos + n → buf i = buf' i) : e.length buf' pos = e.length buf pos := by
  cases e with
  | v => rfl
  | lv =>
    simp only [length] at h ⊢
    rw [hagree pos (by omega)]
  | lvE =>
    simp only [length] at h ⊢
    rw [hagree pos (by omega), hagree (pos + 1) (by omega)]

end Element

/-! ## Cursors -/

/-- The state of a walk over a buffer: the position, the counter of the octets left, one more than
the highest address read, whether a subtraction from the counter wrapped, and the number of optional
elements stored. -/
structure Cursor where
  pos : Nat
  left : UInt64
  extent : Nat
  wrapped : Bool
  stored : Nat
  deriving DecidableEq, Repr

namespace Cursor

/-- A walk that starts, with a message of `size` octets. -/
def start (size : UInt64) : Cursor := ⟨0, size, 0, false, 0⟩

variable (c : Cursor)

/-- Read `n` octets and step over them; a parser that keeps a counter subtracts them from it. -/
def pass (counted : Bool) (n : Nat) : Cursor where
  pos := c.pos + n
  left := if counted then c.left - UInt64.ofNat n else c.left
  extent := max c.extent (c.pos + n)
  wrapped := c.wrapped || (counted && decide (c.left.toNat < n))
  stored := c.stored

/-- Look for an optional element, of the length `len` when its type octet is there.  The counter is
only compared with zero. -/
def optional (len : Option Nat) : Cursor :=
  if c.left = 0 then c
  else
    match len with
    | none => { c with extent := max c.extent (c.pos + 1) }
    | some n => { c.pass true n with stored := c.stored + 1 }

/-- Hand the rest of the buffer to a callee, whose walk is `d`. -/
def call (d : Cursor) : Cursor where
  pos := c.pos + d.pos
  left := d.left
  extent := max c.extent (c.pos + d.extent)
  wrapped := c.wrapped || d.wrapped
  stored := c.stored + d.stored

/-- The walk over the mandatory elements of a message. -/
def elements (counted : Bool) (buf : Mem) (es : List Element) : Cursor :=
  es.foldl (fun c e => c.pass counted (e.length buf c.pos)) c

/-- The walk stayed inside a message of `total` octets and the counter never wrapped. -/
def Bounded (total : Nat) : Prop := c.extent ≤ total ∧ c.wrapped = false

instance (total : Nat) : Decidable (c.Bounded total) :=
  inferInstanceAs (Decidable (_ ∧ _))

/-- Inside a message of `total` octets with `n` of them left, which the counter knows if there is
one. -/
structure Within (counted : Bool) (total n : Nat) : Prop where
  pos : c.pos + n = total
  left : counted = true → c.left.toNat = n
  bounded : c.Bounded total

variable {c} {counted : Bool} {total n k : Nat} {buf : Mem}

theorem within_start (size : UInt64) : (start size).Within true size.toNat size.toNat :=
  ⟨Nat.zero_add _, fun _ => rfl, Nat.zero_le _, rfl⟩

/-- A parser may stop keeping the counter. -/
theorem Within.uncounted (h : c.Within true total n) : c.Within counted total n :=
  ⟨h.pos, fun _ => h.left rfl, h.bounded⟩

theorem Within.pass (h : c.Within counted total n) (hk : k ≤ n) : (c.pass counted k).Within counted total (n - k) := by
  have hpos := h.pos
  refine ⟨?_, ?_, ?_, ?_⟩
  · show c.pos + k + (n - k) = total
    omega
  · rintro rfl
    show (c.left - UInt64.ofNat k).toNat = n - k
    have hleft := h.left rfl
    have hof := UInt64.toNat_ofNat_of_lt' (Nat.lt_of_le_of_lt (hleft ▸ hk) c.left.toNat_lt)
    rw [UInt64.toNat_sub_of_le _ _ (UInt64.le_iff_toNat_le.mpr (by omega)), hof, hleft]
  · exact Nat.max_le.mpr ⟨h.bounded.1, by omega⟩
  · show (c.wrapped || (counted && decide (c.left.toNat < k))) = false
    rw [h.bounded.2]
    cases counted with
    | false => rfl
    | true => exact decide_eq_false (by rw [h.left rfl]; omega)

/-- An element that is longer than what is left is read to its end all the same. -/
theorem Within.lt_extent_pass (h : c.Within counted total n) (hk : n < k) : total < (c.pass counted k).extent := by
  have hpos := h.pos
  exact Nat.lt_of_lt_of_le (by omega) (Nat.le_max_right c.extent (c.pos + k))

theorem extent_le_pass : c.extent ≤ (c.pass counted k).extent := Nat.le_max_left _ _

theorem optional_of_zero (h : c.left = 0) (len : Option Nat) : c.optional len = c := if_pos h

theorem extent_le_optional (len : Option Nat) : c.extent ≤ (c.optional len).extent := by
  unfold optional
  split
  · exact Nat.le_refl _
  · split
    · exact Nat.le_max_left _ _
    · exact Nat.le_max_left _ _

theorem extent_le_elements (es : List Element) : c.extent ≤ (c.elements counted buf es).extent := by
  induction es generalizing c with
  | nil => exact Nat.le_refl _
  | cons e es ih => exact Nat.le_trans extent_le_pass ih

@[simp] theorem stored_elements (es : List Element) : (c.elements counted buf es).stored = c.stored := by
  induction es generalizing c with
  | nil => rfl
  | cons e es ih => exact ih

/-- Mandatory elements that are all there leave the walk inside the message, before the octets behind
them. -/
theorem Within.elements (h : c.Within counted total n) {es : List Element} {l : List UInt8}
    (hl : es.foldlM (fun l e => e.rest l) (buf.read c.pos n) = some l) :
    ∃ m, (c.elements counted buf es).Within counted total m ∧ l = buf.read (c.elements counted buf es).pos m := by
  induction es generalizing c n with
  | nil => exact ⟨n, h, (Option.some.inj hl).symm⟩
  | cons e es ih =>
    rw [List.foldlM_cons] at hl
    by_cases hk : e.length buf c.pos ≤ n
    · rw [Element.rest_read_of_le hk] at hl
      exact ih (h.pass hk) hl
    · rw [Element.rest_read_of_lt (Nat.lt_of_not_le hk)] at hl
      cases hl

/-- The walk over them reads nothing else. -/
theorem Within.elements_congr {buf' : Mem} (h : c.Within counted total n) {es : List Element} {l : List UInt8}
    (hl : es.foldlM (fun l e => e.rest l) (buf.read c.pos n) = some l) (hagree : ∀ i, i < total → buf i = buf' i) :
    c.elements counted buf' es = c.elements counted buf es := by
  induction es generalizing c n with
  | nil => rfl
  | cons e es ih =>
    rw [List.foldlM_cons] at hl
    by_cases hk : e.length buf c.pos ≤ n
    · have hpos := h.pos
      rw [Element.rest_read_of_le hk] at hl
      have hlen := Element.length_congr hk fun i hi => hagree i (by omega)
      simp only [Cursor.elements, List.foldl_cons, hlen]
      exact ih (h.pass hk) hl
    · rw [Element.rest_read_of_lt (Nat.lt_of_not_le hk)] at hl
      cases hl

/-- When one is cut off, the walk runs out of the message. -/
theorem Within.lt_extent_elements (h : c.Within counted total n) {es : List Element}
    (hl : es.foldlM (fun l e => e.rest l) (buf.read c.pos n) = none) :
    total < (c.elements counted buf es).extent := by
  induction es generalizing c n with
  | nil => cases hl
  | cons e es ih =>
    rw [List.foldlM_cons] at hl
    by_cases hk : e.length buf c.pos ≤ n
    · rw [Element.rest_read_of_le hk] at hl
      exact ih (h.pass hk) hl
    · exact Nat.lt_of_lt_of_le (h.lt_extent_pass (Nat.lt_of_not_le hk)) (extent_le_elements es)

/-- What a callee may read is what the caller has left. -/
theorem Within.bounded_call (h : c.Within counted total n) (d : Cursor) :
    (c.call d).Bounded total ↔ d.Bounded n := by
  have hpos := h.pos
  have hextent := h.bounded.1
  have hmax : max c.extent (c.pos + d.extent) ≤ total ↔ d.extent ≤ n := by
    omega
  show max c.extent (c.pos + d.extent) ≤ total ∧ (c.wrapped || d.wrapped) = false ↔ _
  rw [hmax, h.bounded.2]
  rfl

/-- A function that looks at the first `k` octets and hands the rest of the buffer to a callee. -/
theorem bounded_pass_call (size : UInt64) (k : Nat) (d : Cursor) :
    (((start size).pass true k).call d).Bounded size.toNat ↔ k ≤ size.toNat ∧ d.Bounded (size.toNat - k) := by
  by_cases hk : k ≤ size.toNat
  · rw [((within_start size).pass hk).bounded_call]
    exact ⟨fun h => ⟨hk, h⟩, fun h => h.2⟩
  · have hlt := (within_start size).lt_extent_pass (Nat.lt_of_not_le hk)
    exact ⟨fun h => absurd (Nat.le_trans (Nat.le_max_left _ _) h.1) (Nat.not_le_of_lt hlt), fun h => absurd h.1 hk⟩

@[simp] theorem stored_pass_call (size : UInt64) (k : Nat) (d : Cursor) :
    (((start size).pass true k).call d).stored = d.stored := Nat.zero_add _

theorem toNat_sub_ofNat {size : UInt64} (hk : k ≤ size.toNat) : (size - UInt64.ofNat k).toNat = size.toNat - k :=
  ((within_start size).pass hk).left rfl

end Cursor

end Base
