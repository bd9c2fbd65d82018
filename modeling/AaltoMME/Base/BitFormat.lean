import AaltoMME.Base.BitString

/-!
# Formats that depend on the position

Where a format has alignments, the bits that are written depend on the position of the first of them.
A format is a function from that position to a string of bits, and formats are put in sequence by moving
the second one to the end of the first.
-/

namespace Base

/-- The bits that are written from a position on. -/
abbrev BitFormat : Type := Nat → List Bool

namespace BitFormat

variable (f g h : BitFormat)

/-- Nothing is written. -/
def nil : BitFormat := fun _ => []

/-- The same bits at every position. -/
def raw (l : List Bool) : BitFormat := fun _ => l

/-- Zeros up to the next octet. -/
def align : BitFormat := fun p => List.replicate ((8 - p % 8) % 8) false

/-- One format and then another. -/
def seq : BitFormat := fun p => f p ++ g (p + (f p).length)

/-- Formats one after the other. -/
def concat (l : List BitFormat) : BitFormat := l.foldr seq nil

/-- The position after a format. -/
def stop (p : Nat) : Nat := p + (f p).length

@[simp] theorem stop_nil (p : Nat) : nil.stop p = p := rfl

@[simp] theorem stop_raw (l : List Bool) (p : Nat) : (raw l).stop p = p + l.length := rfl

@[simp] theorem stop_seq (p : Nat) : (f.seq g).stop p = g.stop (f.stop p) := by
  simp [stop, seq, Nat.add_assoc]

theorem stop_align (p : Nat) : align.stop p = p + (8 - p % 8) % 8 := by simp [stop, align]

theorem stop_align_mod (p : Nat) : align.stop p % 8 = 0 := by
  rw [stop_align]
  omega

theorem le_stop (p : Nat) : p ≤ f.stop p := Nat.le_add_right ..

@[simp] theorem concat_nil : concat [] = nil := rfl

@[simp] theorem concat_cons (l : List BitFormat) : concat (f :: l) = f.seq (concat l) := rfl

@[simp] theorem nil_seq : nil.seq f = f := rfl

@[simp] theorem seq_nil : f.seq nil = f := by
  funext p
  simp [seq, nil]

theorem seq_assoc : (f.seq g).seq h = f.seq (g.seq h) := by
  funext p
  simp [seq, Nat.add_assoc]

theorem concat_append (l l' : List BitFormat) : concat (l ++ l') = (concat l).seq (concat l') := by
  induction l with
  | nil => rfl
  | cons f l ih => rw [List.cons_append, concat_cons, ih, concat_cons, seq_assoc]

/-- Formats of at least `n` bits each. -/
theorem le_stop_concat {l : List BitFormat} {n : Nat} (h : ∀ f ∈ l, ∀ p, p + n ≤ f.stop p) (p : Nat) :
    p + n * l.length ≤ (concat l).stop p := by
  induction l generalizing p with
  | nil => exact le_rfl
  | cons f l ih =>
    have hf := h f List.mem_cons_self p
    have hl := ih (fun g hg => h g (List.mem_cons_of_mem f hg)) (f.stop p)
    rw [concat_cons, stop_seq, List.length_cons, Nat.mul_succ]
    omega

/-- A memory holds a format at a position. -/
def At (m : Mem) (p : Nat) : Prop := m.bits p (f p).length = f p

variable {f g} {m m' : Mem} {p : Nat}

theorem at_seq : (f.seq g).At m p ↔ f.At m p ∧ g.At m (f.stop p) := by
  unfold At seq stop
  rw [List.length_append, Mem.bits_add]
  refine ⟨fun h => List.append_inj h (by simp), fun h => ?_⟩
  rw [h.1, h.2]

theorem at_raw {l : List Bool} : (raw l).At m p ↔ m.bits p l.length = l := Iff.rfl

/-- A memory that has the same bits holds the same format. -/
theorem At.congr (h : f.At m p) (heq : ∀ i, p ≤ i → i < f.stop p → m'.bit i = m.bit i) : f.At m' p := by
  refine Eq.trans (Mem.bits_congr fun k hk => ?_) h
  exact heq _ (Nat.le_add_right ..) (Nat.add_lt_add_left hk p)

/-- The padding is zero. -/
theorem At.bit_align (h : align.At m p) {i : Nat} (hi : i < (8 - p % 8) % 8) : m.bit (p + i) = false := by
  have hbits : m.bits p ((8 - p % 8) % 8) = List.replicate ((8 - p % 8) % 8) false := by
    rw [At, align, List.length_replicate] at h
    exact h
  have hbit := m.getElem?_bits (i := p) hi
  rw [hbits, List.getElem?_replicate, if_pos hi] at hbit
  exact (Option.some.inj hbit).symm

/-- A format takes at most `n` bits, wherever it starts. -/
def AtMost (f : BitFormat) (n : Nat) : Prop := ∀ p, f.stop p ≤ p + n

theorem AtMost.mono {n n' : Nat} (h : f.AtMost n) (hle : n ≤ n') : f.AtMost n' := fun p =>
  (h p).trans (Nat.add_le_add_left hle p)

theorem atMost_nil : nil.AtMost 0 := Nat.le_refl

theorem atMost_raw (l : List Bool) : (raw l).AtMost l.length := fun _ => le_rfl

theorem atMost_align : align.AtMost 7 := fun p => by
  rw [stop_align]
  omega

theorem AtMost.seq {n n' : Nat} (h : f.AtMost n) (h' : g.AtMost n') : (f.seq g).AtMost (n + n') := fun p => by
  have hf := h p
  have hg := h' (f.stop p)
  rw [stop_seq]
  omega

end BitFormat

end Base
