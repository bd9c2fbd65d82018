import AaltoMME.Base.Run

/-!
# Hash tables keyed by pointers

A GLib hash table stores the pointer that it is given as a key, together with the hash that the key had
at that time.  What the key points to is read again whenever it is compared, and only entries with the
right hash are compared.  So an entry can outlive the memory of its key, and a lookup that gets to it
then reads freed memory.  Inserting under a key that is present replaces the value but keeps the old
pointer.

Keys and values are identifiers of objects; `read` says what a key points to, or fails.
-/

namespace Base

/-- An entry: the stored hash, the key and the value. -/
structure PtrEntry (η : Type) where
  hash : η
  key : Nat
  value : Nat
  deriving DecidableEq, Repr

/-- A table whose keys have hashes in `η`. -/
abbrev PtrTable (η : Type) : Type := List (PtrEntry η)

namespace PtrTable

variable {κ η φ : Type} (hash : κ → η) (read : Nat → Except φ κ)

/-- Every key can be read and is stored under its hash, and no two entries have the same key. -/
structure Sound (t : PtrTable η) : Prop where
  reads : ∀ e ∈ t, ∃ k, read e.key = .ok k ∧ e.hash = hash k
  distinct : t.Pairwise fun e f => read e.key ≠ read f.key

namespace Sound

variable {hash read} {t : PtrTable η} {e : PtrEntry η} {k : κ} {key value : Nat}

theorem tail (h : Sound hash read (e :: t)) : Sound hash read t :=
  ⟨fun f hf => h.reads f (List.mem_cons_of_mem _ hf), (List.pairwise_cons.mp h.distinct).2⟩

theorem congr {read' : Nat → Except φ κ} (ht : Sound hash read t)
    (h : ∀ e ∈ t, read' e.key = read e.key) : Sound hash read' t := by
  refine ⟨fun e he => ?_, ht.distinct.imp_of_mem fun {a b} ha hb hab => ?_⟩
  · rw [h e he]
    exact ht.reads e he
  · rw [h a ha, h b hb]
    exact hab

theorem cons (h : Sound hash read t) (hk : read key = .ok k) (hne : ∀ f ∈ t, read f.key ≠ .ok k) :
    Sound hash read (⟨hash k, key, value⟩ :: t) := by
  refine ⟨List.forall_mem_cons.mpr ⟨⟨k, hk, rfl⟩, h.reads⟩, List.pairwise_cons.mpr ⟨fun f hf => ?_, h.distinct⟩⟩
  rw [hk]
  exact (hne f hf).symm

theorem erase [DecidableEq η] (h : Sound hash read t) (e : PtrEntry η) : Sound hash read (t.erase e) :=
  ⟨fun f hf => h.reads f (List.mem_of_mem_erase hf), h.distinct.sublist List.erase_sublist⟩

/-- The other entries have other keys. -/
theorem read_ne_of_mem_erase [DecidableEq η] (h : Sound hash read t) {f : PtrEntry η} (he : e ∈ t)
    (hf : f ∈ t.erase e) : read f.key ≠ read e.key := by
  have hperm := (List.perm_cons_erase he).pairwise_iff (R := fun a b : PtrEntry η => read a.key ≠ read b.key)
    fun hab => hab.symm
  exact ((List.pairwise_cons.mp (hperm.mp h.distinct)).1 f hf).symm

/-- Another value under the key of an entry. -/
theorem replace [DecidableEq η] (h : Sound hash read t) (he : e ∈ t) (value : Nat) :
    Sound hash read ({ e with value } :: t.erase e) := by
  refine ⟨List.forall_mem_cons.mpr ⟨h.reads e he, (h.erase e).reads⟩,
    List.pairwise_cons.mpr ⟨fun f hf => ?_, (h.erase e).distinct⟩⟩
  exact (h.read_ne_of_mem_erase he hf).symm

end Sound

/-- The table has a value under a key. -/
def Maps (t : PtrTable η) (k : κ) (value : Nat) : Prop := ∃ e ∈ t, read e.key = .ok k ∧ e.value = value

theorem Maps.congr {read read' : Nat → Except φ κ} {t : PtrTable η} {k : κ} {value : Nat}
    (h : ∀ e ∈ t, read' e.key = read e.key) : Maps read' t k value ↔ Maps read t k value :=
  exists_congr fun e => and_congr_right fun he => by rw [h e he]

variable [DecidableEq κ] [DecidableEq η]

/-- The entry under a key. -/
def find (k : κ) : PtrTable η → Except φ (Option (PtrEntry η))
  | [] => .ok none
  | e :: t =>
    if e.hash = hash k then do
      let k' ← read e.key
      if k' = k then .ok (some e) else find k t
    else find k t

/-- `g_hash_table_lookup`. -/
def lookup (t : PtrTable η) (k : κ) : Except φ (Option Nat) := do
  let e ← find hash read k t
  pure (e.map PtrEntry.value)

/-- `g_hash_table_insert` of a value under a pointer to `k`: the table, and the value that was
replaced. -/
def insert (t : PtrTable η) (k : κ) (key value : Nat) : Except φ (PtrTable η × Option Nat) := do
  match ← find hash read k t with
  | none => pure (⟨hash k, key, value⟩ :: t, none)
  | some e => pure ({ e with value } :: t.erase e, some e.value)

/-- `g_hash_table_remove`: the table, and the value that was removed. -/
def remove (t : PtrTable η) (k : κ) : Except φ (PtrTable η × Option Nat) := do
  match ← find hash read k t with
  | none => pure (t, none)
  | some e => pure (t.erase e, some e.value)

variable {hash read} {t : PtrTable η} {e : PtrEntry η} {k : κ} {key value : Nat}

theorem find_eq_some (h : Sound hash read t) (he : e ∈ t) (hk : read e.key = .ok k) :
    find hash read k t = .ok (some e) := by
  induction t with
  | nil => cases he
  | cons f t ih =>
    obtain ⟨k', hk', hf⟩ := h.reads f List.mem_cons_self
    obtain ⟨hne, -⟩ := List.pairwise_cons.mp h.distinct
    rcases List.mem_cons.mp he with rfl | he
    · cases hk.symm.trans hk'
      simp [find, hf, hk]
    · have hkk : k' ≠ k := by
        rintro rfl
        exact hne e he (hk'.trans hk.symm)
      simp [find, hk', hkk, ih h.tail he]

theorem find_eq_none (h : Sound hash read t) (hk : ∀ e ∈ t, read e.key ≠ .ok k) :
    find hash read k t = .ok none := by
  induction t with
  | nil => rfl
  | cons f t ih =>
    obtain ⟨k', hk', -⟩ := h.reads f List.mem_cons_self
    have hkk : k' ≠ k := by
      rintro rfl
      exact hk f List.mem_cons_self hk'
    simp [find, hk', hkk, ih h.tail fun e he => hk e (List.mem_cons_of_mem _ he)]

/-- What is found is in the table, under the key. -/
theorem mem_of_find (h : find hash read k t = .ok (some e)) : e ∈ t ∧ read e.key = .ok k := by
  induction t with
  | nil => cases h
  | cons f t ih =>
    unfold find at h
    split at h
    · obtain ⟨k', hk', h⟩ := bind_eq_ok.mp h
      split at h
      · rename_i hkk
        cases Except.ok.inj h
        exact ⟨List.mem_cons_self, hkk ▸ hk'⟩
      · exact (ih h).imp_left (List.mem_cons_of_mem _)
    · exact (ih h).imp_left (List.mem_cons_of_mem _)

theorem lookup_eq_some (h : Sound hash read t) (he : e ∈ t) (hk : read e.key = .ok k) :
    lookup hash read t k = .ok (some e.value) := by
  simp [lookup, find_eq_some h he hk]

theorem insert_eq_of_new (h : Sound hash read t) (hk : ∀ e ∈ t, read e.key ≠ .ok k) (key value : Nat) :
    insert hash read t k key value = .ok (⟨hash k, key, value⟩ :: t, none) := by
  simp [insert, find_eq_none h hk]

theorem remove_eq (h : Sound hash read t) (he : e ∈ t) (hk : read e.key = .ok k) :
    remove hash read t k = .ok (t.erase e, some e.value) := by
  simp [remove, find_eq_some h he hk]

/-! ## What a sound table answers -/

/-- A lookup in a sound table does not fail. -/
theorem find_cases (h : Sound hash read t) (k : κ) :
    (find hash read k t = .ok none ∧ ∀ e ∈ t, read e.key ≠ .ok k) ∨
      ∃ e ∈ t, read e.key = .ok k ∧ find hash read k t = .ok (some e) := by
  by_cases hk : ∃ e ∈ t, read e.key = .ok k
  · obtain ⟨e, he, hek⟩ := hk
    exact .inr ⟨e, he, hek, find_eq_some h he hek⟩
  · have hne : ∀ e ∈ t, read e.key ≠ .ok k := fun e he hek => hk ⟨e, he, hek⟩
    exact .inl ⟨find_eq_none h hne, hne⟩

/-- What a lookup answers. -/
theorem lookup_eq_some_iff (h : Sound hash read t) : lookup hash read t k = .ok (some value) ↔ Maps read t k value := by
  constructor
  · intro hlookup
    obtain ⟨o, hfind, hvalue⟩ := bind_eq_ok.mp hlookup
    obtain ⟨e, rfl, he⟩ := Option.map_eq_some_iff.mp (Except.ok.inj hvalue)
    exact ⟨e, (mem_of_find hfind).1, (mem_of_find hfind).2, he⟩
  · rintro ⟨e, he, hk, rfl⟩
    exact lookup_eq_some h he hk

/-- An insertion leaves a sound table, whose keys are the old ones and perhaps the new one; the new value stands
under the key, and the entries under other keys are left. -/
theorem insert_of_sound (h : Sound hash read t) (hk : read key = .ok k) (value : Nat) :
    ∃ t' old, insert hash read t k key value = .ok (t', old) ∧ Sound hash read t' ∧
      (∀ f ∈ t', f.key = key ∨ ∃ e ∈ t, e.key = f.key) ∧
      (∀ f ∈ t', (f.value = value ∧ read f.key = .ok k) ∨ (f ∈ t ∧ read f.key ≠ .ok k)) ∧
      Maps read t' k value ∧ ∀ f ∈ t, read f.key ≠ .ok k → f ∈ t' := by
  rcases find_cases h k with ⟨-, hne⟩ | ⟨e, he, hek, hfind⟩
  · refine ⟨_, _, insert_eq_of_new h hne key value, h.cons hk hne, ?_, ?_, ?_, ?_⟩
    · exact List.forall_mem_cons.mpr ⟨.inl rfl, fun f hf => .inr ⟨f, hf, rfl⟩⟩
    · exact List.forall_mem_cons.mpr ⟨.inl ⟨rfl, hk⟩, fun f hf => .inr ⟨hf, hne f hf⟩⟩
    · exact ⟨_, List.mem_cons_self, hk, rfl⟩
    · exact fun f hf _ => List.mem_cons_of_mem _ hf
  · refine ⟨_, _, by rw [insert, hfind]; rfl, h.replace he value, ?_, ?_, ?_, ?_⟩
    · exact List.forall_mem_cons.mpr ⟨.inr ⟨e, he, rfl⟩, fun f hf => .inr ⟨f, List.mem_of_mem_erase hf, rfl⟩⟩
    · refine List.forall_mem_cons.mpr ⟨.inl ⟨rfl, hek⟩, fun f hf => .inr ⟨List.mem_of_mem_erase hf, ?_⟩⟩
      rw [← hek]
      exact h.read_ne_of_mem_erase he hf
    · exact ⟨_, List.mem_cons_self, hek, rfl⟩
    · refine fun f hf hfk => List.mem_cons_of_mem _ ((List.mem_erase_of_ne ?_).mpr hf)
      rintro rfl
      exact hfk hek

/-- A removal leaves the entries under other keys. -/
theorem remove_of_sound (h : Sound hash read t) (k : κ) :
    ∃ t' old, remove hash read t k = .ok (t', old) ∧ Sound hash read t' ∧
      ∀ f, f ∈ t' ↔ f ∈ t ∧ read f.key ≠ .ok k := by
  rcases find_cases h k with ⟨hfind, hne⟩ | ⟨e, he, hek, -⟩
  · exact ⟨t, none, by rw [remove, hfind]; rfl, h, fun f => ⟨fun hf => ⟨hf, hne f hf⟩, And.left⟩⟩
  · refine ⟨_, _, remove_eq h he hek, h.erase e, fun f => ⟨fun hf => ⟨List.mem_of_mem_erase hf, ?_⟩, ?_⟩⟩
    · rw [← hek]
      exact h.read_ne_of_mem_erase he hf
    · rintro ⟨hf, hfk⟩
      refine (List.mem_erase_of_ne ?_).mpr hf
      rintro rfl
      exact hfk hek

end PtrTable

end Base
