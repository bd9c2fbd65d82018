import AaltoMME.Base.PtrTable

/-!
# Indexes

A table keyed by pointers is the index of a set of objects if each object of the set is in it as its own value,
under the key that is read from it, and nothing else is.  Then a lookup finds the object with a key, and the
table stays the index of its set when an object with a new key comes or an object goes.  When an object comes
with the key of another one, the entry of the other one is reused: it leads to the new object and is compared
with the key of the old one.
-/

namespace Base

namespace PtrTable

variable {κ η φ : Type} (hash : κ → η) (read : Nat → Except φ κ)

/-- The table is the index of the objects in `L`. -/
structure Indexes (L : Nat → Prop) (t : PtrTable η) : Prop where
  sound : Sound hash read t
  self : ∀ e ∈ t, e.value = e.key
  mem : ∀ i, L i ↔ ∃ e ∈ t, e.key = i

namespace Indexes

variable {hash read} {L : Nat → Prop} {t : PtrTable η} {i j : Nat} {k : κ}

theorem nil (hL : ∀ i, ¬ L i) : Indexes hash read L [] where
  sound := ⟨nofun, List.Pairwise.nil⟩
  self := nofun
  mem i := ⟨fun h => absurd h (hL i), nofun⟩

/-- The keys of the objects are as they were. -/
theorem congr {read' : Nat → Except φ κ} {L' : Nat → Prop} (h : Indexes hash read L t) (hL : ∀ i, L' i ↔ L i)
    (hread : ∀ i, L i → read' i = read i) : Indexes hash read' L' t where
  sound := h.sound.congr fun e he => hread e.key ((h.mem _).mpr ⟨e, he, rfl⟩)
  self := h.self
  mem i := (hL i).trans (h.mem i)

section Keys

variable [DecidableEq κ] [DecidableEq η]

/-- Two objects have two keys. -/
theorem eq_of_read (h : Indexes hash read L t) (hi : L i) (hj : L j) (hik : read i = .ok k) (hjk : read j = .ok k) :
    i = j := by
  obtain ⟨e, he, rfl⟩ := (h.mem i).mp hi
  obtain ⟨f, hf, rfl⟩ := (h.mem j).mp hj
  have hef := (find_eq_some h.sound he hik).symm.trans (find_eq_some h.sound hf hjk)
  cases Except.ok.inj hef
  rfl

theorem lookup_eq (h : Indexes hash read L t) (hi : L i) (hk : read i = .ok k) :
    lookup hash read t k = .ok (some i) := by
  obtain ⟨e, he, rfl⟩ := (h.mem i).mp hi
  rw [lookup_eq_some h.sound he hk, h.self e he]

/-- A lookup finds the object with the key, or nothing. -/
theorem lookup_cases (h : Indexes hash read L t) (k : κ) :
    lookup hash read t k = .ok none ∨ ∃ i, L i ∧ read i = .ok k ∧ lookup hash read t k = .ok (some i) := by
  rcases find_cases h.sound k with ⟨hfind, -⟩ | ⟨e, he, hek, hfind⟩
  · exact .inl (by rw [lookup, hfind]; rfl)
  · refine .inr ⟨e.key, (h.mem _).mpr ⟨e, he, rfl⟩, hek, ?_⟩
    exact h.lookup_eq ((h.mem _).mpr ⟨e, he, rfl⟩) hek

/-- An object with a new key. -/
theorem insert_new (h : Indexes hash read L t) (hk : read i = .ok k) (hnew : ∀ j, L j → read j ≠ .ok k) :
    ∃ t', insert hash read t k i i = .ok (t', none) ∧ Indexes hash read (fun j => j = i ∨ L j) t' := by
  have hne : ∀ e ∈ t, read e.key ≠ .ok k := fun e he => hnew e.key ((h.mem _).mpr ⟨e, he, rfl⟩)
  refine ⟨_, insert_eq_of_new h.sound hne i i, h.sound.cons hk hne, List.forall_mem_cons.mpr ⟨rfl, h.self⟩, ?_⟩
  intro j
  rw [h.mem j]
  constructor
  · rintro (rfl | ⟨e, he, hej⟩)
    · exact ⟨_, List.mem_cons_self, rfl⟩
    · exact ⟨e, List.mem_cons_of_mem _ he, hej⟩
  · rintro ⟨e, he, rfl⟩
    rcases List.mem_cons.mp he with rfl | he
    · exact .inl rfl
    · exact .inr ⟨e, he, rfl⟩

/-- An object with the key of another one, whose entry it takes. -/
theorem insert_used (h : Indexes hash read L t) (hj : L j) (hjk : read j = .ok k) (i : Nat) :
    ∃ t', insert hash read t k i i = .ok (⟨hash k, j, i⟩ :: t', some j) := by
  obtain ⟨e, he, rfl⟩ := (h.mem j).mp hj
  obtain ⟨k', hk', hhash⟩ := h.sound.reads e he
  cases hjk.symm.trans hk'
  exact ⟨t.erase e, by simp [insert, find_eq_some h.sound he hjk, hhash, h.self e he]⟩

/-- An object goes. -/
theorem remove_eq (h : Indexes hash read L t) (hi : L i) (hk : read i = .ok k) :
    ∃ t', remove hash read t k = .ok (t', some i) ∧ Indexes hash read (fun j => j ≠ i ∧ L j) t' := by
  obtain ⟨e, he, rfl⟩ := (h.mem i).mp hi
  refine ⟨t.erase e, by rw [PtrTable.remove_eq h.sound he hk, h.self e he], h.sound.erase e,
    fun f hf => h.self f (List.mem_of_mem_erase hf), fun j => ?_⟩
  rw [h.mem j]
  constructor
  · rintro ⟨hne, f, hf, rfl⟩
    have hfe : f ≠ e := by
      rintro rfl
      exact hne rfl
    exact ⟨f, (List.mem_erase_of_ne hfe).mpr hf, rfl⟩
  · rintro ⟨f, hf, rfl⟩
    refine ⟨fun heq => h.sound.read_ne_of_mem_erase he hf (congrArg read heq), f, List.mem_of_mem_erase hf, rfl⟩

end Keys

end Indexes

end PtrTable

end Base
