import Mathlib.Algebra.Group.Nat.Defs
import Mathlib.Data.List.Nodup

/-!
# Hash tables

A hash table is a list of entries in an order that says nothing; a key occurs at most once.
Inserting under a key that is present replaces the value.  Whatever walks through a table does so in
an unspecified order, which is a parameter: a `HashOrder` arranges any list of identifiers.
-/

namespace Base

universe u v

variable {κ : Type u} {α : Type v} [DecidableEq κ]

/-- A table with keys in `κ` and values in `α`. -/
abbrev Table (κ : Type u) (α : Type v) : Type (max u v) := List (κ × α)

namespace Table

variable (t : Table κ α) (k k' : κ) (a : α)

/-- The value under a key. -/
def get : Option α := (List.find? (fun e => e.1 = k) t).map (·.2)

/-- Remove a key and its value. -/
def remove : Table κ α := List.filter (fun e => e.1 ≠ k) t

/-- Put a value under a key, in place of the one that was there. -/
def insert : Table κ α := (k, a) :: t.remove k

@[simp] theorem get_nil : get ([] : Table κ α) k = none := rfl

@[simp] theorem get_insert_self : (t.insert k a).get k = some a := by
  simp [get, insert]

theorem get_remove_self : (t.remove k).get k = none := by
  simp [get, remove]

theorem get_remove_of_ne (h : k' ≠ k) : (t.remove k).get k' = t.get k' := by
  have hpred : (fun e : κ × α => decide (decide (e.1 ≠ k) = true ∧ decide (e.1 = k') = true)) =
      fun e => decide (e.1 = k') := by
    funext e
    by_cases he : e.1 = k'
    · simp [he, h]
    · simp [he]
  rw [get, remove, List.find?_filter, hpred, get]

theorem get_insert_of_ne (h : k' ≠ k) : (t.insert k a).get k' = t.get k' := by
  rw [← get_remove_of_ne t k k' h]
  simp [get, insert, Ne.symm h]

theorem remove_insert_self : (t.insert k a).remove k = t.remove k := by
  simp [insert, remove]

variable {t k a}

theorem mem_of_get (h : t.get k = some a) : (k, a) ∈ t := by
  obtain ⟨e, he, rfl⟩ := Option.map_eq_some_iff.mp h
  have hk : e.1 = k := by simpa using List.find?_some he
  exact hk ▸ List.mem_of_find?_eq_some he

theorem mem_remove {e : κ × α} : e ∈ t.remove k ↔ e ∈ t ∧ e.1 ≠ k := by
  simp [remove]

theorem mem_insert {e : κ × α} : e ∈ t.insert k a ↔ e = (k, a) ∨ e ∈ t ∧ e.1 ≠ k := by
  rw [insert, List.mem_cons, mem_remove]

theorem remove_eq_self (h : t.get k = none) : t.remove k = t := by
  refine List.filter_eq_self.mpr fun e he => ?_
  have hnone := List.find?_eq_none.mp (Option.map_eq_none_iff.mp h) e he
  simpa using hnone

/-! Tables in which no key occurs twice. -/

theorem nodup_remove (h : (t.map Prod.fst).Nodup) (k : κ) : ((t.remove k).map Prod.fst).Nodup :=
  h.sublist (List.Sublist.map _ List.filter_sublist)

theorem nodup_insert (h : (t.map Prod.fst).Nodup) (k : κ) (a : α) : ((t.insert k a).map Prod.fst).Nodup := by
  refine List.nodup_cons.mpr ⟨fun hk => ?_, nodup_remove h k⟩
  obtain ⟨e, he, hek⟩ := List.mem_map.mp hk
  have hne : e.1 ≠ k := by simpa using (List.mem_filter.mp he).2
  exact hne hek

theorem get_of_mem (hn : (t.map Prod.fst).Nodup) (h : (k, a) ∈ t) : t.get k = some a := by
  induction t with
  | nil => cases h
  | cons e t ih =>
    obtain ⟨he, hn⟩ := List.nodup_cons.mp hn
    rcases List.mem_cons.mp h with rfl | h
    · simp [get]
    · have hne : e.1 ≠ k := by
        rintro rfl
        exact he (List.mem_map.mpr ⟨_, h, rfl⟩)
      simpa [get, hne] using ih hn h

/-- A table is one of its entries and the rest. -/
theorem perm_cons_remove (hn : (t.map Prod.fst).Nodup) (h : t.get k = some a) : t.Perm ((k, a) :: t.remove k) := by
  induction t with
  | nil => cases h
  | cons e t ih =>
    obtain ⟨he, hn⟩ := List.nodup_cons.mp hn
    by_cases hk : e.1 = k
    · subst hk
      have ha : e.2 = a := by simpa [get] using h
      have hnone : get t e.1 = none := by
        cases hget : get t e.1 with
        | none => rfl
        | some b => exact absurd (List.mem_map.mpr ⟨_, mem_of_get hget, rfl⟩) he
      have hrest : remove (e :: t) e.1 = t := by
        rw [← remove_eq_self hnone]
        simp [remove]
      rw [hrest, ← ha]
    · have hrest : remove (e :: t) k = e :: remove t k := by
        simp [remove, hk]
      rw [hrest]
      exact ((ih hn (by simpa [get, hk] using h)).cons e).trans (.swap ..)

end Table

/-- Writing back an element of a list in which no key occurs twice. -/
theorem map_replace_self {key : α → κ} {l : List α} {a : α} (hn : (l.map key).Nodup) (ha : a ∈ l) :
    (l.map fun b => if key b = key a then a else b) = l := by
  have hself : ∀ b ∈ l, (if key b = key a then a else b) = b := by
    intro b hb
    split
    · exact List.inj_on_of_nodup_map hn ha hb (‹key b = key a›).symm
    · rfl
  rw [List.map_congr_left hself, List.map_id']

/-- An unspecified order of iteration. -/
def HashOrder : Type := {f : List Nat → List Nat // ∀ l, (f l).Perm l}

namespace HashOrder

instance : Inhabited HashOrder := ⟨⟨id, fun _ => .refl _⟩⟩

instance : CoeFun HashOrder fun _ => List Nat → List Nat := ⟨Subtype.val⟩

variable (o : HashOrder)

theorem perm (l : List Nat) : (o l).Perm l := o.2 l

@[simp] theorem apply_nil : o [] = [] := (o.perm []).eq_nil

@[simp] theorem apply_singleton (n : Nat) : o [n] = [n] := List.perm_singleton.mp (o.perm [n])

@[simp] theorem mem_apply {n : Nat} {l : List Nat} : n ∈ o l ↔ n ∈ l := (o.perm l).mem_iff

@[simp] theorem apply_eq_nil {l : List Nat} : o l = [] ↔ l = [] :=
  ⟨fun h => by simpa [h] using (o.perm l).symm, fun h => by simp [h]⟩

end HashOrder

end Base
