import Mathlib.Data.List.Basic

/-!
# Runs of a fallible transition function

A system is given by a transition function `step : σ → ε → Except φ σ`: an event either fails or
leads to one next state.  A run is a finite sequence of events, none of which failed.  The rules
below are the only inductions over runs that the rest of the development needs: an invariant that
every step preserves holds at the end of every run, and so does one that is preserved by the steps
that meet a side condition, in every run whose steps all meet it.
-/

namespace Base

universe u v

section Bind

variable {φ : Type u} {α β : Type v}

/-- A computation that ends well went through an intermediate value. -/
theorem bind_eq_ok {x : Except φ α} {f : α → Except φ β} {b : β} :
    (x >>= f) = .ok b ↔ ∃ a, x = .ok a ∧ f a = .ok b := by
  cases x with
  | error e => simp [bind, Except.bind]
  | ok a => simp [bind, Except.bind]

@[simp] theorem ok_bind (a : α) (f : α → Except φ β) : ((.ok a : Except φ α) >>= f) = f a := rfl

@[simp] theorem error_bind (e : φ) (f : α → Except φ β) :
    ((.error e : Except φ α) >>= f) = .error e := rfl

@[simp] theorem pure_eq_ok (a : α) : (pure a : Except φ α) = .ok a := rfl

/-- `Post x Q`: if the computation `x` does not fail, its result satisfies `Q`. -/
def Post (x : Except φ α) (Q : α → Prop) : Prop := ∀ a, x = .ok a → Q a

@[simp] theorem post_ok {a : α} {Q : α → Prop} : Post (.ok a : Except φ α) Q ↔ Q a := by
  simp [Post]

theorem Post.ok {a : α} {Q : α → Prop} (h : Q a) : Post (.ok a : Except φ α) Q := post_ok.mpr h

@[simp] theorem Post.error {e : φ} {Q : α → Prop} : Post (.error e : Except φ α) Q := by
  simp [Post]

/-- The rule of sequencing: a midcondition of the first part that is a precondition of the
second. -/
theorem Post.bind {x : Except φ α} {f : α → Except φ β} {Q : α → Prop} {R : β → Prop}
    (hx : Post x Q) (hf : ∀ a, Q a → Post (f a) R) : Post (x >>= f) R := by
  intro b hb
  obtain ⟨a, ha, hfa⟩ := bind_eq_ok.mp hb
  exact hf a (hx a ha) b hfa

/-- Sequencing after a computation about which nothing needs to be known. -/
theorem Post.of_bind {x : Except φ α} {f : α → Except φ β} {R : β → Prop}
    (hf : ∀ a, Post (f a) R) : Post (x >>= f) R := by
  intro b hb
  obtain ⟨a, -, hfa⟩ := bind_eq_ok.mp hb
  exact hf a b hfa

/-- Sequencing after a computation whose result is remembered. -/
theorem Post.bind_of_eq {x : Except φ α} {f : α → Except φ β} {R : β → Prop}
    (hf : ∀ a, x = .ok a → Post (f a) R) : Post (x >>= f) R := by
  intro b hb
  obtain ⟨a, ha, hfa⟩ := bind_eq_ok.mp hb
  exact hf a ha b hfa

/-- The rule of consequence. -/
theorem Post.mono {x : Except φ α} {Q R : α → Prop} (hx : Post x Q) (h : ∀ a, Q a → R a) :
    Post x R :=
  fun a ha => h a (hx a ha)

theorem Post.and {x : Except φ α} {Q R : α → Prop} (hQ : Post x Q) (hR : Post x R) :
    Post x fun a => Q a ∧ R a :=
  fun a ha => ⟨hQ a ha, hR a ha⟩

theorem Post.ite {c : Prop} [Decidable c] {x y : Except φ α} {Q : α → Prop}
    (hx : c → Post x Q) (hy : ¬ c → Post y Q) : Post (if c then x else y) Q := by
  split
  · exact hx ‹_›
  · exact hy ‹_›

/-- The rule of loops. -/
theorem Post.foldlM {γ : Type*} {f : α → γ → Except φ α} {I : α → Prop} (hf : ∀ a b, I a → Post (f a b) I)
    (l : List γ) {a : α} (ha : I a) : Post (l.foldlM f a) I := by
  induction l generalizing a with
  | nil => exact .ok ha
  | cons b l ih =>
    exact (hf a b ha).bind fun _ => ih

/-- What holds before the rounds of a loop: `R a b` before the round with `b`. -/
def Along {γ : Type*} (f : α → γ → Except φ α) (R : α → γ → Prop) : α → List γ → Prop
  | _, [] => True
  | a, b :: l => R a b ∧ ∀ a', f a b = .ok a' → Along f R a' l

instance decidableAlong {γ : Type*} (f : α → γ → Except φ α) (R : α → γ → Prop) [∀ a b, Decidable (R a b)] :
    ∀ (a : α) (l : List γ), Decidable (Along f R a l)
  | _, [] => .isTrue trivial
  | a, b :: l =>
    match h : f a b with
    | .ok a' =>
      have := decidableAlong f R a' l
      decidable_of_iff (R a b ∧ Along f R a' l) (by simp [Along, h])
    | .error _ => decidable_of_iff (R a b) (by simp [Along, h])

theorem Along.of_forall {γ : Type*} {f : α → γ → Except φ α} {R : α → γ → Prop} (h : ∀ a b, R a b) (a : α)
    (l : List γ) : Along f R a l := by
  induction l generalizing a with
  | nil => trivial
  | cons b l ih => exact ⟨h a b, fun a' _ => ih a'⟩

/-- The rule of loops whose rounds each meet a condition. -/
theorem Post.foldlM_along {γ : Type*} {f : α → γ → Except φ α} {I : α → Prop} {R : α → γ → Prop}
    (hf : ∀ a b, I a → R a b → Post (f a b) I) (l : List γ) {a : α} (ha : I a) (h : Along f R a l) :
    Post (l.foldlM f a) I := by
  induction l generalizing a with
  | nil => exact .ok ha
  | cons b l ih =>
    exact .bind_of_eq fun a' ha' => ih (hf a b ha h.1 a' ha') (h.2 a' ha')

/-- `Avoids B x`: the computation `x` does not end in one of the failures `B`. -/
def Avoids (B : φ → Prop) (x : Except φ α) : Prop := ∀ e, x = .error e → ¬ B e

section Avoids

variable {B : φ → Prop}

@[simp] theorem Avoids.ok {a : α} : Avoids B (.ok a : Except φ α) := nofun

@[simp] theorem avoids_error {e : φ} : Avoids B (.error e : Except φ α) ↔ ¬ B e := by
  simp [Avoids]

/-- A sequence avoids the failures if each part does where it is reached. -/
theorem avoids_bind {x : Except φ α} {f : α → Except φ β} :
    Avoids B (x >>= f) ↔ Avoids B x ∧ ∀ a, x = .ok a → Avoids B (f a) := by
  cases x with
  | error e => simp
  | ok a => simp

theorem Avoids.bind {x : Except φ α} {f : α → Except φ β} (hx : Avoids B x)
    (hf : ∀ a, Avoids B (f a)) : Avoids B (x >>= f) :=
  avoids_bind.mpr ⟨hx, fun a _ => hf a⟩

theorem Avoids.ite {c : Prop} [Decidable c] {x y : Except φ α} (hx : c → Avoids B x)
    (hy : ¬ c → Avoids B y) : Avoids B (if c then x else y) := by
  split
  · exact hx ‹_›
  · exact hy ‹_›

theorem Avoids.foldlM {γ : Type*} {f : α → γ → Except φ α} (hf : ∀ a b, Avoids B (f a b)) (l : List γ)
    (a : α) : Avoids B (l.foldlM f a) := by
  induction l generalizing a with
  | nil => exact .ok
  | cons b l ih =>
    exact (hf a b).bind ih

end Avoids

/-- What every step of a fold commutes with, the fold commutes with. -/
theorem foldlM_map {γ : Type*} {f : α → γ → Except φ α} {g : α → α} (hf : ∀ a b, f (g a) b = (f a b).map g)
    (l : List γ) (a : α) : l.foldlM f (g a) = (l.foldlM f a).map g := by
  induction l generalizing a with
  | nil => rfl
  | cons b l ih =>
    rw [List.foldlM_cons, List.foldlM_cons, hf]
    cases f a b with
    | error => rfl
    | ok a' => exact ih a'

end Bind

variable {σ ε φ : Type*}

/-- The runs of `step` from `s`, with the events taken, in which every step met `Q`. -/
inductive Run (step : σ → ε → Except φ σ) (Q : σ → ε → Prop) (s : σ) : List ε → σ → Prop
  | nil : Run step Q s [] s
  | snoc {es : List ε} {t u : σ} {e : ε} :
      Run step Q s es t → Q t e → step t e = .ok u → Run step Q s (es ++ [e]) u

namespace Run

variable {step : σ → ε → Except φ σ} {Q Q' : σ → ε → Prop} {s t u : σ} {es es' : List ε} {e : ε}

/-- The invariant rule: what holds at the start and is kept by every step that meets the side
condition holds at the end. -/
theorem invariant {I : σ → Prop} (hstep : ∀ t e u, I t → Q t e → step t e = .ok u → I u)
    (h : Run step Q s es t) (h₀ : I s) : I t := by
  induction h with
  | nil => exact h₀
  | snoc _ hq hu ih => exact hstep _ _ _ ih hq hu

/-- Weakening the side condition. -/
theorem mono (hQ : ∀ t e, Q t e → Q' t e) (h : Run step Q s es t) : Run step Q' s es t := by
  induction h with
  | nil => exact .nil
  | snoc _ hq hu ih => exact .snoc ih (hQ _ _ hq) hu

theorem single (hq : Q s e) (h : step s e = .ok t) : Run step Q s [e] t :=
  show Run step Q s ([] ++ [e]) t from .snoc .nil hq h

theorem trans (h : Run step Q s es t) (h' : Run step Q t es' u) :
    Run step Q s (es ++ es') u := by
  induction h' with
  | nil => simpa using h
  | snoc _ hq hu ih => simpa [List.append_assoc] using ih.snoc hq hu

theorem eq_of_nil (h : Run step Q s [] t) : s = t := by
  generalize hl : [] = l at h
  cases h with
  | nil => rfl
  | snoc => simp at hl

/-- A run starts with its first event. -/
theorem cons_iff : Run step Q s (e :: es) u ↔ Q s e ∧ ∃ t, step s e = .ok t ∧ Run step Q t es u := by
  constructor
  · intro h
    generalize hl : e :: es = l at h
    induction h generalizing es with
    | nil => cases hl
    | @snoc es' t u e' hrun hq hu ih =>
      cases es' with
      | nil =>
        obtain ⟨rfl, rfl⟩ := List.cons.inj hl
        obtain rfl := eq_of_nil hrun
        exact ⟨hq, u, hu, .nil⟩
      | cons e'' es'' =>
        obtain ⟨rfl, rfl⟩ := List.cons.inj hl
        obtain ⟨hfirst, t', ht', hrest⟩ := ih rfl
        exact ⟨hfirst, t', ht', hrest.snoc hq hu⟩
  · rintro ⟨hq, t, ht, hrest⟩
    exact (single hq ht).trans hrest

/-- Two side conditions that agree where an invariant holds have the same runs. -/
theorem congr {I : σ → Prop} (h₀ : I s) (hkeep : ∀ t e u, I t → Q t e → step t e = .ok u → I u)
    (hQ : ∀ t e u, I t → step t e = .ok u → (Q t e ↔ Q' t e)) : Run step Q s es t ↔ Run step Q' s es t := by
  induction es generalizing s with
  | nil => exact ⟨fun h => eq_of_nil h ▸ .nil, fun h => eq_of_nil h ▸ .nil⟩
  | cons e es ih =>
    rw [cons_iff, cons_iff]
    constructor
    · rintro ⟨hq, u, hu, hrest⟩
      exact ⟨(hQ s e u h₀ hu).mp hq, u, hu, (ih (hkeep s e u h₀ hq hu)).mp hrest⟩
    · rintro ⟨hq', u, hu, hrest⟩
      have hq := (hQ s e u h₀ hu).mpr hq'
      exact ⟨hq, u, hu, (ih (hkeep s e u h₀ hq hu)).mpr hrest⟩

/-- Execute a list of events, checking the side condition at each of them. -/
def exec (step : σ → ε → Except φ σ) (Q : σ → ε → Prop) [∀ t e, Decidable (Q t e)] :
    σ → List ε → Option σ
  | s, [] => some s
  | s, e :: es =>
    if Q s e then
      match step s e with
      | .ok t => exec step Q t es
      | .error _ => none
    else none

/-- What `exec` computes is a run. -/
theorem of_exec [∀ t e, Decidable (Q t e)] (h : exec step Q s es = some t) :
    Run step Q s es t := by
  induction es generalizing s with
  | nil =>
    obtain rfl : s = t := by simpa [exec] using h
    exact .nil
  | cons e es ih =>
    simp only [exec] at h
    split at h
    · rename_i hq
      split at h
      · rename_i u hu
        exact (single hq hu).trans (ih h)
      · cases h
    · cases h

/-- A run to a state that passes a test. -/
theorem exists_of_exec [∀ t e, Decidable (Q t e)] {C : σ → Prop} (p : σ → Prop) [DecidablePred p]
    (h : (exec step Q s es).any p = true) (hC : ∀ t, Run step Q s es t → p t → C t) : ∃ t, Run step Q s es t ∧ C t := by
  obtain ⟨t, ht, hp⟩ := (Option.any_eq_true _ _).mp h
  exact ⟨t, of_exec ht, hC t (of_exec ht) (of_decide_eq_true hp)⟩

/-- A run and one more event, between states that pass a test. -/
theorem exists_step_of_exec [∀ t e, Decidable (Q t e)] {e : ε} {C : σ → σ → Prop} (p : σ → ε → σ → Prop)
    [∀ t u, Decidable (p t e u)]
    (h : ((exec step Q s es).any fun t => match step t e with
      | .ok u => decide (p t e u)
      | .error _ => false) = true)
    (hC : ∀ t u, Run step Q s es t → step t e = .ok u → p t e u → C t u) :
    ∃ t, Run step Q s es t ∧ ∃ u, step t e = .ok u ∧ C t u := by
  obtain ⟨t, ht, hp⟩ := (Option.any_eq_true _ _).mp h
  split at hp
  · rename_i u hu
    exact ⟨t, of_exec ht, u, hu, hC t u (of_exec ht) hu (of_decide_eq_true hp)⟩
  · cases hp

theorem exists_step_of_exec_self [∀ t e, Decidable (Q t e)] {e : ε} {C : σ → σ → Prop} [∀ t u, Decidable (C t u)]
    (h : ((exec step Q s es).any fun t => match step t e with
      | .ok u => decide (C t u)
      | .error _ => false) = true) : ∃ t, Run step Q s es t ∧ ∃ u, step t e = .ok u ∧ C t u :=
  exists_step_of_exec (fun t _ u => C t u) h fun _ _ _ _ hc => hc

end Run

end Base
