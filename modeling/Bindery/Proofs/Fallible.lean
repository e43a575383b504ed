import Mathlib.Data.List.Forall2

/-!
# Computations that may fail

What it means that a computation with a state, or one over a list, gives a result, and what such
a computation keeps true of its state.

## Main definitions

* `Preserves`: from a state with a property, a result comes with a state that has it too.
-/
namespace Bindery

variable {ε σ α β : Type}

/-- All elements of a list give results, in order. -/
theorem mapM_eq_ok {f : α → Except ε β} {xs : List α} {ys : List β} :
    xs.mapM f = .ok ys ↔ List.Forall₂ (fun x y => f x = .ok y) xs ys := by
  induction xs generalizing ys with
  | nil => cases ys <;> simp [pure, Except.pure]
  | cons x xs ih =>
    rw [List.mapM_cons]
    rcases hx : f x with e | y
    · cases ys <;> simp [bind, Except.bind, hx]
    · rcases hxs : xs.mapM f with e | zs <;>
        cases ys <;> simp [bind, Except.bind, pure, Except.pure, ← ih, hxs, hx]

theorem exists_of_mem_mapM {f : α → Except ε β} {xs : List α} {ys : List β}
    (h : xs.mapM f = .ok ys) {y : β} (hy : y ∈ ys) : ∃ x ∈ xs, f x = .ok y := by
  induction mapM_eq_ok.1 h with
  | nil => cases hy
  | cons hx htail ih =>
    rcases List.mem_cons.1 hy with rfl | hy
    · exact ⟨_, .head _, hx⟩
    · obtain ⟨x, hmem, hfx⟩ := ih (mapM_eq_ok.2 htail) hy
      exact ⟨x, .tail _ hmem, hfx⟩

theorem mapError_eq_ok {ε' : Type} {x : Except ε α} {f : ε → ε'} {a : α} :
    x.mapError f = .ok a ↔ x = .ok a := by
  cases x <;> simp [Except.mapError]

/-- One computation after the other gives a result exactly when both do. -/
theorem bind_eq_ok {x : Except ε α} {f : α → Except ε β} {b : β} :
    (x >>= f) = .ok b ↔ ∃ a, x = .ok a ∧ f a = .ok b := by
  cases x with
  | error fault => simp [bind, Except.bind]
  | ok a => simp [bind, Except.bind]

/-! ## Whether there is a result -/

theorem toOption_eq_some {x : Except ε α} {a : α} : x.toOption = some a ↔ x = .ok a := by
  cases x <;> simp [Except.toOption]

theorem isSome_toOption_bind (x : Except ε α) (f : α → Except ε β) :
    (x >>= f).toOption.isSome = x.toOption.any fun a => (f a).toOption.isSome := by
  cases x <;> rfl

@[simp] theorem toOption_mapError {ε' : Type} (x : Except ε α) (f : ε → ε') :
    (x.mapError f).toOption = x.toOption := by
  cases x <;> rfl

/-- A list gives a result exactly when each of its elements does. -/
theorem isSome_toOption_mapM (f : α → Except ε β) (xs : List α) :
    (xs.mapM f).toOption.isSome = xs.all fun x => (f x).toOption.isSome := by
  induction xs with
  | nil => rfl
  | cons x xs ih =>
    rw [List.mapM_cons, isSome_toOption_bind, List.all_cons, ← ih]
    cases f x with
    | error e => rfl
    | ok y => cases xs.mapM f <;> rfl

/-! ## Computations with a state -/

@[simp] theorem pure_apply (a : α) (s : σ) : (pure a : StateT σ (Except ε) α) s = .ok (a, s) := rfl

@[simp] theorem throw_apply (e : ε) (s : σ) :
    (throw e : StateT σ (Except ε) α) s = .error e := rfl

@[simp] theorem get_apply (s : σ) : (get : StateT σ (Except ε) σ) s = .ok (s, s) := rfl

@[simp] theorem set_apply (s t : σ) : (set t : StateT σ (Except ε) PUnit) s = .ok (⟨⟩, t) := rfl

@[simp] theorem modify_apply (f : σ → σ) (s : σ) :
    (modify f : StateT σ (Except ε) PUnit) s = .ok (⟨⟩, f s) := rfl

@[simp] theorem liftM_apply (x : Except ε α) (s : σ) :
    (liftM x : StateT σ (Except ε) α) s = x.map fun a => (a, s) := by
  cases x <;> rfl

@[simp] theorem bind_apply (p : StateT σ (Except ε) α) (f : α → StateT σ (Except ε) β) (s : σ) :
    (p >>= f) s = match p s with
      | .ok (a, t) => f a t
      | .error e => .error e := by
  rcases hp : p s with e | ⟨a, t⟩ <;> simp [bind, StateT.bind, Except.bind, hp]

@[simp] theorem map_apply (f : α → β) (p : StateT σ (Except ε) α) (s : σ) :
    (f <$> p) s = match p s with
      | .ok (a, t) => .ok (f a, t)
      | .error e => .error e := by
  rcases hp : p s with e | ⟨a, t⟩ <;>
    simp [Functor.map, StateT.map, bind, Except.bind, hp, pure, Except.pure]

/-- One computation after the other gives a result exactly when both do. -/
theorem bind_apply_eq_ok {p : StateT σ (Except ε) α} {f : α → StateT σ (Except ε) β} {s : σ}
    {r : β × σ} : (p >>= f) s = .ok r ↔ ∃ a t, p s = .ok (a, t) ∧ f a t = .ok r := by
  rcases hp : p s with e | ⟨a, t⟩ <;> simp [hp]

/-! ## What stays true of the state -/

/-- From a state with the property, a result comes with a state that has it too. -/
def Preserves (P : σ → Prop) (p : StateT σ (Except ε) α) : Prop :=
  ∀ ⦃s t : σ⦄ ⦃a : α⦄, P s → p s = .ok (a, t) → P t

section Preserves

variable {P : σ → Prop}

theorem preserves_pure (a : α) : Preserves P (pure a : StateT σ (Except ε) α) := by
  intro s t b hs h
  obtain ⟨-, rfl⟩ : a = b ∧ s = t := by simpa using h
  exact hs

theorem preserves_throw (e : ε) : Preserves P (throw e : StateT σ (Except ε) α) := by
  intro s t a _ h
  simp at h

theorem preserves_get : Preserves P (get : StateT σ (Except ε) σ) := by
  intro s t a hs h
  obtain ⟨-, rfl⟩ : s = a ∧ s = t := by simpa using h
  exact hs

theorem preserves_liftM (x : Except ε α) : Preserves P (liftM x : StateT σ (Except ε) α) := by
  intro s t a hs h
  cases x with
  | error e => simp [Except.map] at h
  | ok b =>
    obtain ⟨-, rfl⟩ : b = a ∧ s = t := by simpa [Except.map] using h
    exact hs

theorem preserves_modify {f : σ → σ} (hf : ∀ s, P s → P (f s)) :
    Preserves P (modify f : StateT σ (Except ε) PUnit) := by
  intro s t a hs h
  obtain rfl : f s = t := by simpa using h
  exact hf s hs

theorem preserves_bind {p : StateT σ (Except ε) α} {f : α → StateT σ (Except ε) β}
    (hp : Preserves P p) (hf : ∀ a, Preserves P (f a)) : Preserves P (p >>= f) := by
  intro s t b hs h
  obtain ⟨a, u, hu, ht⟩ := bind_apply_eq_ok.1 h
  exact hf a (hp hs hu) ht

/-- Going through a list. -/
theorem preserves_mapM {f : α → StateT σ (Except ε) β} (hf : ∀ a, Preserves P (f a))
    (xs : List α) : Preserves P (xs.mapM f) := by
  induction xs with
  | nil => exact preserves_pure []
  | cons x xs ih =>
    rw [List.mapM_cons]
    exact preserves_bind (hf x) fun y => preserves_bind ih fun ys => preserves_pure (y :: ys)

end Preserves
end Bindery
