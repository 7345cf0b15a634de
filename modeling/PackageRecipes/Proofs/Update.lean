import PackageRecipes.Update

/-!
# Changes one after the other

A change that comes after another one is made to the state that the first one leaves, unless that is refused.
-/

namespace PackageRecipes.Update

variable {σ α β : Type} {a : Update σ α} {f : α → Update σ β} {s s' : σ} {x : α} {y : β} {e : Error} {u : Update σ Unit}

theorem runOn_bind (a : Update σ α) (f : α → Update σ β) (s : σ) :
    (a >>= f).runOn s =
      match a.runOn s with
      | (.ok x, s') => (f x).runOn s'
      | (.error e, s') => (.error e, s') := by
  show (match a.runOn s with | (r, s') => StateT.run (ExceptT.bindCont f r) s') = _
  obtain ⟨r, s'⟩ := a.runOn s
  cases r <;> rfl

theorem runOn_bind_ok (h : a.runOn s = (.ok x, s')) (f : α → Update σ β) : (a >>= f).runOn s = (f x).runOn s' := by
  rw [runOn_bind, h]

theorem runOn_bind_error (h : a.runOn s = (.error e, s')) (f : α → Update σ β) :
    (a >>= f).runOn s = (.error e, s') := by
  rw [runOn_bind, h]

theorem runOn_bind_eq_ok :
    (a >>= f).runOn s = (.ok y, s') ↔ ∃ x s₁, a.runOn s = (.ok x, s₁) ∧ (f x).runOn s₁ = (.ok y, s') := by
  rw [runOn_bind]
  rcases a.runOn s with ⟨e | x, s₁⟩
  · simp
  · constructor
    · exact fun h => ⟨x, s₁, rfl, h⟩
    · rintro ⟨_, _, heq, h⟩
      cases heq
      exact h

theorem runOn_get_bind (f : σ → Update σ α) (s : σ) : (get >>= f).runOn s = (f s).runOn s := rfl

theorem runOn_adapt (a : Update σ α) (f : Error → Error) (s : σ) :
    runOn (ExceptT.adapt f a) s = ((a.runOn s).1.mapError f, (a.runOn s).2) := rfl

theorem result_eq_ok : u.result s = .ok s' ↔ u.runOn s = (.ok (), s') := by
  unfold result
  rcases u.runOn s with ⟨e | x, t⟩ <;> simp

theorem result_eq_error : u.result s = .error e ↔ ∃ s', u.runOn s = (.error e, s') := by
  unfold result
  rcases u.runOn s with ⟨e | x, t⟩ <;> simp

end PackageRecipes.Update
