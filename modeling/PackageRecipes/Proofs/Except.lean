import Mathlib.Data.List.Forall2

/-!
# Computations that may be refused

What a computation that succeeds tells of its parts, and when one of many parts succeeds.
-/

namespace PackageRecipes

variable {α β ε : Type}

theorem exceptBind_ok {x : Except ε α} {f : α → Except ε β} {b : β} :
    (x >>= f) = .ok b ↔ ∃ a, x = .ok a ∧ f a = .ok b := by
  cases x with
  | error e => simp [bind, Except.bind]
  | ok a => simp [bind, Except.bind]

theorem exceptBind_error {x : Except ε α} {f : α → Except ε β} {e : ε} :
    (x >>= f) = .error e ↔ x = .error e ∨ ∃ a, x = .ok a ∧ f a = .error e := by
  cases x with
  | error e' => simp [bind, Except.bind]
  | ok a => simp [bind, Except.bind]

theorem exceptMap_ok {x : Except ε α} {f : α → β} {b : β} :
    x.map f = .ok b ↔ ∃ a, x = .ok a ∧ f a = b := by
  cases x with
  | error e => simp [Except.map]
  | ok a => simp [Except.map]

theorem exceptMap_error {x : Except ε α} {f : α → β} {e : ε} : x.map f = .error e ↔ x = .error e := by
  cases x with
  | error e' => simp [Except.map]
  | ok a => simp [Except.map]

theorem exceptMapError_ok {δ : Type} {x : Except ε α} {f : ε → δ} {a : α} : x.mapError f = .ok a ↔ x = .ok a := by
  cases x with
  | error e => simp [Except.mapError]
  | ok a => simp [Except.mapError]

theorem exists_of_toOption_map {x : Except ε α} {f : α → β} {b : β} (h : x.toOption.map f = some b) :
    ∃ a, x = .ok a ∧ f a = b := by
  cases x with
  | error e => cases h
  | ok a => exact ⟨a, rfl, Option.some.inj h⟩

/-- The error of a computation that is refused; unlike what it would give, it can be compared. -/
def refusal? : Except ε α → Option ε
  | .error e => some e
  | .ok _ => none

theorem eq_error_of_refusal? {x : Except ε α} {e : ε} (h : refusal? x = some e) : x = .error e := by
  cases x with
  | error e' => exact congrArg Except.error (Option.some.inj h)
  | ok a => cases h

theorem foldlM_invariant {P : β → Prop} {f : β → α → Except ε β}
    (hstep : ∀ b a b', P b → f b a = .ok b' → P b') {xs : List α} {b b' : β} (hb : P b)
    (h : xs.foldlM f b = .ok b') : P b' := by
  induction xs generalizing b with
  | nil =>
      simp only [List.foldlM_nil] at h
      cases h
      exact hb
  | cons x xs ih =>
      rw [List.foldlM_cons, exceptBind_ok] at h
      obtain ⟨c, hc, hrest⟩ := h
      exact ih (hstep b x c hb hc) hrest

/-- A fold that fails does so at one element, after it has succeeded on those in front of this one. -/
theorem foldlM_error {f : β → α → Except ε β} {xs : List α} {b : β} {e : ε} (h : xs.foldlM f b = .error e) :
    ∃ i x b', xs[i]? = some x ∧ (xs.take i).foldlM f b = .ok b' ∧ f b' x = .error e := by
  induction xs generalizing b with
  | nil => cases h
  | cons x xs ih =>
      rw [List.foldlM_cons, exceptBind_error] at h
      rcases h with hfirst | ⟨next, hfirst, hrest⟩
      · exact ⟨0, x, b, rfl, rfl, hfirst⟩
      · obtain ⟨i, y, b', hy, hdone, hlast⟩ := ih hrest
        refine ⟨i + 1, y, b', hy, ?_, hlast⟩
        rw [List.take_succ_cons, List.foldlM_cons, hfirst]
        exact hdone

theorem foldlM_take_succ {f : β → α → Except ε β} {xs : List α} {i : Nat} {x : α} {b b' : β}
    (hx : xs[i]? = some x) (h : (xs.take i).foldlM f b = .ok b') :
    (xs.take (i + 1)).foldlM f b = f b' x := by
  rw [List.take_add_one, hx, Option.toList_some, List.foldlM_append, h]
  exact bind_pure (f b' x)

theorem exists_exceptBind_ok {x : Except ε α} {f : α → Except ε β} :
    (∃ b, (x >>= f) = .ok b) ↔ ∃ a, x = .ok a ∧ ∃ b, f a = .ok b := by
  simp only [exceptBind_ok]
  rw [exists_comm]
  simp only [exists_and_left]

theorem mapM_ok {f : α → Except ε β} {xs : List α} {ys : List β} :
    xs.mapM f = .ok ys ↔ List.Forall₂ (fun x y => f x = .ok y) xs ys := by
  induction xs generalizing ys with
  | nil => cases ys <;> simp [pure, Except.pure]
  | cons x xs ih =>
      simp only [List.mapM_cons, exceptBind_ok, ih, List.forall₂_cons_left_iff]
      constructor
      · rintro ⟨y, hy, rest, hrest, heq⟩
        cases heq
        exact ⟨y, rest, hy, hrest, rfl⟩
      · rintro ⟨y, rest, hy, hrest, rfl⟩
        exact ⟨y, hy, rest, hrest, rfl⟩

theorem exists_of_mem_mapM {f : α → Except ε β} {xs : List α} {ys : List β} (h : xs.mapM f = .ok ys) :
    ∀ y ∈ ys, ∃ x ∈ xs, f x = .ok y := by
  rw [mapM_ok] at h
  induction h with
  | nil => exact List.forall_mem_nil _
  | @cons x y xs ys hy _ ih =>
      refine List.forall_mem_cons.2 ⟨⟨x, List.mem_cons_self, hy⟩, fun z hz => ?_⟩
      obtain ⟨w, hw, hread⟩ := ih z hz
      exact ⟨w, List.mem_cons_of_mem x hw, hread⟩

end PackageRecipes
