import PackageRecipes.Version.Basic

/-!
# The order of versions

Segments are totally ordered, and so are the versions that they make up. Versions that are equal in this order
have the same segments.
-/

namespace PackageRecipes

open Std

namespace Segment

variable {a b c : Segment} {i : Nat}

/-! ## Branches -/

theorem branchRank_eq_some (h : a.branchRank = some i) : ∃ s, a = .text s ∧ branches[i]? = some s := by
  cases a with
  | number n => simp [branchRank] at h
  | text s =>
      obtain ⟨hi, heq, -⟩ := List.findIdx?_eq_some_iff_getElem.1 h
      refine ⟨s, rfl, ?_⟩
      rw [List.getElem?_eq_getElem hi, Option.some.injEq]
      exact beq_iff_eq.1 heq

theorem eq_of_branchRank (ha : a.branchRank = some i) (hb : b.branchRank = some i) : a = b := by
  obtain ⟨s, rfl, hs⟩ := branchRank_eq_some ha
  obtain ⟨t, rfl, ht⟩ := branchRank_eq_some hb
  rw [hs, Option.some.injEq] at ht
  rw [ht]

/-! ## Segments -/

theorem compare_swap (a b : Segment) : a.compare b = (b.compare a).swap := by
  unfold compare
  cases a.branchRank with
  | some i =>
      cases b.branchRank with
      | some j => exact OrientedOrd.eq_swap
      | none => rfl
  | none =>
      cases b.branchRank with
      | some j => rfl
      | none =>
          cases a <;> cases b
          case number.number => exact OrientedOrd.eq_swap
          case text.text => exact OrientedOrd.eq_swap
          case number.text => rfl
          case text.number => rfl

theorem isLE_trans (hab : (a.compare b).isLE) (hbc : (b.compare c).isLE) : (a.compare c).isLE := by
  unfold compare at hab hbc ⊢
  cases ha : a.branchRank <;> cases hb : b.branchRank <;> cases hc : c.branchRank <;>
    simp only [ha, hb, hc] at hab hbc ⊢
  case none.none.none =>
    cases a <;> cases b <;> cases c <;> simp only at hab hbc ⊢
    case number.number.number => exact TransOrd.isLE_trans hab hbc
    case text.text.text => exact TransOrd.isLE_trans hab hbc
    all_goals first | rfl | exact absurd hab (by decide) | exact absurd hbc (by decide)
  case some.some.some => exact TransOrd.isLE_trans hab hbc
  all_goals first | rfl | exact absurd hab (by decide) | exact absurd hbc (by decide)

theorem eq_of_compare (h : a.compare b = .eq) : a = b := by
  unfold compare at h
  cases ha : a.branchRank <;> cases hb : b.branchRank <;> simp only [ha, hb] at h
  case none.none =>
    cases a <;> cases b <;> simp only at h
    case number.number m n => rw [LawfulEqOrd.eq_of_compare h]
    case text.text s t => rw [LawfulEqOrd.eq_of_compare h]
    all_goals exact absurd h (by decide)
  case some.some i j => exact eq_of_branchRank ha (LawfulEqOrd.eq_of_compare h ▸ hb)
  all_goals exact absurd h (by decide)

instance : TransCmp compare where
  eq_swap := compare_swap _ _
  isLE_trans := isLE_trans

instance : LawfulEqCmp compare where
  eq_of_compare := eq_of_compare

end Segment

namespace Version

variable {v w : Version}

/-! ## Versions -/

instance : TransCmp compare where
  eq_swap := by
    intro v w
    exact @OrientedCmp.eq_swap _ (List.compareLex Segment.compare) _ v.segments w.segments
  isLE_trans := by
    intro u v w huv hvw
    exact @TransCmp.isLE_trans _ (List.compareLex Segment.compare) _ _ _ _ huv hvw

theorem compare_eq_iff_same : v.compare w = .eq ↔ v.same w := by
  rw [compare, LawfulEqCmp.compare_eq_iff_eq, same, beq_iff_eq]

theorem same_refl (v : Version) : v.same v := compare_eq_iff_same.1 ReflCmp.compare_self

theorem same_of_isLE (hvw : (v.compare w).isLE) (hwv : (w.compare v).isLE) : v.same w :=
  compare_eq_iff_same.1 (OrientedCmp.isLE_antisymm hvw hwv)

/-- With more segments after the same beginning a version is no lower. -/
theorem isLE_compareLex_append (xs ys : List Segment) :
    (List.compareLex Segment.compare xs (xs ++ ys)).isLE := by
  induction xs with
  | nil => cases ys <;> rfl
  | cons x xs ih =>
      have hself : x.compare x = .eq := ReflCmp.compare_self
      rw [List.cons_append, List.compareLex_cons_cons, hself]
      exact ih

theorem isLE_of_isPrefixOf (h : v.isPrefixOf w) : (v.compare w).isLE := by
  obtain ⟨more, hmore⟩ := List.isPrefixOf_iff_prefix.1 h
  rw [compare, ← hmore]
  exact isLE_compareLex_append v.segments more

/-- Versions are totally ordered up to their spelling, and a prefix is never above what it prefixes. -/
theorem compare_totalOrder (u v w : Version) :
    v.compare u = (u.compare v).swap ∧
      ((u.compare v).isLE → (v.compare u).isLE → u.same v) ∧
      ((u.compare v).isLE → (v.compare w).isLE → (u.compare w).isLE) ∧
      (u.compare v = .eq ↔ u.same v) ∧
      (u.isPrefixOf v → (u.compare v).isLE) :=
  ⟨OrientedCmp.eq_swap, same_of_isLE, TransCmp.isLE_trans, compare_eq_iff_same, isLE_of_isPrefixOf⟩

end Version

end PackageRecipes
