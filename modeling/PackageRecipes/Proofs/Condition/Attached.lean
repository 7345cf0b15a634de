import PackageRecipes.Spec.Dependency

/-!
# Conditions and what is attached

A condition that asks nothing of dependencies holds of a package whatever is attached to it. Any other condition
that holds of a package goes on to hold when more is attached.
-/

namespace PackageRecipes

/-- The package as it is, with nothing attached. -/
def Configuration.alone (c : Configuration) : Configuration := { c with dependencies := .empty }

/-- The same choices, with all that is attached to the other and maybe more. -/
structure Configuration.Extends (d c : Configuration) : Prop where
  version : d.version = c.version
  variants : d.variants = c.variants
  compiler : d.compiler = c.compiler
  attached : ∀ n e, c.dependency? n = some e → d.dependency? n = some e

theorem Configuration.extends_alone (c : Configuration) : c.Extends c.alone where
  version := rfl
  variants := rfl
  compiler := rfl
  attached := by
    intro n e h
    cases h

namespace Condition

mutual

/-- The condition asks nothing of dependencies. -/
def isOwn : Condition → Bool
  | .dependency _ _ => false
  | .all parts => areOwn parts
  | .any alternatives => areOwn alternatives
  | .always | .variant _ _ | .version _ | .compiler _ _ => true

def areOwn : List Condition → Bool
  | [] => true
  | c :: cs => isOwn c && areOwn cs

end

variable {config more : Configuration}

mutual

theorem holds_alone : (c : Condition) → c.isOwn → c.holds config.alone = c.holds config
  | .always, _ => by simp only [holds]
  | .variant _ _, _ => by simp only [holds, Configuration.variant?, Configuration.alone]
  | .version _, _ => by simp only [holds, Configuration.alone]
  | .compiler _ _, _ => by simp only [holds, compilerHolds, Configuration.alone]
  | .dependency _ _, h => by simp [isOwn] at h
  | .all parts, h => by
      simp only [isOwn] at h
      simp only [holds]
      exact allHold_alone parts h
  | .any alternatives, h => by
      simp only [isOwn] at h
      simp only [holds]
      exact anyHolds_alone alternatives h

theorem allHold_alone : (cs : List Condition) → areOwn cs →
    allHold config.alone cs = allHold config cs
  | [], _ => by simp only [allHold]
  | c :: cs, h => by
      simp only [areOwn, Bool.and_eq_true] at h
      simp only [allHold]
      rw [holds_alone c h.1, allHold_alone cs h.2]

theorem anyHolds_alone : (cs : List Condition) → areOwn cs →
    anyHolds config.alone cs = anyHolds config cs
  | [], _ => by simp only [anyHolds]
  | c :: cs, h => by
      simp only [areOwn, Bool.and_eq_true] at h
      simp only [anyHolds]
      rw [holds_alone c h.1, anyHolds_alone cs h.2]

end

mutual

theorem holds_of_extends (hmore : more.Extends config) : (c : Condition) → c.holds config → c.holds more
  | .always, _ => by simp only [holds]
  | .variant _ _, h => by
      simp only [holds, Configuration.variant?, hmore.variants] at h ⊢
      exact h
  | .version _, h => by
      simp only [holds, hmore.version] at h ⊢
      exact h
  | .compiler _ _, h => by
      simp only [holds, compilerHolds, hmore.compiler] at h ⊢
      exact h
  | .dependency name condition, h => by
      simp only [holds] at h ⊢
      cases hd : config.dependency? name with
      | none => simp [hd] at h
      | some d =>
          rw [hd] at h
          rw [hmore.attached name d hd]
          exact h
  | .all parts, h => by
      simp only [holds] at h ⊢
      exact allHold_of_extends hmore parts h
  | .any alternatives, h => by
      simp only [holds] at h ⊢
      exact anyHolds_of_extends hmore alternatives h

theorem allHold_of_extends (hmore : more.Extends config) : (cs : List Condition) →
    allHold config cs → allHold more cs
  | [], _ => by simp only [allHold]
  | c :: cs, h => by
      simp only [allHold, Bool.and_eq_true] at h ⊢
      exact ⟨holds_of_extends hmore c h.1, allHold_of_extends hmore cs h.2⟩

theorem anyHolds_of_extends (hmore : more.Extends config) : (cs : List Condition) →
    anyHolds config cs → anyHolds more cs
  | [], h => by simp [anyHolds] at h
  | c :: cs, h => by
      simp only [anyHolds, Bool.or_eq_true] at h ⊢
      exact h.imp (holds_of_extends hmore c) (anyHolds_of_extends hmore cs)

end

end Condition

end PackageRecipes
