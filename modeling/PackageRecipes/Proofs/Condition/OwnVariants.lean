import PackageRecipes.Condition.Basic

/-!
# Variants that a condition reads

A condition reads the variants of its own atoms and no others. What it asks of dependencies it asks of their
variants, not of the package's.
-/

namespace PackageRecipes

namespace Condition

variable {config : Configuration} {variants : NameMap VariantValue}

/-! ## Atoms -/

theorem holds_enabled {name : String} {b : Bool} (h : config.variant? name = some (.bool b)) :
    holds config (.variant name .enabled) = b := by
  simp only [holds, h, Option.any_some, VariantMatch.accepts]

theorem holds_disabled {name : String} {b : Bool} (h : config.variant? name = some (.bool b)) :
    holds config (.variant name .disabled) = !b := by
  simp only [holds, h, Option.any_some, VariantMatch.accepts]

theorem holds_value {name v w : String} (h : config.variant? name = some (.single v)) :
    holds config (.variant name (.values [w])) ↔ v = w := by
  simp [holds, h, VariantMatch.accepts, VariantValue.includes]

/-! ## Only the answers to the atoms make a difference -/

/-- Each atom gets the same answer from the variants as from those of the configuration. -/
def Answers (config : Configuration) (variants : NameMap VariantValue)
    (atoms : List (String × VariantMatch)) : Prop :=
  ∀ atom ∈ atoms,
    (variants.get? atom.1).any atom.2.accepts = (config.variant? atom.1).any atom.2.accepts

theorem answers_append {atoms more : List (String × VariantMatch)} :
    Answers config variants (atoms ++ more) ↔
      Answers config variants atoms ∧ Answers config variants more := List.forall_mem_append

mutual

theorem holds_of_answers : (c : Condition) → Answers config variants c.ownVariants →
    holds { config with variants := variants } c = holds config c
  | .always, _ => by simp only [holds]
  | .variant name wanted, h => by
      have same := h (name, wanted) (by simp only [ownVariants, List.mem_singleton])
      simp only [holds]
      exact same
  | .version _, _ => by simp only [holds]
  | .compiler _ _, _ => by simp only [holds, compilerHolds]
  | .dependency _ _, _ => by simp only [holds, Configuration.dependency?]
  | .all parts, h => by
      simp only [ownVariants] at h
      simp only [holds]
      exact allHold_of_answers parts h
  | .any alternatives, h => by
      simp only [ownVariants] at h
      simp only [holds]
      exact anyHolds_of_answers alternatives h

theorem allHold_of_answers : (cs : List Condition) → Answers config variants (ownVariantsOf cs) →
    allHold { config with variants := variants } cs = allHold config cs
  | [], _ => by simp only [allHold]
  | c :: cs, h => by
      simp only [ownVariantsOf, answers_append] at h
      simp only [allHold]
      rw [holds_of_answers c h.1, allHold_of_answers cs h.2]

theorem anyHolds_of_answers : (cs : List Condition) → Answers config variants (ownVariantsOf cs) →
    anyHolds { config with variants := variants } cs = anyHolds config cs
  | [], _ => by simp only [anyHolds]
  | c :: cs, h => by
      simp only [ownVariantsOf, answers_append] at h
      simp only [anyHolds]
      rw [holds_of_answers c h.1, anyHolds_of_answers cs h.2]

end

/-! ## Other variants make no difference -/

/-- The variants are those of the configuration as far as the atoms read them. -/
def Agrees (config : Configuration) (variants : NameMap VariantValue)
    (atoms : List (String × VariantMatch)) : Prop :=
  ∀ atom ∈ atoms, variants.get? atom.1 = config.variant? atom.1

theorem holds_of_agrees (c : Condition) (h : Agrees config variants c.ownVariants) :
    holds { config with variants := variants } c = holds config c :=
  holds_of_answers c fun atom hatom => by rw [h atom hatom]

end Condition

end PackageRecipes
