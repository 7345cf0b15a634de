import PackageRecipes.Proofs.Spec.WellFormed
import PackageRecipes.Recipe.Declare

/-!
# Declaring a recipe

A specification is declared entry by entry, so what every declaration keeps holds of the specification
that a recipe declares.
-/

namespace PackageRecipes

namespace PackageSpec

variable {s s' : PackageSpec}

/-! ## Declarations keep the name -/

theorem declareVersion_name {label : String} {locator : SourceLocator} {integrity : Option Checksum}
    (h : s.declareVersion label locator integrity = .ok s') : s'.name = s.name := by
  obtain ⟨_, -, -, rfl⟩ := declareVersion_ok h
  rfl

theorem declareVariant_name {name : String} {kind : VariantKind} {default : VariantValue}
    {values : Option (List String)} (h : s.declareVariant name kind default values = .ok s') :
    s'.name = s.name := by
  obtain ⟨-, -, _, -, rfl⟩ := declareVariant_ok h
  rfl

theorem declareDependency_name {target : String} {constraint : List VersionRange}
    {requirements : List Condition} {condition : Condition}
    (h : s.declareDependency target constraint requirements condition = .ok s') :
    s'.name = s.name := by
  obtain ⟨-, -, rfl⟩ := declareDependency_ok h
  rfl

theorem declareConflict_name {condition : Condition} {message : Option String}
    (h : s.declareConflict condition message = .ok s') : s'.name = s.name := by
  obtain ⟨-, rfl⟩ := declareConflict_ok h
  rfl

end PackageSpec

namespace Recipe

variable {r : Recipe} {s s' : PackageSpec}

/-! ## Accepted entries -/

theorem declareVersion_ok {e : VersionEntry} (h : r.declareVersion s e = .ok s') :
    ∃ locator integrity t, r.locatorOf e = .ok locator ∧ integrityOf e = .ok integrity ∧
      s.declareVersion e.version locator integrity = .ok t ∧
      s' = if e.preferred then t.prefer s.versions.length else t := by
  unfold declareVersion at h
  simp only at h
  split at h
  · cases h
  · split at h
    · cases h
    · obtain ⟨t, ht, rfl⟩ := exceptMap_ok.1 h
      exact ⟨_, _, t, ‹_›, ‹_›, ht, rfl⟩

theorem declareVariant_ok {e : VariantEntry} (h : declareVariant s e = .ok s') :
    ∃ t, s.declareVariant e.name (kindOf e) (defaultOf e) e.values = .ok t ∧
      s' = t.describe s.variants.length e.description := by
  obtain ⟨t, ht, rfl⟩ := exceptMap_ok.1 h
  exact ⟨t, ht, rfl⟩

theorem declareDependency_ok {e : DependsEntry} (h : r.declareDependency s e = .ok s') :
    ∃ requirement condition t, Requirement.parse e.spec = .ok requirement ∧
      s.parseWhen e.when (.dependsWhen s.dependencies.length) = .ok condition ∧
      s.declareDependency requirement.target requirement.versions requirement.predicates condition = .ok t ∧
      s' = e.types.elim t fun types => t.setTypes s.dependencies.length types.toList := by
  unfold declareDependency at h
  simp only at h
  split at h
  · cases h
  · split at h
    · cases h
    · obtain ⟨t, ht, rfl⟩ := exceptMap_ok.1 h
      refine ⟨_, _, t, ‹_›, ‹_›, ht, ?_⟩
      cases e.types <;> rfl

theorem declareConflict_ok {e : ConflictEntry} (h : r.declareConflict s e = .ok s') :
    ∃ selection condition, Condition.parse r.package.name e.spec = .ok selection ∧
      s.parseWhen e.when (.conflictWhen s.conflicts.length) = .ok condition ∧
      s.declareConflict (.conj [selection, condition]) e.message = .ok s' := by
  unfold declareConflict at h
  simp only at h
  split at h
  · cases h
  · split at h
    · cases h
    · exact ⟨_, _, ‹_›, ‹_›, h⟩

theorem bareSpec_ok (h : r.bareSpec = .ok s) : nameFault? r.package.name = none ∧
    s = ⟨r.package.name, r.package.summary, r.package.homepage, r.package.buildSystem, r.package.parallel,
      [], [], [], []⟩ := by
  obtain ⟨t, ht, rfl⟩ := exceptMap_ok.1 h
  obtain ⟨hvalid, rfl⟩ := PackageSpec.bare_ok ht
  exact ⟨hvalid, rfl⟩

/-- A recipe converts when its entries are accepted one after the other. -/
theorem toSpec_ok : r.toSpec = .ok s ↔ ∃ s₀, r.bareSpec = .ok s₀ ∧
    ∃ s₁, r.versions.foldlM r.declareVersion s₀ = .ok s₁ ∧
    ∃ s₂, r.variants.foldlM declareVariant s₁ = .ok s₂ ∧
    ∃ s₃, r.depends.foldlM r.declareDependency s₂ = .ok s₃ ∧ r.conflicts.foldlM r.declareConflict s₃ = .ok s := by
  simp only [toSpec, exceptBind_ok]

/-- What the package has from the start and every accepted entry keeps, the specification of the recipe has. -/
theorem toSpec_invariant {P : PackageSpec → Prop} (hbare : ∀ s, r.bareSpec = .ok s → P s)
    (hversion : ∀ s e s', P s → r.declareVersion s e = .ok s' → P s')
    (hvariant : ∀ s e s', P s → declareVariant s e = .ok s' → P s')
    (hdepends : ∀ s e s', P s → r.declareDependency s e = .ok s' → P s')
    (hconflict : ∀ s e s', P s → r.declareConflict s e = .ok s' → P s') (h : r.toSpec = .ok s) : P s := by
  obtain ⟨s₀, h₀, s₁, h₁, s₂, h₂, s₃, h₃, h⟩ := toSpec_ok.1 h
  have hs₁ := foldlM_invariant hversion (hbare s₀ h₀) h₁
  have hs₂ := foldlM_invariant hvariant hs₁ h₂
  have hs₃ := foldlM_invariant hdepends hs₂ h₃
  exact foldlM_invariant hconflict hs₃ h

/-! ## Entries keep the name -/

theorem declareVersion_name {e : VersionEntry} (h : r.declareVersion s e = .ok s') :
    s'.name = s.name := by
  obtain ⟨_, _, t, -, -, ht, rfl⟩ := declareVersion_ok h
  rw [← PackageSpec.declareVersion_name ht]
  split <;> rfl

theorem declareVariant_name {e : VariantEntry} (h : declareVariant s e = .ok s') :
    s'.name = s.name := by
  obtain ⟨t, ht, rfl⟩ := declareVariant_ok h
  exact (PackageSpec.declareVariant_name ht : t.name = s.name)

theorem declareDependency_name {e : DependsEntry} (h : r.declareDependency s e = .ok s') :
    s'.name = s.name := by
  obtain ⟨_, _, t, -, -, ht, rfl⟩ := declareDependency_ok h
  rw [← PackageSpec.declareDependency_name ht]
  cases e.types <;> rfl

theorem declareConflict_name {e : ConflictEntry} (h : r.declareConflict s e = .ok s') :
    s'.name = s.name := by
  obtain ⟨_, _, -, -, ht⟩ := declareConflict_ok h
  exact PackageSpec.declareConflict_name ht

/-- A recipe declares the specification of the package that it names. -/
theorem toSpec_name (h : r.toSpec = .ok s) : s.name = r.package.name := by
  refine toSpec_invariant (P := fun t => t.name = r.package.name) ?_
    (fun _ _ _ ht h => (declareVersion_name h).trans ht) (fun _ _ _ ht h => (declareVariant_name h).trans ht)
    (fun _ _ _ ht h => (declareDependency_name h).trans ht) (fun _ _ _ ht h => (declareConflict_name h).trans ht) h
  intro t ht
  rw [(bareSpec_ok ht).2]

/-! ## Entries keep a specification well formed -/

theorem declareVersion_wellFormed {e : VersionEntry} (hs : s.WellFormed) (h : r.declareVersion s e = .ok s') :
    s'.WellFormed := by
  obtain ⟨_, _, t, -, -, ht, rfl⟩ := declareVersion_ok h
  split
  · exact (hs.declareVersion ht).prefer _
  · exact hs.declareVersion ht

theorem declareVariant_wellFormed {e : VariantEntry} (hs : s.WellFormed) (h : declareVariant s e = .ok s') :
    s'.WellFormed := by
  obtain ⟨t, ht, rfl⟩ := declareVariant_ok h
  exact (hs.declareVariant ht).describe _ _

theorem declareDependency_wellFormed {e : DependsEntry} (hs : s.WellFormed)
    (h : r.declareDependency s e = .ok s') : s'.WellFormed := by
  obtain ⟨_, _, t, -, -, ht, rfl⟩ := declareDependency_ok h
  cases e.types with
  | none => exact hs.declareDependency ht
  | some types => exact (hs.declareDependency ht).setTypes _ _

theorem declareConflict_wellFormed {e : ConflictEntry} (hs : s.WellFormed) (h : r.declareConflict s e = .ok s') :
    s'.WellFormed := by
  obtain ⟨_, _, -, -, ht⟩ := declareConflict_ok h
  exact hs.declareConflict ht

theorem toSpec_wellFormed (h : r.toSpec = .ok s) : s.WellFormed := by
  refine toSpec_invariant ?_ (fun _ _ _ => declareVersion_wellFormed) (fun _ _ _ => declareVariant_wellFormed)
    (fun _ _ _ => declareDependency_wellFormed) (fun _ _ _ => declareConflict_wellFormed) h
  intro t ht
  rw [(bareSpec_ok ht).2]
  exact ⟨.nil, .nil, nofun, nofun, nofun⟩

end Recipe

end PackageRecipes
