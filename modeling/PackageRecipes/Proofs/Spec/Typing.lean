import Mathlib.Logic.ExistsUnique
import PackageRecipes.Proofs.Condition.OwnVariants
import PackageRecipes.Proofs.Spec.Assignment

/-!
# Conditions that fit a specification

On a checked configuration a checked condition never falls through to the answer for a missing variant or for a
value of another type, and it depends on the variants that it names only.
-/

namespace PackageRecipes

/-- Each atom of the condition finds a value of the type that it asks about, and no variant counts but those of
the atoms. -/
structure Condition.WellTyped (c : Condition) (s : PackageSpec) (config : Configuration) : Prop where
  assigned : ∀ atom ∈ c.ownVariants, (config.variant? atom.1).isSome
  /-- A switch is either on or off. -/
  switches : ∀ atom ∈ c.ownVariants, atom.2 = .enabled ∨ atom.2 = .disabled →
    (∃ b, config.variant? atom.1 = some (.bool b)) ∧
      holds config (.variant atom.1 .disabled) = !holds config (.variant atom.1 .enabled)
  /-- A choice has one of its values. -/
  choices : ∀ d ∈ s.variants, d.kind = .enumerated →
    ∃! v, v ∈ d.allowedValues ∧ holds config (.variant d.name (.values [v]))
  independent : ∀ variants, Agrees config variants c.ownVariants →
    holds { config with variants := variants } c = holds config c

namespace PackageSpec

open Condition

variable {s : PackageSpec} {c : Condition} {config : Configuration}

theorem exists_assigned_of_atom (hc : s.checkCondition c = .ok ())
    (hconfig : s.checkConfiguration config = .ok ()) {atom : String × VariantMatch}
    (hatom : atom ∈ c.ownVariants) :
    ∃ (d : VariantDecl) (value : VariantValue), d.checkMatch atom.2 = .ok () ∧
      config.variant? atom.1 = some value ∧ d.valueFault? value = none := by
  obtain ⟨d, hd, hmatch⟩ := checkAtoms_ok.1 hc atom hatom
  obtain ⟨value, hvalue, hfault⟩ := exists_assigned hconfig hd
  exact ⟨d, value, hmatch, hvalue, hfault⟩

theorem switch_of_atom (hc : s.checkCondition c = .ok ())
    (hconfig : s.checkConfiguration config = .ok ()) {atom : String × VariantMatch}
    (hatom : atom ∈ c.ownVariants) (hwanted : atom.2 = .enabled ∨ atom.2 = .disabled) :
    ∃ b, config.variant? atom.1 = some (.bool b) := by
  obtain ⟨d, value, hmatch, hvalue, hfault⟩ := exists_assigned_of_atom hc hconfig hatom
  have hkind : d.kind = .boolean := VariantDecl.boolean_of_checkMatch hwanted hmatch
  obtain ⟨b, rfl⟩ := VariantDecl.exists_bool hkind hfault
  exact ⟨b, hvalue⟩

theorem WellFormed.existsUnique_choice (h : s.WellFormed)
    (hconfig : s.checkConfiguration config = .ok ()) {d : VariantDecl} (hd : d ∈ s.variants)
    (hkind : d.kind = .enumerated) :
    ∃! v, v ∈ d.allowedValues ∧ holds config (.variant d.name (.values [v])) := by
  obtain ⟨value, hvalue, hfault⟩ := exists_assigned hconfig (h.variant?_eq hd)
  obtain ⟨v, hv, rfl⟩ := VariantDecl.exists_single hkind hfault
  refine ⟨v, ⟨hv, (holds_value hvalue).2 rfl⟩, ?_⟩
  rintro w ⟨-, hw⟩
  exact ((holds_value hvalue).1 hw).symm

/-- Whatever was declared, a condition and a configuration that both pass their checks fit each other. -/
theorem declared_wellTyped {name : String} (h : bare name = .ok s) (ds : List Declaration)
    (hc : (s.acceptAll ds).checkCondition c = .ok ())
    (hconfig : (s.acceptAll ds).checkConfiguration config = .ok ()) :
    c.WellTyped (s.acceptAll ds) config := by
  have wellFormed : (s.acceptAll ds).WellFormed := (bare_wellFormed h).acceptAll ds
  constructor
  case assigned =>
    intro atom hatom
    obtain ⟨_, value, -, hvalue, -⟩ := exists_assigned_of_atom hc hconfig hatom
    rw [hvalue, Option.isSome_some]
  case switches =>
    intro atom hatom hwanted
    obtain ⟨b, hb⟩ := switch_of_atom hc hconfig hatom hwanted
    exact ⟨⟨b, hb⟩, by rw [holds_disabled hb, holds_enabled hb]⟩
  case choices => exact fun d hd hkind => wellFormed.existsUnique_choice hconfig hd hkind
  case independent => exact fun variants hagrees => holds_of_agrees c hagrees

/-- A switch, a choice that lists a value twice, and a set of values. -/
def acceleratorDeclarations : List Declaration :=
  [.version "1.0" (.archive "source") none, .variant "cuda" .boolean (.bool true) none,
    .variant "arch" .enumerated (.single "volta") (some ["turing", "volta", "volta"]),
    .variant "precision" .multi (.multi (.ofList ["double"])) (some ["single", "double"])]

/-- Asks about the switch, about the choice and about a variant of a dependency. -/
def acceleratorCondition : Condition :=
  .any [.all [.variant "cuda" .enabled, .variant "arch" (.values ["turing"])],
    .dependency "kokkos" (.variant "openmp" .enabled)]

def acceleratorConfiguration : Configuration :=
  { Configuration.bare "solver" ⟨"1-0", [.number 1, .number 0]⟩ with
    variants := ⟨[("arch", .single "volta"), ("cuda", .bool false), ("precision", .single "single")]⟩ }

theorem wellTyped_accelerator :
    bare "solver" = .ok solver ∧
      (solver.acceptAll acceleratorDeclarations).checkCondition acceleratorCondition = .ok () ∧
      (solver.acceptAll acceleratorDeclarations).checkConfiguration acceleratorConfiguration = .ok () ∧
      acceleratorCondition.WellTyped (solver.acceptAll acceleratorDeclarations)
        acceleratorConfiguration :=
  have named : bare "solver" = .ok solver := by rfl
  have fits : (solver.acceptAll acceleratorDeclarations).checkCondition acceleratorCondition = .ok () := by
    decide +kernel
  have checked : (solver.acceptAll acceleratorDeclarations).checkConfiguration
      acceleratorConfiguration = .ok () := by rfl
  ⟨named, fits, checked, declared_wellTyped named acceleratorDeclarations fits checked⟩

end PackageSpec

end PackageRecipes
