import PackageRecipes.Proofs.Recipe.Clause

/-!
# The declaration behind each entry

A specification has one declaration for each entry of its recipe, in the same order. A dependency is active and
a conflict applies exactly where the texts of the entry say so, however their conditions were simplified.
-/

namespace PackageRecipes

variable {α β γ ε : Type}

theorem modify_append_singleton (change : α → α) (xs : List α) (x : α) :
    (xs ++ [x]).modify xs.length change = xs ++ [change x] := by
  induction xs with
  | nil => rfl
  | cons y ys ih => rw [List.cons_append, List.length_cons, List.modify_succ_cons, ih, List.cons_append]

/-- A fold that adds one part for each element leads to the start with all parts added. -/
theorem foldlM_extends {f : β → α → Except ε β} (extend : β → List γ → β) {P : β → Prop}
    {R : α → γ → Prop} (hnil : ∀ b, extend b [] = b)
    (hcons : ∀ b c cs, extend (extend b [c]) cs = extend b (c :: cs))
    (hkeep : ∀ b c, P b → P (extend b [c]))
    (hstep : ∀ b a b', P b → f b a = .ok b' → ∃ c, R a c ∧ b' = extend b [c])
    {xs : List α} {b b' : β} (hb : P b) (h : xs.foldlM f b = .ok b') :
    ∃ cs, List.Forall₂ R xs cs ∧ b' = extend b cs := by
  induction xs generalizing b with
  | nil =>
      cases h
      exact ⟨[], .nil, (hnil _).symm⟩
  | cons x xs ih =>
      rw [List.foldlM_cons, exceptBind_ok] at h
      obtain ⟨next, hfirst, hrest⟩ := h
      obtain ⟨c, hc, rfl⟩ := hstep b x next hb hfirst
      obtain ⟨cs, hcs, rfl⟩ := ih (hkeep b c hb) hrest
      exact ⟨c :: cs, .cons hc hcs, hcons b c cs⟩

/-! ## Entries and declarations -/

structure VersionEntry.Declares (r : Recipe) (e : VersionEntry) (d : VersionDecl) : Prop where
  version : Version.parse e.version = .ok d.version
  locator : r.locatorOf e = .ok d.locator
  integrity : Recipe.integrityOf e = .ok d.integrity
  preferred : d.preferred = e.preferred

structure VariantEntry.Declares (e : VariantEntry) (d : VariantDecl) : Prop where
  name : d.name = e.name
  kind : d.kind = Recipe.kindOf e
  default : d.default = Recipe.defaultOf e
  allowedValues : d.allowedValues = e.values.getD []
  description : d.description = e.description

/-- The dependency is what the entry requires, and it is active where the clause of the entry is met. -/
structure DependsEntry.Declares (package : String) (e : DependsEntry) (d : Dependency) : Prop where
  requirement : Requirement.parse e.spec = .ok ⟨d.target, d.constraint, d.requirements⟩
  types : d.types = (e.types.map fun types => DependencyType.sorted types.toList).getD [.build, .link]
  active : ∀ config, d.isActive config ↔ e.when.IsMet package config

/-- The conflict applies where the selection of the entry holds and its clause is met. -/
structure ConflictEntry.Declares (package : String) (e : ConflictEntry) (c : Conflict) : Prop where
  message : c.message = e.message
  applies : ∀ config, c.applies config ↔
    (∃ selection, Condition.parse package e.spec = .ok selection ∧ selection.holds config) ∧
      e.when.IsMet package config

/-- The conflict is the selection of the entry together with its clause. -/
inductive ConflictEntry.Stores (package : String) (e : ConflictEntry) : Conflict → Prop where
  | mk {selection clause : Condition} (hselection : Condition.parse package e.spec = .ok selection)
      (hclause : Clause package e.when clause) : Stores package e ⟨.conj [selection, clause], e.message⟩

theorem ConflictEntry.Stores.declares {package : String} {e : ConflictEntry} {c : Conflict}
    (h : e.Stores package c) : e.Declares package c := by
  obtain ⟨hselection, hclause⟩ := h
  refine ⟨rfl, fun config => ?_⟩
  rw [Conflict.applies, Condition.holds_conj, ← hclause.holds_iff config]
  simp [hselection]

/-- Entry by entry the specification is what the recipe says. -/
structure Recipe.Describes (r : Recipe) (s : PackageSpec) : Prop where
  name : s.name = r.package.name
  summary : s.summary = r.package.summary
  homepage : s.homepage = r.package.homepage
  buildSystem : s.buildSystem = r.package.buildSystem
  parallel : s.parallel = r.package.parallel
  versions : List.Forall₂ (VersionEntry.Declares r) r.versions s.versions
  variants : List.Forall₂ VariantEntry.Declares r.variants s.variants
  depends : List.Forall₂ (DependsEntry.Declares r.package.name) r.depends s.dependencies
  conflicts : List.Forall₂ (ConflictEntry.Declares r.package.name) r.conflicts s.conflicts

namespace PackageSpec

variable {s : PackageSpec}

/-! ## More of one kind -/

def withVersions (s : PackageSpec) (ds : List VersionDecl) : PackageSpec :=
  { s with versions := s.versions ++ ds }

def withVariants (s : PackageSpec) (ds : List VariantDecl) : PackageSpec :=
  { s with variants := s.variants ++ ds }

def withDependencies (s : PackageSpec) (ds : List Dependency) : PackageSpec :=
  { s with dependencies := s.dependencies ++ ds }

def withConflicts (s : PackageSpec) (cs : List Conflict) : PackageSpec :=
  { s with conflicts := s.conflicts ++ cs }

theorem checkedVariant_eq {name : String} {kind : VariantKind} {default : VariantValue}
    {values : Option (List String)} {decl : VariantDecl}
    (h : checkedVariant name kind default values = .ok decl) :
    decl = ⟨name, kind, default, values.getD [], none⟩ := by
  unfold checkedVariant at h
  split at h
  · cases h
  · rename_i vs hvs
    have hvalues : vs = values.getD [] := by
      unfold allowedValues at hvs
      split at hvs <;> cases hvs <;> rfl
    subst hvalues
    simp only at h
    split at h
    · cases h
    · cases h
      rfl

end PackageSpec

namespace Recipe

variable {r : Recipe} {s s' : PackageSpec}

/-! ## One entry -/

theorem declareVersion_extends {e : VersionEntry} (h : r.declareVersion s e = .ok s') :
    ∃ d, e.Declares r d ∧ s' = s.withVersions [d] := by
  obtain ⟨locator, integrity, t, hlocator, hintegrity, ht, rfl⟩ := declareVersion_ok h
  obtain ⟨v, hv, -, rfl⟩ := PackageSpec.declareVersion_ok ht
  refine ⟨⟨v, locator, integrity, e.preferred⟩, ⟨hv, hlocator, hintegrity, rfl⟩, ?_⟩
  cases e.preferred with
  | false => rfl
  | true => simp [PackageSpec.withVersions, PackageSpec.prefer, modify_append_singleton]

theorem declareVariant_extends {e : VariantEntry} (h : declareVariant s e = .ok s') :
    ∃ d, e.Declares d ∧ s' = s.withVariants [d] := by
  obtain ⟨t, ht, rfl⟩ := declareVariant_ok h
  obtain ⟨-, -, decl, hdecl, rfl⟩ := PackageSpec.declareVariant_ok ht
  rw [PackageSpec.checkedVariant_eq hdecl]
  refine ⟨⟨e.name, kindOf e, defaultOf e, e.values.getD [], e.description⟩, ⟨rfl, rfl, rfl, rfl, rfl⟩, ?_⟩
  simp [PackageSpec.withVariants, PackageSpec.describe, modify_append_singleton]

theorem declareDependency_extends {e : DependsEntry} (h : r.declareDependency s e = .ok s') :
    ∃ d, e.Declares s.name d ∧ s' = s.withDependencies [d] := by
  obtain ⟨requirement, condition, t, hrequirement, hcondition, ht, rfl⟩ := declareDependency_ok h
  obtain ⟨-, -, rfl⟩ := PackageSpec.declareDependency_ok ht
  have active := (PackageSpec.parseWhen_ok.1 hcondition).1.holds_iff
  cases htypes : e.types with
  | none => exact ⟨.ofRequirement requirement condition, ⟨hrequirement, by rw [htypes]; rfl, active⟩, rfl⟩
  | some types =>
      refine ⟨{ Dependency.ofRequirement requirement condition with
        types := DependencyType.sorted types.toList }, ⟨hrequirement, by rw [htypes]; rfl, active⟩, ?_⟩
      simp [PackageSpec.withDependencies, PackageSpec.setTypes, modify_append_singleton]

theorem declareConflict_extends (hname : s.name = r.package.name) {e : ConflictEntry}
    (h : r.declareConflict s e = .ok s') : ∃ c, e.Stores r.package.name c ∧ s' = s.withConflicts [c] := by
  obtain ⟨selection, clause, hselection, hclause, ht⟩ := declareConflict_ok h
  obtain ⟨-, rfl⟩ := PackageSpec.declareConflict_ok ht
  have hclause := (PackageSpec.parseWhen_ok.1 hclause).1
  rw [hname] at hclause
  exact ⟨_, .mk hselection hclause, rfl⟩

/-! ## All entries -/

theorem declareVersions_extends {es : List VersionEntry} (h : es.foldlM r.declareVersion s = .ok s') :
    ∃ ds, List.Forall₂ (VersionEntry.Declares r) es ds ∧ s' = s.withVersions ds := by
  refine foldlM_extends PackageSpec.withVersions (P := fun _ => True) ?_ ?_ (fun _ _ h => h) ?_ trivial h
  · simp [PackageSpec.withVersions]
  · simp [PackageSpec.withVersions]
  · exact fun _ _ _ _ hstep => declareVersion_extends hstep

theorem declareVariants_extends {es : List VariantEntry} (h : es.foldlM declareVariant s = .ok s') :
    ∃ ds, List.Forall₂ VariantEntry.Declares es ds ∧ s' = s.withVariants ds := by
  refine foldlM_extends PackageSpec.withVariants (P := fun _ => True) ?_ ?_ (fun _ _ h => h) ?_ trivial h
  · simp [PackageSpec.withVariants]
  · simp [PackageSpec.withVariants]
  · exact fun _ _ _ _ hstep => declareVariant_extends hstep

theorem declareDependencies_extends (hname : s.name = r.package.name) {es : List DependsEntry}
    (h : es.foldlM r.declareDependency s = .ok s') :
    ∃ ds, List.Forall₂ (DependsEntry.Declares r.package.name) es ds ∧ s' = s.withDependencies ds := by
  refine foldlM_extends PackageSpec.withDependencies (P := fun t => t.name = r.package.name) ?_ ?_
    (fun _ _ h => h) ?_ hname h
  · simp [PackageSpec.withDependencies]
  · simp [PackageSpec.withDependencies]
  · intro t e t' ht hstep
    rw [← ht]
    exact declareDependency_extends hstep

theorem declareConflicts_stores (hname : s.name = r.package.name) {es : List ConflictEntry}
    (h : es.foldlM r.declareConflict s = .ok s') :
    ∃ cs, List.Forall₂ (ConflictEntry.Stores r.package.name) es cs ∧ s' = s.withConflicts cs := by
  refine foldlM_extends PackageSpec.withConflicts (P := fun t => t.name = r.package.name) ?_ ?_
    (fun _ _ h => h) ?_ hname h
  · simp [PackageSpec.withConflicts]
  · simp [PackageSpec.withConflicts]
  · exact fun _ _ _ ht hstep => declareConflict_extends ht hstep

theorem declareConflicts_extends (hname : s.name = r.package.name) {es : List ConflictEntry}
    (h : es.foldlM r.declareConflict s = .ok s') :
    ∃ cs, List.Forall₂ (ConflictEntry.Declares r.package.name) es cs ∧ s' = s.withConflicts cs := by
  obtain ⟨cs, hcs, rfl⟩ := declareConflicts_stores hname h
  exact ⟨cs, hcs.imp fun _ _ hstores => hstores.declares, rfl⟩

/-- Each declaration of a specification that a recipe converts to is that of the entry at its place. -/
theorem toSpec_describes (h : r.toSpec = .ok s) : r.Describes s := by
  obtain ⟨s₀, hs₀, s₁, hs₁, s₂, hs₂, s₃, hs₃, hs⟩ := toSpec_ok.1 h
  obtain ⟨-, rfl⟩ := bareSpec_ok hs₀
  obtain ⟨versions, hversions, rfl⟩ := declareVersions_extends hs₁
  obtain ⟨variants, hvariants, rfl⟩ := declareVariants_extends hs₂
  obtain ⟨dependencies, hdepends, rfl⟩ := declareDependencies_extends (by rfl) hs₃
  obtain ⟨conflicts, hconflicts, rfl⟩ := declareConflicts_extends (by rfl) hs
  exact ⟨rfl, rfl, rfl, rfl, rfl, hversions, hvariants, hdepends, hconflicts⟩

/-- A package that needs one of two others for some of its switches, and clashes with itself without them. -/
def coupler : Recipe where
  package := ⟨"coupler", none, none, .cmake, true, none, some "https://example.org/coupler.git"⟩
  versions := [⟨"develop", none, none, none, none, none, none, some "main", none, none, false, true⟩]
  variants := [⟨"mpi", .bool true, none, false, none⟩,
    ⟨"io", .single "none", some ["none", "adios"], true, none⟩]
  depends := [⟨"cmake@3.10:", none, some (.one .build)⟩,
    ⟨"adios2@2.5: +mpi", some (.many ["io=adios", "@:1 +mpi"]), none⟩]
  conflicts := [⟨"io=adios", some (.one "~mpi"), some "no serial output"⟩]
  build := .empty

theorem describes_coupler : ∃ s, coupler.toSpec = .ok s ∧ coupler.Describes s := by
  have accepted : coupler.toSpec.toBool := by decide +kernel
  cases h : coupler.toSpec with
  | error e => rw [h] at accepted; cases accepted
  | ok s => exact ⟨s, rfl, toSpec_describes h⟩

end Recipe

end PackageRecipes
