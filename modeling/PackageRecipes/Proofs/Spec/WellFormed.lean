import PackageRecipes.Proofs.Except
import PackageRecipes.Proofs.Spec.Declaration

/-!
# Well-formed specifications

Whatever is declared, in whatever order and with whatever arguments, a specification stays well formed: what
a declaration checks when it is made holds of the specification from then on.
-/

namespace PackageRecipes

/-- The name is valid, the allowed values suit the kind, and the default can be assigned. -/
structure VariantDecl.WellFormed (d : VariantDecl) : Prop where
  name : nameFault? d.name = none
  values : d.kind = .boolean ↔ d.allowedValues = []
  default : d.valueFault? d.default = none

theorem VariantDecl.WellFormed.of_undescribed {d d' : VariantDecl} (h : d.WellFormed)
    (same : d'.undescribed = d.undescribed) : d'.WellFormed := by
  have bare : d'.undescribed.WellFormed := by
    rw [same]
    exact ⟨h.name, h.values, h.default⟩
  exact ⟨bare.name, bare.values, bare.default⟩

namespace PackageSpec

/-- No version and no variant is declared twice, every variant is well formed, and all conditions fit the
variants. -/
structure WellFormed (s : PackageSpec) : Prop where
  versions : s.versions.Pairwise fun d e => ¬ d.version.same e.version
  variantNames : (s.variants.map (·.name)).Nodup
  variants : ∀ d ∈ s.variants, d.WellFormed
  dependencies : ∀ d ∈ s.dependencies, s.checkCondition d.condition = .ok ()
  conflicts : ∀ c ∈ s.conflicts, s.checkCondition c.condition = .ok ()

/-! ## What is declared -/

/-- A declaration, or a change to one of the entries declared before. -/
inductive Declaration where
  | version (label : String) (locator : SourceLocator) (integrity : Option Checksum)
  | variant (name : String) (kind : VariantKind) (default : VariantValue) (values : Option (List String))
  | dependency (target : String) (constraint : List VersionRange) (requirements : List Condition)
      (condition : Condition)
  | conflict (condition : Condition) (message : Option String)
  | prefer (index : Nat)
  | describe (index : Nat) (text : Option String)
  | setTypes (index : Nat) (types : List DependencyType)

def Declaration.perform : Declaration → SpecStep Unit
  | .version label locator integrity => .declareVersion label locator integrity
  | .variant name kind default values => .declareVariant name kind default values
  | .dependency target constraint requirements condition =>
    .declareDependency target constraint requirements condition
  | .conflict condition message => .declareConflict condition message
  | .prefer index => modify (·.prefer index)
  | .describe index text => modify (·.describe index text)
  | .setTypes index types => modify (·.setTypes index types)

def declare (s : PackageSpec) (d : Declaration) : Except Error PackageSpec := d.perform.result s

/-- What a declaration leaves, whether or not it is refused. -/
def accept (s : PackageSpec) (d : Declaration) : PackageSpec := (d.perform.runOn s).2

def acceptAll (s : PackageSpec) (ds : List Declaration) : PackageSpec := ds.foldl accept s

variable {s s' : PackageSpec} {e : Error}

/-- Every declaration makes its checks before it changes anything. -/
theorem Declaration.perform_refused (d : Declaration) (h : d.perform.runOn s = (.error e, s')) : s' = s := by
  cases d with
  | version label locator integrity =>
      rw [perform, SpecStep.runOn_declareVersion] at h
      split at h
      · cases h; rfl
      · split at h <;> cases h; rfl
  | variant name kind default values =>
      rw [perform, SpecStep.runOn_declareVariant] at h
      split at h
      · cases h; rfl
      · split at h
        · cases h; rfl
        · split at h <;> cases h; rfl
  | dependency target constraint requirements condition =>
      rw [perform, SpecStep.runOn_declareDependency] at h
      split at h
      · cases h; rfl
      · split at h <;> cases h; rfl
  | conflict condition message =>
      rw [perform, SpecStep.runOn_declareConflict] at h
      split at h <;> cases h; rfl
  | prefer index => cases h
  | describe index text => cases h
  | setTypes index types => cases h

/-! ## Every declaration keeps a specification well formed -/

theorem bare_wellFormed {name : String} (h : bare name = .ok s) : s.WellFormed := by
  obtain ⟨-, rfl⟩ := bare_ok h
  exact ⟨.nil, .nil, nofun, nofun, nofun⟩

namespace WellFormed

/-- Conditions and variants go over to a specification with the same variants, which may differ in the rest
of what it declares. -/
theorem of_variants (h : s.WellFormed) (same : s'.variants = s.variants)
    (versions : s'.versions.Pairwise fun d e => ¬ d.version.same e.version)
    (dependencies : ∀ d ∈ s'.dependencies, s.checkCondition d.condition = .ok ())
    (conflicts : ∀ c ∈ s'.conflicts, s.checkCondition c.condition = .ok ()) : s'.WellFormed where
  versions := versions
  variantNames := by rw [same]; exact h.variantNames
  variants := by rw [same]; exact h.variants
  dependencies d hd := (Extends.of_variants same).checkCondition (dependencies d hd)
  conflicts c hc := (Extends.of_variants same).checkCondition (conflicts c hc)

theorem declareVersion (h : s.WellFormed) {label : String} {locator : SourceLocator}
    {integrity : Option Checksum} (hs : s.declareVersion label locator integrity = .ok s') :
    s'.WellFormed := by
  obtain ⟨v, -, hnew, rfl⟩ := declareVersion_ok hs
  rw [version?, List.find?_eq_none] at hnew
  refine h.of_variants rfl ?_ h.dependencies h.conflicts
  refine List.pairwise_append.2 ⟨h.versions, List.pairwise_singleton _ _, fun d hd e he => ?_⟩
  rw [List.mem_singleton] at he
  subst he
  exact hnew d hd

theorem declareVariant (h : s.WellFormed) {name : String} {kind : VariantKind}
    {default : VariantValue} {values : Option (List String)}
    (hs : s.declareVariant name kind default values = .ok s') : s'.WellFormed := by
  obtain ⟨hvalid, hnew, decl, hdecl, hs'⟩ := declareVariant_ok hs
  obtain ⟨rfl, hdefault, hvalues⟩ := checkedVariant_ok hdecl
  rw [variant?, List.find?_eq_none] at hnew
  have more : s.Extends s' := .append (by rw [hs'])
  subst hs'
  constructor
  case versions => exact h.versions
  case variantNames =>
    rw [List.map_append, List.nodup_append]
    refine ⟨h.variantNames, List.pairwise_singleton _ _, fun name hname other hother same => ?_⟩
    obtain ⟨d, hd, rfl⟩ := List.mem_map.1 hname
    rw [List.map_singleton, List.mem_singleton] at hother
    exact hnew d hd (beq_iff_eq.2 (same.trans hother))
  case variants =>
    have fresh : decl.WellFormed := ⟨hvalid, hvalues, hdefault⟩
    exact List.forall_mem_append.2 ⟨h.variants, List.forall_mem_singleton.2 fresh⟩
  case dependencies => exact fun d hd => more.checkCondition (h.dependencies d hd)
  case conflicts => exact fun c hc => more.checkCondition (h.conflicts c hc)

theorem declareDependency (h : s.WellFormed) {target : String} {constraint : List VersionRange}
    {requirements : List Condition} {condition : Condition}
    (hs : s.declareDependency target constraint requirements condition = .ok s') : s'.WellFormed := by
  obtain ⟨-, hcondition, rfl⟩ := declareDependency_ok hs
  refine h.of_variants rfl h.versions ?_ h.conflicts
  exact List.forall_mem_append.2 ⟨h.dependencies, List.forall_mem_singleton.2 hcondition⟩

theorem declareConflict (h : s.WellFormed) {condition : Condition} {message : Option String}
    (hs : s.declareConflict condition message = .ok s') : s'.WellFormed := by
  obtain ⟨hcondition, rfl⟩ := declareConflict_ok hs
  refine h.of_variants rfl h.versions h.dependencies ?_
  exact List.forall_mem_append.2 ⟨h.conflicts, List.forall_mem_singleton.2 hcondition⟩

theorem prefer (h : s.WellFormed) (index : Nat) : (s.prefer index).WellFormed := by
  have labels : (s.prefer index).versions.map (·.version) = s.versions.map (·.version) := by
    apply map_modify_of_fixed
    exact fun _ => rfl
  have distinct : (s.versions.map (·.version)).Pairwise fun v w => ¬ v.same w :=
    List.pairwise_map.2 h.versions
  rw [← labels] at distinct
  exact h.of_variants rfl (List.pairwise_map.1 distinct) h.dependencies h.conflicts

theorem setTypes (h : s.WellFormed) (index : Nat) (types : List DependencyType) :
    (s.setTypes index types).WellFormed := by
  have conditions : (s.setTypes index types).dependencies.map (·.condition) =
      s.dependencies.map (·.condition) := by
    apply map_modify_of_fixed
    exact fun _ => rfl
  have checked : ∀ c ∈ s.dependencies.map (·.condition), s.checkCondition c = .ok () :=
    List.forall_mem_map.2 h.dependencies
  rw [← conditions] at checked
  exact h.of_variants rfl h.versions (List.forall_mem_map.1 checked) h.conflicts

theorem describe (h : s.WellFormed) (index : Nat) (text : Option String) :
    (s.describe index text).WellFormed := by
  have more : s.Extends (s.describe index text) := .describe s index text
  have names : (s.describe index text).variants.map (·.name) = s.variants.map (·.name) := by
    apply map_modify_of_fixed
    exact fun _ => rfl
  constructor
  case versions => exact h.versions
  case variantNames =>
    rw [names]
    exact h.variantNames
  case variants =>
    intro d hd
    have hmem := List.mem_map_of_mem (f := VariantDecl.undescribed) hd
    rw [undescribed_describe] at hmem
    obtain ⟨d', hd', same⟩ := List.mem_map.1 hmem
    exact (h.variants d' hd').of_undescribed same.symm
  case dependencies => exact fun d hd => more.checkCondition (h.dependencies d hd)
  case conflicts => exact fun c hc => more.checkCondition (h.conflicts c hc)

theorem perform (h : s.WellFormed) {d : Declaration} (hs : d.perform.runOn s = (.ok (), s')) : s'.WellFormed := by
  cases d with
  | version label locator integrity => exact h.declareVersion (Update.result_eq_ok.2 hs)
  | variant name kind default values => exact h.declareVariant (Update.result_eq_ok.2 hs)
  | dependency target constraint requirements condition => exact h.declareDependency (Update.result_eq_ok.2 hs)
  | conflict condition message => exact h.declareConflict (Update.result_eq_ok.2 hs)
  | prefer index => cases hs; exact h.prefer index
  | describe index text => cases hs; exact h.describe index text
  | setTypes index types => cases hs; exact h.setTypes index types

theorem accept (h : s.WellFormed) (d : Declaration) : (s.accept d).WellFormed := by
  rcases hrun : d.perform.runOn s with ⟨e | _, s'⟩
  · rw [PackageSpec.accept, hrun, d.perform_refused hrun]
    exact h
  · rw [PackageSpec.accept, hrun]
    exact h.perform hrun

theorem acceptAll (h : s.WellFormed) (ds : List Declaration) : (s.acceptAll ds).WellFormed :=
  List.foldlRecOn ds _ h fun _ h d _ => h.accept d

end WellFormed

/-- A specification that starts with nothing but a name is well formed after any declarations, and one that is
refused leaves it as it is. -/
theorem declared_wellFormed {name : String} (h : bare name = .ok s) (ds : List Declaration) :
    (s.acceptAll ds).WellFormed ∧
      ∀ d e, (s.acceptAll ds).declare d = .error e →
        d.perform.runOn (s.acceptAll ds) = (.error e, s.acceptAll ds) ∧ s.acceptAll (ds ++ [d]) = s.acceptAll ds := by
  refine ⟨(bare_wellFormed h).acceptAll ds, fun d e refused => ?_⟩
  obtain ⟨s', hrun⟩ := Update.result_eq_error.1 refused
  obtain rfl := d.perform_refused hrun
  refine ⟨hrun, ?_⟩
  rw [acceptAll, List.foldl_append]
  show ((s.acceptAll ds).accept d) = s.acceptAll ds
  rw [accept, hrun]

def solver : PackageSpec := ⟨"solver", none, none, .generic, true, [], [], [], []⟩

/-- A version and a variant, each declared twice, and conditions on that variant and on another one. -/
def solverDeclarations : List Declaration :=
  [.version "1.0" (.archive "source") none, .version "1-0" (.archive "other") none, .prefer 0,
    .variant "mpi" .boolean (.bool true) none, .variant "mpi" .enumerated (.single "on") (some ["on"]),
    .dependency "openmpi" [] [] (.variant "mpi" .enabled), .setTypes 0 [.run],
    .conflict (.variant "gpu" .enabled) none, .describe 0 (some "parallel")]

theorem wellFormed_solver :
    bare "solver" = .ok solver ∧ (solver.acceptAll solverDeclarations).WellFormed ∧
      ∀ d e, (solver.acceptAll solverDeclarations).declare d = .error e →
        d.perform.runOn (solver.acceptAll solverDeclarations) = (.error e, solver.acceptAll solverDeclarations) ∧
          solver.acceptAll (solverDeclarations ++ [d]) = solver.acceptAll solverDeclarations :=
  have named : bare "solver" = .ok solver := by rfl
  ⟨named, declared_wellFormed named solverDeclarations⟩

example : (solver.acceptAll solverDeclarations).versions.length = 1 ∧
    (solver.acceptAll solverDeclarations).variants.length = 1 ∧
    (solver.acceptAll solverDeclarations).dependencies.length = 1 ∧
    (solver.acceptAll solverDeclarations).conflicts.length = 0 := by decide +kernel

end PackageSpec

end PackageRecipes
