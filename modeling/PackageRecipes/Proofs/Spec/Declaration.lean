import PackageRecipes.Proofs.Update
import PackageRecipes.Spec.Basic

/-!
# Declarations

What an accepted declaration adds to a specification and what was checked before. Declared variants stay as
they are apart from their descriptions, so a condition that once fits them fits them ever after.
-/

namespace PackageRecipes

namespace VariantDecl

/-- The declaration without its description, which no check reads. -/
def undescribed (d : VariantDecl) : VariantDecl := { d with description := none }

theorem checkMatch_undescribed (d : VariantDecl) (wanted : VariantMatch) :
    d.undescribed.checkMatch wanted = d.checkMatch wanted := rfl

end VariantDecl

/-- A change to one entry that a view does not show changes nothing in that view. -/
theorem map_modify_of_fixed {α β : Type} {view : α → β} {change : α → α}
    (fixed : ∀ x, view (change x) = view x) (xs : List α) (index : Nat) :
    (xs.modify index change).map view = xs.map view := by
  induction xs generalizing index with
  | nil => rw [List.modify_nil]
  | cons x xs ih =>
      cases index with
      | zero => rw [List.modify_zero_cons, List.map_cons, List.map_cons, fixed]
      | succ index => rw [List.modify_succ_cons, List.map_cons, List.map_cons, ih]

namespace SpecStep

open Update

/-! ## Running a declaration -/

theorem runOn_declareVersion (label : String) (locator : SourceLocator) (integrity : Option Checksum)
    (s : PackageSpec) :
    (declareVersion label locator integrity).runOn s = match Version.parse label with
      | .error e => (.error (.invalidVersion e), s)
      | .ok v =>
        if (s.version? v).isSome then (.error (.duplicateVersion s.name (.version s.versions.length) label), s)
        else (.ok (), { s with versions := s.versions ++ [⟨v, locator, integrity, false⟩] }) := by
  unfold declareVersion
  cases Version.parse label with
  | error e => rfl
  | ok v =>
      dsimp only
      rw [runOn_get_bind]
      split <;> rfl

theorem runOn_declareVariant (name : String) (kind : VariantKind) (default : VariantValue)
    (values : Option (List String)) (s : PackageSpec) :
    (declareVariant name kind default values).runOn s = match nameFault? name with
      | some fault => (.error (.invalidName name fault), s)
      | none =>
        if (s.variant? name).isSome then (.error (.duplicateVariant s.name (.variant name) name), s)
        else
          match PackageSpec.checkedVariant name kind default values with
          | .error fault => (.error (.invalidDefault s.name (.variantDefault name) name fault), s)
          | .ok decl => (.ok (), { s with variants := s.variants ++ [decl] }) := by
  unfold declareVariant
  cases nameFault? name with
  | some fault => rfl
  | none =>
      dsimp only
      rw [runOn_get_bind]
      split
      · rfl
      · cases PackageSpec.checkedVariant name kind default values <;> rfl

theorem runOn_declareDependency (target : String) (constraint : List VersionRange) (requirements : List Condition)
    (condition : Condition) (s : PackageSpec) :
    (declareDependency target constraint requirements condition).runOn s = match nameFault? target with
      | some fault => (.error (.invalidName target fault), s)
      | none =>
        match s.checkCondition condition with
        | .error e => (.error (.malformedCondition s.name (.dependsWhen s.dependencies.length) e), s)
        | .ok () => (.ok (), { s with
            dependencies := s.dependencies ++ [.ofRequirement ⟨target, constraint, requirements⟩ condition] }) := by
  unfold declareDependency
  cases nameFault? target with
  | some fault => rfl
  | none =>
      dsimp only
      rw [runOn_get_bind]
      cases s.checkCondition condition <;> rfl

theorem runOn_declareConflict (condition : Condition) (message : Option String) (s : PackageSpec) :
    (declareConflict condition message).runOn s = match s.checkCondition condition with
      | .error e => (.error (.malformedCondition s.name (.conflict s.conflicts.length) e), s)
      | .ok () => (.ok (), { s with conflicts := s.conflicts ++ [⟨condition, message⟩] }) := by
  unfold declareConflict
  rw [runOn_get_bind]
  cases s.checkCondition condition <;> rfl

end SpecStep

namespace PackageSpec

variable {s s' : PackageSpec}

/-! ## Accepted declarations -/

theorem bare_ok {name : String} (h : bare name = .ok s) :
    nameFault? name = none ∧ s = ⟨name, none, none, .generic, true, [], [], [], []⟩ := by
  unfold bare at h
  split at h
  · cases h
  · cases h
    exact ⟨‹_›, rfl⟩

theorem declareVersion_ok {label : String} {locator : SourceLocator} {integrity : Option Checksum}
    (h : s.declareVersion label locator integrity = .ok s') :
    ∃ v, Version.parse label = .ok v ∧ s.version? v = none ∧
      s' = { s with versions := s.versions ++ [⟨v, locator, integrity, false⟩] } := by
  rw [declareVersion, Update.result_eq_ok, SpecStep.runOn_declareVersion] at h
  split at h
  · cases h
  · rename_i v hv
    split at h
    · cases h
    · rename_i hnew
      cases h
      exact ⟨v, hv, by simpa using hnew, rfl⟩

/-- Switches go without a list of values, all other variants have one. -/
theorem allowedValues_ok {kind : VariantKind} {values : Option (List String)} {vs : List String}
    (h : allowedValues kind values = .ok vs) : kind = .boolean ↔ vs = [] := by
  cases kind with
  | boolean =>
      cases values with
      | none => cases h; simp
      | some vs => cases h
  | enumerated | multi =>
      cases values with
      | none => cases h
      | some list =>
          cases list with
          | nil => cases h
          | cons v rest => cases h; simp

theorem checkedVariant_ok {name : String} {kind : VariantKind} {default : VariantValue}
    {values : Option (List String)} {decl : VariantDecl}
    (h : checkedVariant name kind default values = .ok decl) :
    decl.name = name ∧ decl.valueFault? decl.default = none ∧
      (decl.kind = .boolean ↔ decl.allowedValues = []) := by
  unfold checkedVariant at h
  split at h
  · cases h
  · rename_i vs hvs
    simp only at h
    split at h
    · cases h
    · cases h
      exact ⟨rfl, ‹_›, allowedValues_ok hvs⟩

theorem declareVariant_ok {name : String} {kind : VariantKind} {default : VariantValue}
    {values : Option (List String)} (h : s.declareVariant name kind default values = .ok s') :
    nameFault? name = none ∧ s.variant? name = none ∧
      ∃ decl, checkedVariant name kind default values = .ok decl ∧
        s' = { s with variants := s.variants ++ [decl] } := by
  rw [declareVariant, Update.result_eq_ok, SpecStep.runOn_declareVariant] at h
  split at h
  · cases h
  · split at h
    · cases h
    · rename_i hvalid hnew
      split at h
      · cases h
      · rename_i decl hdecl
        cases h
        exact ⟨hvalid, by simpa using hnew, decl, hdecl, rfl⟩

theorem declareDependency_ok {target : String} {constraint : List VersionRange}
    {requirements : List Condition} {condition : Condition}
    (h : s.declareDependency target constraint requirements condition = .ok s') :
    nameFault? target = none ∧ s.checkCondition condition = .ok () ∧
      s' = { s with dependencies :=
        s.dependencies ++ [.ofRequirement ⟨target, constraint, requirements⟩ condition] } := by
  rw [declareDependency, Update.result_eq_ok, SpecStep.runOn_declareDependency] at h
  split at h
  · cases h
  · split at h
    · cases h
    · cases h
      exact ⟨‹_›, ‹_›, rfl⟩

theorem declareConflict_ok {condition : Condition} {message : Option String}
    (h : s.declareConflict condition message = .ok s') :
    s.checkCondition condition = .ok () ∧
      s' = { s with conflicts := s.conflicts ++ [⟨condition, message⟩] } := by
  rw [declareConflict, Update.result_eq_ok, SpecStep.runOn_declareConflict] at h
  split at h
  · cases h
  · cases h
    exact ⟨‹_›, rfl⟩

/-! ## Refused declarations -/

variable {fault : Error}

theorem declareVersion_error {label : String} {locator : SourceLocator} {integrity : Option Checksum}
    (h : s.declareVersion label locator integrity = .error fault) :
    (∃ cause, Version.parse label = .error cause ∧ fault = .invalidVersion cause) ∨
      ∃ v, Version.parse label = .ok v ∧
        fault = .duplicateVersion s.name (.version s.versions.length) label := by
  obtain ⟨_, h⟩ := Update.result_eq_error.1 h
  rw [SpecStep.runOn_declareVersion] at h
  split at h
  · cases h
    exact .inl ⟨_, ‹_›, rfl⟩
  · split at h
    · cases h
      exact .inr ⟨_, ‹_›, rfl⟩
    · cases h

theorem declareVariant_error {name : String} {kind : VariantKind} {default : VariantValue}
    {values : Option (List String)} (h : s.declareVariant name kind default values = .error fault) :
    (∃ cause, nameFault? name = some cause ∧ fault = .invalidName name cause) ∨
      nameFault? name = none ∧
        ((s.variant? name ≠ none ∧ fault = .duplicateVariant s.name (.variant name) name) ∨
          ∃ cause, s.variant? name = none ∧
            fault = .invalidDefault s.name (.variantDefault name) name cause) := by
  obtain ⟨_, h⟩ := Update.result_eq_error.1 h
  rw [SpecStep.runOn_declareVariant] at h
  split at h
  · cases h
    exact .inl ⟨_, ‹_›, rfl⟩
  · refine .inr ⟨‹_›, ?_⟩
    split at h
    · rename_i hdeclared
      cases h
      exact .inl ⟨Option.isSome_iff_ne_none.1 hdeclared, rfl⟩
    · rename_i hnew
      split at h
      · cases h
        exact .inr ⟨_, by simpa using hnew, rfl⟩
      · cases h

theorem declareDependency_error {target : String} {constraint : List VersionRange}
    {requirements : List Condition} {condition : Condition}
    (h : s.declareDependency target constraint requirements condition = .error fault) :
    (∃ cause, nameFault? target = some cause ∧ fault = .invalidName target cause) ∨
      ∃ cause, nameFault? target = none ∧ s.checkCondition condition = .error cause ∧
        fault = .malformedCondition s.name (.dependsWhen s.dependencies.length) cause := by
  obtain ⟨_, h⟩ := Update.result_eq_error.1 h
  rw [SpecStep.runOn_declareDependency] at h
  split at h
  · cases h
    exact .inl ⟨_, ‹_›, rfl⟩
  · split at h
    · cases h
      exact .inr ⟨_, ‹_›, ‹_›, rfl⟩
    · cases h

theorem declareConflict_error {condition : Condition} {message : Option String}
    (h : s.declareConflict condition message = .error fault) :
    ∃ cause, s.checkCondition condition = .error cause ∧
      fault = .malformedCondition s.name (.conflict s.conflicts.length) cause := by
  obtain ⟨_, h⟩ := Update.result_eq_error.1 h
  rw [SpecStep.runOn_declareConflict] at h
  split at h
  · cases h
    exact ⟨_, ‹_›, rfl⟩
  · cases h

/-! ## Checked conditions -/

/-- Every atom is on a declared variant, which can take what is asked of it. -/
theorem checkAtoms_ok {atoms : List (String × VariantMatch)} :
    s.checkAtoms atoms = .ok () ↔
      ∀ atom ∈ atoms, ∃ decl, s.variant? atom.1 = some decl ∧ decl.checkMatch atom.2 = .ok () := by
  induction atoms with
  | nil => simp [checkAtoms]
  | cons atom rest ih =>
      rw [List.forall_mem_cons, ← ih, checkAtoms]
      cases hdecl : s.variant? atom.1 with
      | none => simp
      | some decl => cases hmatch : decl.checkMatch atom.2 <;> simp [hmatch]

/-! ## Variants stay declared -/

/-- Every variant of the first specification is one of the second, perhaps with another description. -/
def Extends (s s' : PackageSpec) : Prop :=
  ∀ name decl, s.variant? name = some decl →
    ∃ decl', s'.variant? name = some decl' ∧ decl'.undescribed = decl.undescribed

theorem Extends.of_variants (h : s'.variants = s.variants) : s.Extends s' := by
  intro name decl hdecl
  exact ⟨decl, by rw [variant?, h]; exact hdecl, rfl⟩

theorem Extends.append {decls : List VariantDecl} (h : s'.variants = s.variants ++ decls) :
    s.Extends s' := by
  intro name decl hdecl
  refine ⟨decl, ?_, rfl⟩
  rw [variant?, h, List.find?_append]
  rw [variant?] at hdecl
  rw [hdecl, Option.some_or]

theorem find?_undescribed (decls : List VariantDecl) (name : String) :
    (decls.find? (·.name == name)).map VariantDecl.undescribed =
      (decls.map VariantDecl.undescribed).find? (·.name == name) := by
  rw [List.find?_map]
  rfl

theorem undescribed_describe (s : PackageSpec) (index : Nat) (text : Option String) :
    (s.describe index text).variants.map VariantDecl.undescribed =
      s.variants.map VariantDecl.undescribed := by
  apply map_modify_of_fixed
  exact fun _ => rfl

theorem Extends.describe (s : PackageSpec) (index : Nat) (text : Option String) :
    s.Extends (s.describe index text) := by
  intro name decl hdecl
  have same : ((s.describe index text).variant? name).map VariantDecl.undescribed =
      (s.variant? name).map VariantDecl.undescribed := by
    rw [variant?, variant?, find?_undescribed, find?_undescribed, undescribed_describe]
  rw [hdecl, Option.map_some, Option.map_eq_some_iff] at same
  exact same

theorem Extends.checkAtoms (h : s.Extends s') {atoms : List (String × VariantMatch)}
    (ok : s.checkAtoms atoms = .ok ()) : s'.checkAtoms atoms = .ok () := by
  rw [checkAtoms_ok] at ok ⊢
  intro atom hatom
  obtain ⟨decl, hdecl, hmatch⟩ := ok atom hatom
  obtain ⟨decl', hdecl', same⟩ := h atom.1 decl hdecl
  refine ⟨decl', hdecl', ?_⟩
  rw [← decl'.checkMatch_undescribed, same, decl.checkMatch_undescribed]
  exact hmatch

/-- A condition that fits the declared variants still fits when there are more. -/
theorem Extends.checkCondition (h : s.Extends s') {c : Condition}
    (ok : s.checkCondition c = .ok ()) : s'.checkCondition c = .ok () := h.checkAtoms ok

end PackageSpec

end PackageRecipes
