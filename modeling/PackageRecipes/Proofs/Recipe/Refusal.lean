import Mathlib.Data.List.Nodup
import PackageRecipes.Proofs.Recipe.Entries

/-!
# Where a recipe is refused

The first entry that cannot be declared is the one for which a recipe is refused. The error tells the
package and a field of that entry, unless all that is wrong is how something is called: a label that is no
version, or a variant or target that has no valid name.
-/

namespace PackageRecipes

/-- The package and the field that an error tells. -/
def Error.origin? : Error → Option (String × Field)
  | .duplicateVersion package field _ | .duplicateVariant package field _
  | .invalidDefault package field _ _ | .malformedCondition package field _
  | .invalidField package field _ => some (package, field)
  | _ => none

/-- The place of an entry among those of its kind. -/
inductive EntryPlace where
  | version (index : Nat)
  | variant (index : Nat)
  | depends (index : Nat)
  | conflict (index : Nat)

def EntryPlace.next : EntryPlace → EntryPlace
  | .version i => .version (i + 1)
  | .variant i => .variant (i + 1)
  | .depends i => .depends (i + 1)
  | .conflict i => .conflict (i + 1)

namespace Recipe

/-- The recipe cut to the entries that are declared before a place. -/
def before (r : Recipe) : EntryPlace → Recipe
  | .version i => { r with versions := r.versions.take i, variants := [], depends := [], conflicts := [] }
  | .variant i => { r with variants := r.variants.take i, depends := [], conflicts := [] }
  | .depends i => { r with depends := r.depends.take i, conflicts := [] }
  | .conflict i => { r with conflicts := r.conflicts.take i }

def variantNames (r : Recipe) : List String := r.variants.map (·.name)

end Recipe

/-! ## Fields of entries -/

/-- The entry that a field is of. Variants go by their names: a default is that of the first variant of the
name, and a variant that is declared again is the second one. -/
inductive Field.Identifies (r : Recipe) : Field → EntryPlace → Prop where
  | version {i : Nat} (h : i < r.versions.length) : Identifies r (.version i) (.version i)
  | variantDefault {i : Nat} {name : String} (h : r.variantNames[i]? = some name)
      (hfirst : (r.variantNames.take i).count name = 0) : Identifies r (.variantDefault name) (.variant i)
  | variant {i : Nat} {name : String} (h : r.variantNames[i]? = some name)
      (hsecond : (r.variantNames.take i).count name = 1) : Identifies r (.variant name) (.variant i)
  | dependsSpec {i : Nat} (h : i < r.depends.length) : Identifies r (.dependsSpec i) (.depends i)
  | dependsWhen {i : Nat} (h : i < r.depends.length) : Identifies r (.dependsWhen i) (.depends i)
  | conflict {i : Nat} (h : i < r.conflicts.length) : Identifies r (.conflict i) (.conflict i)
  | conflictSpec {i : Nat} (h : i < r.conflicts.length) : Identifies r (.conflictSpec i) (.conflict i)
  | conflictWhen {i : Nat} (h : i < r.conflicts.length) : Identifies r (.conflictWhen i) (.conflict i)

theorem count_take_lt {xs : List String} {i j : Nat} {x : String} (hx : xs[i]? = some x) (hlt : i < j) :
    (xs.take i).count x < (xs.take j).count x := by
  have hnext : (xs.take (i + 1)).count x = (xs.take i).count x + 1 := by
    rw [List.take_add_one, hx, Option.toList_some, List.count_append, List.count_singleton_self]
  have hsub : (xs.take (i + 1)).Sublist (xs.take j) := List.take_sublist_take_left (by omega)
  have := hsub.count_le x
  omega

theorem eq_of_count_take {xs : List String} {i j : Nat} {x : String} (hi : xs[i]? = some x)
    (hj : xs[j]? = some x) (h : (xs.take i).count x = (xs.take j).count x) : i = j := by
  rcases Nat.lt_trichotomy i j with hlt | heq | hgt
  · have := count_take_lt hi hlt
    omega
  · exact heq
  · have := count_take_lt hj hgt
    omega

theorem Field.Identifies.unique {r : Recipe} {field : Field} {p q : EntryPlace} (hp : field.Identifies r p)
    (hq : field.Identifies r q) : p = q := by
  cases hp with
  | variantDefault hi hfirst =>
      cases hq with
      | variantDefault hj hfirst' => rw [eq_of_count_take hi hj (hfirst.trans hfirst'.symm)]
  | variant hi hsecond =>
      cases hq with
      | variant hj hsecond' => rw [eq_of_count_take hi hj (hsecond.trans hsecond'.symm)]
  | _ => cases hq; rfl

/-- The error tells the package and a field of this entry and of no other. -/
def Error.LocatedAt (fault : Error) (r : Recipe) (p : EntryPlace) : Prop :=
  ∃ field, fault.origin? = some (r.package.name, field) ∧ ∀ q, field.Identifies r q ↔ q = p

theorem Error.locatedAt_of_identifies {fault : Error} {r : Recipe} {p : EntryPlace} {field : Field}
    (horigin : fault.origin? = some (r.package.name, field)) (h : field.Identifies r p) :
    fault.LocatedAt r p :=
  ⟨field, horigin, fun _ => ⟨fun hq => hq.unique h, fun heq => heq ▸ h⟩⟩

/-! ## Entries that are called wrongly -/

/-- Where the source is and how it is verified can be read, but the label is no version. -/
structure VersionEntry.Misnamed (r : Recipe) (e : VersionEntry) : Prop where
  locator : ∃ locator, r.locatorOf e = .ok locator
  integrity : ∃ integrity, Recipe.integrityOf e = .ok integrity
  label : ∀ v, Version.parse e.version ≠ .ok v

def VariantEntry.Misnamed (e : VariantEntry) : Prop := nameFault? e.name ≠ none

/-- What is required can be read, and when it is, but the target has no name that could be declared. -/
def DependsEntry.Misnamed (s : PackageSpec) (e : DependsEntry) : Prop :=
  ∃ requirement, Requirement.parse e.spec = .ok requirement ∧ s.Allows e.when ∧
    nameFault? requirement.target ≠ none

/-- Nothing is wrong with the entry but how it, or its target, is called. The specification is what has been
declared before. -/
def Recipe.Misnamed (r : Recipe) (s : PackageSpec) : EntryPlace → Prop
  | .version i => ∃ e, r.versions[i]? = some e ∧ e.Misnamed r
  | .variant i => ∃ e, r.variants[i]? = some e ∧ e.Misnamed
  | .depends i => ∃ e, r.depends[i]? = some e ∧ e.Misnamed s
  | .conflict _ => False

namespace Recipe

variable {r : Recipe} {s s' : PackageSpec} {fault : Error}

/-! ## The error of one entry -/

theorem declareVersion_error {e : VersionEntry} (hname : s.name = r.package.name)
    (h : r.declareVersion s e = .error fault) :
    (e.Misnamed r ∧ fault.origin? = none) ∨
      (¬ e.Misnamed r ∧ fault.origin? = some (r.package.name, .version s.versions.length)) := by
  unfold declareVersion at h
  simp only at h
  cases hlocator : r.locatorOf e with
  | error cause =>
      rw [hlocator] at h
      cases h
      exact .inr ⟨fun hmisnamed => by simpa [hlocator] using hmisnamed.locator, rfl⟩
  | ok locator =>
      cases hintegrity : integrityOf e with
      | error cause =>
          rw [hlocator, hintegrity] at h
          cases h
          exact .inr ⟨fun hmisnamed => by simpa [hintegrity] using hmisnamed.integrity, rfl⟩
      | ok integrity =>
          rw [hlocator, hintegrity] at h
          rcases PackageSpec.declareVersion_error (exceptMap_error.1 h) with
            ⟨cause, hlabel, rfl⟩ | ⟨v, hlabel, rfl⟩
          · refine .inl ⟨⟨⟨locator, hlocator⟩, ⟨integrity, hintegrity⟩, fun v hv => ?_⟩, rfl⟩
            rw [hlabel] at hv
            cases hv
          · exact .inr ⟨fun hmisnamed => hmisnamed.label v hlabel, by rw [← hname]; rfl⟩

theorem declareVariant_error {e : VariantEntry} (h : declareVariant s e = .error fault) :
    (e.Misnamed ∧ fault.origin? = none) ∨
      ¬ e.Misnamed ∧ ((s.variant? e.name ≠ none ∧ fault.origin? = some (s.name, .variant e.name)) ∨
        (s.variant? e.name = none ∧ fault.origin? = some (s.name, .variantDefault e.name))) := by
  rcases PackageSpec.declareVariant_error (exceptMap_error.1 h) with
    ⟨cause, hinvalid, rfl⟩ | ⟨hvalid, ⟨hdeclared, rfl⟩ | ⟨cause, hnew, rfl⟩⟩
  · refine .inl ⟨?_, rfl⟩
    rw [VariantEntry.Misnamed, hinvalid]
    exact Option.some_ne_none cause
  · exact .inr ⟨fun hmisnamed => hmisnamed hvalid, .inl ⟨hdeclared, rfl⟩⟩
  · exact .inr ⟨fun hmisnamed => hmisnamed hvalid, .inr ⟨hnew, rfl⟩⟩

theorem declareDependency_error {e : DependsEntry} (hname : s.name = r.package.name)
    (h : r.declareDependency s e = .error fault) :
    (e.Misnamed s ∧ fault.origin? = none) ∨
      ¬ e.Misnamed s ∧ (fault.origin? = some (r.package.name, .dependsSpec s.dependencies.length) ∨
        fault.origin? = some (r.package.name, .dependsWhen s.dependencies.length)) := by
  unfold declareDependency at h
  simp only at h
  cases hspec : Requirement.parse e.spec with
  | error cause =>
      rw [hspec] at h
      cases h
      refine .inr ⟨fun ⟨_, hread, _⟩ => ?_, .inl rfl⟩
      rw [hspec] at hread
      cases hread
  | ok requirement =>
      rw [hspec] at h
      cases hwhen : s.parseWhen e.when (.dependsWhen s.dependencies.length) with
      | error f =>
          have hrefused : ¬ s.Allows e.when := by
            intro hallows
            obtain ⟨c, hc⟩ : ∃ c, s.parseWhen e.when (.dependsWhen s.dependencies.length) = .ok c :=
              PackageSpec.exists_parseWhen_ok.2 hallows
            rw [hwhen] at hc
            cases hc
          rw [hwhen] at h
          cases h
          obtain ⟨cause, rfl⟩ := PackageSpec.parseWhen_error hwhen
          exact .inr ⟨fun ⟨_, _, hallows, _⟩ => hrefused hallows, .inr (by rw [← hname]; rfl)⟩
      | ok condition =>
          rw [hwhen] at h
          rcases PackageSpec.declareDependency_error (exceptMap_error.1 h) with
            ⟨cause, hinvalid, rfl⟩ | ⟨cause, hvalid, -, rfl⟩
          · refine .inl ⟨⟨requirement, hspec, PackageSpec.exists_parseWhen_ok.1 ⟨_, hwhen⟩, ?_⟩, rfl⟩
            rw [hinvalid]
            exact Option.some_ne_none cause
          · refine .inr ⟨fun ⟨_, hread, _, hinvalid⟩ => ?_, .inr (by rw [← hname]; rfl)⟩
            rw [hspec] at hread
            cases hread
            exact hinvalid hvalid

theorem declareConflict_error {e : ConflictEntry} (hname : s.name = r.package.name)
    (h : r.declareConflict s e = .error fault) :
    ∃ field ∈ [Field.conflictSpec s.conflicts.length, .conflictWhen s.conflicts.length,
      .conflict s.conflicts.length], fault.origin? = some (r.package.name, field) := by
  unfold declareConflict at h
  simp only at h
  split at h
  · cases h
    exact ⟨_, by simp, rfl⟩
  · rw [← hname]
    split at h
    · rename_i hwhen
      cases h
      obtain ⟨cause, rfl⟩ := PackageSpec.parseWhen_error hwhen
      exact ⟨.conflictWhen s.conflicts.length, by simp, rfl⟩
    · obtain ⟨cause, -, rfl⟩ := PackageSpec.declareConflict_error h
      exact ⟨.conflict s.conflicts.length, by simp, rfl⟩

/-! ## The first entry that is refused -/

theorem toSpec_error : r.toSpec = .error fault ↔ r.bareSpec = .error fault ∨
    ∃ s₀, r.bareSpec = .ok s₀ ∧ (r.versions.foldlM r.declareVersion s₀ = .error fault ∨
    ∃ s₁, r.versions.foldlM r.declareVersion s₀ = .ok s₁ ∧
      (r.variants.foldlM declareVariant s₁ = .error fault ∨
    ∃ s₂, r.variants.foldlM declareVariant s₁ = .ok s₂ ∧
      (r.depends.foldlM r.declareDependency s₂ = .error fault ∨
    ∃ s₃, r.depends.foldlM r.declareDependency s₂ = .ok s₃ ∧
      r.conflicts.foldlM r.declareConflict s₃ = .error fault))) := by
  simp only [toSpec, exceptBind_error]

/-- All that comes before the place converts and the entry is refused; the error tells where this is unless the
entry is misnamed. -/
structure RefusedAt (r : Recipe) (fault : Error) (p : EntryPlace) (s : PackageSpec) : Prop where
  converts : (r.before p).toSpec = .ok s
  refuses : (r.before p.next).toSpec = .error fault
  origin : (r.Misnamed s p ∧ fault.origin? = none) ∨ (¬ r.Misnamed s p ∧ fault.LocatedAt r p)

/-- There is one declaration for each entry in front of a given one. -/
theorem length_of_take {α β : Type} {R : α → β → Prop} {xs : List α} {ys : List β} {i : Nat} {x : α}
    (hx : xs[i]? = some x) (h : List.Forall₂ R (xs.take i) ys) : i < xs.length ∧ ys.length = i := by
  have hlt := (List.getElem?_eq_some_iff.1 hx).1
  rw [← h.length_eq, List.length_take]
  exact ⟨hlt, by omega⟩

theorem names_of_declares {es : List VariantEntry} {ds : List VariantDecl}
    (h : List.Forall₂ VariantEntry.Declares es ds) : ds.map (·.name) = es.map (·.name) := by
  induction h with
  | nil => rfl
  | cons hfirst _ ih => rw [List.map_cons, List.map_cons, hfirst.name, ih]

section

variable {s₀ s₁ s₂ s₃ : PackageSpec} (h₀ : r.bareSpec = .ok s₀)
include h₀

theorem refusedAt_version (h : r.versions.foldlM r.declareVersion s₀ = .error fault) :
    ∃ p s, r.RefusedAt fault p s := by
  obtain ⟨i, e, s, he, hs, hfault⟩ := foldlM_error h
  have hconverts : (r.before (.version i)).toSpec = .ok s :=
    toSpec_ok.2 ⟨s₀, h₀, s, hs, s, rfl, s, rfl, rfl⟩
  have hdescribes := toSpec_describes hconverts
  have hname : s.name = r.package.name := hdescribes.name
  obtain ⟨hlt, hlength⟩ := length_of_take he hdescribes.versions
  have hmisnamed : r.Misnamed s (.version i) ↔ e.Misnamed r := by simp [Misnamed, he]
  refine ⟨.version i, s, hconverts, ?_, ?_⟩
  · exact toSpec_error.2 (.inr ⟨s₀, h₀, .inl ((foldlM_take_succ he hs).trans hfault)⟩)
  · rw [hmisnamed]
    refine (declareVersion_error hname hfault).imp_right (And.imp_right fun horigin => ?_)
    rw [hlength] at horigin
    exact Error.locatedAt_of_identifies horigin (.version hlt)

variable (h₁ : r.versions.foldlM r.declareVersion s₀ = .ok s₁)
include h₁

theorem refusedAt_variant (h : r.variants.foldlM declareVariant s₁ = .error fault) :
    ∃ p s, r.RefusedAt fault p s := by
  obtain ⟨i, e, s, he, hs, hfault⟩ := foldlM_error h
  have hconverts : (r.before (.variant i)).toSpec = .ok s :=
    toSpec_ok.2 ⟨s₀, h₀, s₁, h₁, s, hs, s, rfl, rfl⟩
  have hdescribes := toSpec_describes hconverts
  have hname : s.name = r.package.name := hdescribes.name
  have hnames : s.variants.map (·.name) = r.variantNames.take i := by
    rw [names_of_declares hdescribes.variants]
    exact List.map_take
  have hentry : r.variantNames[i]? = some e.name := by rw [variantNames, List.getElem?_map, he]; rfl
  have hdeclared : s.variant? e.name = none ↔ e.name ∉ r.variantNames.take i := by
    rw [← hnames, PackageSpec.variant?, List.find?_eq_none]
    simp only [List.mem_map, not_exists, not_and, beq_iff_eq]
  have hmisnamed : r.Misnamed s (.variant i) ↔ e.Misnamed := by simp [Misnamed, he]
  refine ⟨.variant i, s, hconverts, ?_, ?_⟩
  · exact toSpec_error.2 (.inr ⟨s₀, h₀, .inr ⟨s₁, h₁, .inl ((foldlM_take_succ he hs).trans hfault)⟩⟩)
  · rw [hmisnamed]
    refine (declareVariant_error hfault).imp_right (And.imp_right ?_)
    rw [hname]
    rintro (⟨hagain, horigin⟩ | ⟨hnew, horigin⟩)
    · refine Error.locatedAt_of_identifies horigin (.variant hentry ?_)
      have hmem : e.name ∈ r.variantNames.take i := by
        by_contra hnot
        exact hagain (hdeclared.2 hnot)
      have hnodup := (toSpec_wellFormed hconverts).variantNames
      rw [hnames] at hnodup
      exact List.count_eq_one_of_mem hnodup hmem
    · have hfirst : (r.variantNames.take i).count e.name = 0 := List.count_eq_zero.2 (hdeclared.1 hnew)
      exact Error.locatedAt_of_identifies horigin (.variantDefault hentry hfirst)

variable (h₂ : r.variants.foldlM declareVariant s₁ = .ok s₂)
include h₂

theorem refusedAt_depends (h : r.depends.foldlM r.declareDependency s₂ = .error fault) :
    ∃ p s, r.RefusedAt fault p s := by
  obtain ⟨i, e, s, he, hs, hfault⟩ := foldlM_error h
  have hconverts : (r.before (.depends i)).toSpec = .ok s :=
    toSpec_ok.2 ⟨s₀, h₀, s₁, h₁, s₂, h₂, s, hs, rfl⟩
  have hdescribes := toSpec_describes hconverts
  obtain ⟨hlt, hlength⟩ := length_of_take he hdescribes.depends
  have hmisnamed : r.Misnamed s (.depends i) ↔ e.Misnamed s := by simp [Misnamed, he]
  refine ⟨.depends i, s, hconverts, ?_, ?_⟩
  · exact toSpec_error.2 (.inr ⟨s₀, h₀, .inr ⟨s₁, h₁, .inr ⟨s₂, h₂,
      .inl ((foldlM_take_succ he hs).trans hfault)⟩⟩⟩)
  · rw [hmisnamed]
    refine (declareDependency_error hdescribes.name hfault).imp_right (And.imp_right ?_)
    rw [hlength]
    rintro (horigin | horigin)
    · exact Error.locatedAt_of_identifies horigin (.dependsSpec hlt)
    · exact Error.locatedAt_of_identifies horigin (.dependsWhen hlt)

theorem refusedAt_conflict (h₃ : r.depends.foldlM r.declareDependency s₂ = .ok s₃)
    (h : r.conflicts.foldlM r.declareConflict s₃ = .error fault) : ∃ p s, r.RefusedAt fault p s := by
  obtain ⟨i, e, s, he, hs, hfault⟩ := foldlM_error h
  have hconverts : (r.before (.conflict i)).toSpec = .ok s :=
    toSpec_ok.2 ⟨s₀, h₀, s₁, h₁, s₂, h₂, s₃, h₃, hs⟩
  have hdescribes := toSpec_describes hconverts
  obtain ⟨hlt, hlength⟩ := length_of_take he hdescribes.conflicts
  refine ⟨.conflict i, s, hconverts, ?_, .inr ⟨id, ?_⟩⟩
  · exact toSpec_error.2 (.inr ⟨s₀, h₀, .inr ⟨s₁, h₁, .inr ⟨s₂, h₂, .inr ⟨s₃, h₃,
      (foldlM_take_succ he hs).trans hfault⟩⟩⟩⟩)
  · obtain ⟨field, hfield, horigin⟩ := declareConflict_error hdescribes.name hfault
    rw [hlength] at hfield
    refine Error.locatedAt_of_identifies horigin ?_
    simp only [List.mem_cons, List.not_mem_nil, or_false] at hfield
    rcases hfield with rfl | rfl | rfl
    · exact .conflictSpec hlt
    · exact .conflictWhen hlt
    · exact .conflict hlt

end

/-- A recipe of a package with a valid name is refused at one entry. The error tells the package and a field of
this entry and of no other, exactly if there is more to it than how the entry or its target is called. -/
theorem toSpec_refusedAt (hvalid : nameFault? r.package.name = none) (h : r.toSpec = .error fault) :
    ∃ p s, r.RefusedAt fault p s := by
  rcases toSpec_error.1 h with
    hbare | ⟨s₀, h₀, hversions | ⟨s₁, h₁, hvariants | ⟨s₂, h₂, hdepends | ⟨s₃, h₃, hconflicts⟩⟩⟩⟩
  · rw [bareSpec, PackageSpec.bare, hvalid] at hbare
    cases hbare
  · exact refusedAt_version h₀ hversions
  · exact refusedAt_variant h₀ h₁ hvariants
  · exact refusedAt_depends h₀ h₁ h₂ hdepends
  · exact refusedAt_conflict h₀ h₁ h₂ h₃ hconflicts

/-- A package with a variant that is declared again. -/
def repeating : Recipe :=
  { coupler with variants := coupler.variants ++ [⟨"mpi", .bool false, none, false, none⟩] }

theorem refusedAt_repeating :
    nameFault? repeating.package.name = none ∧
      repeating.toSpec = .error (.duplicateVariant "coupler" (.variant "mpi") "mpi") ∧
      ∃ p s, repeating.RefusedAt (.duplicateVariant "coupler" (.variant "mpi") "mpi") p s := by
  have hvalid : nameFault? repeating.package.name = none := by decide
  have hfault : repeating.toSpec = .error (.duplicateVariant "coupler" (.variant "mpi") "mpi") := by rfl
  exact ⟨hvalid, hfault, toSpec_refusedAt hvalid hfault⟩

/-- A package with a label that is no version. -/
def mislabelled : Recipe :=
  { coupler with versions := coupler.versions ++
      [⟨"2.0 beta", some "source", none, none, none, none, none, none, none, none, false, false⟩] }

/-- A label that is no version is refused without a word on where it stands. -/
theorem not_located : ¬ ∀ (r : Recipe) (fault : Error), nameFault? r.package.name = none →
    r.toSpec = .error fault → ∃ p s, fault.LocatedAt r p ∧ (r.before p).toSpec = .ok s := by
  intro hall
  have hfault : mislabelled.toSpec = .error (.invalidVersion ⟨"2.0 beta", .unexpectedCharacter ' '⟩) := by rfl
  obtain ⟨p, s, ⟨field, horigin, -⟩, -⟩ := hall mislabelled _ (by decide) hfault
  cases horigin

end Recipe

end PackageRecipes
