import Mathlib.Data.List.Pairwise
import PackageRecipes.Proofs.Spec.Assignment
import PackageRecipes.Proofs.Spec.Default
import PackageRecipes.Proofs.Version.Order

/-!
# The preferred version

Which version a default configuration takes, and that the configuration passes the check of its own
specification.
-/

namespace PackageRecipes

open Std

/-- A release that is above all other releases. -/
def Newest (versions : List VersionDecl) (d : VersionDecl) : Prop :=
  d ∈ versions ∧ d.version.isNumeric ∧
    ∀ e ∈ versions, e.version.isNumeric → e = d ∨ e.version.compare d.version = .lt

/-- The first marked version, else the newest release, else the first version. -/
inductive Preferred (versions : List VersionDecl) : VersionDecl → Prop where
  | marked {before after : List VersionDecl} {d : VersionDecl} (h : versions = before ++ d :: after)
      (hd : d.preferred) (first : ∀ e ∈ before, ¬ e.preferred) : Preferred versions d
  | release {d : VersionDecl} (unmarked : ∀ e ∈ versions, ¬ e.preferred) (hd : Newest versions d) :
      Preferred versions d
  | first {d : VersionDecl} {rest : List VersionDecl} (h : versions = d :: rest)
      (unmarked : ∀ e ∈ versions, ¬ e.preferred) (unreleased : ∀ e ∈ versions, ¬ e.version.isNumeric) :
      Preferred versions d

variable {versions others : List VersionDecl} {d d' : VersionDecl}

theorem Newest.unique (h : Newest versions d) (h' : Newest versions d') : d = d' := by
  obtain ⟨hd, hnumeric, above⟩ := h
  obtain ⟨hd', hnumeric', above'⟩ := h'
  rcases above d' hd' hnumeric' with rfl | hlt
  · rfl
  rcases above' d hd hnumeric with rfl | hgt
  · rfl
  exact absurd hgt (OrientedCmp.not_lt_of_lt hlt)

theorem Newest.perm (h : Newest versions d) (same : others.Perm versions) : Newest others d := by
  obtain ⟨hd, hnumeric, above⟩ := h
  exact ⟨same.mem_iff.2 hd, hnumeric, fun e he => above e (same.mem_iff.1 he)⟩

theorem Preferred.mem (h : Preferred versions d) : d ∈ versions := by
  cases h with
  | marked h => rw [h]; exact List.mem_append_right _ List.mem_cons_self
  | release _ hd => exact hd.1
  | first h => rw [h]; exact List.mem_cons_self

theorem Preferred.newest (h : Preferred versions d) (unmarked : ∀ e ∈ versions, ¬ e.preferred)
    (released : ∃ e ∈ versions, e.version.isNumeric) : Newest versions d := by
  cases h with
  | marked h hd => exact absurd hd (unmarked d (Preferred.mem (.marked h hd ‹_›)))
  | release _ hd => exact hd
  | first _ _ unreleased =>
      obtain ⟨e, he, hnumeric⟩ := released
      exact absurd hnumeric (unreleased e he)

namespace PackageSpec

variable {s t : PackageSpec}

/-! ## The highest version -/

theorem highest_eq_none : highest versions = none ↔ versions = [] := by
  cases versions with
  | nil => simp [highest]
  | cons d rest =>
      cases hrest : highest rest with
      | none => simp [highest, hrest]
      | some best => by_cases h : d.version.compare best.version = .gt <;> simp [highest, hrest, h]

theorem highest_eq_some (h : highest versions = some d) :
    d ∈ versions ∧ ∀ e ∈ versions, (e.version.compare d.version).isLE := by
  have refl : ∀ d : VersionDecl, (d.version.compare d.version).isLE :=
    fun _ => Ordering.isLE_of_eq_eq ReflCmp.compare_self
  induction versions generalizing d with
  | nil => cases h
  | cons e rest ih =>
      cases hrest : highest rest with
      | none =>
          rw [highest_eq_none] at hrest
          subst hrest
          simp only [highest, Option.some.injEq] at h
          subst h
          exact ⟨List.mem_cons_self, List.forall_mem_singleton.2 (refl e)⟩
      | some best =>
          obtain ⟨hbest, below⟩ := ih hrest
          by_cases hgt : e.version.compare best.version = .gt
          · simp only [highest, hrest, hgt, ↓reduceIte, Option.some.injEq] at h
            subst h
            have hle := Ordering.isLE_of_eq_lt (OrientedCmp.lt_of_gt hgt)
            refine ⟨List.mem_cons_self, List.forall_mem_cons.2 ⟨refl e, fun x hx => ?_⟩⟩
            exact TransCmp.isLE_trans (below x hx) hle
          · simp only [highest, hrest, hgt, ↓reduceIte, Option.some.injEq] at h
            subst h
            have hle := Ordering.ne_gt_iff_isLE.1 hgt
            exact ⟨List.mem_cons_of_mem _ hbest, List.forall_mem_cons.2 ⟨hle, below⟩⟩

/-! ## The preferred version -/

/-- No version is declared twice, in one spelling or in two. -/
def Distinct (versions : List VersionDecl) : Prop :=
  versions.Pairwise fun d e => ¬ d.version.same e.version

instance : Std.Symm fun d e : VersionDecl => ¬ d.version.same e.version where
  symm d e h same := by
    rw [← Version.compare_eq_iff_same] at same
    exact h (Version.compare_eq_iff_same.1 (OrientedCmp.eq_symm same))

theorem Distinct.eq_of_compare (h : Distinct versions) {e : VersionDecl} (hd : d ∈ versions)
    (he : e ∈ versions) (same : d.version.compare e.version = .eq) : d = e := by
  by_contra hne
  exact h.forall hd he hne (Version.compare_eq_iff_same.1 same)

theorem Distinct.perm (h : Distinct versions) (same : others.Perm versions) : Distinct others :=
  (List.Perm.pairwise_iff (Std.Symm.symm _ _) same).2 h

theorem Distinct.newest (h : Distinct versions)
    (hd : highest (versions.filter (·.version.isNumeric)) = some d) : Newest versions d := by
  obtain ⟨hmem, above⟩ := highest_eq_some hd
  obtain ⟨hd, hnumeric⟩ := List.mem_filter.1 hmem
  refine ⟨hd, hnumeric, fun e he hrelease => ?_⟩
  have hle := above e (List.mem_filter.2 ⟨he, hrelease⟩)
  rcases Ordering.isLE_iff_eq_lt_or_eq_eq.1 hle with hlt | heq
  · exact .inr hlt
  · exact .inl (h.eq_of_compare he hd heq)

theorem preferred_of_some (h : Distinct s.versions) (hd : s.preferredVersion? = some d) :
    Preferred s.versions d := by
  unfold preferredVersion? at hd
  cases hmarked : s.versions.find? (·.preferred) with
  | some m =>
      obtain rfl : m = d := by simpa [hmarked] using hd
      obtain ⟨hm, before, after, heq, hbefore⟩ := List.find?_eq_some_iff_append.1 hmarked
      exact .marked heq hm (by simpa using hbefore)
  | none =>
      have unmarked : ∀ e ∈ s.versions, ¬ e.preferred := List.find?_eq_none.1 hmarked
      cases hrelease : highest (s.versions.filter (·.version.isNumeric)) with
      | some r =>
          obtain rfl : r = d := by simpa [hmarked, hrelease] using hd
          exact .release unmarked (h.newest hrelease)
      | none =>
          have hhead : s.versions.head? = some d := by simpa [hmarked, hrelease] using hd
          obtain ⟨rest, heq⟩ := List.head?_eq_some_iff.1 hhead
          rw [highest_eq_none, List.filter_eq_nil_iff] at hrelease
          exact .first heq unmarked hrelease

/-- Where releases decide, the order of the declarations does not. -/
theorem preferredVersion?_perm (h : Distinct s.versions) (same : t.versions.Perm s.versions)
    (unmarked : ∀ e ∈ s.versions, ¬ e.preferred) (released : ∃ e ∈ s.versions, e.version.isNumeric) :
    t.preferredVersion? = s.preferredVersion? := by
  obtain ⟨e, he, hnumeric⟩ := released
  obtain ⟨d, hd⟩ := Option.isSome_iff_exists.1 (preferredVersion?_isSome.2 (List.ne_nil_of_mem he))
  obtain ⟨d', hd'⟩ := Option.isSome_iff_exists.1
    (preferredVersion?_isSome.2 (List.ne_nil_of_mem (same.mem_iff.2 he)))
  have hnewest : Newest s.versions d :=
    (preferred_of_some h hd).newest unmarked ⟨e, he, hnumeric⟩
  have hnewest' : Newest t.versions d' := by
    refine (preferred_of_some (h.perm same) hd').newest ?_ ⟨e, same.mem_iff.2 he, hnumeric⟩
    exact fun e he => unmarked e (same.mem_iff.1 he)
  rw [hd, hd', hnewest'.unique (hnewest.perm same)]

/-! ## The default configuration -/

theorem WellFormed.checkConfiguration_default (h : s.WellFormed) {c : Configuration}
    (hc : s.defaultConfiguration? = some c) : s.checkConfiguration c = .ok () := by
  obtain ⟨d, hd, rfl⟩ := Option.map_eq_some_iff.1 hc
  have hmem : d ∈ s.versions := (preferred_of_some h.versions hd).mem
  refine checkConfiguration_ok.2 ⟨rfl, ?_, fun e he => ?_, fun v hv => ?_⟩
  · exact List.find?_isSome.2 ⟨d, hmem, d.version.same_refl⟩
  · obtain ⟨v, hv, rfl⟩ := List.mem_map.1 (NameMap.mem_of_mem_ofList he)
    exact ⟨v, h.variant?_eq hv, (h.variants v hv).default⟩
  · rw [NameMap.contains_iff, NameMap.mem_keys_ofList, List.map_map]
    exact List.mem_map.2 ⟨v, hv, rfl⟩

theorem version_default : s.defaultConfiguration?.map (·.version) = s.preferredVersion?.map (·.version) := by
  rw [defaultConfiguration?, Option.map_map]
  rfl

/-- The specification has a default configuration whenever it can, and a good one. -/
structure SoundDefault (s : PackageSpec) : Prop where
  isSome_iff : s.defaultConfiguration?.isSome ↔ s.versions ≠ []
  checked : ∀ c, s.defaultConfiguration? = some c → s.checkConfiguration c = .ok ()
  preferred : ∀ c, s.defaultConfiguration? = some c →
    ∃ d, Preferred s.versions d ∧ c.version = d.version
  /-- Where releases decide, any specification of the same versions takes the same one. -/
  perm : (∀ e ∈ s.versions, ¬ e.preferred) → (∃ e ∈ s.versions, e.version.isNumeric) →
    ∀ t : PackageSpec, t.versions.Perm s.versions →
      t.defaultConfiguration?.map (·.version) = s.defaultConfiguration?.map (·.version)

theorem declared_soundDefault {name : String} (h : bare name = .ok s) (ds : List Declaration) :
    (s.acceptAll ds).SoundDefault := by
  have wellFormed : (s.acceptAll ds).WellFormed := (bare_wellFormed h).acceptAll ds
  constructor
  case isSome_iff => exact defaultConfiguration?_isSome
  case checked => exact fun c hc => wellFormed.checkConfiguration_default hc
  case preferred =>
    intro c hc
    obtain ⟨d, hd, rfl⟩ := Option.map_eq_some_iff.1 hc
    exact ⟨d, preferred_of_some wellFormed.versions hd, rfl⟩
  case perm =>
    intro unmarked released t same
    rw [version_default, version_default,
      preferredVersion?_perm wellFormed.versions same unmarked released]

/-- A branch, releases in no order, one of them in two spellings, and a choice. -/
def releaseDeclarations : List Declaration :=
  [.version "develop" (.archive "source") none, .version "2.9.00" (.archive "source") none,
    .version "3.1.00" (.archive "source") none, .version "3.1-0" (.archive "other") none,
    .version "2.7.24" (.archive "source") none,
    .variant "arch" .enumerated (.single "none") (some ["none", "volta"])]

theorem soundDefault_releases :
    bare "solver" = .ok solver ∧ (solver.acceptAll releaseDeclarations).SoundDefault :=
  have named : bare "solver" = .ok solver := by rfl
  ⟨named, declared_soundDefault named releaseDeclarations⟩

example : (solver.acceptAll releaseDeclarations).defaultConfiguration?.map (·.version.label) =
    some "3.1.00" := by decide +kernel

end PackageSpec

end PackageRecipes
