import PackageRecipes.Proofs.Recipe.Entries
import PackageRecipes.Recipe.Lint

/-!
# Warnings and what they warn of

Each warning says one thing of a recipe. An accepted recipe gets every warning that is true of it and no other, but for
one: where `make` has no target to run, nothing is said of arguments for CMake that go unused.
-/

namespace PackageRecipes

/-- The version is fetched as an archive, and there is nothing to check the archive by. -/
def VersionDecl.isUnverified (d : VersionDecl) : Bool := d.locator.isArchive && d.integrity.isNone

namespace Recipe

variable {r : Recipe} {s : PackageSpec} {ws : List Warning} {v w : Warning} {e : VersionEntry}

namespace Warning

/-- The version that a warning is about. -/
def version? : Warning → Option String
  | .noChecksum version => some version
  | _ => none

/-- What the warning says is true of the recipe, whose specification is given. -/
def Applies (r : Recipe) (s : PackageSpec) : Warning → Prop
  | .noSummary => r.package.summary = none
  | .noHomepage => r.package.homepage = none
  | .noVersions => r.versions = []
  | .noChecksum version => ∃ p ∈ r.versions.zip s.versions, p.2.isUnverified ∧ p.1.version = version
  | .noTargets => r.package.buildSystem = .makefile ∧ r.build.targets = [] ∧ r.build.installTarget = none
  | .unusedCmakeArgs buildSystem =>
    buildSystem = r.package.buildSystem ∧ buildSystem ≠ .cmake ∧ r.build.cmakeArgs ≠ []
  | .nothingInstalled => r.build.install = [] ∧ (∀ c ∈ r.build.commands, c.phase ≠ .install) ∧
      ¬ (r.build.makeInstall ∧ r.package.buildSystem ≠ .generic)

/-- The warning gives way to the one that `make` has no targets. -/
def GivesWay (r : Recipe) (s : PackageSpec) (w : Warning) : Prop :=
  w = .unusedCmakeArgs .makefile ∧ noTargets.Applies r s

end Warning

/-- The warnings are those that apply and do not give way, each of them once, and those on versions in the order of
the versions. All that apply are there, unless unused arguments for CMake come together with a lack of targets. -/
structure Warns (r : Recipe) (s : PackageSpec) (ws : List Warning) : Prop where
  mem : ∀ w, w ∈ ws ↔ w.Applies r s ∧ ¬ w.GivesWay r s
  once : (ws.filter (·.version?.isNone)).Nodup
  unverified : ws.filterMap Warning.version? =
    ((r.versions.zip s.versions).filter (·.2.isUnverified)).map (·.1.version)
  all : (∀ w, w ∈ ws ↔ w.Applies r s) ↔ ¬ (Warning.noTargets.Applies r s ∧ r.build.cmakeArgs ≠ [])

/-! ## Versions -/

theorem isGit_eq_isSome (e : VersionEntry) : e.isGit = (reference? e).isSome := by
  simp only [VersionEntry.isGit, reference?]
  cases e.commit <;> cases e.tag <;> cases e.branch <;> rfl

theorem isArchive_of_locatorOf {locator : SourceLocator} (h : r.locatorOf e = .ok locator) :
    locator.isArchive = !e.isGit := by
  rw [isGit_eq_isSome]
  unfold locatorOf at h
  split at h
  · rename_i reference hreference
    split at h
    · cases h
      rw [hreference]
      rfl
    · cases h
  · rename_i hreference
    split at h
    · cases h
    · split at h
      · cases h
        rw [hreference]
        rfl
      · cases h

theorem isNone_of_integrityOf {integrity : Option Checksum} (h : integrityOf e = .ok integrity) :
    integrity.isNone = !e.hasChecksum := by
  have hgiven : e.hasChecksum = !(checksumsOf e).isEmpty := by
    simp only [VersionEntry.hasChecksum, checksumsOf]
    cases e.sha256 <;> cases e.sha512 <;> cases e.md5 <;> cases e.checksum <;> rfl
  rw [hgiven, Bool.not_not]
  unfold integrityOf at h
  split at h
  · rename_i hnone
    cases h
    rw [hnone]
    rfl
  · rename_i given hone
    obtain ⟨checksum, -, rfl⟩ := exceptMap_ok.1 h
    rw [hone]
    rfl
  · cases h

theorem isUnverified_of_declares {d : VersionDecl} (h : e.Declares r d) :
    d.isUnverified = (!e.isGit && !e.hasChecksum) := by
  rw [VersionDecl.isUnverified, isArchive_of_locatorOf h.locator, isNone_of_integrityOf h.integrity]

/-- What is asked of entries can be asked of the versions that they declare. -/
theorem filter_unverified {es : List VersionEntry} {ds : List VersionDecl}
    (h : List.Forall₂ (VersionEntry.Declares r) es ds) :
    es.filter (fun e => !e.isGit && !e.hasChecksum) =
      ((es.zip ds).filter (·.2.isUnverified)).map Prod.fst := by
  induction h with
  | nil => rfl
  | cons hfirst _ ih =>
      rw [List.zip_cons_cons, List.filter_cons, List.filter_cons, isUnverified_of_declares hfirst]
      split
      · rw [List.map_cons, ih]
      · exact ih

theorem checksumWarnings_eq (h : List.Forall₂ (VersionEntry.Declares r) r.versions s.versions) :
    r.checksumWarnings =
      ((r.versions.zip s.versions).filter (·.2.isUnverified)).map fun p => .noChecksum p.1.version := by
  rw [checksumWarnings, filter_unverified h, List.map_map]
  rfl

/-! ## All warnings -/

theorem mem_warnIf {b : Bool} : w ∈ warnIf b v ↔ b ∧ w = v := by
  cases b <;> simp [warnIf]

theorem mem_checksumWarnings (h : List.Forall₂ (VersionEntry.Declares r) r.versions s.versions) :
    w ∈ r.checksumWarnings ↔ w.version?.isSome ∧ w.Applies r s := by
  rw [checksumWarnings_eq h, List.mem_map]
  cases w <;> simp [Warning.version?, Warning.Applies, and_assoc]

theorem mem_buildSystemWarnings (s : PackageSpec) : w ∈ r.buildSystemWarnings ↔
    (w = .noTargets ∨ w = .unusedCmakeArgs r.package.buildSystem) ∧ w.Applies r s ∧ ¬ w.GivesWay r s := by
  by_cases hlack : Warning.noTargets.Applies r s
  · have hwarnings : r.buildSystemWarnings = [.noTargets] := by
      obtain ⟨hmake, htargets, hinstall⟩ := hlack
      simp [buildSystemWarnings, hmake, htargets, hinstall]
    rw [hwarnings, List.mem_singleton]
    constructor
    · rintro rfl
      exact ⟨Or.inl rfl, hlack, fun h => nomatch h.1⟩
    · rintro ⟨rfl | rfl, -, hstays⟩
      · rfl
      · exact absurd ⟨congrArg _ hlack.1, hlack⟩ hstays
  · have hwarnings : r.buildSystemWarnings = warnIf (r.package.buildSystem ≠ .cmake && !r.build.cmakeArgs.isEmpty)
        (.unusedCmakeArgs r.package.buildSystem) := by
      refine if_neg fun h => hlack ?_
      simpa [Warning.Applies, and_assoc] using h
    rw [hwarnings, mem_warnIf]
    constructor
    · rintro ⟨hunused, rfl⟩
      refine ⟨Or.inr rfl, ?_, fun h => hlack h.2⟩
      simpa [Warning.Applies] using hunused
    · rintro ⟨rfl | rfl, happlies, -⟩
      · exact absurd happlies hlack
      · refine ⟨?_, rfl⟩
        simpa [Warning.Applies] using happlies

theorem not_installs_iff (s : PackageSpec) : (!r.installs) = true ↔ Warning.nothingInstalled.Applies r s := by
  cases hmake : r.build.makeInstall with
  | false => simp [installs, Warning.Applies, hmake]
  | true => simp [installs, Warning.Applies, hmake, and_assoc, and_comm, and_left_comm]

theorem mem_warnings (h : List.Forall₂ (VersionEntry.Declares r) r.versions s.versions) :
    w ∈ r.warnings ↔ w.Applies r s ∧ ¬ w.GivesWay r s := by
  simp only [warnings, List.mem_append, mem_warnIf, mem_checksumWarnings h, mem_buildSystemWarnings s,
    not_installs_iff s]
  cases w with
  | noSummary => simp [Warning.Applies, Warning.GivesWay, Warning.version?]
  | noHomepage => simp [Warning.Applies, Warning.GivesWay, Warning.version?]
  | noVersions => simp [Warning.Applies, Warning.GivesWay, Warning.version?]
  | noChecksum version => simp [Warning.GivesWay, Warning.version?]
  | noTargets => simp [Warning.version?]
  | unusedCmakeArgs buildSystem =>
      have hown (happlies : (Warning.unusedCmakeArgs buildSystem).Applies r s) :
          buildSystem = r.package.buildSystem := happlies.1
      simpa [Warning.version?] using fun happlies _ => hown happlies
  | nothingInstalled => simp [Warning.GivesWay, Warning.version?]

theorem filterMap_version?_warnIf {b : Bool} (h : v.version? = none) :
    (warnIf b v).filterMap Warning.version? = [] := by
  cases b <;> simp [warnIf, h]

theorem filterMap_version?_warnings (h : List.Forall₂ (VersionEntry.Declares r) r.versions s.versions) :
    r.warnings.filterMap Warning.version? =
      ((r.versions.zip s.versions).filter (·.2.isUnverified)).map (·.1.version) := by
  have hbuild : r.buildSystemWarnings.filterMap Warning.version? = [] := by
    refine List.filterMap_eq_nil_iff.2 fun w hw => ?_
    rcases ((mem_buildSystemWarnings s).1 hw).1 with rfl | rfl <;> rfl
  have hversions : r.checksumWarnings.filterMap Warning.version? =
      ((r.versions.zip s.versions).filter (·.2.isUnverified)).map (·.1.version) := by
    rw [checksumWarnings_eq h, List.filterMap_map]
    exact congrFun List.filterMap_eq_map _
  simp only [warnings, List.filterMap_append, hversions, hbuild]
  rw [filterMap_version?_warnIf rfl, filterMap_version?_warnIf rfl, filterMap_version?_warnIf rfl,
    filterMap_version?_warnIf rfl, List.append_nil, List.append_nil]
  rfl

theorem warnIf_sublist (b : Bool) (w : Warning) : (warnIf b w).Sublist [w] := by
  cases b
  · exact List.nil_sublist _
  · exact List.Sublist.refl _

theorem buildSystemWarnings_sublist (r : Recipe) :
    r.buildSystemWarnings.Sublist [.noTargets, .unusedCmakeArgs r.package.buildSystem] := by
  unfold buildSystemWarnings
  dsimp only
  split
  · exact (List.nil_sublist _).cons_cons _
  · exact (warnIf_sublist _ _).cons _

/-- Apart from those on versions, each kind of warning has its place in the list. -/
theorem warnings_once (r : Recipe) : (r.warnings.filter (·.version?.isNone)).Nodup := by
  have hversions : r.checksumWarnings.filter (·.version?.isNone) = [] := by
    refine List.filter_eq_nil_iff.2 fun w hw => ?_
    obtain ⟨e, -, rfl⟩ := List.mem_map.1 hw
    exact Bool.false_ne_true
  have hplaces : (r.warnings.filter (·.version?.isNone)).Sublist
      ([.noSummary] ++ [.noHomepage] ++ [.noVersions] ++ [] ++
        [.noTargets, .unusedCmakeArgs r.package.buildSystem] ++ [.nothingInstalled]) := by
    simp only [warnings, List.filter_append, hversions]
    have hone (b : Bool) (w : Warning) : ((warnIf b w).filter (·.version?.isNone)).Sublist [w] :=
      List.filter_sublist.trans (warnIf_sublist b w)
    refine (((((hone _ _).append (hone _ _)).append (hone _ _)).append List.Sublist.slnil).append ?_).append (hone _ _)
    exact List.filter_sublist.trans r.buildSystemWarnings_sublist
  exact hplaces.nodup (by simp)

theorem validate_ok (h : r.validate = .ok ws) : (∃ s, r.toSpec = .ok s) ∧ ws = r.warnings := by
  unfold validate at h
  split at h
  · cases h
  · rename_i s hs
    split at h
    · cases h
    · cases h
      exact ⟨⟨s, hs⟩, rfl⟩

/-- An accepted recipe gets exactly the warnings that apply, whatever others there are, except that the one on unused
arguments for CMake gives way to the one on missing targets. -/
theorem validate_warns (h : r.validate = .ok ws) : ∃ s, r.toSpec = .ok s ∧ r.Warns s ws := by
  obtain ⟨⟨s, hs⟩, rfl⟩ := validate_ok h
  have hversions := (toSpec_describes hs).versions
  refine ⟨s, hs, fun w => mem_warnings hversions, r.warnings_once, filterMap_version?_warnings hversions, ?_⟩
  constructor
  · rintro hall ⟨hlack, hargs⟩
    have happlies : (Warning.unusedCmakeArgs .makefile).Applies r s := ⟨hlack.1.symm, nofun, hargs⟩
    exact ((mem_warnings hversions).1 ((hall _).2 happlies)).2 ⟨rfl, hlack⟩
  · intro hnot w
    rw [mem_warnings hversions, and_iff_left_iff_imp]
    rintro happlies ⟨rfl, hlack⟩
    exact hnot ⟨hlack, happlies.2.2⟩

/-- A package that `make` builds by its own rules, with arguments for CMake all the same. -/
def misfitted : Recipe where
  package := ⟨"solver", some "Equation solver", some "https://example.org", .makefile, true, none,
    some "https://example.org/solver.git"⟩
  versions := [⟨"1.0", none, none, none, none, none, none, none, some "v1.0", none, false, false⟩]
  variants := []
  depends := []
  conflicts := []
  build := { BuildSection.empty with cmakeArgs := [⟨["-DMPI=ON"], none⟩] }

/-- The package with nothing said of what it is, from archives that are not all verified, and without installing. -/
def neglected : Recipe :=
  { misfitted with
    package := ⟨"solver", none, none, .makefile, true, some "https://example.org/solver-%(version)s.tar.gz", none⟩
    versions := [⟨"1.0", none, none, none, none, none, none, none, none, none, false, false⟩,
      ⟨"1.1", none, some "2cf24dba5fb0a30e26e83b2ac5b9e29e1b161e5c1fa7425e73043362938b9824", none, none, none, none,
        none, none, none, false, false⟩,
      ⟨"2.0", none, none, none, none, none, none, none, none, none, false, false⟩]
    build := { misfitted.build with makeInstall := false } }

theorem validate_warns_neglected :
    neglected.validate = .ok [.noSummary, .noHomepage, .noChecksum "1.0", .noChecksum "2.0", .noTargets,
      .nothingInstalled] ∧
    ∃ s, neglected.toSpec = .ok s ∧ neglected.Warns s [.noSummary, .noHomepage, .noChecksum "1.0",
      .noChecksum "2.0", .noTargets, .nothingInstalled] := by
  have hvalid : neglected.validate = .ok [.noSummary, .noHomepage, .noChecksum "1.0", .noChecksum "2.0", .noTargets,
      .nothingInstalled] := by rfl
  exact ⟨hvalid, validate_warns hvalid⟩

/-- Not everything that is probably a mistake comes back as a warning. -/
theorem not_warned : ¬ ∀ (r : Recipe) (ws : List Warning), r.validate = .ok ws →
    ∃ s, r.toSpec = .ok s ∧ ∀ w, w ∈ ws ↔ w.Applies r s := by
  intro hall
  have hvalid : misfitted.validate = .ok [.noTargets] := by rfl
  obtain ⟨s, -, hwarned⟩ := hall misfitted _ hvalid
  have happlies : (Warning.unusedCmakeArgs .makefile).Applies misfitted s := ⟨rfl, nofun, nofun⟩
  exact absurd (List.mem_singleton.1 ((hwarned _).2 happlies)) nofun

end Recipe

end PackageRecipes
