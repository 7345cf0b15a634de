import PackageRecipes.Proofs.Condition.Printing
import PackageRecipes.Proofs.Condition.Requirements

/-!
# Dependencies that are written out

A requirement that was read is read as the same again from the written form of a dependency that is made of it. The
ranges stand behind the target there and the other atoms follow in their order, wherever the ranges stood before.
-/

namespace PackageRecipes.Requirement

open Text Condition

variable {r r' : Requirement} {atom : Condition} {parts : List Condition} {cs rest : List Char}

/-! ## What requirements are read as -/

/-- An atom that a requirement keeps as it is: any but its versions. -/
structure IsPredicate (c : Condition) : Prop where
  isAtom : IsAtom c
  isPlain : c.isPlain
  isVersion : c.isVersion = false

/-- A requirement as it is read. -/
structure Legible (r : Requirement) : Prop where
  target : IsName r.target
  versions : ∀ range ∈ r.versions, range.Legible
  predicates : ∀ c ∈ r.predicates, IsPredicate c

theorem Legible.predicate (h : r.Legible) (hatom : IsPredicate atom) :
    Legible { r with predicates := r.predicates ++ [atom] } where
  target := h.target
  versions := h.versions
  predicates := List.forall_mem_append.2 ⟨h.predicates, List.forall_mem_singleton.2 hatom⟩

theorem Legible.add? (h : r.Legible) (hatom : IsAtom atom) (hadd : r.add? atom = some r') : r'.Legible := by
  cases hatom with
  | version hrange =>
      simp only [Requirement.add?] at hadd
      split at hadd
      · cases hadd
        exact ⟨h.target, List.forall_mem_singleton.2 hrange, h.predicates⟩
      · cases hadd
  | @versions ranges _ hranges =>
      simp only [Requirement.add?, filterMap_rangeOf?] at hadd
      split at hadd
      · cases hadd
        exact ⟨h.target, hranges, h.predicates⟩
      · cases hadd
  | enabled hname =>
      cases hadd
      exact h.predicate ⟨.enabled hname, rfl, rfl⟩
  | disabled hname =>
      cases hadd
      exact h.predicate ⟨.disabled hname, rfl, rfl⟩
  | values hname hne hwanted =>
      cases hadd
      exact h.predicate ⟨.values hname hne hwanted, rfl, rfl⟩
  | compiler hname hversions =>
      cases hadd
      exact h.predicate ⟨.compiler hname hversions, rfl, rfl⟩

theorem Legible.addAtoms (h : r.Legible) (hread : r.addAtoms cs = .ok r') : r'.Legible := by
  fun_induction Requirement.addAtoms r cs with
  | case1 =>
      cases hread
      exact h
  | case2 | case3 | case5 => cases hread
  | case4 r cs c rest _ _ atom after hatom r₁ hadd ih => exact ih (h.add? (isAtom_of_parseAtom hatom) hadd) hread

theorem legible_of_parse {s : String} (h : parse s = .ok r) : r.Legible := by
  rw [parse] at h
  split at h
  · cases h
  split at h
  · cases h
  rename_i hne
  split at h
  · cases h
  · rename_i hread
    cases h
    refine Legible.addAtoms ?_ hread
    refine ⟨⟨?_, ?_⟩, List.forall_mem_nil _, List.forall_mem_nil _⟩
    · simpa [takeName] using hne
    · rw [takeName, String.toList_ofList]
      exact List.all_eq_true.1 List.all_takeWhile

/-! ## Reading the written form -/

theorem addAtoms_eq (r : Requirement) (cs : List Char) :
    r.addAtoms cs =
      match trimStart cs with
      | [] => .ok r
      | c :: rest =>
        if c = '^' then .error (.unexpected (c :: rest))
        else
          match parseAtom (c :: rest) with
          | .error e => .error e
          | .ok (atom, after) =>
            match r.add? atom with
            | some r' => r'.addAtoms after
            | none => .error (.unexpected (c :: rest)) := by
  rw [Requirement.addAtoms]
  split
  · rename_i hc
    rw [hc]
  · rename_i hc
    simp only [hc]
    split
    · rfl
    · split
      · rename_i ha
        rw [ha]
      · rename_i atom _ ha
        cases hadd : r.add? atom <;> simp only [ha, hadd]

theorem addAtoms_blank (r : Requirement) (cs : List Char) : r.addAtoms (' ' :: cs) = r.addAtoms cs := by
  have htrim : trimStart (' ' :: cs) = trimStart cs := rfl
  rw [addAtoms_eq, htrim, ← addAtoms_eq]

theorem addAtoms_reads {text : List Char} (h : Reads text atom) (hrest : Ends rest)
    (hadd : r.add? atom = some r') : r.addAtoms (text ++ rest) = r'.addAtoms rest := by
  have hread := h.read rest hrest
  obtain ⟨c, cs, rfl, hblank⟩ := h.solid
  have hcaret : c ≠ '^' := by simpa using h.caret
  rw [List.cons_append] at hread ⊢
  rw [addAtoms_eq, trimStart_cons hblank]
  simp only [hcaret, ↓reduceIte, hread, hadd]

theorem IsPredicate.add? (h : IsPredicate atom) (r : Requirement) :
    r.add? atom = some { r with predicates := r.predicates ++ [atom] } := by
  obtain ⟨hatom, hplain, hversion⟩ := h
  cases hatom with
  | version => cases hversion
  | versions => cases hplain
  | enabled | disabled | values | compiler => rfl

theorem addAtoms_spaced (h : ∀ c ∈ parts, IsPredicate c) (r : Requirement) :
    r.addAtoms (spaced parts) = .ok { r with predicates := r.predicates ++ parts } := by
  induction parts generalizing r with
  | nil =>
      rw [List.append_nil, addAtoms_eq]
      rfl
  | cons c more ih =>
      rw [List.forall_mem_cons] at h
      have hcons : spaced (c :: more) = ' ' :: (c.render.toList ++ spaced more) := rfl
      rw [hcons, addAtoms_blank, addAtoms_reads (h.1.isAtom.reads h.1.isPlain) spaced_ends (h.1.add? r), ih h.2,
        List.append_assoc]
      rfl

/-- The versions are taken in as they were given, one range or several. -/
theorem add?_versions {ranges : List VersionRange} (hne : ranges ≠ []) (hnone : r.versions = []) :
    r.add? (disj (ranges.map .version)) = some { r with versions := ranges } := by
  match ranges, hne with
  | [range], _ => simp [disj, Requirement.add?, hnone]
  | first :: second :: more, _ =>
      have hall : ((first :: second :: more).map Condition.version).all Condition.isVersion := by
        simp [Condition.isVersion]
      have hdisj : disj ((first :: second :: more).map .version) =
          .any ((first :: second :: more).map .version) := rfl
      rw [hdisj]
      simp only [Requirement.add?, hnone, List.isEmpty_nil, hall, Bool.and_self, ↓reduceIte, filterMap_rangeOf?]

/-- The ranges as they are written behind the target. -/
def versionsText (ranges : List VersionRange) : List Char :=
  if ranges.isEmpty then [] else '@' :: (renderVersions ranges).toList

theorem toList_render (edge : Dependency) :
    edge.render.toList = edge.target.toList ++ (versionsText edge.constraint ++ spaced edge.requirements) := by
  have hspaced : (String.join (edge.requirements.map fun c => " " ++ c.render)).toList =
      spaced edge.requirements := by
    rw [String.toList_join, List.flatMap_map, spaced]
    simp
  rw [Dependency.render, String.toList_append, String.toList_append, hspaced, List.append_assoc, versionsText]
  split <;> simp

theorem addAtoms_written {ranges : List VersionRange} (hranges : ∀ range ∈ ranges, range.Legible)
    (hparts : ∀ c ∈ parts, IsPredicate c) (target : String) :
    Requirement.addAtoms ⟨target, [], []⟩ (versionsText ranges ++ spaced parts) = .ok ⟨target, ranges, parts⟩ := by
  by_cases hne : ranges = []
  · subst hne
    exact addAtoms_spaced hparts _
  · have htext : versionsText ranges = '@' :: (renderVersions ranges).toList := by simp [versionsText, hne]
    rw [htext, addAtoms_reads (reads_versions hne hranges) spaced_ends (add?_versions hne (r := ⟨target, [], []⟩) rfl),
      addAtoms_spaced hparts]
    rfl

theorem Legible.parse (h : r.Legible) (condition : Condition) (types : List DependencyType) :
    parse (Dependency.render ⟨r.target, r.versions, r.predicates, condition, types⟩) = .ok r := by
  have htext := toList_render ⟨r.target, r.versions, r.predicates, condition, types⟩
  have hstop : (versionsText r.versions ++ spaced r.predicates).head?.all (!isNameChar ·) := by
    rw [versionsText]
    split
    · exact spaced_ends.stops (by decide)
    · simp [isNameChar, isAlphanumeric]
  obtain ⟨c, more, hname⟩ := List.exists_cons_of_ne_nil h.target.nonempty
  have hblank : isBlank c = false := isBlank_of_isNameChar (h.target.chars c (by simp [hname]))
  have hstart (rest : List Char) : trimStart (r.target.toList ++ rest) = r.target.toList ++ rest := by
    rw [hname, List.cons_append, trimStart_cons hblank]
  have hempty (rest : List Char) : (r.target.toList ++ rest).isEmpty = false := by simp [hname]
  have hempty' : r.target.toList.isEmpty = false := by simp [hname]
  rw [Requirement.parse, htext, hstart]
  simp only [hempty, hempty', takeName, takeWhile_run h.target.chars hstop, dropWhile_run h.target.chars hstop,
    String.ofList_toList, addAtoms_written h.versions h.predicates, Bool.false_eq_true, ↓reduceIte]

variable {s : String}

/-- What is read as a requirement is read as the same again from the written form of a dependency with it. -/
theorem parse_writtenDependency (h : parse s = .ok r) (condition : Condition) (types : List DependencyType) :
    parse (Dependency.render { Dependency.ofRequirement r condition with types := types }) = .ok r :=
  (legible_of_parse h).parse condition types

/-- Ranges behind other atoms, atoms without white space between them, and lists with empty pieces. -/
def hdf5Text : String := "  hdf5+mpi%gcc@9:,8 cxxstd=,14,,17 -fortran-2003  @1.8:,,1.6.0 flags=a+b~c"

theorem parse_writtenHdf5 :
    ∃ r, parse hdf5Text = .ok r ∧
      Dependency.render { Dependency.ofRequirement r (.variant "io" .enabled) with types := [.run] } =
        "hdf5@1.8:,1.6.0 +mpi %gcc@9:,8 cxxstd=14,17 ~fortran-2003 flags=a+b~c" ∧
      parse "hdf5@1.8:,1.6.0 +mpi %gcc@9:,8 cxxstd=14,17 ~fortran-2003 flags=a+b~c" = .ok r := by
  have hwritten : (parse hdf5Text).toOption.map
      (fun r => Dependency.render { Dependency.ofRequirement r (.variant "io" .enabled) with types := [.run] }) =
      some "hdf5@1.8:,1.6.0 +mpi %gcc@9:,8 cxxstd=14,17 ~fortran-2003 flags=a+b~c" := by decide +kernel
  cases hread : parse hdf5Text with
  | error e =>
      rw [hread] at hwritten
      cases hwritten
  | ok r =>
      rw [hread] at hwritten
      have htext := Option.some.inj hwritten
      refine ⟨r, rfl, htext, ?_⟩
      rw [← htext]
      exact parse_writtenDependency hread (.variant "io" .enabled) [.run]

end PackageRecipes.Requirement
