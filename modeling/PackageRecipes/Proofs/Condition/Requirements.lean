import PackageRecipes.Proofs.Condition.Atoms
import PackageRecipes.Spec.Dependency

/-!
# Requirements as conditions

A text that is read as a requirement is read as a condition too. The condition holds where the attached
configuration satisfies a dependency with that requirement.
-/

namespace PackageRecipes

open Text

namespace Condition

theorem holds_conj (config : Configuration) (parts : List Condition) :
    holds config (conj parts) = parts.all (holds config) :=
  conj_eq_all (by rw [holds]) (fun cs => by rw [holds, allHold_eq]) parts

end Condition

namespace Requirement

open Condition

variable {r r' : Requirement} {atom : Condition} {d : Configuration} {cs : List Char}

/-- The version is in one of the ranges, if there are any, and the predicates hold. -/
def isMetBy (r : Requirement) (d : Configuration) : Bool :=
  (r.versions.isEmpty || r.versions.any (·.contains d.version)) && r.predicates.all (·.holds d)

theorem filterMap_rangeOf? (ranges : List VersionRange) :
    (ranges.map Condition.version).filterMap rangeOf? = ranges := by
  rw [List.filterMap_map]
  exact List.filterMap_some

theorem isMetBy_add? (hatom : IsAtom atom) (h : r.add? atom = some r') :
    r'.target = r.target ∧ ∀ d, r'.isMetBy d = (r.isMetBy d && atom.holds d) := by
  cases hatom with
  | enabled _ | disabled _ | values _ _ _ | compiler _ _ =>
      cases h
      refine ⟨rfl, fun d => ?_⟩
      simp [isMetBy, Bool.and_assoc]
  | version hrange =>
      simp only [add?] at h
      split at h
      · rename_i hnone
        cases h
        refine ⟨rfl, fun d => ?_⟩
        simp [isMetBy, hnone, holds, Bool.and_comm]
      · cases h
  | @versions ranges htwo _ =>
      simp only [add?] at h
      split at h
      · rename_i hnone
        cases h
        refine ⟨rfl, fun d => ?_⟩
        -- no range was asked for before, and afterwards the given ones decide
        have hne : ranges.isEmpty = false := by
          cases ranges with
          | nil => cases htwo
          | cons r rest => rfl
        have hnone : r.versions.isEmpty := (Bool.and_eq_true_iff.1 hnone).1
        have hany : (ranges.map Condition.version).any (holds d) = ranges.any (·.contains d.version) := by
          rw [List.any_map]
          exact congrArg ranges.any (funext fun range => by simp only [Function.comp_apply, holds])
        simp only [isMetBy, filterMap_rangeOf?, hne, hnone, holds, anyHolds_eq, hany, Bool.false_or, Bool.true_or,
          Bool.true_and, Bool.and_comm]
      · cases h

/-- A requirement is read atom by atom as the atoms of a condition are. -/
theorem exists_of_addAtoms (h : r.addAtoms cs = .ok r') :
    ∃ atoms, parseAtoms cs = .ok (atoms, []) ∧ r'.target = r.target ∧
      ∀ d, r'.isMetBy d = (r.isMetBy d && atoms.all (·.holds d)) := by
  fun_induction addAtoms r cs with
  | case1 r cs hc =>
      cases h
      refine ⟨[], ?_, rfl, fun d => by simp⟩
      rw [parseAtoms_eq, hc]
  | case2 | case3 | case5 => cases h
  | case4 r cs c rest hc hcaret atom after hatom r₁ hadd ih =>
      obtain ⟨atoms, hatoms, htarget, hmet⟩ := ih h
      obtain ⟨htarget₁, hmet₁⟩ := isMetBy_add? (isAtom_of_parseAtom hatom) hadd
      refine ⟨atom :: atoms, ?_, htarget.trans htarget₁, fun d => ?_⟩
      · rw [parseAtoms_eq, hc]
        simp only [hcaret, hatom, hatoms]
        rfl
      · rw [hmet, hmet₁, List.all_cons, Bool.and_assoc]

/-- A requirement is a target with atoms up to the end of the text. -/
theorem exists_of_parse {s : String} (h : parse s = .ok r) :
    ∃ atoms, parseAtoms (takeName (trimStart s.toList)).2 = .ok (atoms, []) ∧
      r.target = (takeName (trimStart s.toList)).1 ∧ ∀ d, r.isMetBy d = atoms.all (·.holds d) := by
  rw [parse] at h
  split at h
  · cases h
  split at h
  · cases h
  split at h
  · cases h
  · rename_i hread
    cases h
    obtain ⟨atoms, hatoms, htarget, hmet⟩ := exists_of_addAtoms hread
    refine ⟨atoms, hatoms, htarget, fun d => ?_⟩
    rw [hmet, isMetBy]
    simp only [List.isEmpty_nil, List.all_nil, Bool.true_or, Bool.true_and]

theorem isSatisfiedBy_eq_isMetBy {edge : Dependency} (htarget : edge.target = r.target)
    (hversions : edge.constraint = r.versions) (hpredicates : edge.requirements = r.predicates)
    (hname : d.name = r.target) : edge.isSatisfiedBy d = r.isMetBy d := by
  rw [Dependency.isSatisfiedBy, htarget, hversions, hpredicates, hname, beq_self_eq_true, Bool.true_and, isMetBy]

end Requirement

namespace Condition

variable {package s : String} {r : Requirement} {cs : List Char} {atoms : List Condition}

/-- No atom starts with the sign that goes between a variant and its values. -/
theorem head_of_parseAtoms (h : parseAtoms cs = .ok (atoms, [])) : cs.head? ≠ some '=' := by
  intro hhead
  obtain ⟨rest, rfl⟩ := List.head?_eq_some_iff.1 hhead
  rw [parseAtoms_eq, trimStart_cons (by decide)] at h
  cases h

theorem leadingName?_of_takeName (hstart : (takeName cs).1.toList.head?.any isAlphanumeric)
    (hatoms : parseAtoms (takeName cs).2 = .ok (atoms, [])) : leadingName? cs = some (takeName cs) := by
  have hhead : cs.head?.any isAlphanumeric := by
    rw [takeName, String.toList_ofList] at hstart
    cases cs with
    | nil => exact hstart
    | cons c cs =>
        cases hc : isNameChar c with
        | true => simpa [List.takeWhile_cons_of_pos hc] using hstart
        | false => simp [hc] at hstart
  have hequals : (cs.dropWhile isNameChar).head? ≠ some '=' := head_of_parseAtoms hatoms
  rw [leadingName?, if_neg (by simp [hhead]), if_neg hequals]

/-- A text that is read as a requirement is read as a condition on the target. -/
theorem parse_of_requirement (hread : Requirement.parse s = .ok r)
    (hstart : r.target.toList.head?.any isAlphanumeric) (hother : package ≠ r.target) :
    ∃ atoms, parse package s = .ok (onDependency r.target atoms) ∧
      ∀ d, r.isMetBy d = atoms.all (·.holds d) := by
  obtain ⟨atoms, hatoms, htarget, hmet⟩ := Requirement.exists_of_parse hread
  refine ⟨atoms, ?_, hmet⟩
  rw [htarget] at hstart hother ⊢
  have hlead := leadingName?_of_takeName hstart hatoms
  have hempty : (trimStart s.toList).isEmpty = false := by
    cases htext : trimStart s.toList with
    | nil => rw [htext] at hstart; cases hstart
    | cons c cs => rfl
  rw [parse, hempty, parseParts, hlead]
  simp only [hatoms, parseDependencies_nil, hother.symm]
  rfl

/-- Of a text that is a requirement, the two readings agree: the condition holds of a configuration exactly if the
attached target satisfies a dependency with the requirement. -/
theorem requirement_condition_agree (hread : Requirement.parse s = .ok r)
    (hstart : r.target.toList.head?.any isAlphanumeric) (hother : package ≠ r.target) :
    ∃ c, parse package s = .ok c ∧
      ∀ (config d : Configuration) (edge : Dependency), config.dependency? r.target = some d →
        d.name = r.target → edge.target = r.target → edge.constraint = r.versions →
        edge.requirements = r.predicates → c.holds config = edge.isSatisfiedBy d := by
  obtain ⟨atoms, hparse, hmet⟩ := parse_of_requirement hread hstart hother
  refine ⟨onDependency r.target atoms, hparse, ?_⟩
  intro config d edge hattached hname htarget hversions hpredicates
  rw [Requirement.isSatisfiedBy_eq_isMetBy htarget hversions hpredicates hname, hmet, onDependency, holds,
    hattached]
  exact holds_conj d atoms

/-- A choice between ranges, a switch and a value. -/
def kokkosText : String := "kokkos@3.7,4.0: +openmp cuda_arch=70"

def kokkos : Configuration :=
  { Configuration.bare "kokkos" ⟨"4.1", [.number 4, .number 1]⟩ with
    variants := ⟨[("cuda_arch", .single "70"), ("openmp", .bool true)]⟩ }

/-- A package with the dependency attached. -/
def cabana : Configuration :=
  (Configuration.bare "cabana" ⟨"0.7", [.number 0, .number 7]⟩).withDependency kokkos

theorem agree_kokkos :
    ∃ r c, Requirement.parse kokkosText = .ok r ∧ r.target.toList.head?.any isAlphanumeric ∧
      "cabana" ≠ r.target ∧ cabana.dependency? r.target = some kokkos ∧ kokkos.name = r.target ∧
      parse "cabana" kokkosText = .ok c ∧ c.holds cabana = true ∧
      (Dependency.ofRequirement r .always).isSatisfiedBy kokkos = true := by
  have htarget : (Requirement.parse kokkosText).toOption.map (·.target) = some "kokkos" := by decide +kernel
  have hmet : (Requirement.parse kokkosText).toOption.all
      fun r => (Dependency.ofRequirement r .always).isSatisfiedBy kokkos := by decide +kernel
  cases hread : Requirement.parse kokkosText with
  | error e =>
      rw [hread] at htarget
      cases htarget
  | ok r =>
      rw [hread] at htarget hmet
      have htarget : r.target = "kokkos" := Option.some.inj htarget
      have hstart : r.target.toList.head?.any isAlphanumeric := by rw [htarget]; decide
      have hother : "cabana" ≠ r.target := by rw [htarget]; decide
      have hattached : cabana.dependency? r.target = some kokkos := by rw [htarget]; rfl
      obtain ⟨c, hparse, hagree⟩ := requirement_condition_agree hread hstart hother
      have hholds := hagree cabana kokkos (.ofRequirement r .always) hattached htarget.symm rfl rfl rfl
      exact ⟨r, c, rfl, hstart, hother, hattached, htarget.symm, hparse, hholds.trans hmet, hmet⟩

end Condition

end PackageRecipes
