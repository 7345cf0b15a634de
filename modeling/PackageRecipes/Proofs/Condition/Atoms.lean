import PackageRecipes.Proofs.Condition.Reading
import PackageRecipes.Proofs.Version.Reading

/-!
# What conditions are read as

Every atom that is read has a name, values and ranges that could be read again. A condition is read as a row of
atoms on the package, followed by conditions on dependencies that each hold a row of atoms.
-/

namespace PackageRecipes.Condition

open Text

/-! ## Atoms -/

/-- A name as atoms have it. -/
structure IsName (name : String) : Prop where
  nonempty : name.toList ≠ []
  chars : ∀ c ∈ name.toList, isNameChar c

/-- A wanted value as atoms have it. -/
structure IsValue (value : String) : Prop where
  nonempty : value.toList ≠ []
  chars : ∀ c ∈ value.toList, isValueChar c ∧ c ≠ ','

inductive IsAtom : Condition → Prop where
  | enabled {name : String} (hname : IsName name) : IsAtom (.variant name .enabled)
  | disabled {name : String} (hname : IsName name) : IsAtom (.variant name .disabled)
  | values {name : String} {wanted : List String} (hname : Word name.toList) (hne : wanted ≠ [])
      (hwanted : ∀ v ∈ wanted, IsValue v) : IsAtom (.variant name (.values wanted))
  | version {range : VersionRange} (hrange : range.Legible) : IsAtom (.version range)
  /-- Several ranges are alternatives. -/
  | versions {ranges : List VersionRange} (htwo : 2 ≤ ranges.length) (hranges : ∀ r ∈ ranges, r.Legible) :
      IsAtom (.any (ranges.map .version))
  | compiler {name : String} {versions : List VersionRange} (hname : IsName name)
      (hversions : ∀ r ∈ versions, r.Legible) : IsAtom (.compiler name versions)

variable {cs rest after : List Char} {name : String} {atom : Condition} {atoms : List Condition}

theorem word_takeName {first : Char} (hfirst : isAlphanumeric first) (cs : List Char) :
    Word (takeName (first :: cs)).1.toList := by
  rw [takeName, String.toList_ofList]
  constructor
  case start =>
    rw [List.takeWhile_cons_of_pos (by simp [isNameChar, hfirst])]
    simpa using hfirst
  case chars => exact List.all_eq_true.1 List.all_takeWhile

theorem Word.isName (h : Word name.toList) : IsName name where
  nonempty := by
    obtain ⟨c, cs, hname, -⟩ := h.exists_cons
    rw [hname]
    exact List.cons_ne_nil c cs
  chars := h.chars

theorem isName_of_nameAfter {sigil : Char} (h : nameAfter sigil cs = .ok (name, rest)) : IsName name := by
  rw [nameAfter] at h
  split at h
  · cases h
  · rename_i hne
    cases h
    constructor
    case nonempty => simpa using hne
    case chars =>
      rw [String.toList_ofList]
      exact List.all_eq_true.1 List.all_takeWhile

theorem legible_of_takeVersions {ranges : List VersionRange} (h : takeVersions cs = .ok (ranges, rest)) :
    ranges ≠ [] ∧ ∀ r ∈ ranges, r.Legible := by
  rw [takeVersions] at h
  split at h
  · cases h
  · cases h
  · rename_i hne hread
    cases h
    exact ⟨fun hnil => hne hnil, VersionRange.legible_of_parseList hread⟩

theorem isAtom_disj {ranges : List VersionRange} (hne : ranges ≠ []) (h : ∀ r ∈ ranges, r.Legible) :
    IsAtom (disj (ranges.map .version)) := by
  match ranges, hne with
  | [r], _ => exact .version (h r List.mem_cons_self)
  | _ :: _ :: _, _ => exact .versions (by simp) h

theorem isValue_of_listed {v : String} (h : v ∈ VariantValue.listed (cs.takeWhile isValueChar)) : IsValue v := by
  obtain ⟨entry, hentry, rfl⟩ := List.mem_map.1 h
  obtain ⟨hne, hchars⟩ := mem_of_mem_entries hentry
  constructor
  case nonempty => rwa [String.toList_ofList]
  case chars =>
    rw [String.toList_ofList]
    exact fun c hc => ⟨List.all_eq_true.1 List.all_takeWhile c (hchars c hc).1, (hchars c hc).2⟩

theorem isAtom_of_valueAtom {first : Char} (hfirst : isAlphanumeric first)
    (h : valueAtom (first :: cs) = .ok (atom, rest)) : IsAtom atom := by
  rw [valueAtom] at h
  split at h
  · rename_i name after hname
    split at h
    · cases h
    · rename_i hne
      cases h
      obtain rfl : (takeName (first :: cs)).1 = name := congrArg Prod.fst hname
      exact .values (word_takeName hfirst cs) (fun hnil => hne hnil) fun v hv => isValue_of_listed hv
  · cases h

theorem isAtom_of_compilerAtom (h : compilerAtom cs = .ok (atom, rest)) : IsAtom atom := by
  rw [compilerAtom] at h
  split at h
  · cases h
  · rename_i hname
    obtain ⟨⟨ranges, _⟩, hranges, heq⟩ := exceptMap_ok.1 h
    cases heq
    exact .compiler (isName_of_nameAfter hname) (legible_of_takeVersions hranges).2
  · rename_i hname
    cases h
    exact .compiler (isName_of_nameAfter hname) (List.forall_mem_nil _)

theorem isAtom_of_parseAtom (h : parseAtom cs = .ok (atom, rest)) : IsAtom atom := by
  cases cs with
  | nil => cases h
  | cons c cs =>
      rw [parseAtom] at h
      split at h
      · obtain ⟨⟨name, _⟩, hname, heq⟩ := exceptMap_ok.1 h
        cases heq
        exact .enabled (isName_of_nameAfter hname)
      split at h
      · obtain ⟨⟨name, _⟩, hname, heq⟩ := exceptMap_ok.1 h
        cases heq
        exact .disabled (isName_of_nameAfter hname)
      split at h
      · obtain ⟨⟨ranges, _⟩, hranges, heq⟩ := exceptMap_ok.1 h
        cases heq
        obtain ⟨hne, hlegible⟩ := legible_of_takeVersions hranges
        exact isAtom_disj hne hlegible
      split at h
      · exact isAtom_of_compilerAtom h
      split at h
      · exact isAtom_of_valueAtom ‹_› h
      · cases h

theorem IsAtom.isAlways (h : IsAtom atom) : atom.isAlways = false := by cases h <;> rfl

theorem areAtoms_of_parseAtoms (h : parseAtoms cs = .ok (atoms, after)) : ∀ a ∈ atoms, IsAtom a := by
  fun_induction parseAtoms cs generalizing atoms after with
  | case1 | case2 =>
      cases h
      exact List.forall_mem_nil _
  | case3 => cases h
  | case4 cs c rest _ _ atom _ hatom ih =>
      obtain ⟨⟨more, _⟩, hmore, heq⟩ := exceptMap_ok.1 h
      cases heq
      exact List.forall_mem_cons.2 ⟨isAtom_of_parseAtom hatom, ih hmore⟩

/-! ## Whole conditions -/

/-- What is said of a conjunction part by part is said of its simplified form. -/
theorem conj_eq_all {f : Condition → Bool} (halways : f .always = true)
    (hall : ∀ cs, f (.all cs) = cs.all f) (parts : List Condition) : f (conj parts) = parts.all f := by
  have hleft : parts.all f = (parts.filter (!·.isAlways)).all f := by
    rw [List.all_filter]
    refine congrArg parts.all (funext fun c => ?_)
    cases c <;> simp [isAlways, halways]
  rw [hleft, conj]
  split
  · rename_i h
    rw [h, halways, List.all_nil]
  · rename_i c h
    rw [h, List.all_cons, List.all_nil, Bool.and_true]
  · exact hall _

/-- A condition on a dependency, as a condition holds it. -/
inductive IsDependency : Condition → Prop where
  | mk {name : String} {atoms : List Condition} (hname : IsName name) (hatoms : ∀ a ∈ atoms, IsAtom a) :
      IsDependency (onDependency name atoms)

theorem IsDependency.isAlways (h : IsDependency atom) : atom.isAlways = false := by
  cases h
  rfl

theorem areDependencies_of_parseDependencies {ds : List Condition} (h : parseDependencies cs = .ok ds) :
    ∀ d ∈ ds, IsDependency d := by
  fun_induction parseDependencies cs generalizing ds with
  | case1 | case2 => cases h
  | case3 cs name rest hname atoms after hatoms ih =>
      obtain ⟨more, hmore, rfl⟩ := exceptMap_ok.1 h
      refine List.forall_mem_cons.2 ⟨.mk (isName_of_nameAfter hname) (areAtoms_of_parseAtoms hatoms), ih hmore⟩
  | case4 =>
      cases h
      exact List.forall_mem_nil _

theorem word_of_leadingName? (h : leadingName? cs = some (name, rest)) : Word name.toList := by
  rw [leadingName?] at h
  split at h
  · cases h
  rename_i hhead
  split at h
  · cases h
  cases h
  cases cs with
  | nil => simp at hhead
  | cons c cs => exact word_takeName (by simpa using hhead) cs

variable {package s : String} {c : Condition}

theorem exists_of_ownParts {parts : List Condition} (h : ownParts cs = .ok parts) :
    ∃ atoms ds, parts = atoms ++ ds ∧ (∀ a ∈ atoms, IsAtom a) ∧ ∀ d ∈ ds, IsDependency d := by
  rw [ownParts] at h
  split at h
  · cases h
  · rename_i atoms after hatoms
    obtain ⟨ds, hds, rfl⟩ := exceptMap_ok.1 h
    exact ⟨atoms, ds, rfl, areAtoms_of_parseAtoms hatoms, areDependencies_of_parseDependencies hds⟩

theorem exists_of_parseParts {parts : List Condition} (h : parseParts package cs = .ok parts) :
    ∃ atoms ds, parts = atoms ++ ds ∧ (∀ a ∈ atoms, IsAtom a) ∧ ∀ d ∈ ds, IsDependency d := by
  rw [parseParts] at h
  split at h
  · rename_i name rest hname
    split at h
    · cases h
    · rename_i atoms after hatoms
      obtain ⟨ds, hds, rfl⟩ := exceptMap_ok.1 h
      have hatoms := areAtoms_of_parseAtoms hatoms
      have hds := areDependencies_of_parseDependencies hds
      split
      · exact ⟨atoms, ds, rfl, hatoms, hds⟩
      · have hfirst : IsDependency (onDependency name atoms) := .mk (word_of_leadingName? hname).isName hatoms
        exact ⟨[], onDependency name atoms :: ds, rfl, List.forall_mem_nil _, List.forall_mem_cons.2 ⟨hfirst, hds⟩⟩
  · exact exists_of_ownParts h

/-- A condition is read as atoms on the package before conditions on dependencies. -/
theorem exists_of_parse (h : parse package s = .ok c) :
    ∃ atoms ds, c = conj (atoms ++ ds) ∧ (∀ a ∈ atoms, IsAtom a) ∧ ∀ d ∈ ds, IsDependency d := by
  rw [parse] at h
  split at h
  · cases h
  split at h
  · cases h
  · rename_i hparts
    cases h
    obtain ⟨atoms, ds, rfl, hatoms, hds⟩ := exists_of_parseParts hparts
    exact ⟨atoms, ds, rfl, hatoms, hds⟩

end PackageRecipes.Condition
