import PackageRecipes.Proofs.Condition.Atoms

/-!
# Conditions that are written out

A condition that was read and has no alternatives in it is read as the same again from its written form, whatever
package it is written for.
-/

namespace PackageRecipes.Condition

open Text

/-! ## Conditions without alternatives -/

mutual

/-- The condition has no alternatives in it. -/
def isPlain : Condition → Bool
  | .any _ => false
  | .all parts => arePlain parts
  | .dependency _ condition => isPlain condition
  | .always | .variant _ _ | .version _ | .compiler _ _ => true

def arePlain : List Condition → Bool
  | [] => true
  | c :: cs => isPlain c && arePlain cs

end

variable {atoms ds parts : List Condition} {name : String} {atom : Condition} {rest : List Char}

theorem arePlain_eq (cs : List Condition) : arePlain cs = cs.all isPlain := by
  induction cs with
  | nil => rfl
  | cons c cs ih => rw [arePlain, ih, List.all_cons]

theorem isPlain_conj (parts : List Condition) : isPlain (conj parts) = parts.all isPlain :=
  conj_eq_all (by rw [isPlain]) (fun cs => by rw [isPlain, arePlain_eq]) parts

theorem isPlain_onDependency (name : String) (atoms : List Condition) :
    (onDependency name atoms).isPlain = atoms.all isPlain := by
  rw [onDependency, isPlain, isPlain_conj]

theorem renderParts_of_plain (h : ∀ c ∈ parts, c.isPlain) : renderParts parts = parts.map render := by
  induction parts with
  | nil => rfl
  | cons c cs ih =>
      rw [List.forall_mem_cons] at h
      cases c with
      | any alternatives => cases h.1
      | _ => simp only [renderParts, ih h.2, List.map_cons]

/-! ## Written atoms -/

/-- What follows an atom in a written condition: nothing, or a space. -/
def Ends (rest : List Char) : Prop := rest.head?.all (· = ' ')

theorem Ends.stops (h : Ends rest) {p : Char → Bool} (hp : p ' ' = false) : rest.head?.all (!p ·) := by
  cases rest with
  | nil => rfl
  | cons c cs =>
      obtain rfl : c = ' ' := by simpa [Ends] using h
      simp [hp]

theorem IsName.nameAfter (h : IsName name) (sigil : Char) (hrest : Ends rest) :
    nameAfter sigil (name.toList ++ rest) = .ok (name, rest) := by
  rw [nameAfter_run h.nonempty h.chars (hrest.stops (by decide)), String.ofList_toList]

theorem isVersionChar_of_isLabelChar {c : Char} (h : Version.isLabelChar c) : isVersionChar c := by
  have hsigil : ¬ (c = '+' ∨ c = '~' ∨ c = '%' ∨ c = '^') := by
    rintro (rfl | rfl | rfl | rfl) <;> exact absurd h (by decide)
  simp only [not_or] at hsigil
  simp [isVersionChar, Version.isBlank_of_isLabelChar h, hsigil]

theorem takeVersions_render {ranges : List VersionRange} (hne : ranges ≠ []) (h : ∀ r ∈ ranges, r.Legible)
    (hrest : Ends rest) : takeVersions ((renderVersions ranges).toList ++ rest) = .ok (ranges, rest) := by
  have hchars : ∀ c ∈ (renderVersions ranges).toList, isVersionChar c := by
    rw [renderVersions, String.toList_intercalate, List.map_map]
    refine forall_mem_intercalate (by decide) fun t ht c hc => ?_
    obtain ⟨r, hr, rfl⟩ := List.mem_map.1 ht
    rcases (h r hr).chars c hc with hlabel | rfl
    · exact isVersionChar_of_isLabelChar hlabel
    · decide
  have hstop : rest.head?.all (!isVersionChar ·) := hrest.stops (by decide)
  rw [takeVersions, takeWhile_run hchars hstop, dropWhile_run hchars hstop, String.ofList_toList,
    renderVersions, VersionRange.parseList_intercalate h]
  cases ranges with
  | nil => exact absurd rfl hne
  | cons r more => rfl

/-- A text that a condition can start with: no white space, and no name of a package. -/
structure Starts (text : List Char) : Prop where
  solid : ∃ c cs, text = c :: cs ∧ isBlank c = false
  unnamed : ∀ rest, leadingName? (text ++ rest) = none

theorem Starts.append {text : List Char} (h : Starts text) (after : List Char) : Starts (text ++ after) where
  solid := by
    obtain ⟨c, cs, rfl, hblank⟩ := h.solid
    exact ⟨c, cs ++ after, rfl, hblank⟩
  unnamed := by
    intro rest
    rw [List.append_assoc]
    exact h.unnamed (after ++ rest)

/-- A text that is read as one atom. -/
structure Reads (text : List Char) (atom : Condition) : Prop extends Starts text where
  caret : text.head? ≠ some '^'
  read : ∀ rest, Ends rest → parseAtom (text ++ rest) = .ok (atom, rest)

theorem starts_sigil {sigil : Char} (hblank : isBlank sigil = false) (hsigil : isAlphanumeric sigil = false)
    (text : List Char) : Starts (sigil :: text) where
  solid := ⟨sigil, text, rfl, hblank⟩
  unnamed := by simp [leadingName?, hsigil]

theorem reads_switch (h : IsName name) {sigil : Char} {wanted : VariantMatch}
    (hblank : isBlank sigil = false) (hsigil : isAlphanumeric sigil = false) (hcaret : sigil ≠ '^')
    (hatom : ∀ cs, parseAtom (sigil :: cs) = switchAtom sigil wanted cs) :
    Reads (sigil :: name.toList) (.variant name wanted) where
  toStarts := starts_sigil hblank hsigil _
  caret := by simpa using hcaret
  read := by
    intro rest hrest
    rw [List.cons_append, hatom, switchAtom, h.nameAfter sigil hrest]
    rfl

theorem reads_versions {ranges : List VersionRange} (hne : ranges ≠ []) (h : ∀ r ∈ ranges, r.Legible) :
    Reads ('@' :: (renderVersions ranges).toList) (disj (ranges.map .version)) where
  toStarts := starts_sigil (by decide) (by decide) _
  caret := by simp
  read := by
    intro rest hrest
    have hatom (cs : List Char) : parseAtom ('@' :: cs) = versionAtom cs := rfl
    rw [List.cons_append, hatom, versionAtom, takeVersions_render hne h hrest]
    rfl

theorem reads_version {range : VersionRange} (h : range.Legible) :
    Reads ('@' :: range.render.toList) (.version range) := by
  have hlist : renderVersions [range] = range.render := by simp [renderVersions]
  rw [← hlist]
  exact reads_versions (List.cons_ne_nil range []) (by simpa using h)

theorem reads_compiler {versions : List VersionRange} (h : IsName name) (hversions : ∀ r ∈ versions, r.Legible) :
    Reads (render (.compiler name versions)).toList (.compiler name versions) := by
  cases versions with
  | nil =>
      have htext : (render (.compiler name [])).toList = '%' :: name.toList := by simp [render]
      rw [htext]
      refine ⟨starts_sigil (by decide) (by decide) _, by simp, fun rest hrest => ?_⟩
      have hatom : parseAtom ('%' :: (name.toList ++ rest)) = compilerAtom (name.toList ++ rest) := rfl
      rw [List.cons_append, hatom, compilerAtom, h.nameAfter '%' hrest]
      split
      · cases ‹_›
      · rename_i heq
        cases heq
        cases hrest
      · rename_i heq
        cases heq
        rfl
  | cons r more =>
      have htext : (render (.compiler name (r :: more))).toList =
          '%' :: (name.toList ++ '@' :: (renderVersions (r :: more)).toList) := by simp [render]
      rw [htext]
      refine ⟨starts_sigil (by decide) (by decide) _, by simp, fun rest hrest => ?_⟩
      have hatom (cs : List Char) : parseAtom ('%' :: cs) = compilerAtom cs := rfl
      rw [List.cons_append, List.append_assoc, List.cons_append, hatom, compilerAtom,
        nameAfter_run h.nonempty h.chars (by simp [isNameChar, isAlphanumeric])]
      simp only [takeVersions_render (List.cons_ne_nil r more) hversions hrest, String.ofList_toList]
      rfl

theorem parseAtom_word {word : List Char} (h : Word word) (rest : List Char) :
    parseAtom (word ++ rest) = valueAtom (word ++ rest) := by
  obtain ⟨first, more, rfl, hfirst⟩ := h.exists_cons
  have hne {sigil : Char} (hsigil : isAlphanumeric sigil = false) : first ≠ sigil := by
    rintro rfl
    simp [hsigil] at hfirst
  have htilde : first ≠ '~' := hne (by decide)
  have hminus : first ≠ '-' := hne (by decide)
  rw [List.cons_append, parseAtom, if_neg (hne (by decide)), if_neg (by simp [htilde, hminus]),
    if_neg (hne (by decide)), if_neg (hne (by decide)), if_pos hfirst]

theorem listed_intercalate {values : List String} (h : ∀ v ∈ values, IsValue v) :
    VariantValue.listed (",".intercalate values).toList = values := by
  have hentries : entries ',' (",".intercalate values).toList = values.map String.toList := by
    rw [String.toList_intercalate]
    refine entries_intercalate fun t ht => ?_
    obtain ⟨v, hv, rfl⟩ := List.mem_map.1 ht
    refine ⟨(h v hv).nonempty, fun c hc => ?_⟩
    obtain ⟨hchar, hcomma⟩ := (h v hv).chars c hc
    simp only [isValueChar, Bool.and_eq_true, Bool.not_eq_true'] at hchar
    exact ⟨hchar.1, hcomma⟩
  have hlisted (cs : List Char) : VariantValue.listed cs = (entries ',' cs).map String.ofList := rfl
  rw [hlisted, hentries, List.map_map]
  simp

theorem reads_values {wanted : List String} (hname : Word name.toList) (hne : wanted ≠ [])
    (hwanted : ∀ v ∈ wanted, IsValue v) :
    Reads (name.toList ++ '=' :: (",".intercalate wanted).toList) (.variant name (.values wanted)) := by
  have hchars : ∀ c ∈ (",".intercalate wanted).toList, isValueChar c := by
    rw [String.toList_intercalate]
    refine forall_mem_intercalate (by decide) fun t ht c hc => ?_
    obtain ⟨v, hv, rfl⟩ := List.mem_map.1 ht
    exact ((hwanted v hv).chars c hc).1
  have hstop (cs : List Char) : ('=' :: cs).head?.all (!isNameChar ·) := by simp [isNameChar, isAlphanumeric]
  obtain ⟨first, more, hfirst, halnum⟩ := hname.exists_cons
  constructor
  case toStarts =>
    constructor
    case solid => exact ⟨first, _, by rw [hfirst]; rfl, isBlank_of_isAlphanumeric halnum⟩
    case unnamed =>
      intro rest
      rw [List.append_assoc, List.cons_append, leadingName?, hname.dropWhile (hstop _)]
      simp
  case caret =>
    rw [hfirst]
    rintro heq
    cases heq
    exact absurd halnum (by decide)
  case read =>
    intro rest hrest
    have hend : rest.head?.all (!isValueChar ·) := hrest.stops (by decide)
    rw [List.append_assoc, List.cons_append, parseAtom_word hname, valueAtom, takeName, hname.takeWhile (hstop _),
      hname.dropWhile (hstop _)]
    simp only [takeWhile_run hchars hend, dropWhile_run hchars hend, listed_intercalate hwanted,
      String.ofList_toList]

/-- A written atom is read as itself, unless it is a choice between ranges. -/
theorem IsAtom.reads (h : IsAtom atom) (hplain : atom.isPlain) : Reads atom.render.toList atom := by
  cases h with
  | @enabled name hname =>
      have htext : (render (.variant name .enabled)).toList = '+' :: name.toList := by
        simp [render, VariantMatch.render]
      rw [htext]
      exact reads_switch hname (by decide) (by decide) (by decide) fun _ => rfl
  | @disabled name hname =>
      have htext : (render (.variant name .disabled)).toList = '~' :: name.toList := by
        simp [render, VariantMatch.render]
      rw [htext]
      exact reads_switch hname (by decide) (by decide) (by decide) fun _ => rfl
  | @values name wanted hname hne hwanted =>
      have htext : (render (.variant name (.values wanted))).toList =
          name.toList ++ '=' :: (",".intercalate wanted).toList := by simp [render, VariantMatch.render]
      rw [htext]
      exact reads_values hname hne hwanted
  | @version range hrange =>
      have htext : (render (.version range)).toList = '@' :: range.render.toList := by simp [render]
      rw [htext]
      exact reads_version hrange
  | versions _ _ => cases hplain
  | compiler hname hversions => exact reads_compiler hname hversions

/-! ## Written conditions -/

/-- The parts as they are written, with a space in front of each. -/
def spaced (parts : List Condition) : List Char := parts.flatMap fun c => ' ' :: c.render.toList

theorem spaced_ends : Ends (spaced parts) := by
  cases parts with
  | nil => rfl
  | cons c cs => rfl

theorem toList_conj (hne : parts ≠ []) (halways : ∀ c ∈ parts, c.isAlways = false)
    (hplain : ∀ c ∈ parts, c.isPlain) : ' ' :: (conj parts).render.toList = spaced parts := by
  have hfilter : parts.filter (!·.isAlways) = parts := List.filter_eq_self.2 (by simpa using halways)
  rw [conj, hfilter]
  split
  · exact absurd rfl hne
  · simp [spaced]
  · rw [render, renderParts_of_plain hplain, String.toList_intercalate, List.map_map]
    have hsep : " ".toList = [' '] := rfl
    rw [hsep, cons_intercalate (by simpa using hne), List.flatMap_map]
    rfl

theorem parseAtoms_blank (cs : List Char) : parseAtoms (' ' :: cs) = parseAtoms cs := by
  have htrim : trimStart (' ' :: cs) = trimStart cs := rfl
  rw [parseAtoms_eq, htrim, ← parseAtoms_eq]

theorem Reads.parseAtoms {text : List Char} (h : Reads text atom) (hrest : Ends rest) :
    parseAtoms (text ++ rest) = (parseAtoms rest).map fun (atoms, after) => (atom :: atoms, after) := by
  have hread := h.read rest hrest
  obtain ⟨c, cs, rfl, hblank⟩ := h.solid
  have hcaret : c ≠ '^' := by simpa using h.caret
  rw [List.cons_append] at hread ⊢
  rw [parseAtoms_eq, trimStart_cons hblank]
  simp only [hcaret, ↓reduceIte, hread]

theorem isAlways_conj (h : ∀ c ∈ parts, c.isAlways = false) : (conj parts).isAlways = parts.isEmpty := by
  rw [conj, List.filter_eq_self.2 (by simpa using h)]
  cases parts with
  | nil => rfl
  | cons c more =>
      cases more with
      | nil => exact h c List.mem_cons_self
      | cons => rfl

theorem render_dependency {c : Condition} (halways : c.isAlways = false) (hversion : c.isVersion = false) :
    render (.dependency name c) = "^" ++ name ++ " " ++ c.render := by
  cases c with
  | always => cases halways
  | version => cases hversion
  | _ => simp only [render]

/-- What follows the name of a dependency: its atoms as elsewhere, but a lone version without a space. -/
theorem render_onDependency (name : String) (hatoms : ∀ a ∈ atoms, IsAtom a) (hplain : ∀ a ∈ atoms, a.isPlain) :
    ∃ tail, (onDependency name atoms).render.toList = '^' :: (name.toList ++ tail) ∧
      ∀ rest, Ends rest → (tail ++ rest).head?.all (!isNameChar ·) ∧
        parseAtoms (tail ++ rest) = parseAtoms (spaced atoms ++ rest) := by
  have halways : ∀ a ∈ atoms, a.isAlways = false := fun a ha => (hatoms a ha).isAlways
  by_cases hnil : atoms = []
  · subst hnil
    refine ⟨[], ?_, fun rest hrest => ⟨hrest.stops (by decide), rfl⟩⟩
    simp [onDependency, conj, render]
  have hspaced := toList_conj hnil halways hplain
  by_cases hversion : (conj atoms).isVersion
  · cases hconj : conj atoms with
    | version range =>
        -- no space is written here, and none is missed
        rw [hconj] at hspaced
        refine ⟨(render (.version range)).toList, ?_, fun rest _ => ⟨?_, ?_⟩⟩
        · simp [onDependency, hconj, render]
        · simp [render, isNameChar, isAlphanumeric]
        · rw [← hspaced, List.cons_append, parseAtoms_blank]
    | _ =>
        rw [hconj] at hversion
        cases hversion
  · refine ⟨spaced atoms, ?_, fun rest hrest => ⟨?_, rfl⟩⟩
    · have hconj : (conj atoms).isAlways = false := by
        rw [isAlways_conj halways]
        simpa using hnil
      rw [onDependency, render_dependency hconj (by simpa using hversion), ← hspaced]
      simp
    · rw [← hspaced]
      simp [isNameChar, isAlphanumeric]

theorem IsDependency.head (h : IsDependency atom) : atom.render.toList.head? = some '^' := by
  obtain @⟨name, atoms, -, -⟩ := h
  rw [onDependency]
  cases conj atoms with
  | _ => simp [render]

theorem spaced_append (parts more : List Condition) : spaced (parts ++ more) = spaced parts ++ spaced more := by
  rw [spaced, List.flatMap_append]
  rfl

theorem parseAtoms_spaced (hatoms : ∀ a ∈ atoms, IsAtom a) (hplain : ∀ a ∈ atoms, a.isPlain)
    (hfirst : ∀ d ∈ ds.head?, IsDependency d) :
    parseAtoms (spaced atoms ++ spaced ds) = .ok (atoms, (spaced ds).tail) := by
  induction atoms with
  | nil =>
      cases ds with
      | nil =>
          have hnil : spaced [] ++ spaced [] = [] := rfl
          rw [hnil, parseAtoms_eq]
          rfl
      | cons d ds =>
          obtain ⟨text, htext⟩ := List.head?_eq_some_iff.1 (hfirst d rfl).head
          have hcons : spaced (d :: ds) = ' ' :: '^' :: (text ++ spaced ds) := by
            rw [spaced, List.flatMap_cons, htext]
            rfl
          -- the first dependency ends the row of atoms
          rw [hcons, spaced, List.flatMap_nil, List.nil_append, parseAtoms_blank, parseAtoms_eq,
            trimStart_cons (by decide)]
          rfl
  | cons a more ih =>
      rw [List.forall_mem_cons] at hatoms hplain
      have hends : Ends (spaced more ++ spaced ds) := by
        rw [← spaced_append]
        exact spaced_ends
      have hcons : spaced (a :: more) ++ spaced ds = ' ' :: (a.render.toList ++ (spaced more ++ spaced ds)) := by
        simp [spaced]
      rw [hcons, parseAtoms_blank, (hatoms.1.reads hplain.1).parseAtoms hends, ih hatoms.2 hplain.2]
      rfl

/-- Atoms that are written behind a dependency are read as its atoms. -/
theorem parseDependencies_step {inner : List Condition} (hname : IsName name)
    (hatoms : ∀ a ∈ inner ++ atoms, IsAtom a) (hplain : ∀ a ∈ inner ++ atoms, a.isPlain)
    (hfirst : ∀ d ∈ ds.head?, IsDependency d) :
    parseDependencies (spaced (onDependency name inner :: (atoms ++ ds))).tail =
      (parseDependencies (spaced ds).tail).map (onDependency name (inner ++ atoms) :: ·) := by
  obtain ⟨tail, htext, htail⟩ := render_onDependency name (fun a ha => hatoms a (List.mem_append_left _ ha))
    fun a ha => hplain a (List.mem_append_left _ ha)
  obtain ⟨hstop, hread⟩ := htail (spaced (atoms ++ ds)) spaced_ends
  have hcons : (spaced (onDependency name inner :: (atoms ++ ds))).tail =
      '^' :: (name.toList ++ (tail ++ spaced (atoms ++ ds))) := by
    rw [spaced, List.flatMap_cons, htext, List.cons_append, List.tail_cons, List.cons_append, List.append_assoc]
    rfl
  -- the atoms of the dependency and those behind it are one row
  have hrow : spaced inner ++ spaced (atoms ++ ds) = spaced (inner ++ atoms) ++ spaced ds := by
    simp only [spaced_append, List.append_assoc]
  rw [hrow, parseAtoms_spaced hatoms hplain hfirst] at hread
  rw [hcons, parseDependencies_caret, nameAfter_run hname.nonempty hname.chars hstop]
  simp only [hread, String.ofList_toList]

theorem parseDependencies_cons {d : Condition} (hd : IsDependency d) (hplain : d.isPlain)
    (hfirst : ∀ d ∈ ds.head?, IsDependency d) :
    parseDependencies (spaced (d :: ds)).tail = (parseDependencies (spaced ds).tail).map (d :: ·) := by
  obtain @⟨name, atoms, hname, hatoms⟩ := hd
  rw [isPlain_onDependency, List.all_eq_true] at hplain
  have hstep : parseDependencies (spaced (onDependency name atoms :: ([] ++ ds))).tail =
      (parseDependencies (spaced ds).tail).map (onDependency name (atoms ++ []) :: ·) :=
    parseDependencies_step hname (by simpa using hatoms) (by simpa using hplain) hfirst
  rwa [List.append_nil, List.nil_append] at hstep

theorem parseDependencies_spaced (hds : ∀ d ∈ ds, IsDependency d) (hplain : ∀ d ∈ ds, d.isPlain) :
    parseDependencies (spaced ds).tail = .ok ds := by
  induction ds with
  | nil => exact parseDependencies_nil
  | cons d more ih =>
      rw [List.forall_mem_cons] at hds hplain
      rw [parseDependencies_cons hds.1 hplain.1 fun d hd => hds.2 d (List.mem_of_mem_head? hd), ih hds.2 hplain.2]
      rfl

theorem ownParts_spaced (hatoms : ∀ a ∈ atoms, IsAtom a) (hds : ∀ d ∈ ds, IsDependency d)
    (hplain : ∀ c ∈ atoms ++ ds, c.isPlain) {text : List Char} (htext : ' ' :: text = spaced (atoms ++ ds)) :
    ownParts text = .ok (atoms ++ ds) := by
  rw [List.forall_mem_append] at hplain
  have hread := parseAtoms_spaced hatoms hplain.1 fun d hd => hds d (List.mem_of_mem_head? hd)
  rw [← spaced_append, ← htext, parseAtoms_blank] at hread
  rw [ownParts, hread]
  simp only [parseDependencies_spaced hds hplain.2]
  rfl

theorem starts_part {part : Condition} (h : IsAtom part ∨ IsDependency part) (hplain : part.isPlain) :
    Starts part.render.toList := by
  rcases h with hatom | hd
  · exact (hatom.reads hplain).toStarts
  · obtain ⟨text, htext⟩ := List.head?_eq_some_iff.1 hd.head
    rw [htext]
    exact starts_sigil (by decide) (by decide) text

theorem starts_spaced (hparts : ∀ c ∈ parts, IsAtom c ∨ IsDependency c) (hplain : ∀ c ∈ parts, c.isPlain)
    {text : List Char} (htext : ' ' :: text = spaced parts) : Starts text := by
  cases parts with
  | nil => cases htext
  | cons first more =>
      have htext : text = first.render.toList ++ spaced more := List.tail_eq_of_cons_eq htext
      rw [htext]
      exact (starts_part (hparts first List.mem_cons_self) (hplain first List.mem_cons_self)).append _

theorem starts_conj (hne : parts ≠ []) (hparts : ∀ c ∈ parts, IsAtom c ∨ IsDependency c)
    (hplain : ∀ c ∈ parts, c.isPlain) (halways : ∀ c ∈ parts, c.isAlways = false) :
    Starts (conj parts).render.toList := starts_spaced hparts hplain (toList_conj hne halways hplain)

variable {package other s : String} {c : Condition}

/-- What is read, without a choice between ranges in it, is read as the same again from its written form, whatever
package the written form is for. -/
theorem parse_render (h : parse package s = .ok c) (hnot : c.isAlways = false) (hplain : c.isPlain) :
    parse other c.render = .ok c := by
  obtain ⟨atoms, ds, rfl, hatoms, hds⟩ := exists_of_parse h
  have halways : ∀ c ∈ atoms ++ ds, c.isAlways = false :=
    List.forall_mem_append.2 ⟨fun a ha => (hatoms a ha).isAlways, fun d hd => (hds d hd).isAlways⟩
  have hplain : ∀ c ∈ atoms ++ ds, c.isPlain := by
    rw [← List.all_eq_true, ← isPlain_conj]
    exact hplain
  have hne : atoms ++ ds ≠ [] := by
    rw [isAlways_conj halways] at hnot
    simpa using hnot
  have hparts : ∀ c ∈ atoms ++ ds, IsAtom c ∨ IsDependency c :=
    List.forall_mem_append.2 ⟨fun a ha => .inl (hatoms a ha), fun d hd => .inr (hds d hd)⟩
  have hstarts := starts_conj hne hparts hplain halways
  have hunnamed : leadingName? (conj (atoms ++ ds)).render.toList = none := by
    simpa using hstarts.unnamed []
  obtain ⟨first, text, htext, hblank⟩ := hstarts.solid
  rw [parse_eq htext hblank, parseParts_unnamed hunnamed,
    ownParts_spaced hatoms hds hplain (toList_conj hne halways hplain)]
  rfl

/-- Names with hyphens, a list of values, a list of ranges, and dependencies with atoms and without. -/
def solverText : String :=
  " solver@2.5: +cuda -open-mp arch=70, %gcc@:8,9 ^adios2@2.3 ^petsc-dev ^kokkos std=14,17 +cuda"

theorem parse_render_solver :
    ∃ c, parse "solver" solverText = .ok c ∧ c.isAlways = false ∧ c.isPlain ∧
      c.render = "@2.5: +cuda ~open-mp arch=70 %gcc@:8,9 ^adios2@2.3 ^petsc-dev ^kokkos std=14,17 +cuda" ∧
      parse "kokkos" c.render = .ok c := by
  have hwritten : (parse "solver" solverText).toOption.map (fun c => (c.isAlways, c.isPlain, c.render)) =
      some (false, true,
        "@2.5: +cuda ~open-mp arch=70 %gcc@:8,9 ^adios2@2.3 ^petsc-dev ^kokkos std=14,17 +cuda") := by
    decide +kernel
  cases hread : parse "solver" solverText with
  | error e =>
      rw [hread] at hwritten
      cases hwritten
  | ok c =>
      rw [hread] at hwritten
      obtain ⟨hnot, hplain, htext⟩ :
          c.isAlways = false ∧ c.isPlain = true ∧ c.render = _ := by
        simpa [Except.toOption] using hwritten
      exact ⟨c, rfl, hnot, hplain, htext, parse_render hread hnot hplain⟩

/-- A choice between ranges is written with a sign that is not read again. -/
example : ((parse "solver" "@1,2").bind fun c => parse "solver" c.render).toOption.isNone := by decide +kernel

end PackageRecipes.Condition
