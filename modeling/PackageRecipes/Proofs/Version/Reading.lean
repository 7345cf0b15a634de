import PackageRecipes.Proofs.Except
import PackageRecipes.Proofs.Text
import PackageRecipes.Version.Range

/-!
# Versions and ranges that are read

What is read as a version, a range or a list of ranges is legible: written out, it is read as the same again.
-/

namespace PackageRecipes

open Text

namespace Version

/-! ## Labels -/

/-- A version as it is read from a label. -/
structure Legible (v : Version) : Prop where
  chars : ∀ c ∈ v.label.toList, isLabelChar c
  segments : v.segments = segmentsOf v.label.toList
  nonempty : v.segments ≠ []

theorem isBlank_of_isLabelChar {c : Char} (h : isLabelChar c) : isBlank c = false := by
  simp only [isLabelChar, isSeparator, Bool.or_eq_true, decide_eq_true_eq] at h
  rcases h with h | (rfl | rfl) | rfl
  · exact isBlank_of_isAlphanumeric h
  all_goals decide

variable {v : Version} {s : String}

theorem Legible.solid (h : v.Legible) : ∀ c ∈ v.label.toList, isBlank c = false :=
  fun c hc => isBlank_of_isLabelChar (h.chars c hc)

theorem Legible.trim (h : v.Legible) : trim v.label.toList = v.label.toList := trim_eq_self h.solid

theorem Legible.label_ne (h : v.Legible) : v.label.toList ≠ [] := by
  intro hlabel
  have hsegments : v.segments = segmentsOf [] := by rw [h.segments, hlabel]
  exact h.nonempty hsegments

theorem legible_of_parse (h : parse s = .ok v) : v.Legible := by
  rw [parse] at h
  split at h
  · cases h
  split at h
  · cases h
  rename_i hchars
  split at h
  · cases h
  rename_i hsegments
  cases h
  constructor
  case chars =>
    rw [String.toList_ofList]
    simpa using hchars
  case segments => rw [String.toList_ofList]
  case nonempty => exact hsegments

theorem Legible.first (h : v.Legible) : v.label.toList.head?.any (!isBlank ·) := by
  obtain ⟨c, cs, hlabel⟩ := List.exists_cons_of_ne_nil h.label_ne
  simpa [hlabel] using h.solid c (by simp [hlabel])

theorem Legible.last (h : v.Legible) : v.label.toList.getLast?.any (!isBlank ·) := by
  rw [List.getLast?_eq_some_getLast h.label_ne]
  simpa using h.solid _ (List.getLast_mem h.label_ne)

theorem label_of_parse (h : parse s = .ok v) : v.label.toList = Text.trim s.toList := by
  rw [parse] at h
  split at h
  · cases h
  split at h
  · cases h
  split at h
  · cases h
  · cases h
    rw [String.toList_ofList]

/-- A legible version is read from its label, with or without white space around it. -/
theorem Legible.parse_of_trim (h : v.Legible) (hlabel : v.label.toList = Text.trim s.toList) : parse s = .ok v := by
  have hchars : v.label.toList.find? (!isLabelChar ·) = none := by simpa using h.chars
  have hempty : v.label.toList.isEmpty = false := by simpa using h.label_ne
  rw [parse, ← hlabel]
  simp only [hempty, hchars, Bool.false_eq_true, ↓reduceIte, ← h.segments]
  split
  · exact absurd ‹_› h.nonempty
  · rw [String.ofList_toList]

theorem Legible.parse (h : v.Legible) : parse v.label = .ok v := h.parse_of_trim h.trim.symm

end Version

namespace VersionRange

/-! ## Ranges -/

/-- A range as it is read: its bounds are legible and do not cross. -/
inductive Legible : VersionRange → Prop where
  | exact {v : Version} (h : v.Legible) : Legible (.exact v)
  | between {lower upper : Option Version} (hlower : ∀ v ∈ lower, v.Legible)
      (hupper : ∀ v ∈ upper, v.Legible)
      (hbounds : ∀ l ∈ lower, ∀ h ∈ upper, l.compare h = .gt → h.isPrefixOf l) :
      Legible (.between lower upper)

variable {cs : List Char} {bound : Option Version} {s : String} {r : VersionRange}

theorem legible_of_parseBound (h : parseBound cs = .ok bound) : ∀ v ∈ bound, v.Legible := by
  rw [parseBound] at h
  split at h
  · cases h
    simp
  · obtain ⟨v, hv, rfl⟩ := exceptMap_ok.1 h
    simpa using Version.legible_of_parse hv

theorem parseBound_label (h : ∀ v ∈ bound, v.Legible) :
    parseBound (bound.elim "" Version.label).toList = .ok bound := by
  cases bound with
  | none => rfl
  | some v =>
      have hv : v.Legible := h v rfl
      have hempty : v.label.toList.isEmpty = false := by simpa using hv.label_ne
      rw [Option.elim_some, parseBound, hv.trim]
      simp only [hempty, Bool.false_eq_true, ↓reduceIte, String.ofList_toList, hv.parse]
      rfl

theorem legible_of_parse (h : parse s = .ok r) : r.Legible := by
  rw [parse] at h
  split at h
  · obtain ⟨v, hv, heq⟩ := exceptBind_ok.1 h
    cases heq
    exact .exact (Version.legible_of_parse hv)
  · obtain ⟨lower, hlower, h⟩ := exceptBind_ok.1 h
    obtain ⟨upper, hupper, h⟩ := exceptBind_ok.1 h
    have hl := legible_of_parseBound hlower
    have hu := legible_of_parseBound hupper
    cases lower with
    | none =>
        cases h
        exact .between hl hu (by simp)
    | some l =>
        cases upper with
        | none =>
            cases h
            exact .between hl hu (by simp)
        | some u =>
            simp only at h
            split at h
            · cases h
            · rename_i hcross
              cases h
              refine .between hl hu ?_
              simpa using hcross

theorem toList_render_between {lower upper : Option Version} :
    (VersionRange.between lower upper).render.toList =
      (lower.elim "" Version.label).toList ++ ':' :: (upper.elim "" Version.label).toList := by
  simp [render]

theorem label_chars (h : ∀ v ∈ bound, v.Legible) :
    ∀ c ∈ (bound.elim "" Version.label).toList, Version.isLabelChar c := by
  cases bound with
  | none => simp
  | some v => exact (h v rfl).chars

theorem Legible.chars (h : r.Legible) : ∀ c ∈ r.render.toList, Version.isLabelChar c ∨ c = ':' := by
  cases h with
  | exact h => exact fun c hc => .inl (h.chars c hc)
  | between hlower hupper hbounds =>
      intro c hc
      rw [toList_render_between, List.mem_append, List.mem_cons] at hc
      rcases hc with hc | rfl | hc
      · exact .inl (label_chars hlower c hc)
      · exact .inr rfl
      · exact .inl (label_chars hupper c hc)

theorem Legible.render_ne (h : r.Legible) : r.render.toList ≠ [] := by
  cases h with
  | exact h => exact h.label_ne
  | between hlower hupper hbounds =>
      rw [toList_render_between]
      exact List.append_ne_nil_of_right_ne_nil _ (List.cons_ne_nil _ _)

theorem Legible.isEntry (h : r.Legible) : IsEntry ',' r.render.toList where
  nonempty := h.render_ne
  solid := by
    intro c hc
    rcases h.chars c hc with hlabel | rfl
    · refine ⟨Version.isBlank_of_isLabelChar hlabel, ?_⟩
      rintro rfl
      exact absurd hlabel (by decide)
    · decide

theorem Legible.parse (h : r.Legible) : parse r.render = .ok r := by
  have htrim : trim r.render.toList = r.render.toList := trim_eq_self fun c hc => (h.isEntry.solid c hc).1
  have hcolon : ¬ Version.isLabelChar ':' := by decide
  rw [VersionRange.parse, htrim]
  cases h with
  | exact h =>
      have hcut : cutAt ':' (VersionRange.exact _).render.toList = none :=
        cutAt_of_not_mem fun hmem => hcolon (h.chars _ hmem)
      simp only [hcut, String.ofList_toList]
      rw [render, h.parse]
      rfl
  | @between lower upper hlower hupper hbounds =>
      have hcut : cutAt ':' (VersionRange.between lower upper).render.toList =
          some ((lower.elim "" Version.label).toList, (upper.elim "" Version.label).toList) := by
        rw [toList_render_between]
        exact cutAt_append (fun hmem => hcolon (label_chars hlower _ hmem)) _
      simp only [hcut]
      rw [parseBound_label hlower, parseBound_label hupper]
      cases lower with
      | none => rfl
      | some l =>
          cases upper with
          | none => rfl
          | some u =>
              have hnot : ¬ (l.compare u = .gt && !u.isPrefixOf l) := by
                simpa using hbounds l rfl u rfl
              exact if_neg hnot

/-! ## Lists of ranges -/

theorem parseList_eq (s : String) :
    parseList s = (entries ',' s.toList).mapM fun p => parse (String.ofList p) := rfl

theorem legible_of_parseList {ranges : List VersionRange} (h : parseList s = .ok ranges) :
    ∀ r ∈ ranges, r.Legible := by
  intro r hr
  obtain ⟨p, -, hp⟩ := exists_of_mem_mapM h r hr
  exact legible_of_parse hp

/-- Ranges that are written with commas between them are read as the same again. -/
theorem parseList_intercalate {ranges : List VersionRange} (h : ∀ r ∈ ranges, r.Legible) :
    parseList (",".intercalate (ranges.map render)) = .ok ranges := by
  have hentries : entries ',' (",".intercalate (ranges.map render)).toList =
      ranges.map fun r => r.render.toList := by
    rw [String.toList_intercalate, List.map_map]
    refine entries_intercalate fun t ht => ?_
    obtain ⟨r, hr, rfl⟩ := List.mem_map.1 ht
    exact (h r hr).isEntry
  rw [parseList_eq, hentries, mapM_ok, List.forall₂_map_left_iff, List.forall₂_same]
  intro r hr
  rw [String.ofList_toList]
  exact (h r hr).parse

end VersionRange

end PackageRecipes
