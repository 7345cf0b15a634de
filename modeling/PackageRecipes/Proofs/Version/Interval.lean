import PackageRecipes.Proofs.Version.Order
import PackageRecipes.Proofs.Version.Reading

/-!
# Ranges as intervals

What lies between two versions with a common beginning begins in the same way. So a range has no gaps, although its
upper bound counts with all that it prefixes, and bounds are refused exactly if nothing lies between them.
-/

namespace PackageRecipes

open Std Text

namespace Version

/-! ## Between two versions with a common beginning -/

theorem isPrefix_of_between {xs as bs cs : List Segment}
    (hab : (List.compareLex Segment.compare (xs ++ as) bs).isLE)
    (hbc : (List.compareLex Segment.compare bs (xs ++ cs)).isLE) : xs <+: bs := by
  induction xs generalizing bs with
  | nil => exact List.nil_prefix
  | cons x xs ih =>
      cases bs with
      | nil => cases hab
      | cons b bs =>
          rw [List.cons_append, List.compareLex_cons_cons] at hab hbc
          have hxb : (x.compare b).isLE := Ordering.isLE_left_of_isLE_then hab
          have hbx : (b.compare x).isLE := Ordering.isLE_left_of_isLE_then hbc
          obtain rfl : x = b := Segment.eq_of_compare (OrientedCmp.isLE_antisymm hxb hbx)
          have hself : x.compare x = .eq := ReflCmp.compare_self
          rw [hself, Ordering.eq_then] at hab hbc
          exact (List.prefix_cons_inj x).2 (ih hab hbc)

variable {u v w x : Version}

theorem isPrefixOf_of_between (hvu : v.isPrefixOf u) (hvx : v.isPrefixOf x) (huw : (u.compare w).isLE)
    (hwx : (w.compare x).isLE) : v.isPrefixOf w := by
  obtain ⟨as, has⟩ := List.isPrefixOf_iff_prefix.1 hvu
  obtain ⟨cs, hcs⟩ := List.isPrefixOf_iff_prefix.1 hvx
  rw [compare, ← has] at huw
  rw [compare, ← hcs] at hwx
  exact List.isPrefixOf_iff_prefix.2 (isPrefix_of_between huw hwx)

theorem isLE_total (v w : Version) : (v.compare w).isLE ∨ (w.compare v).isLE := by
  have hswap : w.compare v = (v.compare w).swap := OrientedCmp.eq_swap
  rw [hswap]
  cases v.compare w <;> simp

theorem isPrefixOf_self (v : Version) : v.isPrefixOf v := List.isPrefixOf_iff_prefix.2 (List.prefix_refl _)

theorem isPrefixOf_of_same (h : v.same w) : v.isPrefixOf w := by
  have hsegments : v.segments = w.segments := beq_iff_eq.1 h
  rw [isPrefixOf, hsegments]
  exact isPrefixOf_self w

end Version

namespace VersionRange

open Version

variable {lower upper : Option Version} {l h u v w : Version}

/-! ## Ranges without gaps -/

/-- A version lies between two bounds, or begins with the upper one. -/
theorem contains_between :
    (between lower upper).contains w ↔
      (∀ l ∈ lower, (l.compare w).isLE) ∧ ∀ h ∈ upper, (w.compare h).isLE ∨ h.isPrefixOf w := by
  have hlower (l : Version) : (w.compare l != .lt) = (l.compare w).isLE := by
    have hswap : l.compare w = (w.compare l).swap := OrientedCmp.eq_swap
    rw [hswap]
    cases w.compare l <;> rfl
  have hupper (h : Version) : (w.compare h != .gt) = (w.compare h).isLE := by
    cases w.compare h <;> rfl
  cases lower <;> cases upper <;> simp [contains, hlower, hupper]

theorem contains_of_between {r : VersionRange} (huv : (u.compare v).isLE) (hvw : (v.compare w).isLE)
    (hu : r.contains u) (hw : r.contains w) : r.contains v := by
  cases r with
  | exact x => exact isPrefixOf_of_between hu hw huv hvw
  | between lower upper =>
      rw [contains_between] at hu hw ⊢
      constructor
      · exact fun l hl => TransCmp.isLE_trans (hu.1 l hl) huv
      · intro h hh
        rcases hw.2 h hh with hwh | hprefix
        · exact .inl (TransCmp.isLE_trans hvw hwh)
        · rcases isLE_total v h with hvh | hhv
          · exact .inl hvh
          -- above the bound, and no higher than something that begins with it
          · exact .inr (isPrefixOf_of_between (isPrefixOf_self h) hprefix hhv hvw)

/-- The interval from a version to itself has just what the version prefixes. -/
theorem contains_exact (v w : Version) : (exact v).contains w = (between (some v) (some v)).contains w := by
  rw [Bool.eq_iff_iff, contains_between]
  constructor
  · intro hprefix
    refine ⟨?_, ?_⟩
    · rintro _ ⟨⟩
      exact isLE_of_isPrefixOf hprefix
    · rintro _ ⟨⟩
      exact .inr hprefix
  · rintro ⟨hlower, hupper⟩
    rcases hupper v rfl with hwv | hprefix
    · exact isPrefixOf_of_same (same_of_isLE (hlower v rfl) hwv)
    · exact hprefix

/-- A range has every version between two of its versions, and a version is the same range as the interval from it to
itself. -/
theorem contains_interval (r : VersionRange) (v : Version) :
    (∀ a b c, (a.compare b).isLE → (b.compare c).isLE → r.contains a → r.contains c → r.contains b) ∧
      ∀ w, (exact v).contains w = (between (some v) (some v)).contains w :=
  ⟨fun _ _ _ => contains_of_between, contains_exact v⟩

def release (label : String) (numbers : List Nat) : Version := ⟨label, numbers.map .number⟩

/-- The patches of `3.7`; the last of them count although they are above the upper bound. -/
def patches : VersionRange := between (some (release "3.7.0" [3, 7, 0])) (some (release "3.7.99" [3, 7, 99]))

theorem interval_patches :
    ((release "3.7.5" [3, 7, 5]).compare (release "3.7.99.2" [3, 7, 99, 2])).isLE ∧
      ((release "3.7.99.2" [3, 7, 99, 2]).compare (release "3.7.99.4" [3, 7, 99, 4])).isLE ∧
      patches.contains (release "3.7.5" [3, 7, 5]) ∧ patches.contains (release "3.7.99.4" [3, 7, 99, 4]) ∧
      patches.contains (release "3.7.99.2" [3, 7, 99, 2]) := by
  have hab : ((release "3.7.5" [3, 7, 5]).compare (release "3.7.99.2" [3, 7, 99, 2])).isLE := by decide
  have hbc : ((release "3.7.99.2" [3, 7, 99, 2]).compare (release "3.7.99.4" [3, 7, 99, 4])).isLE := by decide
  have ha : patches.contains (release "3.7.5" [3, 7, 5]) := by decide
  have hc : patches.contains (release "3.7.99.4" [3, 7, 99, 4]) := by decide
  exact ⟨hab, hbc, ha, hc, (contains_interval patches (release "3.7" [3, 7])).1 _ _ _ hab hbc ha hc⟩

/-! ## Bounds that cross -/

theorem exists_contains_iff :
    (∃ v, (between (some l) (some h)).contains v) ↔ (between (some l) (some h)).contains l := by
  refine ⟨?_, fun hl => ⟨l, hl⟩⟩
  rintro ⟨v, hv⟩
  rw [contains_between] at hv ⊢
  obtain ⟨hlower, hupper⟩ := hv
  have hlv : (l.compare v).isLE := hlower l rfl
  refine ⟨?_, ?_⟩
  · rintro _ ⟨⟩
    exact isLE_of_isPrefixOf (isPrefixOf_self l)
  · rintro _ ⟨⟩
    rcases hupper h rfl with hvh | hprefix
    · exact .inl (TransCmp.isLE_trans hlv hvh)
    · rcases isLE_total l h with hlh | hhl
      · exact .inl hlh
      -- the lower bound is above the upper one, and no higher than something that begins with it
      · exact .inr (isPrefixOf_of_between (isPrefixOf_self h) hprefix hhl hlv)

theorem parseBound_blanks (hv : v.Legible) {before after : List Char} (hbefore : ∀ c ∈ before, isBlank c)
    (hafter : ∀ c ∈ after, isBlank c) :
    parseBound (before ++ (v.label.toList ++ after)) = .ok (some v) := by
  have htrim : trim (before ++ (v.label.toList ++ after)) = v.label.toList :=
    trim_blanks hbefore hafter hv.first hv.last
  have hempty : v.label.toList.isEmpty = false := by simpa using hv.label_ne
  rw [parseBound, htrim]
  simp only [hempty, Bool.false_eq_true, ↓reduceIte, String.ofList_toList, hv.parse]
  rfl

variable {lo hi : String}

/-- Two versions with a colon between them are read as bounds, unless they cross. -/
theorem parse_bounds (hlo : Version.parse lo = .ok l) (hhi : Version.parse hi = .ok h) :
    parse (lo ++ ":" ++ hi) =
      if l.compare h = .gt && !h.isPrefixOf l then
        .error ⟨trimmed (lo ++ ":" ++ hi), .crossedBounds l h⟩
      else .ok (.between (some l) (some h)) := by
  have hl := Version.legible_of_parse hlo
  have hh := Version.legible_of_parse hhi
  obtain ⟨start, inner, hlotext, hstart, hinner⟩ := exists_blanks lo.toList
  obtain ⟨inner', finish, hhitext, hinner', hfinish⟩ := exists_blanks hi.toList
  rw [← label_of_parse hlo] at hlotext
  rw [← label_of_parse hhi] at hhitext
  have htext : (lo ++ ":" ++ hi).toList =
      start ++ (((l.label.toList ++ inner) ++ ':' :: (inner' ++ h.label.toList)) ++ finish) := by
    rw [String.toList_append, String.toList_append, hlotext, hhitext]
    simp
  have htrim : trim (lo ++ ":" ++ hi).toList =
      (l.label.toList ++ inner) ++ ':' :: (inner' ++ h.label.toList) := by
    rw [htext]
    refine trim_blanks hstart hfinish ?_ ?_
    · rw [List.append_assoc, List.head?_append_of_ne_nil _ hl.label_ne]
      exact hl.first
    · have hassoc : (l.label.toList ++ inner) ++ ':' :: (inner' ++ h.label.toList) =
          ((l.label.toList ++ inner) ++ ':' :: inner') ++ h.label.toList := by simp
      rw [hassoc, List.getLast?_append_of_ne_nil _ hh.label_ne]
      exact hh.last
  have hcolon : ':' ∉ l.label.toList ++ inner := by
    rw [List.mem_append]
    rintro (hmem | hmem)
    · exact absurd (hl.chars _ hmem) (by decide)
    · exact absurd (hinner _ hmem) (by decide)
  have hlower : parseBound (l.label.toList ++ inner) = .ok (some l) :=
    parseBound_blanks hl (List.forall_mem_nil _) hinner
  have hupper : parseBound (inner' ++ h.label.toList) = .ok (some h) := by
    simpa using parseBound_blanks hh hinner' (List.forall_mem_nil _)
  rw [parse, trimmed, htrim]
  simp only [cutAt_append hcolon, hlower, hupper]
  rfl

/-- Two versions are refused as bounds exactly if no version lies between them. What they are accepted as has their
own lower bound in it, which is a version that can be written. -/
theorem parse_bounds_iff (hlo : Version.parse lo = .ok l) (hhi : Version.parse hi = .ok h) :
    ((∃ r, parse (lo ++ ":" ++ hi) = .ok r) ↔ ∃ v, (between (some l) (some h)).contains v) ∧
      ∀ r, parse (lo ++ ":" ++ hi) = .ok r → r = .between (some l) (some h) ∧ r.contains l := by
  have hcross : (between (some l) (some h)).contains l ↔ ¬ (l.compare h = .gt && !h.isPrefixOf l) := by
    have hself : l.compare l = .eq := ReflCmp.compare_self
    simp [contains, hself, Decidable.imp_iff_not_or]
  rw [exists_contains_iff, hcross, parse_bounds hlo hhi]
  split
  · rename_i hcrossed
    simp [hcrossed]
  · rename_i hordered
    refine ⟨⟨fun _ => hordered, fun _ => ⟨_, rfl⟩⟩, ?_⟩
    rintro _ ⟨⟩
    exact ⟨rfl, hcross.2 hordered⟩

/-- Bounds that look crossed: the lower one is above the upper one, but begins with it. -/
theorem parse_bounds_patch :
    Version.parse " 3.7.1 " = .ok (release "3.7.1" [3, 7, 1]) ∧ Version.parse " 3.7" = .ok (release "3.7" [3, 7]) ∧
      (release "3.7.1" [3, 7, 1]).compare (release "3.7" [3, 7]) = .gt ∧
      ∃ r, parse (" 3.7.1 " ++ ":" ++ " 3.7") = .ok r ∧ r.contains (release "3.7.1" [3, 7, 1]) := by
  have hlo : Version.parse " 3.7.1 " = .ok (release "3.7.1" [3, 7, 1]) := by decide +kernel
  have hhi : Version.parse " 3.7" = .ok (release "3.7" [3, 7]) := by decide +kernel
  obtain ⟨hiff, hread⟩ := parse_bounds_iff hlo hhi
  obtain ⟨r, hr⟩ := hiff.2 ⟨release "3.7.1" [3, 7, 1], by decide⟩
  exact ⟨hlo, hhi, by decide, r, hr, (hread r hr).2⟩

/-- Bounds that cross. -/
example : (parse "3.0:2.0").toOption = none := by decide +kernel

end VersionRange

end PackageRecipes
